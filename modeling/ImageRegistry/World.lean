import ImageRegistry.Files.Tree
import ImageRegistry.Storage.Basic

/-!
# What a registry works with

Beside its own state a registry works with files, with the service behind its gateway and with
storage backends; it reads a clock, and it draws identifiers for uploads that no one can foresee.
All of that is a `World`, of which the parts that are not in use stay as they are.
-/

namespace ImageRegistry

/-- What a registry works with. -/
structure World where
  files : Files.Tree
  /-- The service behind the gateway. -/
  gateway : Remote.Service
  storages : List Storage
  /-- The time, in nanoseconds. -/
  clock : Nat
  /-- The identifiers for uploads, in the order in which they are drawn. -/
  uploadIds : Nat → String
  /-- How many identifiers were drawn. -/
  drawn : Nat := 0

namespace World

variable {ε α : Type}

/-- The storage of a number; where there is none, nothing is stored. -/
def storage (w : World) (index : Nat) : Storage := w.storages.getD index (.memory ∅)

/-- The world with a storage in the place of the one of that number. -/
def setStorage (w : World) (index : Nat) (storage : Storage) : World :=
  { w with storages := w.storages.set index storage }

/-- An action on the storage of a number. -/
def onStorage (index : Nat) (act : Action Storage ε α) : Action World ε α :=
  act.within (fun w ↦ w.storage index) fun storage w ↦ w.setStorage index storage

/-- An action on the service behind the gateway. -/
def onGateway (act : Action Remote.Service ε α) : Action World ε α :=
  act.within World.gateway fun service w ↦ { w with gateway := service }

/-- Draws an identifier for an upload. -/
def drawUploadId : Action World ε String := .changing fun w ↦
  (w.uploadIds w.drawn, { w with drawn := w.drawn + 1 })

end World

end ImageRegistry
