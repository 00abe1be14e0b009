import ImageRegistry.Json.Reader
import ImageRegistry.Storage.Basic
import ImageRegistry.Text.Duration

/-!
# Settings of a storage

Which storage a registry uses: one in memory, with nothing in it, or the one behind the interface of
a node. The kind of storage is named in the settings; they may be read as JSON by themselves.
-/

namespace ImageRegistry

/-- Which storage is used. -/
inductive StorageSettings where
  | memory
  /-- The address of the interface, and the seconds in which it must answer. -/
  | http (api : String) (timeout : Option Nat)
  deriving DecidableEq, Repr

namespace StorageSettings

/-- The settings of a kind that a record without the kind holds. -/
def ofKind? (kind : String) (record : Json.Value) : Option StorageSettings :=
  if kind = "memory" then (record.fields? []).map fun _ ↦ memory
  else if kind = "http" then do
    match ← record.fields? ["api", "timeout"] with
    | [api, timeout] =>
      return http (← Json.Value.required Json.Value.text? api)
        (← Json.Value.optional (Json.Value.unsigned? Text.wordBound) timeout)
    | _ => none
  else none

/-- The settings that a value holds. -/
def ofValue? (value : Json.Value) : Option StorageSettings := do
  let (kind, record) ← value.tagged? "kind"
  ofKind? kind record

/-- The depth to which a document may be nested. -/
abbrev maxDepth : Nat := 127

/-- The settings that a JSON document holds. All of the document must be a value that can be
held. -/
def ofJson? (document : ByteArray) : Option StorageSettings := do
  let value ← Json.read? document
  if value.holdable maxDepth then ofValue? value else none

/-- The time in which a node must answer when none is set. -/
def defaultTimeout : Nat := 30 * Text.second

/-- The storage of some settings. The services behind addresses are given. -/
def build (settings : StorageSettings) (reach : Uri → Remote.Service) :
    Except Storage.Error Storage :=
  match settings with
  | memory => .ok (.memory ∅)
  | http api timeout =>
    match Uri.parse? api with
    | some uri =>
      .ok (.node ⟨uri, (timeout.map (· * Text.second)).getD defaultTimeout, reach uri⟩)
    | none => .error (Storage.Node.failure .invalidRequest .malformedUri none)

end StorageSettings

end ImageRegistry
