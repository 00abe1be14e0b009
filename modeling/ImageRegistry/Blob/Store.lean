import ImageRegistry.Blob.Range
import ImageRegistry.Collection.Ordered

/-!
# The blob store

Blobs are kept by their digest, with the set of digests that each repository has committed. An
upload belongs to the repository that began it, and holds the bytes that have come in. This module
has the data, what can be looked up in it, what is checked before it changes, and the changes
themselves; what a client can ask for is put together from these in `ImageRegistry.Blob.Step`.

Two changes are complete as they are, because nothing can refuse them: to remove the layers of a
repository, and to sweep away the uploads to which nothing was written for too long.
-/

namespace ImageRegistry.Blob

/-- An upload that is not finished. -/
structure Session where
  repository : String
  buffer : ByteArray
  /-- The time of the last write. -/
  touched : Nat
  deriving DecidableEq

/-- Blobs by digest, uploads by identifier, and the digests of each repository in increasing
order. -/
structure Store where
  content : Table String ByteArray
  sessions : Table String Session
  layers : Table String (List String)
  deriving DecidableEq

namespace Store

/-- The store with nothing in it. -/
def empty : Store := ⟨∅, ∅, ∅⟩

instance : EmptyCollection Store := ⟨empty⟩

/-! ### Looking -/

/-- The blob of a digest. -/
def get? (s : Store) (digest : String) : Option ByteArray := s.content.get? digest

/-- The digests of a repository, in increasing order. -/
def layersOf (s : Store) (repository : String) : List String :=
  (s.layers.get? repository).getD []

/-- The upload of an identifier, if it belongs to the repository. -/
def session (s : Store) (repository id : String) : Except RegistryError Session :=
  match s.sessions.get? id with
  | some session =>
    if session.repository = repository then .ok session else .error (.uploadUnknown id)
  | none => .error (.uploadUnknown id)

/-- How many bytes of an upload are there. -/
def status (s : Store) (repository id : String) : Except RegistryError Nat :=
  (s.session repository id).map fun session ↦ session.buffer.size

/-- What is there of an upload; nothing if it was not begun. -/
def buffered (s : Store) (repository id : String) : Except RegistryError ByteArray :=
  if s.sessions.contains id then (s.session repository id).map Session.buffer
  else .ok ByteArray.empty

/-! ### Checking -/

/-- The digest that was computed, if it is the expected one. -/
def verify (expected actual : String) : Except RegistryError String :=
  if actual = expected then .ok actual else .error (.digestMismatch expected actual)

/-- Whether a text has the shape of a digest. -/
def validate (digest : String) : Except RegistryError Unit :=
  if Digest.isDigest digest then .ok () else .error (.invalidDigest digest)

/-- A range must have the length of the part that it comes with. Lengths are counted in 64 bits, and
the count starts again from zero, so the greatest range has the length of an empty part. -/
def checkLength (id : String) (range : Range) (chunk : ByteArray) : Except RegistryError Unit :=
  if range.1 ≤ range.2 ∧
      (range.2 - range.1 + 1 = chunk.size ∨ range = greatest ∧ chunk.size = 0) then .ok ()
  else .error (.uploadInvalid (.rangeMismatch id range.1 range.2 chunk.size))

/-- A range must start where the upload ends, and have the length of its part. -/
def checkRange (id : String) (length : Nat) (range : Range) (chunk : ByteArray) :
    Except RegistryError Unit :=
  if range.1 ≠ length then .error (.rangeNotSatisfiable length range.1)
  else checkLength id range chunk

/-! ### Changing -/

/-- The store with a blob under its digest, as a layer of the repository. -/
def own (s : Store) (repository digest : String) (data : ByteArray) : Store :=
  { s with
    content := s.content.insert digest data
    layers := s.layers.insert repository (Ordered.insert id digest (s.layersOf repository)) }

/-- The store with something else as the upload of an identifier. -/
def putSession (s : Store) (id : String) (session : Session) : Store :=
  { s with sessions := s.sessions.insert id session }

/-- The store without an upload. -/
def dropSession (s : Store) (id : String) : Store := { s with sessions := s.sessions.erase id }

/-! ### Removing -/

/-- Whether some repository has a digest among its layers. -/
def isOwned (layers : Table String (List String)) (digest : String) : Bool :=
  layers.values.any fun digests ↦ digests.contains digest

/-- Drops the blob of a digest unless some repository has it, and counts it. -/
def dropOrphan (layers : Table String (List String)) (state : Nat × Table String ByteArray)
    (digest : String) : Nat × Table String ByteArray :=
  if !isOwned layers digest && state.2.contains digest then
    (state.1 + 1, state.2.erase digest)
  else state

/-- Forgets the layers of a repository, and drops those blobs among them that no other repository
has, one after the other: how many they are, and the store without them. -/
def remove (s : Store) (repository : String) : Nat × Store :=
  match s.layers.get? repository with
  | none => (0, s)
  | some digests =>
    let layers := s.layers.erase repository
    let (removed, content) := digests.foldl (dropOrphan layers) (0, s.content)
    (removed, { s with content := content, layers := layers })

/-- Whether something was written to an upload less than `maxIdle` ago. -/
def isFresh (now maxIdle : Nat) (session : Session) : Bool := now - session.touched < maxIdle

/-- Drops the uploads to which nothing was written for `maxIdle`: how many they are, and the store
without them. -/
def sweep (s : Store) (now maxIdle : Nat) : Nat × Store :=
  let sessions := s.sessions.filter fun _ session ↦ isFresh now maxIdle session
  (s.sessions.size - sessions.size, { s with sessions := sessions })

end Store

end ImageRegistry.Blob
