import ImageRegistry.Blob.Store
import ImageRegistry.Step

/-!
# Steps on the blob store

What a client asks of a store can be refused: to commit a whole blob, to append a part to an upload,
to finalize it, to tell how much of it is there, and to give it up. Each of these is a `Step`, in
which all that can be refused comes before anything is changed.
-/

namespace ImageRegistry.Blob

/-! ### Whole blobs -/

/-- Stores a whole blob: its digest. -/
def commit (repository expected : String) (data : ByteArray) : Step Store RegistryError String := do
  Step.ofExcept (Store.validate expected)
  let digest ← Step.ofExcept (Store.verify expected (Digest.ofContent data))
  modify fun s ↦ s.own repository digest data
  return digest

/-! ### Uploads -/

/-- Begins an upload with its first part. -/
def start (now : Nat) (repository id : String) (range : Option Range) (chunk : ByteArray) :
    Step Store RegistryError Nat := do
  if let some range := range then Step.ofExcept (Store.checkRange id 0 range chunk)
  modify fun s ↦ s.putSession id ⟨repository, chunk, now⟩
  return chunk.size

/-- Goes on with an upload that has begun. The part must have a range. -/
def extend (now : Nat) (repository id : String) (range : Option Range) (chunk : ByteArray) :
    Step Store RegistryError Nat := do
  let session ← Step.ofExcept ((← get).session repository id)
  match range with
  | none => throw (.uploadInvalid (.rangeRequired id))
  | some range => Step.ofExcept (Store.checkRange id session.buffer.size range chunk)
  let buffer := session.buffer ++ chunk
  modify fun s ↦ s.putSession id ⟨repository, buffer, now⟩
  return buffer.size

/-- Appends a part to an upload, or begins one: the bytes that are there. -/
def append (now : Nat) (repository id : String) (range : Option Range) (chunk : ByteArray) :
    Step Store RegistryError Nat := do
  if (← get).sessions.contains id then extend now repository id range chunk
  else start now repository id range chunk

/-- Ends an upload with its last part: the digest of the blob. What is there and the last part are
hashed one after the other. -/
def finalize (repository id expected : String) (trailing : ByteArray) :
    Step Store RegistryError String := do
  Step.ofExcept (Store.validate expected)
  let buffered ← Step.ofExcept ((← get).buffered repository id)
  let digest ← Step.ofExcept (Store.verify expected (Digest.ofChunks [buffered, trailing]))
  modify fun s ↦ s.dropSession id
  modify fun s ↦ s.own repository digest (buffered ++ trailing)
  return digest

/-- Tells how many bytes of an upload are there. -/
def status (repository id : String) : Step Store RegistryError Nat := do
  Step.ofExcept ((← get).status repository id)

/-- Gives an upload up. -/
def cancel (repository id : String) : Step Store RegistryError Unit := do
  let _ ← Step.ofExcept ((← get).session repository id)
  modify fun s ↦ s.dropSession id

namespace Store

/-! ### Results -/

/-- Stores a whole blob: its digest, and the store with it. -/
def commit (s : Store) (repository expected : String) (data : ByteArray) :
    Except RegistryError (String × Store) :=
  (Blob.commit repository expected data).result s

/-- Appends a part to an upload, or begins one: the bytes that are there, and the store with
them. -/
def append (s : Store) (now : Nat) (repository id : String) (range : Option Range)
    (chunk : ByteArray) : Except RegistryError (Nat × Store) :=
  (Blob.append now repository id range chunk).result s

/-- Ends an upload with its last part: the digest of the blob, and the store with it. -/
def finalize (s : Store) (repository id expected : String) (trailing : ByteArray) :
    Except RegistryError (String × Store) :=
  (Blob.finalize repository id expected trailing).result s

/-- Gives an upload up. -/
def cancel (s : Store) (repository id : String) : Except RegistryError Store :=
  ((Blob.cancel repository id).result s).map Prod.snd

end Store

end ImageRegistry.Blob
