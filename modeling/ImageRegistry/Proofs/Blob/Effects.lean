import ImageRegistry.Blob.Step
import ImageRegistry.Proofs.Collection.Table
import ImageRegistry.Proofs.Step

/-!
# What each step on blobs does

One statement for each step: when it succeeds, what it answers, and what it makes of the store.
`append_eq_ok_iff` has two cases, because a part begins an upload that is not there and goes on with
one that is. Each statement says all there is to say of a success, so that no later proof has to
open the step again.

Of a failure there is one thing to say, and it is the same for every step: it changes nothing
(`Step.Atomic`). That is read off the order of the step, check by check.
-/

namespace ImageRegistry

namespace Blob

/-- The range lies where a part goes of which so many bytes come before: it begins where they end,
and ends with the part. No range lies over a part without bytes. -/
structure Covers (range : Range) (offset : Nat) (chunk : ByteArray) : Prop where
  start : range.1 = offset
  ordered : range.1 ≤ range.2
  last : range.2 + 1 = offset + chunk.size

/-- The range of a part that is not empty. -/
theorem covers_span (offset : Nat) {chunk : ByteArray} (h : 0 < chunk.size) :
    Covers (offset, offset + chunk.size - 1) offset chunk :=
  ⟨rfl, by simp only; omega, by simp only; omega⟩

/-- What is asked of the range of a part of which so many bytes come before: it lies over the part.
By the way in which lengths are counted, the greatest range is taken for an empty part as well. -/
def Fits (range : Range) (offset : Nat) (chunk : ByteArray) : Prop :=
  Covers range offset chunk ∨ range = greatest ∧ offset = 0 ∧ chunk.size = 0

theorem Fits.covers {range : Range} {offset : Nat} {chunk : ByteArray}
    (h : Fits range offset chunk) (hrange : range ≠ greatest) : Covers range offset chunk :=
  h.resolve_right fun hgreatest ↦ hrange hgreatest.1

namespace Store

variable {s t : Store} {repository id expected digest : String} {now length : Nat}
  {range : Option Range} {chunk data bytes trailing : ByteArray} {session : Session}

/-! ### Checks -/

theorem validate_ofContent (content : ByteArray) :
    validate (Digest.ofContent content) = .ok () := by
  rw [validate, if_pos (Digest.isDigest_ofContent content)]

theorem verify_eq_ok_iff {actual : String} :
    verify expected actual = .ok digest ↔ expected = actual ∧ digest = actual := by
  rw [verify]
  by_cases h : actual = expected
  · simp [h, eq_comm]
  · simp [h, Ne.symm h]

theorem checkLength_eq_ok_iff {range : Range} {u : Unit} :
    checkLength id range chunk = .ok u ↔ range.1 ≤ range.2 ∧
      (range.2 - range.1 + 1 = chunk.size ∨ range = greatest ∧ chunk.size = 0) := by
  rw [checkLength]
  split
  · next h => exact iff_of_true rfl h
  · next h => exact iff_of_false nofun h

/-- The greatest range is accepted with no bytes. -/
example : checkLength "u" (0, 0xffffffffffffffff) ByteArray.empty = .ok () := by decide

/-- A range is accepted when it fits its part. -/
theorem checkRange_eq_ok_iff {range : Range} {u : Unit} :
    checkRange id length range chunk = .ok u ↔ Fits range length chunk := by
  rw [checkRange]
  split
  · next hne =>
    simp only [reduceCtorEq, false_iff]
    rintro (hcovers | ⟨rfl, rfl, -⟩)
    · exact hne hcovers.start
    · exact hne rfl
  · next heq =>
    rw [checkLength_eq_ok_iff]
    have hstart : range.1 = length := Decidable.not_not.1 heq
    constructor
    · rintro ⟨hle, hsize | ⟨rfl, hempty⟩⟩
      · exact Or.inl ⟨hstart, hle, by omega⟩
      · exact Or.inr ⟨rfl, hstart.symm, hempty⟩
    · rintro (⟨-, hle, hlast⟩ | ⟨rfl, -, hempty⟩)
      · exact ⟨hle, Or.inl (by omega)⟩
      · exact ⟨Nat.zero_le _, Or.inr ⟨rfl, hempty⟩⟩

/-! ### Uploads that are there -/

/-- An upload is found in the repository that began it. -/
theorem session_eq_ok_iff :
    s.session repository id = .ok session ↔
      s.sessions.get? id = some session ∧ session.repository = repository := by
  rw [Store.session]
  cases h : s.sessions.get? id with
  | none => simp
  | some found =>
    by_cases hr : found.repository = repository
    · simp only [hr, if_true, Except.ok.injEq, Option.some.injEq]
      exact ⟨fun he ↦ ⟨he, he ▸ hr⟩, fun he ↦ he.1⟩
    · simp only [hr, if_false, reduceCtorEq, Option.some.injEq, false_iff]
      rintro ⟨rfl, he⟩
      exact hr he

theorem status_eq_ok_iff :
    s.status repository id = .ok length ↔ ∃ session, s.sessions.get? id = some session ∧
      session.repository = repository ∧ length = session.buffer.size := by
  rw [status]
  cases h : s.session repository id with
  | error e =>
    simp only [Except.map, reduceCtorEq, false_iff]
    rintro ⟨session, hget, hr, -⟩
    rw [session_eq_ok_iff.2 ⟨hget, hr⟩] at h
    cases h
  | ok found =>
    obtain ⟨hget, hr⟩ := session_eq_ok_iff.1 h
    simp [Except.map, hget, hr, eq_comm]

/-- What is there of an upload: nothing before its first part, and after that what its repository
has appended. -/
theorem buffered_eq_ok_iff :
    s.buffered repository id = .ok bytes ↔
      (s.sessions.get? id = none ∧ bytes = ByteArray.empty) ∨
        ∃ session, s.sessions.get? id = some session ∧ session.repository = repository ∧
          bytes = session.buffer := by
  rw [buffered]
  cases hget : s.sessions.get? id with
  | none =>
    rw [if_neg (by simp [Table.contains, hget])]
    simp [eq_comm]
  | some found =>
    rw [if_pos (by simp [Table.contains, hget]), Store.session, hget]
    by_cases hr : found.repository = repository
    · simp [hr, Except.map, eq_comm]
    · simp [hr, Except.map]

end Store

/-! ### Steps that fail -/

section Atomic

open Step

theorem atomic_commit (repository expected : String) (data : ByteArray) :
    (commit repository expected data).Atomic := by
  refine atomic_bind_of_looks (looks_ofExcept _) fun _ ↦ ?_
  refine atomic_bind_of_looks (looks_ofExcept _) fun digest ↦ ?_
  exact atomic_of_certain (certain_bind (certain_modify _) fun _ ↦ certain_pure digest)

theorem atomic_start (now : Nat) (repository id : String) (range : Option Range)
    (chunk : ByteArray) : (start now repository id range chunk).Atomic := by
  have hput : Certain (σ := Store) (ε := RegistryError) (do
      modify fun s ↦ s.putSession id ⟨repository, chunk, now⟩
      return chunk.size) := certain_bind (certain_modify _) fun _ ↦ certain_pure _
  cases range with
  | none => exact atomic_of_certain hput
  | some range => exact atomic_bind_of_looks (looks_ofExcept _) fun _ ↦ atomic_of_certain hput

theorem atomic_extend (now : Nat) (repository id : String) (range : Option Range)
    (chunk : ByteArray) : (extend now repository id range chunk).Atomic := by
  refine atomic_bind_of_looks looks_get fun s ↦ ?_
  refine atomic_bind_of_looks (looks_ofExcept _) fun session ↦ ?_
  have hput : Certain (σ := Store) (ε := RegistryError) (do
      modify fun s ↦ s.putSession id ⟨repository, session.buffer ++ chunk, now⟩
      return (session.buffer ++ chunk).size) :=
    certain_bind (certain_modify _) fun _ ↦ certain_pure _
  -- Without a range the step fails before the change, with one it is checked before it.
  cases range with
  | none => exact atomic_bind_of_looks (looks_throw _) fun _ ↦ atomic_of_certain hput
  | some range => exact atomic_bind_of_looks (looks_ofExcept _) fun _ ↦ atomic_of_certain hput

theorem atomic_append (now : Nat) (repository id : String) (range : Option Range)
    (chunk : ByteArray) : (append now repository id range chunk).Atomic := by
  refine atomic_bind_of_looks looks_get fun s ↦ ?_
  split
  · exact atomic_extend now repository id range chunk
  · exact atomic_start now repository id range chunk

theorem atomic_finalize (repository id expected : String) (trailing : ByteArray) :
    (finalize repository id expected trailing).Atomic := by
  refine atomic_bind_of_looks (looks_ofExcept _) fun _ ↦ ?_
  refine atomic_bind_of_looks looks_get fun s ↦ ?_
  refine atomic_bind_of_looks (looks_ofExcept _) fun buffered ↦ ?_
  refine atomic_bind_of_looks (looks_ofExcept _) fun digest ↦ ?_
  refine atomic_of_certain (certain_bind (certain_modify _) fun _ ↦ ?_)
  exact certain_bind (certain_modify _) fun _ ↦ certain_pure digest

theorem atomic_status (repository id : String) : (status repository id).Atomic :=
  atomic_bind_of_looks looks_get fun _ ↦ atomic_of_looks (looks_ofExcept _)

theorem atomic_cancel (repository id : String) : (cancel repository id).Atomic := by
  refine atomic_bind_of_looks looks_get fun s ↦ ?_
  refine atomic_bind_of_looks (looks_ofExcept _) fun _ ↦ ?_
  exact atomic_of_certain (certain_modify _)

end Atomic

namespace Store

variable {s t : Store} {repository id expected digest : String} {now length : Nat}
  {range : Option Range} {chunk data trailing : ByteArray}

/-! ### Steps that succeed -/

/-- A whole blob is stored under its digest, which must be given. -/
theorem commit_eq_ok_iff :
    s.commit repository expected data = .ok (digest, t) ↔
      expected = Digest.ofContent data ∧ digest = Digest.ofContent data ∧
        t = s.own repository digest data := by
  rw [commit, Blob.commit]
  simp only [Step.result_ofExcept_bind, Step.result_modify_bind, Step.result_pure, bind_eq_ok_iff,
    verify_eq_ok_iff, Except.ok.injEq, Prod.mk.injEq]
  constructor
  · rintro ⟨-, -, actual, ⟨rfl, rfl⟩, rfl, rfl⟩
    exact ⟨rfl, rfl, rfl⟩
  · rintro ⟨rfl, rfl, rfl⟩
    exact ⟨(), validate_ofContent data, _, ⟨rfl, rfl⟩, rfl, rfl⟩

/-- The first part of an upload may come without a range. -/
theorem start_eq_ok_iff :
    (Blob.start now repository id range chunk).result s = .ok (length, t) ↔
      (∀ r ∈ range, Fits r 0 chunk) ∧ length = chunk.size ∧
        t = s.putSession id ⟨repository, chunk, now⟩ := by
  cases range with
  | none =>
    show Except.ok (chunk.size, s.putSession id ⟨repository, chunk, now⟩) = .ok (length, t) ↔ _
    simp [eq_comm]
  | some r =>
    show (Step.ofExcept (checkRange id 0 r chunk) >>= fun _ ↦ _).result s = .ok (length, t) ↔ _
    simp only [Step.result_ofExcept_bind, Step.result_modify_bind, Step.result_pure,
      bind_eq_ok_iff, checkRange_eq_ok_iff]
    simp [eq_comm]

/-- A later part comes from the repository that began the upload, and has a range. -/
theorem extend_eq_ok_iff :
    (Blob.extend now repository id range chunk).result s = .ok (length, t) ↔
      ∃ session r, s.sessions.get? id = some session ∧ session.repository = repository ∧
        range = some r ∧ Fits r session.buffer.size chunk ∧
        length = (session.buffer ++ chunk).size ∧
        t = s.putSession id ⟨repository, session.buffer ++ chunk, now⟩ := by
  rw [Blob.extend]
  simp only [Step.result_get_bind, Step.result_ofExcept_bind, bind_eq_ok_iff, session_eq_ok_iff]
  cases range with
  | none => simp
  | some r =>
    simp only [Step.result_ofExcept_bind, Step.result_modify_bind, Step.result_pure,
      bind_eq_ok_iff, checkRange_eq_ok_iff, Except.ok.injEq, Prod.mk.injEq]
    constructor
    · rintro ⟨session, ⟨hget, hr⟩, -, hfits, rfl, rfl⟩
      exact ⟨session, r, hget, hr, rfl, hfits, rfl, rfl⟩
    · rintro ⟨session, r', hget, hr, hrange, hfits, rfl, rfl⟩
      cases hrange
      exact ⟨session, ⟨hget, hr⟩, (), hfits, rfl, rfl⟩

/-- A part begins an upload that is not there, if its range begins at zero or is not given; it goes
on with an upload of the same repository, if its range begins where the upload ends. -/
theorem append_eq_ok_iff :
    s.append now repository id range chunk = .ok (length, t) ↔
      (s.sessions.get? id = none ∧ (∀ r ∈ range, Fits r 0 chunk) ∧ length = chunk.size ∧
        t = s.putSession id ⟨repository, chunk, now⟩) ∨
      ∃ session r, s.sessions.get? id = some session ∧ session.repository = repository ∧
        range = some r ∧ Fits r session.buffer.size chunk ∧
        length = (session.buffer ++ chunk).size ∧
        t = s.putSession id ⟨repository, session.buffer ++ chunk, now⟩ := by
  rw [append, Blob.append, Step.result_get_bind]
  cases hget : s.sessions.get? id with
  | none =>
    rw [if_neg (by simp [Table.contains, hget]), start_eq_ok_iff]
    simp
  | some found =>
    rw [if_pos (by simp [Table.contains, hget]), extend_eq_ok_iff, hget]
    simp

/-- An upload ends with the digest of all its bytes, which must be given. -/
theorem finalize_eq_ok_iff :
    s.finalize repository id expected trailing = .ok (digest, t) ↔
      ∃ bytes, s.buffered repository id = .ok bytes ∧
        expected = Digest.ofContent (bytes ++ trailing) ∧
        digest = Digest.ofContent (bytes ++ trailing) ∧
        t = (s.dropSession id).own repository digest (bytes ++ trailing) := by
  have hchunks (bytes : ByteArray) : Digest.ofChunks [bytes, trailing] =
      Digest.ofContent (bytes ++ trailing) := by
    rw [Digest.ofChunks_eq]
    simp
  rw [finalize, Blob.finalize]
  simp only [Step.result_ofExcept_bind, Step.result_get_bind, Step.result_modify_bind,
    Step.result_pure, bind_eq_ok_iff, verify_eq_ok_iff, hchunks, Except.ok.injEq, Prod.mk.injEq]
  constructor
  · rintro ⟨-, -, bytes, hbytes, actual, ⟨rfl, rfl⟩, rfl, rfl⟩
    exact ⟨bytes, hbytes, rfl, rfl, rfl⟩
  · rintro ⟨bytes, hbytes, rfl, rfl, rfl⟩
    exact ⟨(), validate_ofContent _, bytes, hbytes, _, ⟨rfl, rfl⟩, rfl, rfl⟩

/-- How much is there of an upload is told to the repository that began it. -/
theorem tell_eq_ok_iff :
    (Blob.status repository id).result s = .ok (length, t) ↔
      (∃ session, s.sessions.get? id = some session ∧ session.repository = repository ∧
        length = session.buffer.size) ∧ t = s := by
  rw [← status_eq_ok_iff, Blob.status, Step.result_get_bind, Step.result_eq_ok_iff,
    Step.on_ofExcept, Prod.mk.injEq, eq_comm (a := s)]

/-- An upload is given up by the repository that began it. -/
theorem cancel_eq_ok_iff {u : Unit} :
    (Blob.cancel repository id).result s = .ok (u, t) ↔
      ∃ session, s.sessions.get? id = some session ∧ session.repository = repository ∧
        t = s.dropSession id := by
  rw [Blob.cancel]
  simp only [Step.result_get_bind, Step.result_ofExcept_bind, Step.result_modify, bind_eq_ok_iff,
    session_eq_ok_iff, Except.ok.injEq, Prod.mk.injEq, true_and]
  constructor
  · rintro ⟨session, ⟨hget, hr⟩, rfl⟩
    exact ⟨session, hget, hr, rfl⟩
  · rintro ⟨session, hget, hr, rfl⟩
    exact ⟨session, ⟨hget, hr⟩, rfl⟩

/-! ### Uploads after a change -/

theorem get?_putSession_self (s : Store) (id : String) (session : Session) :
    (s.putSession id session).sessions.get? id = some session :=
  Table.get?_insert_self s.sessions id session

/-- What happens to another upload leaves an upload as it is. -/
theorem get?_putSession_of_ne (s : Store) {id other : String} (session : Session)
    (h : other ≠ id) : (s.putSession other session).sessions.get? id = s.sessions.get? id :=
  Table.get?_insert_of_ne s.sessions session h

theorem get?_dropSession_self (s : Store) (id : String) :
    (s.dropSession id).sessions.get? id = none :=
  Table.get?_erase_self s.sessions id

theorem get?_dropSession_of_ne (s : Store) {id other : String} (h : other ≠ id) :
    (s.dropSession other).sessions.get? id = s.sessions.get? id :=
  Table.get?_erase_of_ne s.sessions h

/-- Uploads stay when the layers of a repository are removed. -/
theorem sessions_remove (s : Store) (repository : String) :
    (s.remove repository).2.sessions = s.sessions := by
  rw [remove]
  split <;> rfl

end Store

end Blob

end ImageRegistry
