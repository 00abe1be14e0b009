import ImageRegistry.Proofs.Blob.Run

/-!
# An upload in parts is a commit

Content that is cut into parts, appended one after the other and finalized, leaves the same store as
content that is committed whole: not only the same blob, but the same bindings in the same order, so
that nothing tells afterwards how the blob came in. It holds for every cut: with no part at all,
with one, with a last part that is empty, and whether or not the first part says where it goes.

While the parts come in, the store is the one before the upload with one more session
(`run_later_parts`), whose buffer is what was appended so far. `finalize` takes that session out
again, and since it was the last binding to come in, the sessions are then what they were before
(`Table.erase_insert_of_get?_eq_none`).
-/

namespace ImageRegistry.Blob

/-- A part of an upload, as it is sent: when, with which range, and which bytes. -/
structure Part where
  time : Nat
  range : Option Range
  chunk : ByteArray

/-- The parts of some content from an offset on. None of them is empty, and each has the range that
it occupies in the content, both ends included; only the first part of all may come without it. -/
inductive Cut : Nat → List Part → Prop where
  | nil (offset : Nat) : Cut offset []
  | cons {offset : Nat} {part : Part} {rest : List Part} (nonempty : 0 < part.chunk.size)
      (range : part.range = some (offset, offset + part.chunk.size - 1) ∨
        offset = 0 ∧ part.range = none)
      (follow : Cut (offset + part.chunk.size) rest) : Cut offset (part :: rest)

/-- The content that some parts make. -/
def contentOf (parts : List Part) : ByteArray := Digest.join (parts.map Part.chunk)

/-- How many bytes are there after each of some parts, when so many are there before. -/
def lengths : Nat → List Part → List Nat
  | _, [] => []
  | offset, part :: rest => (offset + part.chunk.size) :: lengths (offset + part.chunk.size) rest

/-- The calls that append some parts to an upload. -/
def appends (repository id : String) (parts : List Part) : List Event :=
  parts.map fun part ↦ ⟨part.time, .append repository id part.range part.chunk⟩

namespace Store

variable {s t : Store} {id : String} {part : Part} {parts : List Part} {now length : Nat}

/-! ### One part -/

theorem take_append_of_ok {repository : String} {range : Option Range} {chunk : ByteArray}
    (h : s.append now repository id range chunk = .ok (length, t)) :
    s.take ⟨now, .append repository id range chunk⟩ = (.holds length, t) := by
  exact settle_of_result .holds h

/-- The session of an upload gives way to a later one. -/
theorem putSession_putSession (s : Store) (id : String) (first second : Session) :
    (s.putSession id first).putSession id second = s.putSession id second := by
  show { s with sessions := (s.sessions.insert id first).insert id second } = s.putSession id second
  rw [Table.insert_insert]
  rfl

theorem dropSession_putSession (session : Session) (h : s.sessions.get? id = none) :
    (s.putSession id session).dropSession id = s := by
  show { s with sessions := (s.sessions.insert id session).erase id } = s
  rw [Table.erase_insert_of_get?_eq_none session h]

/-- The first part begins the upload. -/
theorem take_first_part (repository : String) (absent : s.sessions.get? id = none)
    (cut : Cut 0 (part :: parts)) :
    s.take ⟨part.time, .append repository id part.range part.chunk⟩ =
      (.holds part.chunk.size, s.putSession id ⟨repository, part.chunk, part.time⟩) := by
  cases cut with
  | cons nonempty range follow =>
    refine take_append_of_ok (append_eq_ok_iff.2 (Or.inl ⟨absent, ?_, rfl, rfl⟩))
    intro r hr
    rcases range with hrange | ⟨-, hrange⟩
    · rw [hrange, Option.mem_some_iff] at hr
      exact hr ▸ Or.inl (covers_span 0 nonempty)
    · rw [hrange] at hr
      cases hr

/-- A later part goes on with it. -/
theorem take_later_part (s : Store) (repository id : String) (time : Nat) {buffer : ByteArray}
    (hbuffer : 0 < buffer.size) (cut : Cut buffer.size (part :: parts)) :
    (s.putSession id ⟨repository, buffer, time⟩).take
        ⟨part.time, .append repository id part.range part.chunk⟩ =
      (.holds (buffer.size + part.chunk.size),
        s.putSession id ⟨repository, buffer ++ part.chunk, part.time⟩) := by
  cases cut with
  | cons nonempty range follow =>
    have hrange : part.range = some (buffer.size, buffer.size + part.chunk.size - 1) := by
      rcases range with hrange | ⟨hzero, -⟩
      · exact hrange
      · omega
    have happend : (s.putSession id ⟨repository, buffer, time⟩).append part.time repository id
        part.range part.chunk = .ok ((buffer ++ part.chunk).size,
          (s.putSession id ⟨repository, buffer, time⟩).putSession id
            ⟨repository, buffer ++ part.chunk, part.time⟩) :=
      append_eq_ok_iff.2 (Or.inr ⟨_, _, get?_putSession_self s id _, rfl, hrange,
        Or.inl (covers_span buffer.size nonempty), rfl, rfl⟩)
    rw [take_append_of_ok happend, ByteArray.size_append, putSession_putSession]

/-! ### All parts -/

/-- Later parts are appended to what is there, and nothing else changes. -/
theorem run_later_parts (s : Store) (repository id : String) (time : Nat) {buffer : ByteArray}
    (hbuffer : 0 < buffer.size) (cut : Cut buffer.size parts) :
    (s.putSession id ⟨repository, buffer, time⟩).answers (appends repository id parts) =
        (lengths buffer.size parts).map .holds ∧
      ∃ last, (s.putSession id ⟨repository, buffer, time⟩).run (appends repository id parts) =
        s.putSession id ⟨repository, buffer ++ contentOf parts, last⟩ := by
  induction parts generalizing buffer time with
  | nil => exact ⟨rfl, time, by simp [appends, contentOf]⟩
  | cons part rest ih =>
    have htake := take_later_part s repository id time hbuffer cut
    cases cut with
    | cons nonempty range follow =>
      -- The parts that follow are cut at the size of the longer buffer.
      have hsize : (buffer ++ part.chunk).size = buffer.size + part.chunk.size :=
        ByteArray.size_append
      have hlonger : 0 < (buffer ++ part.chunk).size := by omega
      obtain ⟨hanswers, last, hrun⟩ := ih part.time hlonger (hsize ▸ follow)
      rw [appends, List.map_cons]
      refine ⟨?_, last, ?_⟩
      · rw [answers, htake, lengths, List.map_cons, ← hsize]
        exact congrArg _ hanswers
      · rw [run_cons, htake]
        refine hrun.trans ?_
        rw [contentOf, contentOf, List.map_cons, Digest.join_cons, ByteArray.append_assoc]

/-- When its parts have come in, the buffer of an upload is the content that they make, and the
store is otherwise as before. -/
theorem run_parts (repository : String) (absent : s.sessions.get? id = none) (cut : Cut 0 parts) :
    s.answers (appends repository id parts) = (lengths 0 parts).map .holds ∧
      (s.run (appends repository id parts)).buffered repository id = .ok (contentOf parts) ∧
      (s.run (appends repository id parts)).dropSession id = s := by
  cases parts with
  | nil =>
    -- Without a part no upload begins, and what is there of it is the content of no parts.
    refine ⟨rfl, buffered_eq_ok_iff.2 (Or.inl ⟨absent, rfl⟩), ?_⟩
    show { s with sessions := s.sessions.erase id } = s
    rw [Table.erase_of_get?_eq_none absent]
  | cons part rest =>
    have htake := take_first_part repository absent cut
    cases cut with
    | cons nonempty range follow =>
      rw [Nat.zero_add] at follow
      obtain ⟨hanswers, last, hrun⟩ := run_later_parts s repository id part.time nonempty follow
      have hparts : s.run (appends repository id (part :: rest)) =
          s.putSession id ⟨repository, contentOf (part :: rest), last⟩ := by
        rw [appends, List.map_cons, run_cons, htake]
        refine hrun.trans ?_
        rw [contentOf, contentOf, List.map_cons, Digest.join_cons]
      refine ⟨?_, ?_, ?_⟩
      · rw [appends, List.map_cons, answers, htake, lengths, List.map_cons, Nat.zero_add]
        exact congrArg _ hanswers
      · rw [hparts]
        exact buffered_eq_ok_iff.2 (Or.inr ⟨_, get?_putSession_self _ _ _, rfl, rfl⟩)
      · rw [hparts, dropSession_putSession _ absent]

/-! ### The whole upload -/

/-- The calls that upload some content: its parts one after the other, and then the end, with the
digest of the content and what is left of it. -/
def upload (repository id : String) (parts : List Part) (trailing : ByteArray) (now : Nat) :
    List Event :=
  appends repository id parts ++
    [⟨now, .finalize repository id (Digest.ofContent (contentOf parts ++ trailing)) trailing⟩]

/-- An upload that is ended with the digest of all its bytes is stored. -/
theorem take_finalize_ofContent {repository : String} {bytes : ByteArray}
    (h : s.buffered repository id = .ok bytes) (now : Nat) (trailing : ByteArray) :
    s.take ⟨now, .finalize repository id (Digest.ofContent (bytes ++ trailing)) trailing⟩ =
      (.stored (Digest.ofContent (bytes ++ trailing)), (s.dropSession id).own repository
        (Digest.ofContent (bytes ++ trailing)) (bytes ++ trailing)) := by
  have hfinalize : s.finalize repository id (Digest.ofContent (bytes ++ trailing)) trailing =
      .ok (_, _) := finalize_eq_ok_iff.2 ⟨bytes, h, rfl, rfl, rfl⟩
  rw [take]
  exact settle_of_result .stored hfinalize

/-- A blob that is committed under its digest is stored. -/
theorem take_commit_ofContent (s : Store) (now : Nat) (repository : String) (content : ByteArray) :
    s.take ⟨now, .commit repository (Digest.ofContent content) content⟩ =
      (.stored (Digest.ofContent content),
        s.own repository (Digest.ofContent content) content) := by
  have hcommit : s.commit repository (Digest.ofContent content) content = .ok (_, _) :=
    commit_eq_ok_iff.2 ⟨rfl, rfl, rfl⟩
  rw [take]
  exact settle_of_result .stored hcommit

/-- However content is cut, uploading it in parts answers the number of bytes after each part and
then the digest, and leaves the same store as committing it whole: a store that has the content
under its digest, and no upload of that identifier. -/
theorem run_upload {parts : List Part} (absent : s.sessions.get? id = none) (cut : Cut 0 parts)
    (repository : String) (trailing : ByteArray) (now later : Nat) :
    let content := contentOf parts ++ trailing
    let digest := Digest.ofContent content
    let commit : Event := ⟨later, .commit repository digest content⟩
    let t := s.run (upload repository id parts trailing now)
    s.answers (upload repository id parts trailing now) =
        (lengths 0 parts).map .holds ++ [.stored digest] ∧
      s.take commit = (.stored digest, t) ∧
      t.get? digest = some content ∧ t.sessions.get? id = none := by
  intro content digest commit t
  obtain ⟨hanswers, hbuffered, hdrop⟩ := run_parts repository absent cut
  have htake : (s.run (appends repository id parts)).take
      ⟨now, .finalize repository id digest trailing⟩ =
        (.stored digest, s.own repository digest content) := by
    rw [take_finalize_ofContent hbuffered, hdrop]
  have ht : t = s.own repository digest content := by
    show s.run (upload repository id parts trailing now) = _
    rw [upload, run_append, run_cons, htake, run_nil]
  refine ⟨?_, ?_, ?_, ?_⟩
  · rw [upload, answers_append, hanswers, answers, htake, answers]
  · rw [ht]
    exact take_commit_ofContent s later repository content
  · rw [ht]
    exact Table.get?_insert_self s.content digest content
  · rw [ht]
    exact absent

/-- Three bytes in two parts, the first of which does not say where it goes, and a fourth at the
end, while another upload is there. -/
theorem run_upload_two_parts :
    let s : Store := (∅ : Store).run [⟨0, .append "library" "other" none ⟨#[1]⟩⟩]
    let parts : List Part := [⟨1, none, ⟨#[97, 98]⟩⟩, ⟨2, some (2, 2), ⟨#[99]⟩⟩]
    let digest := Digest.ofContent ⟨#[97, 98, 99, 100]⟩
    s.sessions.get? "upload" = none ∧ Cut 0 parts ∧
      s.answers (upload "library" "upload" parts ⟨#[100]⟩ 3) =
        [.holds 2, .holds 3, .stored digest] ∧
      (s.run (upload "library" "upload" parts ⟨#[100]⟩ 3)).get? digest =
        some ⟨#[97, 98, 99, 100]⟩ := by
  intro s parts digest
  have absent : s.sessions.get? "upload" = none := rfl
  have cut : Cut 0 parts :=
    .cons (by decide) (Or.inr ⟨rfl, rfl⟩) (.cons (by decide) (Or.inl rfl) (.nil _))
  have hcontent : contentOf parts ++ ⟨#[100]⟩ = ⟨#[97, 98, 99, 100]⟩ := rfl
  have hdigest : Digest.ofContent (contentOf parts ++ ⟨#[100]⟩) = digest := by rw [hcontent]
  obtain ⟨hanswers, -, hget, -⟩ := run_upload absent cut "library" ⟨#[100]⟩ 3 4
  rw [hdigest] at hanswers hget
  rw [hcontent] at hget
  exact ⟨absent, cut, hanswers, hget⟩

end Store

end ImageRegistry.Blob
