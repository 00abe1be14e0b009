import ImageRegistry.Proofs.Manifest.Closure

/-!
# Which pushes are taken

A push is judged by three checks, one after the other: a digest that it is pushed under must be that
of its bytes; an index must be a document; and each manifest that the index lists must be there. The
first check that fails decides the error (`Fault`). Only when all have passed is anything changed,
and then it is two keys of one repository (`judged`).

Whether a body is pushed as an index is told by the media type that comes with it. Without one the
body is looked at, and what is taken for an index then is a document already
(`isIndex_ofBody_iff`), so the second check can only fail when a media type was given.
-/

namespace ImageRegistry.Manifest

/-! ### What is pushed as an index -/

/-- The media types of indexes. -/
def Media.IsIndex (media : Media) : Prop := media = .imageIndex ∨ media = .manifestList

theorem Media.isIndex_name_iff (media : Media) : isIndex media.name = true ↔ media.IsIndex := by
  have hname : isIndex media.name =
      (decide (media = .imageIndex) || decide (media = .manifestList)) := by
    cases media <;> decide
  rw [hname, Bool.or_eq_true, decide_eq_true_iff, decide_eq_true_iff, IsIndex]

/-- A body comes with the media type of an index, or it comes with none and is a document that has
the media type of an index. -/
def PushedAsIndex (given : Option String) (body : ByteArray) : Prop :=
  (∃ mediaType, given = some mediaType ∧ mediaType ≠ "" ∧ Media.NamesIndex mediaType) ∨
    (given = none ∨ given = some "") ∧
      ∃ document, Document.read? body = some document ∧ document.media.IsIndex

theorem isIndex_detected_iff {body : ByteArray} :
    Media.isIndex (detected body).name = true ↔
      ∃ document, Document.read? body = some document ∧ document.media.IsIndex := by
  rw [Media.isIndex_name_iff, detected]
  cases Document.read? body with
  | none => simp [Media.IsIndex]
  | some document => simp

theorem mediaTypeOf_of_ne {mediaType : String} (body : ByteArray) (h : mediaType ≠ "") :
    mediaTypeOf body (some mediaType) = mediaType := by
  have hgiven : (some mediaType).filter (!·.isEmpty) = some mediaType := by
    simpa [Option.filter_eq_some_iff] using h
  rw [mediaTypeOf, hgiven]

theorem isIndex_ofBody_iff {given origin : Option String} {body : ByteArray} :
    (ofBody body given origin).isIndex = true ↔ PushedAsIndex given body := by
  show Media.isIndex (mediaTypeOf body given) = true ↔ _
  rw [PushedAsIndex, ← isIndex_detected_iff]
  cases given with
  | none =>
    have hdetected : mediaTypeOf body none = (detected body).name := rfl
    simp [hdetected]
  | some mediaType =>
    by_cases hempty : mediaType = ""
    · subst hempty
      have hdetected : mediaTypeOf body (some "") = (detected body).name := rfl
      simp [hdetected]
    · rw [mediaTypeOf_of_ne body hempty, Media.isIndex_iff]
      simp [hempty]

/-- Without a media type only a document is an index. -/
theorem exists_document_of_detected {given : Option String} {body : ByteArray}
    (hgiven : given = none ∨ given = some "") (h : PushedAsIndex given body) :
    ∃ document, Document.read? body = some document := by
  rcases h with ⟨mediaType, hmediaType, hne, -⟩ | ⟨-, document, hread, -⟩
  · rcases hgiven with hnone | hempty
    · cases hmediaType.symm.trans hnone
    · exact absurd (Option.some.inj (hmediaType.symm.trans hempty)) hne
  · exact ⟨document, hread⟩

namespace Store

variable {s t : Store} {repository reference : String} {given : Option String} {body : ByteArray}
  {m : Manifest} {error : RegistryError}

/-! ### What is wrong with a push -/

/-- Something is wrong with a push, and nothing that would be found before it. -/
inductive Fault (s : Store) (repository reference : String) (given : Option String)
    (body : ByteArray) : RegistryError → Prop where
  /-- It is pushed under a digest that is not that of its bytes. -/
  | misnamed (shape : Digest.isDigest reference = true)
      (other : reference ≠ Digest.ofContent body) :
      Fault s repository reference given body
        (.digestMismatch reference (Digest.ofContent body))
  /-- It is pushed as an index and is no document. -/
  | unreadable (named : Digest.isDigest reference = true → reference = Digest.ofContent body)
      (index : PushedAsIndex given body) (unread : Document.read? body = none) :
      Fault s repository reference given body
        (.invalidManifest "the body is no manifest document")
  /-- It is pushed as an index, and this is the first manifest on its list that is not there. -/
  | incomplete (named : Digest.isDigest reference = true → reference = Digest.ofContent body)
      (index : PushedAsIndex given body) (document : Document)
      (read : Document.read? body = some document) (before after : List String)
      (missing : String) (lists : document.manifests = before ++ missing :: after)
      (there : ∀ digest ∈ before, ∃ child, s.get? repository digest = some child)
      (absent : s.get? repository missing = none) :
      Fault s repository reference given body (.manifestNotFound missing)

theorem checkReference_eq_error_iff : checkReference reference m = .error error ↔
    Digest.isDigest reference = true ∧ reference ≠ m.digest ∧
      error = .digestMismatch reference m.digest := by
  rw [checkReference]
  split
  · next h => simp [h.1, h.2, eq_comm]
  · next h =>
    simp only [reduceCtorEq, false_iff, not_and]
    exact fun hshape hne ↦ absurd ⟨hshape, hne⟩ h

theorem children_eq_error_iff : children m = .error error ↔
    m.isIndex = true ∧ Document.read? m.body = none ∧
      error = .invalidManifest "the body is no manifest document" := by
  rw [children]
  cases hindex : m.isIndex with
  | false => simp
  | true => cases hread : Document.read? m.body <;> simp [eq_comm]

/-- The first child that is not there is told. -/
theorem checkChildren_eq_error_iff {digests : List String} :
    s.checkChildren repository digests = .error error ↔
      ∃ before missing after, digests = before ++ missing :: after ∧
        (∀ digest ∈ before, ∃ child, s.get? repository digest = some child) ∧
        s.get? repository missing = none ∧ error = .manifestNotFound missing := by
  have habsent (digest : String) : (!(s.tableOf repository).contains digest) = true ↔
      s.get? repository digest = none := by
    rw [Bool.not_eq_true', Table.contains, Option.isSome_eq_false_iff, Option.isNone_iff_eq_none]
    rfl
  have hthere (digest : String) : (!!(s.tableOf repository).contains digest) = true ↔
      ∃ child, s.get? repository digest = some child := by
    rw [Bool.not_not]
    exact Table.contains_eq_true_iff
  rw [checkChildren]
  cases hfind : digests.find? fun child ↦ !(s.tableOf repository).contains child with
  | none =>
    rw [List.find?_eq_none] at hfind
    simp only [reduceCtorEq, false_iff, not_exists, not_and]
    rintro before missing after rfl - hmissing
    exact absurd ((habsent missing).2 hmissing) (hfind missing (by simp))
  | some first =>
    obtain ⟨hfirst, front, back, rfl, hfront⟩ := List.find?_eq_some_iff_append.1 hfind
    simp only [Except.error.injEq]
    constructor
    · rintro rfl
      exact ⟨front, first, back, rfl, fun digest hmem ↦ (hthere digest).1 (hfront digest hmem),
        (habsent first).1 hfirst, rfl⟩
    · rintro ⟨before, missing, after, hsplit, hbefore, hmissing, rfl⟩
      -- What was found first is the only child that is missing behind none.
      have hsame : (front ++ first :: back).find? (fun child ↦
          !(s.tableOf repository).contains child) = some missing := by
        rw [hsplit]
        refine List.find?_eq_some_iff_append.2
          ⟨(habsent missing).2 hmissing, before, after, rfl, fun digest hmem ↦ ?_⟩
        exact (hthere digest).2 (hbefore digest hmem)
      rw [Option.some.inj (hfind.symm.trans hsame)]

/-! ### The checks of a push -/

/-- The checks of a push, in their order. -/
def check (s : Store) (repository reference : String) (m : Manifest) :
    Except RegistryError Unit := do
  checkReference reference m
  s.checkChildren repository (← children m)

theorem check_eq_ok_iff :
    s.check repository reference m = .ok () ↔ s.Accepts repository reference m := by
  rw [accepts_iff, check, bind_eq_ok_iff]
  simp only [bind_eq_ok_iff]
  constructor
  · rintro ⟨_, hreference, digests, hdigests, hchildren⟩
    exact ⟨hreference, digests, hdigests, hchildren⟩
  · rintro ⟨hreference, digests, hdigests, hchildren⟩
    exact ⟨(), hreference, digests, hdigests, hchildren⟩

theorem check_eq_error_iff : s.check repository reference (ofBody body given none) = .error error ↔
    s.Fault repository reference given body error := by
  rw [check, bind_eq_error_iff]
  simp only [bind_eq_error_iff, checkReference_eq_error_iff, checkReference_eq_ok_iff,
    children_eq_error_iff, children_eq_ok_iff, checkChildren_eq_error_iff, isIndex_ofBody_iff,
    digest_ofBody, body_ofBody]
  constructor
  · rintro (⟨hshape, hother, rfl⟩ | ⟨_, hnamed, hunread | ⟨digests, hdigests, hmissing⟩⟩)
    · exact .misnamed hshape hother
    · obtain ⟨hindex, hread, rfl⟩ := hunread
      exact .unreadable hnamed hindex hread
    · obtain ⟨before, missing, after, hlists, hthere, habsent, rfl⟩ := hmissing
      rcases hdigests with ⟨hindex, document, hread, rfl⟩ | ⟨-, rfl⟩
      · exact .incomplete hnamed hindex document hread before after missing hlists hthere habsent
      · simp at hlists
  · intro hfault
    cases hfault with
    | misnamed shape other => exact Or.inl ⟨shape, other, rfl⟩
    | unreadable named index unread => exact Or.inr ⟨(), named, Or.inl ⟨index, unread, rfl⟩⟩
    | incomplete named index document read before after missing lists there absent =>
      exact Or.inr ⟨(), named, Or.inr ⟨document.manifests, Or.inl ⟨index, document, read, rfl⟩,
        before, missing, after, lists, there, absent, rfl⟩⟩

/-- After the checks nothing can fail, and before them nothing is changed. -/
theorem on_push_of_ok (h : s.check repository reference (ofBody body given none) = .ok ()) :
    (push repository reference given body).on s =
      (.ok (ofBody body given none), s.insert repository reference (ofBody body given none)) :=
  Step.result_eq_ok_iff.1 (put_eq_ok_iff.2 ⟨rfl, check_eq_ok_iff.1 h, rfl⟩)

theorem on_push_of_error
    (h : s.check repository reference (ofBody body given none) = .error error) :
    (push repository reference given body).on s = (.error error, s) := by
  obtain hreference | ⟨_, hreference, hchildren⟩ := bind_eq_error_iff.1 h
  · simp [push, Step.on_bind, hreference]
  · obtain hdigests | ⟨digests, hdigests, hchildren⟩ := bind_eq_error_iff.1 hchildren
    · simp [push, Step.on_bind, hreference, hdigests]
    · simp [push, Step.on_bind, hreference, hdigests, hchildren]

/-! ### What comes of a push -/

/-- What comes of a push of a body under a reference, with a media type or without one. -/
structure Judged (s : Store) (repository reference : String) (given : Option String)
    (body : ByteArray) : Prop where
  /-- It is taken if a digest that it is pushed under is its own, and if, should it be an index, it
  is a document and each manifest that it lists is there. -/
  taken : (∃ m t, (push repository reference given body).on s = (.ok m, t)) ↔
    (Digest.isDigest reference = true → reference = Digest.ofContent body) ∧
      (PushedAsIndex given body → ∃ document, Document.read? body = some document ∧
        ∀ digest ∈ document.manifests, ∃ child, s.get? repository digest = some child)
  /-- It is refused for the first thing that is wrong with it, and then nothing has changed. -/
  refused : ∀ error t, (push repository reference given body).on s = (.error error, t) ↔
    s.Fault repository reference given body error ∧ t = s
  /-- Without a media type it is never refused for not being a document. -/
  detected : given = none ∨ given = some "" → ∀ reason t,
    (push repository reference given body).on s ≠ (.error (.invalidManifest reason), t)
  /-- When it is taken, one manifest with these very bytes is under the reference and under the
  digest of the bytes, and all else is as it was. -/
  stored : ∀ m t, (push repository reference given body).on s = (.ok m, t) →
    m = ofBody body given none ∧ m.body = body ∧ m.digest = Digest.ofContent body ∧
      (∀ r k, t.get? r k =
        if r = repository ∧ (k = reference ∨ k = Digest.ofContent body) then some m
        else s.get? r k) ∧
      ∀ r, r ≠ repository → t.repositories.get? r = s.repositories.get? r

theorem accepts_ofBody_iff : s.Accepts repository reference (ofBody body given none) ↔
    (Digest.isDigest reference = true → reference = Digest.ofContent body) ∧
      (PushedAsIndex given body → ∃ document, Document.read? body = some document ∧
        ∀ digest ∈ document.manifests, ∃ child, s.get? repository digest = some child) := by
  rw [← @isIndex_ofBody_iff given none body]
  simp only [get?, ← Table.contains_eq_true_iff]
  exact ⟨fun h ↦ ⟨h.named, h.listed⟩, fun h ↦ ⟨h.1, h.2⟩⟩

/-- Every push, to whatever store, is judged so. -/
theorem judged (s : Store) (repository reference : String) (given : Option String)
    (body : ByteArray) : s.Judged repository reference given body := by
  have hrefused (error : RegistryError) (t : Store) :
      (push repository reference given body).on s = (.error error, t) ↔
        s.Fault repository reference given body error ∧ t = s := by
    rw [← check_eq_error_iff]
    cases hcheck : s.check repository reference (ofBody body given none) with
    | ok => simp [on_push_of_ok hcheck]
    | error other => simp [on_push_of_error hcheck, eq_comm]
  have htaken {m : Manifest} {t : Store}
      (h : (push repository reference given body).on s = (.ok m, t)) :=
    put_eq_ok_iff.1 (Step.result_eq_ok_iff.2 h)
  constructor
  · rw [← accepts_ofBody_iff]
    constructor
    · rintro ⟨m, t, hon⟩
      obtain ⟨rfl, haccepts, -⟩ := htaken hon
      exact haccepts
    · exact fun haccepts ↦ ⟨_, _, on_push_of_ok (check_eq_ok_iff.2 haccepts)⟩
  · exact hrefused
  · intro hgiven reason t hon
    obtain ⟨hfault, -⟩ := (hrefused _ t).1 hon
    cases hfault with
    | unreadable named index unread =>
      obtain ⟨document, hread⟩ := exists_document_of_detected hgiven index
      cases unread.symm.trans hread
  · intro m t hon
    obtain ⟨rfl, -, rfl⟩ := htaken hon
    refine ⟨rfl, rfl, rfl, fun r k ↦ ?_, fun r hr ↦ ?_⟩
    · rw [get?_insert]
      simp only [digest_ofBody, eq_comm]
    · exact Table.get?_insert_of_ne _ _ hr.symm

end Store

end ImageRegistry.Manifest
