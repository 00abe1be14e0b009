import ImageRegistry.Proofs.Manifest.Run
import ImageRegistry.Proofs.Text.Blank

/-!
# The manifests that an index lists

A client that gets an index from a repository can get each manifest that it lists from the same
repository. That is checked once, when the index is pushed (`Accepts.listed`), and the store changes
afterwards: tags and digests are overwritten, and pulls bring indexes that nobody has checked. It
stays true because no key ever leaves a store (`contains_run`), and because a manifest that a pull
brings has an origin and so is never taken for one that was pushed.
-/

namespace ImageRegistry.Manifest

/-! ### Media types of indexes -/

namespace Media

/-- The media type of an index: the name of one of the two kinds, with blanks around it, and after
that nothing, or a semicolon and parameters. -/
def NamesIndex (mediaType : String) : Prop :=
  ∃ media ∈ [imageIndex, manifestList], ∃ lead trail parameters : List Char,
    mediaType.toList = lead ++ media.name.toList ++ trail ++ parameters ∧
    (∀ c ∈ lead, Text.isBlank c = true) ∧ (∀ c ∈ trail, Text.isBlank c = true) ∧
    ∀ c ∈ parameters.head?, c = ';'

theorem essence_eq_iff {mediaType : String} {media : Media} :
    essence mediaType = media.name ↔ ∃ lead trail parameters : List Char,
      mediaType.toList = lead ++ media.name.toList ++ trail ++ parameters ∧
      (∀ c ∈ lead, Text.isBlank c = true) ∧ (∀ c ∈ trail, Text.isBlank c = true) ∧
      ∀ c ∈ parameters.head?, c = ';' := by
  have hbare : Text.IsBare media.name.toList := by cases media <;> decide
  have hne : media.name.toList ≠ [] := by cases media <;> decide
  have hplain : ';' ∉ media.name.toList := by cases media <;> decide
  have hblank {l : List Char} (h : ∀ c ∈ l, Text.isBlank c = true) : ∀ c ∈ l, c ≠ ';' := by
    rintro c hc rfl
    exact absurd (h _ hc) (by decide)
  have hessence : essence mediaType = media.name ↔
      Text.trim (mediaType.toList.takeWhile (· ≠ ';')) = media.name.toList := by
    rw [essence, ← String.toList_inj, String.toList_ofList]
  rw [hessence, Text.trim_eq_iff hbare hne]
  constructor
  · rintro ⟨lead, trail, heq, hlead, htrail⟩
    refine ⟨lead, trail, mediaType.toList.dropWhile (· ≠ ';'), ?_, hlead, htrail, fun c hc ↦ ?_⟩
    · rw [← heq, List.takeWhile_append_dropWhile]
    · have hhead := List.head?_dropWhile_not (· ≠ ';') mediaType.toList
      rw [Option.mem_def.1 hc] at hhead
      simpa using hhead
  · rintro ⟨lead, trail, parameters, heq, hlead, htrail, hparameters⟩
    refine ⟨lead, trail, ?_, hlead, htrail⟩
    have hbefore : ∀ c ∈ lead ++ media.name.toList ++ trail, decide (c ≠ ';') = true := by
      intro c hc
      rw [List.mem_append, List.mem_append] at hc
      rcases hc with (hc | hc) | hc
      · exact decide_eq_true (hblank hlead c hc)
      · exact decide_eq_true (ne_of_mem_of_not_mem hc hplain)
      · exact decide_eq_true (hblank htrail c hc)
    have hafter : parameters.takeWhile (· ≠ ';') = [] := by
      cases parameters with
      | nil => rfl
      | cons c rest => simp [hparameters c rfl]
    rw [heq, List.takeWhile_append_of_pos hbefore, hafter, List.append_nil]

/-- A media type is taken for that of an index exactly when it is one. -/
theorem isIndex_iff {mediaType : String} : isIndex mediaType = true ↔ NamesIndex mediaType := by
  rw [isIndex, Bool.or_eq_true, decide_eq_true_iff, decide_eq_true_iff, essence_eq_iff,
    essence_eq_iff]
  simp [NamesIndex]

end Media

namespace Store

/-- Every index that was pushed is a document, and the manifests that it lists are there. -/
def Closed (s : Store) : Prop :=
  ∀ repository key m, s.get? repository key = some m → m.origin = none → m.isIndex = true →
    ∃ document, Document.read? m.body = some document ∧
      ∀ digest ∈ document.manifests, (s.tableOf repository).contains digest = true

theorem closed_empty : (∅ : Store).Closed := by
  intro repository key m h
  cases h

/-- A manifest comes in with what it lists, and all else is where it was. -/
theorem Closed.insert {s : Store} (hs : s.Closed) {repository reference : String} {m : Manifest}
    (h : m.origin = none → s.Accepts repository reference m) :
    (s.insert repository reference m).Closed := by
  intro r k found hget horigin hindex
  -- Whether it is the new manifest or an old one, what it lists was there before.
  have hbefore : ∃ document, Document.read? found.body = some document ∧
      ∀ digest ∈ document.manifests, (s.tableOf r).contains digest = true := by
    rw [get?_insert] at hget
    split at hget
    · next hkey =>
      obtain ⟨rfl, -⟩ := hkey
      cases hget
      exact (h horigin).listed hindex
    · exact hs r k found hget horigin hindex
  obtain ⟨document, hread, hthere⟩ := hbefore
  refine ⟨document, hread, fun digest hmem ↦ ?_⟩
  rw [contains_tableOf_insert, hthere digest hmem, Bool.or_true]

theorem Closed.take {s : Store} (hs : s.Closed) (e : Event) : (s.take e).Closed := by
  have heffect := s.take_effect e
  generalize s.take e = t at heffect ⊢
  cases heffect with
  | refused => exact hs
  | pushed repository reference mediaType body accepts => exact hs.insert fun _ ↦ accepts
  | pulled repository reference identifier body => exact hs.insert fun h ↦ by cases h

theorem closed_run (events : List Event) : ((∅ : Store).run events).Closed :=
  run_induction closed_empty (fun _ e hs ↦ hs.take e) events

/-- Whatever is pushed and pulled, in whatever order: a manifest that was pushed, and whose media
type is that of an index, is a document, and each manifest that it lists is in the same repository
under its digest, and stays there whatever is pushed and pulled after that. -/
theorem index_closure_of_run (before after : List Event) (repository key : String) (m : Manifest) :
    let s := (∅ : Store).run before
    s.get? repository key = some m → m.origin = none → Media.NamesIndex m.mediaType →
      ∃ document, Document.read? m.body = some document ∧ ∀ digest ∈ document.manifests,
        (∃ child, s.get? repository digest = some child) ∧
          ∃ child, (s.run after).get? repository digest = some child := by
  intro s hget horigin hindex
  obtain ⟨document, hread, hthere⟩ :=
    closed_run before repository key m hget horigin (Media.isIndex_iff.2 hindex)
  refine ⟨document, hread, fun digest hmem ↦ ⟨?_, ?_⟩⟩
  · exact Table.contains_eq_true_iff.1 (hthere digest hmem)
  · exact Table.contains_eq_true_iff.1 (contains_run after (hthere digest hmem))

/-- An index with one manifest, whose tag then goes to another manifest while the tag of the index
goes to one that is pulled. -/
theorem index_closure_of_run_retagged :
    let digest := "sha256:44136fa355b3678a1146ad16f7e8649e94fb4fc21fe77e8310c060f61caaff8a"
    let index : ByteArray :=
      ("\x7b\"manifests\":[\x7b\"digest\":\"" ++ digest ++ "\"\x7d]\x7d").toUTF8
    let m := ofBody index (some "application/vnd.oci.image.index.v1+json; charset=utf-8") none
    let s := (∅ : Store).run [.push "library" "amd64" none "\x7b\x7d".toUTF8,
      .push "library" "multi" (some m.mediaType) index]
    let t := s.run [.push "library" "amd64" none "[]".toUTF8, .pull "library" "multi" "image" index]
    s.get? "library" "multi" = some m ∧ m.origin = none ∧ Media.NamesIndex m.mediaType ∧
      (∃ child, s.get? "library" digest = some child) ∧
        ∃ child, t.get? "library" digest = some child := by
  intro digest index m s t
  obtain ⟨hget, hisIndex, hlists⟩ : s.get? "library" "multi" = some m ∧ m.isIndex = true ∧
      (Document.read? m.body).map Document.manifests = some [digest] := by decide +kernel +revert
  have hindex : Media.NamesIndex m.mediaType := Media.isIndex_iff.1 hisIndex
  obtain ⟨document, hread, hthere⟩ := index_closure_of_run _
    [.push "library" "amd64" none "[]".toUTF8, .pull "library" "multi" "image" index]
    "library" "multi" m hget rfl hindex
  rw [hread, Option.map_some, Option.some.injEq] at hlists
  exact ⟨hget, rfl, hindex, hthere digest (by simp [hlists])⟩

end Store

end ImageRegistry.Manifest
