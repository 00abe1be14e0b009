import ImageRegistry.Proofs.Text.Blank
import ImageRegistry.Registry.Route

/-!
# The grammar of paths

`Spelled` is the grammar of the paths that address something: a repository, a word, and one part
behind it, or for the uploads of a repository nothing. The repository may hold slashes and all of
these words. Still no path can be read in two ways (`eq_of_spelled`), because the part behind the
last slash has no slash itself, nor has the word before it: so the last two parts tell the kind of
the route, and what is before them is the repository.

A path is classified by three cuts, each at the last occurrence of a word, and a cut that fails
falls through to the next one. Whatever a cut finds is spelled in the path, so each of them finds
the one thing that is spelled there or nothing; and the cut at its own word finds it, because an
occurrence that came later would stand in the last part, or in the slashes at the end.
-/

namespace ImageRegistry

/-! ### The last slash -/

namespace Text

variable {front front' last last' : List Char}

/-- What stands behind the last slash is known from the text. -/
theorem eq_of_last_slash (hlast : '/' ∉ last) (hlast' : '/' ∉ last')
    (h : front ++ '/' :: last = front' ++ '/' :: last') : front = front' ∧ last = last' := by
  have hsplit {front last : List Char} (hlast : '/' ∉ last) :
      splitFirst '/' (front ++ '/' :: last).reverse = some (last.reverse, front.reverse) := by
    refine splitFirst_eq_some_iff.2 ⟨by simp, ?_⟩
    rwa [List.mem_reverse]
  have hsame := (hsplit hlast).symm.trans (h ▸ hsplit hlast')
  rw [Option.some.injEq, Prod.mk.injEq, List.reverse_inj, List.reverse_inj] at hsame
  exact ⟨hsame.2, hsame.1⟩

/-- Slashes behind a last part are all that is dropped at the end. -/
theorem dropTrailing_slashes (front : List Char) (hlast : '/' ∉ last) (hne : last ≠ []) (n : Nat) :
    dropTrailing (· = '/') (front ++ last ++ .replicate n '/') = front ++ last := by
  obtain ⟨before, c, rfl⟩ := (List.eq_nil_or_concat last).resolve_left hne
  have hc : c ≠ '/' := fun hc ↦ hlast (by simp [hc])
  rw [dropTrailing, List.reverse_append, List.reverse_replicate,
    List.dropWhile_append_of_pos (by simp)]
  simp [hc]

/-- Slashes at the end do not count, as long as there is something before them. -/
theorem eq_of_last_part {n m : Nat} (hlast : '/' ∉ last) (hlast' : '/' ∉ last') (hne : last ≠ [])
    (hne' : last' ≠ [])
    (h : front ++ '/' :: last ++ .replicate n '/' = front' ++ '/' :: last' ++ .replicate m '/') :
    front = front' ∧ last = last' ∧ n = m := by
  have htrimmed {front last : List Char} (hlast : '/' ∉ last) (hne : last ≠ []) (n : Nat) :
      dropTrailing (· = '/') (front ++ '/' :: last ++ .replicate n '/') = front ++ '/' :: last := by
    simpa using dropTrailing_slashes (front ++ ['/']) hlast hne n
  have hfront := (htrimmed hlast hne n).symm.trans ((congrArg _ h).trans (htrimmed hlast' hne' m))
  obtain ⟨rfl, rfl⟩ := eq_of_last_slash hlast hlast' hfront
  refine ⟨rfl, rfl, ?_⟩
  simpa using congrArg List.length h

/-! ### Cuts at the last word -/

/-- Where a word occurs, its last occurrence is there or behind. -/
theorem exists_splitLast {mark : List Char} (hmark : mark ≠ []) (front back : List Char) :
    ∃ before after, splitLast mark (front ++ mark ++ back) = some (before, after) ∧
      before ++ mark ++ after = front ++ mark ++ back ∧ after <:+ back := by
  cases hcut : splitLast mark (front ++ mark ++ back) with
  | none => exact absurd ⟨front, back, rfl⟩ ((splitLast_eq_none_iff hmark).1 hcut)
  | some cut =>
    obtain ⟨before, after⟩ := cut
    have htext := eq_of_splitLast hcut
    have hafter : after <:+ front ++ mark ++ back := ⟨before ++ mark, htext.symm⟩
    exact ⟨before, after, rfl, htext.symm, List.suffix_of_suffix_length_le hafter
      (List.suffix_append _ _) (length_le_of_splitLast hmark hcut rfl)⟩

/-- A word that ends with a slash is cut at before the last part. -/
theorem splitLast_of_part (word : List Char) (hlast : '/' ∉ last) :
    splitLast (word ++ ['/']) (front ++ (word ++ ['/']) ++ last) = some (front, last) := by
  have hmark : word ++ ['/'] ≠ [] := by simp
  obtain ⟨before, after, hcut, htext, hafter⟩ := exists_splitLast hmark front last
  have hsame : before ++ word ++ '/' :: after = front ++ word ++ '/' :: last := by
    simpa using htext
  obtain ⟨hword, hpart⟩ := eq_of_last_slash (fun h ↦ hlast (hafter.subset h)) hlast hsame
  rw [hcut, List.append_cancel_right hword, hpart]

/-- Two words at the end are cut at, whatever slashes are behind them. -/
theorem splitLast_of_slashes (first : List Char) {second : List Char} (hsecond : '/' ∉ second)
    (hne : second ≠ []) (n : Nat) :
    splitLast (first ++ '/' :: second) (front ++ (first ++ '/' :: second) ++ .replicate n '/') =
      some (front, .replicate n '/') := by
  have hmark : first ++ '/' :: second ≠ [] := by simp
  obtain ⟨before, after, hcut, htext, hafter⟩ := exists_splitLast hmark front (.replicate n '/')
  obtain ⟨m, rfl⟩ : ∃ m, after = .replicate m '/' :=
    ⟨_, List.eq_replicate_iff.2 ⟨rfl, fun c hc ↦ List.eq_of_mem_replicate (hafter.subset hc)⟩⟩
  have hsame : before ++ first ++ '/' :: second ++ .replicate m '/' =
      front ++ first ++ '/' :: second ++ .replicate n '/' := by simpa using htext
  obtain ⟨hbefore, -, rfl⟩ := eq_of_last_part hsecond hsecond hne hne hsame
  rw [hcut, List.append_cancel_right hbefore]

/-- Two different words are cut at before the last part, whatever slashes are behind that. -/
theorem splitLast_of_part_slashes {first second : List Char} (hfirst : '/' ∉ first)
    (hsecond : '/' ∉ second) (hne : second ≠ []) (hwords : first ≠ second) (hlast : '/' ∉ last)
    (hpart : last ≠ []) (n : Nat) :
    splitLast ('/' :: first ++ '/' :: second)
        (front ++ ('/' :: first ++ '/' :: second) ++ ('/' :: last ++ .replicate n '/')) =
      some (front, '/' :: last ++ .replicate n '/') := by
  have hmark : '/' :: first ++ '/' :: second ≠ [] := by simp
  obtain ⟨before, after, hcut, htext, hafter⟩ :=
    exists_splitLast hmark front ('/' :: last ++ .replicate n '/')
  rcases List.suffix_cons_iff.1 hafter with hall | hlater
  · obtain rfl : after = '/' :: last ++ .replicate n '/' := hall
    rw [hcut, List.append_cancel_right (List.append_cancel_right htext)]
  · -- A later occurrence has its second word in the last part, so the first one is `second`.
    obtain ⟨rest, m, hrest, rfl⟩ :
        ∃ rest m, '/' ∉ rest ∧ after = rest ++ .replicate m '/' := by
      obtain ⟨lead, hlead⟩ := hlater
      rcases List.append_eq_append_iff.1 hlead with ⟨rest, rfl, rfl⟩ | ⟨slashes, rfl, hslashes⟩
      · exact ⟨rest, n, fun h ↦ hlast (List.mem_append_right _ h), rfl⟩
      · refine ⟨[], after.length, by simp, List.eq_replicate_iff.2 ⟨rfl, fun c hc ↦ ?_⟩⟩
        exact List.eq_of_mem_replicate (hslashes ▸ List.mem_append_right _ hc)
    have hsame : before ++ '/' :: first ++ '/' :: (second ++ rest) ++ .replicate m '/' =
        front ++ '/' :: first ++ '/' :: second ++ '/' :: last ++ .replicate n '/' := by
      simpa using htext
    obtain ⟨hfront, -, -⟩ := eq_of_last_part (by simp [hsecond, hrest]) hlast (by simp [hne])
      hpart hsame
    exact absurd (eq_of_last_slash hfirst hsecond hfront).2 hwords

end Text

namespace Route

/-! ### The grammar -/

/-- A text is one part of a path: it is not empty, and it has no slash. -/
def IsPart (text : String) : Prop := text ≠ "" ∧ '/' ∉ text.toList

instance (text : String) : Decidable (IsPart text) := inferInstanceAs (Decidable (_ ∧ _))

/-- The paths that stand for a route, with the number of slashes at the end. -/
inductive Spelled : Route → Nat → List Char → Prop where
  | upload {id : String} (repository : String) (slashes : Nat) (part : IsPart id) :
    Spelled (.upload repository id) slashes
      (repository.toList ++ "/blobs/uploads/".toList ++ id.toList ++ .replicate slashes '/')
  | uploads (repository : String) {slashes : Nat} (one : slashes ≤ 1) :
    Spelled (.uploads repository) slashes
      (repository.toList ++ "/blobs/uploads".toList ++ .replicate slashes '/')
  | manifest {reference : String} (repository : String) (part : IsPart reference) :
    Spelled (.manifest repository reference) 0
      (repository.toList ++ "/manifests/".toList ++ reference.toList)
  | blob {digest : String} (repository : String) (part : IsPart digest)
      (other : digest ≠ "uploads") :
    Spelled (.blob repository digest) 0
      (repository.toList ++ "/blobs/".toList ++ digest.toList)

/-! ### No path is read in two ways -/

/-- The last part of the path of a route. -/
def last : Route → List Char
  | manifest _ reference => reference.toList
  | blob _ digest => digest.toList
  | uploads _ => "uploads".toList
  | upload _ id => id.toList

/-- The part before the last one, which is the word of the route. -/
def word : Route → List Char
  | manifest _ _ => "manifests".toList
  | blob _ _ => "blobs".toList
  | uploads _ => "blobs".toList
  | upload _ _ => "uploads".toList

/-- What is before the last two parts. -/
def stem : Route → List Char
  | manifest repository _ => repository.toList
  | blob repository _ => repository.toList
  | uploads repository => repository.toList
  | upload repository _ => repository.toList ++ "/blobs".toList

variable {route other : Route} {slashes others : Nat} {path : List Char}

theorem slash_not_mem_word (route : Route) : '/' ∉ route.word := by
  cases route with
  | manifest => exact (by decide : '/' ∉ "manifests".toList)
  | blob | uploads => exact (by decide : '/' ∉ "blobs".toList)
  | upload => exact (by decide : '/' ∉ "uploads".toList)

/-- The last part of a path is one part, whatever is spelled. -/
theorem Spelled.part (h : Spelled route slashes path) : route.last ≠ [] ∧ '/' ∉ route.last := by
  cases h with
  | upload _ _ part | manifest _ part | blob _ part =>
    exact ⟨fun hnil ↦ part.1 (String.toList_eq_nil_iff.1 hnil), part.2⟩
  | uploads => exact (by decide : "uploads".toList ≠ [] ∧ '/' ∉ "uploads".toList)

theorem Spelled.eq_parts (h : Spelled route slashes path) :
    path = route.stem ++ '/' :: route.word ++ '/' :: route.last ++ .replicate slashes '/' := by
  have hword (before word part : List Char) :
      before ++ ('/' :: word ++ ['/']) ++ part = before ++ '/' :: word ++ '/' :: part := by simp
  have hfirst (before word rest : List Char) :
      before ++ ('/' :: word ++ rest) = before ++ '/' :: word ++ rest := by simp
  cases h with
  | @upload id repository slashes part =>
    have hparts : repository.toList ++ "/blobs/uploads/".toList = _ :=
      hfirst repository.toList "blobs".toList ('/' :: "uploads".toList ++ ['/'])
    rw [hparts]
    exact congrArg (· ++ _) (hword _ "uploads".toList id.toList)
  | uploads repository one =>
    exact congrArg (· ++ _) (hfirst repository.toList "blobs".toList ('/' :: "uploads".toList))
  | @manifest reference repository part =>
    exact (hword repository.toList "manifests".toList reference.toList).trans
      (List.append_nil _).symm
  | @blob digest repository part other =>
    exact (hword repository.toList "blobs".toList digest.toList).trans (List.append_nil _).symm

/-- The last two parts, and what is before them, are those of one route. -/
theorem Spelled.eq_of_parts {path' : List Char} (h : Spelled route slashes path)
    (h' : Spelled other others path') (hstem : route.stem = other.stem)
    (hword : route.word = other.word) (hlast : route.last = other.last) : route = other := by
  have hne {a b : String} (h : a ≠ b) (hsame : a.toList = b.toList) : False :=
    h (String.toList_inj.1 hsame)
  cases h with
  | upload repository slashes part =>
    cases h' with
    | upload =>
      rw [String.toList_inj.1 (List.append_cancel_right hstem), String.toList_inj.1 hlast]
    | uploads | blob => exact (hne (by decide : "uploads" ≠ "blobs") hword).elim
    | manifest => exact (hne (by decide : "uploads" ≠ "manifests") hword).elim
  | uploads repository one =>
    cases h' with
    | upload => exact (hne (by decide : "blobs" ≠ "uploads") hword).elim
    | uploads => rw [String.toList_inj.1 hstem]
    | manifest => exact (hne (by decide : "blobs" ≠ "manifests") hword).elim
    | blob _ _ other => exact (hne other hlast.symm).elim
  | manifest repository part =>
    cases h' with
    | upload => exact (hne (by decide : "manifests" ≠ "uploads") hword).elim
    | uploads | blob => exact (hne (by decide : "manifests" ≠ "blobs") hword).elim
    | manifest => rw [String.toList_inj.1 hstem, String.toList_inj.1 hlast]
  | blob repository part other =>
    cases h' with
    | upload => exact (hne (by decide : "blobs" ≠ "uploads") hword).elim
    | uploads => exact (hne other hlast).elim
    | manifest => exact (hne (by decide : "blobs" ≠ "manifests") hword).elim
    | blob => rw [String.toList_inj.1 hstem, String.toList_inj.1 hlast]

/-- A path spells one route at most, and in one way. -/
theorem eq_of_spelled (h : Spelled route slashes path) (h' : Spelled other others path) :
    route = other ∧ slashes = others := by
  have hpath := h.eq_parts.symm.trans h'.eq_parts
  obtain ⟨hne, hlast⟩ := h.part
  obtain ⟨hne', hlast'⟩ := h'.part
  obtain ⟨hfront, hlasts, hslashes⟩ := Text.eq_of_last_part hlast hlast' hne hne' hpath
  obtain ⟨hstem, hword⟩ :=
    Text.eq_of_last_slash route.slash_not_mem_word other.slash_not_mem_word hfront
  exact ⟨h.eq_of_parts h' hstem hword hlasts, hslashes⟩

/-! ### What is found is spelled -/

theorem isPart_eq_true_iff {text : List Char} :
    isPart text = true ↔ IsPart (String.ofList text) := by
  rw [isPart, IsPart, Bool.and_eq_true, Bool.not_eq_true', Bool.not_eq_true', String.toList_ofList,
    List.isEmpty_eq_false_iff, ne_eq, ne_eq, ← String.toList_eq_nil_iff, String.toList_ofList,
    List.contains_eq_mem, decide_eq_false_iff_not]

theorem spelled_of_uploadOf? (hfound : uploadOf? path = some route) :
    ∃ n, Spelled route n path := by
  obtain ⟨⟨before, rest⟩, hcut, h⟩ := Option.bind_eq_some_iff.1 hfound
  obtain rfl := Text.eq_of_splitLast hcut
  have hpath (rest : List Char) : (String.ofList before).toList ++ "/blobs/uploads".toList ++ rest =
      before ++ uploadsWord ++ rest := congrArg (· ++ uploadsWord ++ rest) String.toList_ofList
  dsimp only at h
  split at h
  · next hrest =>
    obtain rfl := Option.some.inj h
    rw [← hpath]
    rcases hrest with rfl | rfl
    · exact ⟨0, .uploads (String.ofList before) (Nat.zero_le 1)⟩
    · exact ⟨1, .uploads (String.ofList before) (Nat.le_refl 1)⟩
  · obtain ⟨behind, hbehind, h⟩ := Option.bind_eq_some_iff.1 h
    split at h
    · next hpart =>
      obtain rfl := Option.some.inj h
      obtain ⟨trail, htrail, hslashes⟩ := Text.exists_eq_dropTrailing (· = '/') behind
      have hreplicate : trail = .replicate trail.length '/' :=
        List.eq_replicate_iff.2 ⟨rfl, fun c hc ↦ by simpa using hslashes c hc⟩
      have hspelled := Spelled.upload (String.ofList before) trail.length
        (isPart_eq_true_iff.1 hpart)
      have hsame : (String.ofList before).toList ++ "/blobs/uploads/".toList ++
          (String.ofList (Text.dropTrailing (· = '/') behind)).toList ++
            .replicate trail.length '/' = before ++ uploadsWord ++ rest := by
        rw [← hpath, Text.stripLead?_eq_some_iff.1 hbehind, List.append_assoc, ← hreplicate,
          String.toList_ofList (l := Text.dropTrailing _ behind), ← htrail]
        exact congrArg (· ++ behind) (List.append_assoc _ "/blobs/uploads".toList ['/']).symm
          |>.trans (List.append_assoc ..)
      exact ⟨trail.length, hsame ▸ hspelled⟩
    · cases h

theorem spelled_of_manifestOf? (hfound : manifestOf? path = some route) :
    ∃ n, Spelled route n path := by
  obtain ⟨⟨before, rest⟩, hcut, h⟩ := Option.bind_eq_some_iff.1 hfound
  obtain rfl := Text.eq_of_splitLast hcut
  have hpath : (String.ofList before).toList ++ "/manifests/".toList ++
      (String.ofList rest).toList = before ++ manifestsWord ++ rest :=
    congrArg₂ (· ++ manifestsWord ++ ·) String.toList_ofList String.toList_ofList
  dsimp only at h
  split at h
  · next hpart =>
    obtain rfl := Option.some.inj h
    rw [← hpath]
    exact ⟨0, .manifest _ (isPart_eq_true_iff.1 hpart)⟩
  · cases h

/-! ### What is spelled is found -/

theorem IsPart.toList_ne_nil {text : String} (h : IsPart text) : text.toList ≠ [] :=
  fun hnil ↦ h.1 (String.toList_eq_nil_iff.1 hnil)

theorem IsPart.isPart {text : String} (h : IsPart text) : isPart text.toList = true := by
  rw [isPart_eq_true_iff, String.ofList_toList]
  exact h

theorem uploadOf?_of_uploads (repository : String) {n : Nat} (one : n ≤ 1) :
    uploadOf? (repository.toList ++ "/blobs/uploads".toList ++ .replicate n '/') =
      some (.uploads repository) := by
  have hcut : Text.splitLast uploadsWord
      (repository.toList ++ "/blobs/uploads".toList ++ .replicate n '/') =
        some (repository.toList, .replicate n '/') :=
    Text.splitLast_of_slashes "/blobs".toList (by decide : '/' ∉ "uploads".toList) (by decide) n
  have hrest : List.replicate n '/' = [] ∨ List.replicate n '/' = ['/'] := by
    obtain rfl | rfl : n = 0 ∨ n = 1 := by omega
    · exact Or.inl rfl
    · exact Or.inr rfl
  rw [uploadOf?, hcut, Option.bind_eq_bind, Option.bind_some]
  dsimp only
  rw [if_pos hrest, String.ofList_toList]
  rfl

theorem uploadOf?_of_upload (repository : String) {id : String} (part : IsPart id) (n : Nat) :
    uploadOf? (repository.toList ++ "/blobs/uploads/".toList ++ id.toList ++ .replicate n '/') =
      some (.upload repository id) := by
  have hcut : Text.splitLast uploadsWord (repository.toList ++ uploadsWord ++
      ('/' :: id.toList ++ .replicate n '/')) =
        some (repository.toList, '/' :: id.toList ++ .replicate n '/') :=
    Text.splitLast_of_part_slashes (by decide : '/' ∉ "blobs".toList)
      (by decide : '/' ∉ "uploads".toList) (by decide) (by decide) part.2 part.toList_ne_nil n
  have hpath : repository.toList ++ "/blobs/uploads/".toList ++ id.toList ++ .replicate n '/' =
      repository.toList ++ uploadsWord ++ ('/' :: id.toList ++ .replicate n '/') := by
    have hword : "/blobs/uploads/".toList = uploadsWord ++ ['/'] := rfl
    rw [hword]
    generalize repository.toList = before
    generalize id.toList = last
    simp
  have hmore : ¬ ('/' :: id.toList ++ List.replicate n '/' = [] ∨
      '/' :: id.toList ++ List.replicate n '/' = ['/']) := by
    simp [part.toList_ne_nil]
  have hid : Text.dropTrailing (· = '/') (id.toList ++ .replicate n '/') = id.toList :=
    Text.dropTrailing_slashes [] part.2 part.toList_ne_nil n
  have hstrip : Text.stripLead? ['/'] ('/' :: id.toList ++ .replicate n '/') =
      some (id.toList ++ .replicate n '/') := Text.stripLead?_eq_some_iff.2 rfl
  rw [hpath, uploadOf?, hcut, Option.bind_eq_bind, Option.bind_some]
  dsimp only
  rw [if_neg hmore, hstrip, Option.bind_eq_bind, Option.bind_some, hid, if_pos part.isPart,
    String.ofList_toList, String.ofList_toList]
  rfl

theorem manifestOf?_of_manifest (repository : String) {reference : String}
    (part : IsPart reference) :
    manifestOf? (repository.toList ++ "/manifests/".toList ++ reference.toList) =
      some (.manifest repository reference) := by
  have hcut : Text.splitLast manifestsWord
      (repository.toList ++ "/manifests/".toList ++ reference.toList) =
        some (repository.toList, reference.toList) :=
    Text.splitLast_of_part "/manifests".toList part.2
  rw [manifestOf?, hcut]
  simp [part.isPart]

theorem blobOf?_of_blob (repository : String) {digest : String} (part : IsPart digest) :
    blobOf? (repository.toList ++ "/blobs/".toList ++ digest.toList) =
      some (.blob repository digest) := by
  have hcut : Text.splitLast blobsWord (repository.toList ++ "/blobs/".toList ++ digest.toList) =
      some (repository.toList, digest.toList) := Text.splitLast_of_part "/blobs".toList part.2
  rw [blobOf?, hcut]
  simp [part.isPart]

/-! ### Three cuts in turn -/

/-- The third cut comes after the first one, so what it finds is not a path of uploads. -/
theorem spelled_of_blobOf? (hnone : uploadOf? path = none) (hfound : blobOf? path = some route) :
    ∃ n, Spelled route n path := by
  obtain ⟨⟨before, rest⟩, hcut, h⟩ := Option.bind_eq_some_iff.1 hfound
  obtain rfl := Text.eq_of_splitLast hcut
  have hpath : (String.ofList before).toList ++ "/blobs/".toList ++
      (String.ofList rest).toList = before ++ blobsWord ++ rest :=
    congrArg₂ (· ++ blobsWord ++ ·) String.toList_ofList String.toList_ofList
  dsimp only at h
  split at h
  · next hpart =>
    obtain rfl := Option.some.inj h
    rw [← hpath] at hnone ⊢
    refine ⟨0, .blob _ (isPart_eq_true_iff.1 hpart) fun huploads ↦ ?_⟩
    have hword : (String.ofList before).toList ++ "/blobs/".toList ++ "uploads".toList =
        (String.ofList before).toList ++ "/blobs/uploads".toList ++ .replicate 0 '/' :=
      (List.append_assoc ..).trans (List.append_nil _).symm
    rw [huploads, hword, uploadOf?_of_uploads _ (Nat.zero_le 1)] at hnone
    cases hnone
  · cases h

/-- The first cut finds what is spelled, or nothing. -/
theorem uploadOf?_of_spelled (h : Spelled route slashes path) :
    uploadOf? path = none ∨ uploadOf? path = some route := by
  cases hfound : uploadOf? path with
  | none => exact Or.inl rfl
  | some found =>
    obtain ⟨n, hspelled⟩ := spelled_of_uploadOf? hfound
    rw [(eq_of_spelled hspelled h).1]
    exact Or.inr rfl

/-- So does the second cut. -/
theorem manifestOf?_of_spelled (h : Spelled route slashes path) :
    manifestOf? path = none ∨ manifestOf? path = some route := by
  cases hfound : manifestOf? path with
  | none => exact Or.inl rfl
  | some found =>
    obtain ⟨n, hspelled⟩ := spelled_of_manifestOf? hfound
    rw [(eq_of_spelled hspelled h).1]
    exact Or.inr rfl

/-- One of the three cuts finds what is spelled. -/
theorem found_of_spelled (h : Spelled route slashes path) :
    uploadOf? path = some route ∨ manifestOf? path = some route ∨ blobOf? path = some route := by
  cases h with
  | upload repository _ part => exact Or.inl (uploadOf?_of_upload repository part _)
  | uploads repository one => exact Or.inl (uploadOf?_of_uploads repository one)
  | manifest repository part => exact Or.inr (Or.inl (manifestOf?_of_manifest repository part))
  | blob repository part other => exact Or.inr (Or.inr (blobOf?_of_blob repository part))

/-- The characters of a path, without the slashes in front. -/
def pathOf (text : String) : List Char := text.toList.dropWhile (· = '/')

/-- What a path addresses is what is spelled in it. -/
theorem ofPath?_eq_some_iff {text : String} :
    ofPath? text = some route ↔ ∃ n, Spelled route n (pathOf text) := by
  have hdef : ofPath? text = (uploadOf? (pathOf text)).orElse fun _ ↦
      (manifestOf? (pathOf text)).orElse fun _ ↦ blobOf? (pathOf text) := rfl
  rw [hdef]
  generalize pathOf text = path
  constructor
  · intro h
    cases hupload : uploadOf? path with
    | some found =>
      rw [hupload, Option.orElse_some] at h
      exact spelled_of_uploadOf? (hupload.trans h)
    | none =>
      rw [hupload, Option.orElse_none] at h
      cases hmanifest : manifestOf? path with
      | some found =>
        rw [hmanifest, Option.orElse_some] at h
        exact spelled_of_manifestOf? (hmanifest.trans h)
      | none =>
        rw [hmanifest, Option.orElse_none] at h
        exact spelled_of_blobOf? hupload h
  · rintro ⟨n, h⟩
    rcases uploadOf?_of_spelled h with hupload | hupload
    · rcases manifestOf?_of_spelled h with hmanifest | hmanifest
      · rw [hupload, hmanifest, Option.orElse_none, Option.orElse_none]
        simpa [hupload, hmanifest] using found_of_spelled h
      · rw [hupload, hmanifest, Option.orElse_none, Option.orElse_some]
    · rw [hupload, Option.orElse_some]

/-! ### Repositories -/

/-- A path begins with the repository, and goes on with a slash. -/
theorem Spelled.begins (h : Spelled route slashes path) :
    ∃ rest, path = route.repository.toList ++ '/' :: rest := by
  have hwords : ∃ more, route.stem ++ '/' :: route.word =
      route.repository.toList ++ '/' :: more := by
    cases route with
    | manifest | blob | uploads => exact ⟨_, rfl⟩
    | upload repository id => exact ⟨_, List.append_assoc repository.toList _ _⟩
  obtain ⟨more, hmore⟩ := hwords
  refine ⟨more ++ '/' :: route.last ++ .replicate slashes '/', ?_⟩
  rw [h.eq_parts, hmore]
  simp only [List.append_assoc, List.cons_append]

theorem head?_pathOf (text : String) : (pathOf text).head? ≠ some '/' := by
  intro hhead
  have hslash := List.head?_dropWhile_not (fun c : Char ↦ decide (c = '/')) text.toList
  rw [pathOf] at hhead
  rw [hhead] at hslash
  cases hslash

/-- So the repository is not empty, and does not begin with a slash. -/
theorem Spelled.repository_of_pathOf {text : String} (h : Spelled route slashes (pathOf text)) :
    route.repository ≠ "" ∧ route.repository.toList.head? ≠ some '/' := by
  obtain ⟨rest, hrest⟩ := h.begins
  have hhead := head?_pathOf text
  rw [hrest, List.head?_append] at hhead
  constructor
  · intro hempty
    rw [hempty] at hhead
    exact hhead rfl
  · intro hslash
    rw [hslash] at hhead
    exact hhead rfl

/-- The path of a route is one of those that stand for it. -/
theorem Spelled.spelled_path (h : Spelled route slashes path) :
    ∃ n, Spelled route n route.path.toList := by
  cases h with
  | @upload id repository slashes part =>
    have hpath : (Route.upload repository id).path.toList =
        repository.toList ++ "/blobs/uploads/".toList ++ id.toList ++ .replicate 0 '/' := by
      rw [Route.path, String.toList_append, String.toList_append]
      exact (List.append_nil _).symm
    exact ⟨0, hpath ▸ .upload repository 0 part⟩
  | uploads repository one =>
    have hpath : (Route.uploads repository).path.toList =
        repository.toList ++ "/blobs/uploads".toList ++ .replicate 1 '/' := by
      rw [Route.path, String.toList_append]
      exact (List.append_assoc repository.toList "/blobs/uploads".toList ['/']).symm
    exact ⟨1, hpath ▸ .uploads repository (Nat.le_refl 1)⟩
  | @manifest reference repository part =>
    have hpath : (Route.manifest repository reference).path.toList =
        repository.toList ++ "/manifests/".toList ++ reference.toList := by
      rw [Route.path, String.toList_append, String.toList_append]
    exact ⟨0, hpath ▸ .manifest repository part⟩
  | @blob digest repository part other =>
    have hpath : (Route.blob repository digest).path.toList =
        repository.toList ++ "/blobs/".toList ++ digest.toList := by
      rw [Route.path, String.toList_append, String.toList_append]
    exact ⟨0, hpath ▸ .blob repository part other⟩

theorem pathOf_of_spelled {text : String} (h : Spelled route slashes text.toList)
    (hne : route.repository ≠ "") (hhead : route.repository.toList.head? ≠ some '/') :
    pathOf text = text.toList := by
  obtain ⟨rest, hrest⟩ := h.begins
  refine Text.dropWhile_eq_self fun c hc ↦ decide_eq_false ?_
  rintro rfl
  obtain ⟨first, more, hmore⟩ :=
    List.exists_cons_of_ne_nil (mt String.toList_eq_nil_iff.1 hne)
  rw [hmore] at hrest hhead
  rw [hrest] at hc
  exact hhead hc

/-- A path is read as the route that is spelled in it, and as nothing when none is. One is spelled
in it at most, in one way, and its repository is not empty and does not begin with a slash. So what
can be spelled at all is read back from its path exactly if its repository is like that, whatever
words stand in it. -/
theorem read_iff_spelled :
    (∀ text,
      (∀ route, ofPath? text = some route ↔ ∃ n, Spelled route n (pathOf text)) ∧
      (ofPath? text = none ↔ ∀ route n, ¬ Spelled route n (pathOf text)) ∧
      (∀ route other n m, Spelled route n (pathOf text) → Spelled other m (pathOf text) →
        route = other ∧ n = m) ∧
      ∀ route, ofPath? text = some route →
        route.repository ≠ "" ∧ route.repository.toList.head? ≠ some '/') ∧
    ∀ route n path, Spelled route n path → (ofPath? route.path = some route ↔
      route.repository ≠ "" ∧ route.repository.toList.head? ≠ some '/') := by
  have hrepository {text : String} {route : Route} (h : ofPath? text = some route) :
      route.repository ≠ "" ∧ route.repository.toList.head? ≠ some '/' := by
    obtain ⟨n, hspelled⟩ := ofPath?_eq_some_iff.1 h
    exact hspelled.repository_of_pathOf
  refine ⟨fun text ↦ ⟨fun route ↦ ofPath?_eq_some_iff, ?_,
    fun route other n m h h' ↦ eq_of_spelled h h', fun route ↦ hrepository⟩,
    fun route n path h ↦ ⟨hrepository, fun ⟨hne, hhead⟩ ↦ ?_⟩⟩
  · rw [Option.eq_none_iff_forall_ne_some]
    exact forall_congr' fun route ↦ (not_congr ofPath?_eq_some_iff).trans not_exists
  · obtain ⟨m, hpath⟩ := h.spelled_path
    exact ofPath?_eq_some_iff.2 ⟨m, (pathOf_of_spelled hpath hne hhead).symm ▸ hpath⟩

/-- Words in the name of a repository, slashes in front and slashes behind. -/
theorem read_iff_spelled_words :
    let text := "//blobs/uploads/manifests/tools/blobs/uploads/1234//"
    let route : Route := .upload "blobs/uploads/manifests/tools" "1234"
    ofPath? text = some route ∧ Spelled route 2 (pathOf text) ∧
      ofPath? route.path = some route := by
  intro text route
  have hpath : pathOf text = route.repository.toList ++ "/blobs/uploads/".toList ++
      "1234".toList ++ .replicate 2 '/' := by decide +kernel
  have hspelled : Spelled route 2 (pathOf text) :=
    hpath ▸ .upload _ 2 (by decide : IsPart "1234")
  obtain ⟨hread, hback⟩ := read_iff_spelled
  obtain ⟨hroute, -, -, hrepository⟩ := hread text
  have htext : ofPath? text = some route := (hroute route).2 ⟨2, hspelled⟩
  exact ⟨htext, hspelled, (hback route 2 _ hspelled).2 (hrepository route htext)⟩

end Route

end ImageRegistry
