import ImageRegistry.Proofs.Remote.Fragment

/-!
# Addresses with a scheme

An address that was read and has a scheme is made of parts that can be written again: a scheme, an
authority and a path (`exists_isPlace`). With another path in the same place, and a query behind it,
these parts are read as they are (`parse?_of_isPlace`), because the scheme ends at its colon, the
authority at the first slash behind it, and the path at the first question mark.
-/

namespace ImageRegistry

namespace Uri

variable {u : Uri} {text scheme authority path query : List Char}

/-! ### Schemes and authorities -/

theorem normalScheme_normalScheme (scheme : List Char) :
    normalScheme (normalScheme scheme) = normalScheme scheme := by
  by_cases h : scheme.map Char.toLower = "http".toList ∨ scheme.map Char.toLower = "https".toList
  · have hsmall : normalScheme scheme = scheme.map Char.toLower := if_pos h
    rw [hsmall]
    rcases h with h | h <;> rw [h] <;> decide
  · have hsame : normalScheme scheme = scheme := if_neg h
    rw [hsame, hsame]

theorem length_normalScheme (scheme : List Char) :
    (normalScheme scheme).length = scheme.length := by
  rw [normalScheme]
  split
  · exact List.length_map _
  · rfl

/-- A scheme as it is kept, and an authority, as they stand at the beginning of an address. -/
structure IsPlace (scheme authority : List Char) : Prop where
  normal : normalScheme scheme = scheme
  plain : ∀ c ∈ scheme, isSchemeChar c = true
  short : scheme.length ≤ maxScheme
  named : authority ≠ []
  valid : isAuthority authority = true
  whole : ∀ c ∈ authority, endsAuthority c = false

theorem isPlace_of_absolute? {after : List Char} (hplain : ∀ c ∈ scheme, isSchemeChar c = true)
    (hshort : scheme.length ≤ maxScheme) (h : absolute? scheme after = some u) :
    IsPlace (normalScheme scheme) (after.takeWhile (!endsAuthority ·)) := by
  obtain ⟨hnamed, hvalid, -⟩ := isSome_absolute?.1 (Option.isSome_of_eq_some h)
  exact ⟨normalScheme_normalScheme scheme, isSchemeChar_of_mem_normalScheme hplain,
    (length_normalScheme scheme).trans_le hshort, hnamed, hvalid,
    fun c hc ↦ by simpa using List.mem_takeWhile_imp hc⟩

/-! ### Paths -/

/-- A path as it stands behind an authority. -/
structure IsPath (path : List Char) : Prop where
  rooted : ∀ c ∈ path.head?, c = '/'
  plain : ∀ c ∈ path, isPathChar c = true ∧ c ≠ '?' ∧ c ≠ '#'

/-- A path is read up to the first of the marks that end it. -/
theorem isPath_of_pathQuery? (hstart : ∀ c ∈ text.head?, endsAuthority c = true)
    (h : pathQuery? text = some (u.path, u.query)) : IsPath u.path.toList := by
  obtain ⟨hkept, hquery⟩ := of_pathQuery? h
  rw [String.toList_append] at hkept
  have hhash : '#' ∉ u.path.toList := fun hmem ↦
    hash_not_mem_beforeFragment text (hkept ▸ List.mem_append_left _ hmem)
  have hchars := ((isSome_pathQuery? text).1 (Option.isSome_of_eq_some h)).1
  rw [← beforeFragment, ← hkept,
    List.takeWhile_append_of_pos (decide_ne_of_not_mem hquery)] at hchars
  refine ⟨fun c hc ↦ ?_, fun c hc ↦ ⟨hchars c (List.mem_append_left _ hc), ?_, ?_⟩⟩
  · -- Of the characters that end an authority only the slash stands in a path.
    obtain ⟨rest, hpath⟩ := List.head?_eq_some_iff.1 hc
    have hfirst : text.head? = some c := by
      rw [hpath, List.cons_append] at hkept
      have hhead := congrArg List.head? hkept
      rw [List.head?_cons, beforeFragment, List.head?_takeWhile] at hhead
      exact (Option.filter_eq_some_iff.1 hhead.symm).1
    have hends := hstart c hfirst
    have hmem : c ∈ u.path.toList := List.mem_of_mem_head? hc
    simp only [endsAuthority, Bool.or_eq_true, decide_eq_true_eq] at hends
    rcases hends with (hslash | rfl) | rfl
    · exact hslash
    · exact absurd hmem hquery
    · exact absurd hmem hhash
  · rintro rfl
    exact hquery hc
  · rintro rfl
    exact hhash hc

/-- What stands behind an authority begins with a mark that ends it. -/
theorem isPath_of_absolute? {after : List Char} (h : absolute? scheme after = some u) :
    IsPath u.path.toList := by
  rw [absolute?] at h
  split at h
  · obtain ⟨⟨path, query⟩, hpath, rfl⟩ := Option.map_eq_some_iff.1 h
    refine isPath_of_pathQuery? (u := ⟨_, _, path, query⟩) (fun c hc ↦ ?_) hpath
    have hfirst := List.head?_dropWhile_not (!endsAuthority ·) after
    rw [Option.mem_def.1 hc] at hfirst
    simpa using hfirst
  · cases h

/-- An address that was read and has a scheme is written with a place and a path. -/
theorem exists_isPlace {text : String} (h : parse? text = some u) (hscheme : u.scheme.isSome) :
    ∃ scheme authority, IsPlace scheme authority ∧ IsPath u.path.toList ∧
      u.scheme = some (String.ofList scheme) ∧ u.authority = some (String.ofList authority) := by
  rw [parse?] at h
  split at h
  · cases h
  · split at h
    · cases h
    · cases h
      cases hscheme
    · obtain ⟨⟨path, query⟩, -, rfl⟩ := Option.map_eq_some_iff.1 h
      cases hscheme
    · split at h
      · next scheme after hsplit =>
        split at h
        · next hshort =>
          obtain ⟨_, -, hcut⟩ := Option.map_eq_some_iff.1 hsplit
          obtain ⟨rfl, -⟩ := Prod.mk.inj hcut
          have hplaced := placed_of_absolute? h
          exact ⟨_, _, isPlace_of_absolute? (fun c hc ↦ List.mem_takeWhile_imp hc) hshort h,
            isPath_of_absolute? h, hplaced.scheme, hplaced.authority⟩
        · cases h
      · split at h
        · cases h
          cases hscheme
        · cases h

/-! ### Reading and printing -/

/-- A path and a query with a mark between them are read as they are. -/
theorem pathQuery?_append_mark (hpath : IsPath path)
    (hquery : ∀ c ∈ query, isQueryChar c = true ∧ c ≠ '#') :
    pathQuery? (path ++ '?' :: query) = some (String.ofList path, some (String.ofList query)) := by
  have hhash : '#' ∉ path ++ '?' :: query := by
    rw [List.mem_append, List.mem_cons, not_or, not_or]
    exact ⟨fun h ↦ (hpath.plain _ h).2.2 rfl, by decide, fun h ↦ (hquery _ h).2 rfl⟩
  have hmark : '?' ∉ path := fun h ↦ (hpath.plain _ h).2.1 rfl
  have hpathChars : path.all isPathChar = true :=
    List.all_eq_true.2 fun c hc ↦ (hpath.plain c hc).1
  have hqueryChars : query.all isQueryChar = true :=
    List.all_eq_true.2 fun c hc ↦ (hquery c hc).1
  rw [pathQuery?, takeWhile_of_not_mem hhash, takeWhile_append_mark hmark,
    dropWhile_append_mark hmark]
  simp [hpathChars, hqueryChars]

/-- What is written in a place is read as it is. -/
theorem parse?_of_isPlace (hplace : IsPlace scheme authority) (hpath : IsPath path)
    (hne : path ≠ []) (hquery : ∀ c ∈ query, isQueryChar c = true ∧ c ≠ '#')
    (hlength : (String.ofList (scheme ++ "://".toList ++ authority ++ path ++
      '?' :: query)).utf8ByteSize ≤ maxLength) :
    parse? (String.ofList (scheme ++ "://".toList ++ authority ++ path ++ '?' :: query)) =
      some ⟨some (String.ofList scheme), some (String.ofList authority), String.ofList path,
        some (String.ofList query)⟩ := by
  obtain ⟨more, rfl⟩ : ∃ more, path = '/' :: more := by
    obtain ⟨first, more, rfl⟩ := List.exists_cons_of_ne_nil hne
    exact ⟨more, by rw [hpath.rooted first rfl]⟩
  have hslash : '/' ∉ scheme ++ [':'] := by
    rw [List.mem_append, List.mem_singleton, not_or]
    exact ⟨fun h ↦ absurd (hplace.plain _ h) (by decide), by decide⟩
  have hall : ∀ c ∈ authority, (!endsAuthority c) = true := fun c hc ↦ by simp [hplace.whole c hc]
  have htext : scheme ++ "://".toList ++ authority ++ '/' :: more ++ '?' :: query =
      (scheme ++ [':']) ++ '/' :: ('/' :: (authority ++ '/' :: (more ++ '?' :: query))) := by simp
  rw [htext] at hlength ⊢
  rw [parse?_of_slash hslash, if_neg (Nat.not_lt.2 hlength), if_neg (by simp),
    (splitScheme_eq_some_iff hslash).2 ⟨rfl, hplace.plain, rfl⟩, Option.bind_some]
  dsimp only
  rw [if_pos hplace.short, absolute?]
  dsimp only
  rw [takeWhile_endsAuthority, dropWhile_endsAuthority, List.takeWhile_eq_self_iff.2 hall,
    List.dropWhile_eq_nil_iff.2 hall, if_pos ⟨hplace.named, hplace.valid⟩, List.nil_append,
    ← List.cons_append, pathQuery?_append_mark hpath hquery, hplace.normal]
  rfl

/-- A place ends with a character that is no slash, so only slashes of the path can stand at the end
of an address without a query. -/
theorem dropTrailing_render (hplace : IsPlace scheme authority)
    (hscheme : u.scheme = some (String.ofList scheme))
    (hauthority : u.authority = some (String.ofList authority)) (hquery : u.query = none) :
    Text.dropTrailing (· = '/') u.render.toList =
      scheme ++ "://".toList ++ authority ++ Text.dropTrailing (· = '/') u.path.toList := by
  obtain ⟨front, last, rfl⟩ := (List.eq_nil_or_concat authority).resolve_left hplace.named
  rw [List.concat_eq_append] at hplace hauthority ⊢
  have hlast : decide (last = '/') = false := by
    have hends := hplace.whole last (by simp)
    rw [endsAuthority, Bool.or_eq_false_iff, Bool.or_eq_false_iff] at hends
    exact hends.1.1
  have hrender : u.render.toList =
      (scheme ++ "://".toList ++ front) ++ last :: u.routePath.toList := by
    rw [render, hscheme, hauthority, queryText_of_none hquery]
    simp
  have hroute : Text.dropTrailing (· = '/') u.routePath.toList =
      Text.dropTrailing (· = '/') u.path.toList := by
    rw [routePath]
    split
    · next hempty =>
      rw [Bool.and_eq_true, String.isEmpty_iff] at hempty
      rw [hempty.1]
      decide
    · rfl
  rw [hrender, Text.dropTrailing_append_cons _ hlast, hroute]
  simp

end Uri

end ImageRegistry
