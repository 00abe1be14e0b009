import ImageRegistry.Gateway
import Mathlib.Data.List.TakeWhile

/-!
# Addresses beneath an identifier

What can be read beneath an identifier has an address that ends in its path. If one path has an
address, so has another one that is plain, unless that address is too long (`exists_url`): how a
text is cut into scheme, authority, path and query is settled before its last part begins.
-/

namespace ImageRegistry

namespace Uri

/-! ### Cuts -/

section Cuts

variable {mark : Char} {before text : List Char}

theorem decide_ne_of_not_mem (h : mark ∉ text) : ∀ c ∈ text, decide (c ≠ mark) = true := by
  rintro c hc
  refine decide_eq_true ?_
  rintro rfl
  exact h hc

theorem takeWhile_of_not_mem (h : mark ∉ text) : text.takeWhile (· ≠ mark) = text :=
  List.takeWhile_eq_self_iff.2 (decide_ne_of_not_mem h)

theorem dropWhile_of_not_mem (h : mark ∉ text) : text.dropWhile (· ≠ mark) = [] :=
  List.dropWhile_eq_nil_iff.2 (decide_ne_of_not_mem h)

theorem takeWhile_append_mark (h : mark ∉ before) :
    (before ++ mark :: text).takeWhile (· ≠ mark) = before := by
  rw [List.takeWhile_append_of_pos (decide_ne_of_not_mem h)]
  simp

theorem dropWhile_append_mark (h : mark ∉ before) :
    (before ++ mark :: text).dropWhile (· ≠ mark) = mark :: text := by
  rw [List.dropWhile_append_of_pos (decide_ne_of_not_mem h)]
  simp

end Cuts

/-! ### Paths and queries -/

/-- A text that may stand anywhere in a path or a query, and does not end it. -/
def IsPlain (text : List Char) : Prop :=
  ∀ c ∈ text, c ≠ '#' ∧ c ≠ '?' ∧ isPathChar c = true ∧ isQueryChar c = true

instance (text : List Char) : Decidable (IsPlain text) := List.decidableBAll _ text

variable {before p q : List Char}

theorem isSome_pathQuery? (text : List Char) :
    (pathQuery? text).isSome = true ↔
      (∀ c ∈ (text.takeWhile (· ≠ '#')).takeWhile (· ≠ '?'), isPathChar c = true) ∧
        ∀ c ∈ ((text.takeWhile (· ≠ '#')).dropWhile (· ≠ '?')).tail, isQueryChar c = true := by
  rw [pathQuery?]
  generalize (text.takeWhile (· ≠ '#')).takeWhile (· ≠ '?') = path
  generalize (text.takeWhile (· ≠ '#')).dropWhile (· ≠ '?') = rest
  rw [← List.all_eq_true, ← List.all_eq_true]
  cases path.all isPathChar with
  | false => simp
  | true =>
    cases rest with
    | nil => simp
    | cons first query => cases query.all isQueryChar <;> simp

/-- A plain text is all path. -/
theorem IsPlain.isSome_pathQuery? (h : IsPlain q) : (pathQuery? q).isSome = true := by
  have hfragment : '#' ∉ q := fun hmem ↦ (h _ hmem).1 rfl
  have hquery : '?' ∉ q := fun hmem ↦ (h _ hmem).2.1 rfl
  rw [Uri.isSome_pathQuery?, takeWhile_of_not_mem hfragment, takeWhile_of_not_mem hquery,
    dropWhile_of_not_mem hquery]
  exact ⟨fun c hc ↦ (h c hc).2.2.1, fun c hc ↦ (List.not_mem_nil hc).elim⟩

/-- Behind a slash any plain text will do. -/
theorem isSome_pathQuery?_append (hq : IsPlain q)
    (h : (pathQuery? (before ++ '/' :: p)).isSome = true) :
    (pathQuery? (before ++ '/' :: q)).isSome = true := by
  rw [isSome_pathQuery?] at h ⊢
  by_cases hfragment : '#' ∈ before
  · -- The fragment begins before the slash, so nothing is left of either text.
    obtain ⟨kept, dropped, rfl, hkept⟩ := List.eq_append_cons_of_mem hfragment
    rw [List.append_assoc, List.cons_append, takeWhile_append_mark hkept] at h ⊢
    exact h
  · have hplain : '#' ∉ '/' :: q := by
      rintro (_ | ⟨_, hmem⟩)
      exact (hq _ hmem).1 rfl
    have hcut : (before ++ '/' :: p).takeWhile (· ≠ '#') =
        before ++ '/' :: p.takeWhile (· ≠ '#') := by
      rw [List.takeWhile_append_of_pos (decide_ne_of_not_mem hfragment)]
      simp
    rw [hcut] at h
    rw [takeWhile_of_not_mem fun hmem ↦ (List.mem_append.1 hmem).elim hfragment hplain]
    by_cases hquery : '?' ∈ before
    · obtain ⟨path, query, rfl, hpath⟩ := List.eq_append_cons_of_mem hquery
      simp only [List.append_assoc, List.cons_append] at h ⊢
      rw [takeWhile_append_mark hpath, dropWhile_append_mark hpath] at h ⊢
      refine ⟨h.1, fun c hc ↦ ?_⟩
      rcases List.mem_append.1 hc with hc | hc
      · exact h.2 c (List.mem_append_left _ hc)
      · rcases List.mem_cons.1 hc with rfl | hc
        · decide
        · exact (hq c hc).2.2.2
    · have hnone : '?' ∉ before ++ '/' :: q := by
        intro hmem
        rcases List.mem_append.1 hmem with hmem | hmem
        · exact hquery hmem
        · rcases List.mem_cons.1 hmem with hslash | hmem
          · cases hslash
          · exact (hq _ hmem).2.1 rfl
      rw [takeWhile_of_not_mem hnone, dropWhile_of_not_mem hnone]
      rw [List.takeWhile_append_of_pos (decide_ne_of_not_mem hquery)] at h
      refine ⟨fun c hc ↦ ?_, fun c hc ↦ (List.not_mem_nil hc).elim⟩
      rcases List.mem_append.1 hc with hc | hc
      · exact h.1 c (List.mem_append_left _ hc)
      · rcases List.mem_cons.1 hc with rfl | hc
        · decide
        · exact (hq c hc).2.2.1

/-! ### Schemes and authorities -/

/-- A text with a character that has no place in an authority is none. -/
theorem isAuthority_of_mem {text : List Char} {c : Char}
    (hc : ∀ s : AuthorityScan, s.next c = none) (h : c ∈ text) : isAuthority text = false := by
  have hnone : ∀ s : AuthorityScan, text.foldlM AuthorityScan.next s = none := by
    induction text with
    | nil => cases h
    | cons first rest ih =>
      intro s
      rw [List.foldlM_cons]
      rcases List.mem_cons.1 h with rfl | hrest
      · rw [hc]
        rfl
      · cases s.next first with
        | none => rfl
        | some next => exact ih hrest next
  rw [isAuthority, hnone]

/-- A text with a slash is no authority. -/
theorem isAuthority_of_slash {text : List Char} (h : '/' ∈ text) : isAuthority text = false :=
  isAuthority_of_mem (fun s ↦ by simp [AuthorityScan.next, isPlainAuthorityChar]) h

theorem isSome_absolute? {scheme rest : List Char} :
    (absolute? scheme rest).isSome = true ↔
      rest.takeWhile (!endsAuthority ·) ≠ [] ∧
        isAuthority (rest.takeWhile (!endsAuthority ·)) = true ∧
        (pathQuery? (rest.dropWhile (!endsAuthority ·))).isSome = true := by
  rw [absolute?]
  split
  · next h => simp [h.1, h.2]
  · next h =>
    simp only [Option.isSome_none, Bool.false_eq_true, false_iff, not_and]
    exact fun hne hauthority ↦ absurd ⟨hne, hauthority⟩ h

/-- An authority ends at a slash at the latest. -/
theorem takeWhile_endsAuthority (before tail : List Char) :
    (before ++ '/' :: tail).takeWhile (!endsAuthority ·) =
      before.takeWhile (!endsAuthority ·) := by
  rw [List.takeWhile_append]
  split
  · next hall =>
    have hslash : ('/' :: tail).takeWhile (!endsAuthority ·) = [] := rfl
    rw [hslash, List.append_nil, (List.takeWhile_prefix _).eq_of_length hall]
  · rfl

theorem dropWhile_endsAuthority (before tail : List Char) :
    (before ++ '/' :: tail).dropWhile (!endsAuthority ·) =
      before.dropWhile (!endsAuthority ·) ++ '/' :: tail := by
  rw [List.dropWhile_append]
  split
  · next hnone =>
    rw [List.isEmpty_iff.1 hnone]
    rfl
  · rfl

theorem isSome_absolute?_append {scheme : List Char} (hq : IsPlain q)
    (h : (absolute? scheme (before ++ '/' :: p)).isSome = true) :
    (absolute? scheme (before ++ '/' :: q)).isSome = true := by
  rw [isSome_absolute?, takeWhile_endsAuthority, dropWhile_endsAuthority] at h ⊢
  exact ⟨h.1, h.2.1, isSome_pathQuery?_append hq h.2.2⟩

/-- Up to the first slash of a text there is a scheme and a colon, if the text has a scheme. -/
theorem splitScheme_eq_some_iff {scheme after tail : List Char} (hbefore : '/' ∉ before) :
    splitScheme (before ++ '/' :: tail) = some (scheme, after) ↔
      before = scheme ++ [':'] ∧ (∀ c ∈ scheme, isSchemeChar c = true) ∧ tail = '/' :: after := by
  have hcut (after : List Char) : Text.splitFirst '/' (before ++ '/' :: after) =
      some (before, after) := Text.splitFirst_eq_some_iff.2 ⟨rfl, hbefore⟩
  rw [splitScheme, Option.map_eq_some_iff]
  simp only [Text.stripLead?_eq_some_iff, Prod.mk.injEq]
  constructor
  · rintro ⟨rest, hdrop, hscheme, rfl⟩
    have hall : ∀ c ∈ scheme, isSchemeChar c = true := by
      intro c hc
      rw [← hscheme] at hc
      exact List.mem_takeWhile_imp hc
    have hsplit : before ++ '/' :: tail = (scheme ++ [':']) ++ '/' :: '/' :: rest := by
      rw [← List.takeWhile_append_dropWhile (p := isSchemeChar) (l := before ++ '/' :: tail),
        hscheme, hdrop, List.append_assoc]
      rfl
    have hnone : '/' ∉ scheme ++ [':'] := by
      intro hmem
      rcases List.mem_append.1 hmem with hmem | hmem
      · exact absurd (hall _ hmem) (by decide)
      · cases List.mem_singleton.1 hmem
    have hsame := (hcut tail).symm.trans (Text.splitFirst_eq_some_iff.2 ⟨hsplit, hnone⟩)
    obtain ⟨hbefore, htail⟩ := Prod.mk.inj (Option.some.inj hsame)
    exact ⟨hbefore, hall, htail⟩
  · rintro ⟨rfl, hscheme, rfl⟩
    have hcolon : ¬ isSchemeChar ':' = true := by decide
    refine ⟨after, ?_, ?_, rfl⟩
    · rw [List.append_assoc, List.dropWhile_append_of_pos hscheme]
      simp [hcolon]
    · rw [List.append_assoc, List.takeWhile_append_of_pos hscheme]
      simp [hcolon]

/-! ### Whole texts -/

/-- A text with a slash is read as a path, or as its scheme says. -/
theorem parse?_of_slash {tail : List Char} (hbefore : '/' ∉ before) :
    parse? (String.ofList (before ++ '/' :: tail)) =
      if maxLength < (String.ofList (before ++ '/' :: tail)).utf8ByteSize then none
      else if before = [] then
        (pathQuery? ('/' :: tail)).map fun (path, query) ↦ ⟨none, none, path, query⟩
      else (splitScheme (before ++ '/' :: tail)).bind fun (scheme, after) ↦
        if scheme.length ≤ maxScheme then absolute? scheme after else none := by
  rw [parse?]
  split
  · rfl
  · rw [String.toList_ofList]
    cases before with
    | nil => rfl
    | cons first more =>
      rw [if_neg (List.cons_ne_nil first more)]
      split
      · next hempty => cases hempty
      · next hstar =>
        obtain ⟨-, hmore⟩ := List.cons.inj hstar
        simp at hmore
      · next hslash =>
        obtain ⟨rfl, -⟩ := List.cons.inj hslash
        exact absurd List.mem_cons_self hbefore
      · cases splitScheme (first :: more ++ '/' :: tail) with
        | some cut => rfl
        | none =>
          have hauthority : isAuthority (first :: more ++ '/' :: tail) = false :=
            isAuthority_of_slash (by simp)
          dsimp only
          rw [hauthority]
          rfl

/-- A text with a slash is a path, or it has a scheme. -/
theorem isSome_parse?_iff {tail : List Char} (hbefore : '/' ∉ before) :
    (parse? (String.ofList (before ++ '/' :: tail))).isSome = true ↔
      (String.ofList (before ++ '/' :: tail)).utf8ByteSize ≤ maxLength ∧
        (before = [] ∧ (pathQuery? ('/' :: tail)).isSome = true ∨
          ∃ scheme after, splitScheme (before ++ '/' :: tail) = some (scheme, after) ∧
            scheme.length ≤ maxScheme ∧ (absolute? scheme after).isSome = true) := by
  rw [parse?_of_slash hbefore]
  split
  · next hlong =>
    simp only [Option.isSome_none, Bool.false_eq_true, false_iff, not_and]
    exact fun hshort ↦ absurd hshort (Nat.not_le.2 hlong)
  · next hshort =>
    rw [and_iff_right (Nat.not_lt.1 hshort)]
    split
    · next hnil =>
      subst hnil
      rw [Option.isSome_map]
      constructor
      · exact fun hpath ↦ Or.inl ⟨rfl, hpath⟩
      · rintro (⟨-, hpath⟩ | ⟨scheme, after, hscheme, -⟩)
        · exact hpath
        · obtain ⟨hnil, -⟩ := (splitScheme_eq_some_iff hbefore).1 hscheme
          simp at hnil
    · next hne =>
      rw [or_iff_right fun h ↦ hne h.1]
      cases splitScheme (before ++ '/' :: tail) with
      | none => simp
      | some cut =>
        obtain ⟨scheme, after⟩ := cut
        dsimp only [Option.bind_some]
        constructor
        · intro hsome
          split at hsome
          · next hle => exact ⟨scheme, after, rfl, hle, hsome⟩
          · cases hsome
        · rintro ⟨_, _, hsame, hle, hsome⟩
          cases hsame
          rwa [if_pos hle]

/-- Behind a slash any plain text will do that is not too long. A part at its beginning that names a
place is only needed where a text has no other one. -/
theorem exists_parse? {front : List Char} {u : Uri} (hfront : '/' ∈ front) (hq : IsPlain q)
    (hplace : q.takeWhile (!endsAuthority ·) ≠ [] ∧
      isAuthority (q.takeWhile (!endsAuthority ·)) = true)
    (h : parse? (String.ofList (front ++ '/' :: p)) = some u)
    (hlength : (String.ofList (front ++ '/' :: q)).utf8ByteSize ≤ maxLength) :
    ∃ u', parse? (String.ofList (front ++ '/' :: q)) = some u' := by
  obtain ⟨before, more, rfl, hbefore⟩ := List.eq_append_cons_of_mem hfront
  have hsome := Option.isSome_of_eq_some h
  rw [← Option.isSome_iff_exists]
  rw [List.append_assoc, List.cons_append] at hsome hlength ⊢
  rw [isSome_parse?_iff hbefore] at hsome ⊢
  refine ⟨hlength, ?_⟩
  rcases hsome with ⟨-, ⟨rfl, hpath⟩ | ⟨scheme, after, hscheme, hle, habsolute⟩⟩
  · have hpath' : (pathQuery? (('/' :: more) ++ '/' :: p)).isSome = true := hpath
    exact Or.inl ⟨rfl, isSome_pathQuery?_append hq hpath'⟩
  · obtain ⟨rfl, hall, htail⟩ := (splitScheme_eq_some_iff hbefore).1 hscheme
    cases more with
    | nil =>
      obtain ⟨-, rfl⟩ := List.cons.inj htail
      refine Or.inr ⟨scheme, q, (splitScheme_eq_some_iff hbefore).2 ⟨rfl, hall, rfl⟩, hle, ?_⟩
      refine isSome_absolute?.2 ⟨hplace.1, hplace.2, IsPlain.isSome_pathQuery? fun c hc ↦ ?_⟩
      exact hq c ((List.dropWhile_suffix _).subset hc)
    | cons second rest =>
      obtain ⟨rfl, rfl⟩ := List.cons.inj htail
      refine Or.inr ⟨scheme, rest ++ '/' :: q,
        (splitScheme_eq_some_iff hbefore).2 ⟨rfl, hall, rfl⟩, hle, ?_⟩
      exact isSome_absolute?_append hq habsolute

end Uri

namespace Gateway

variable {g : Gateway} {identifier path other : String} {uri : Uri}

theorem url_eq_ok_iff :
    g.url identifier path = .ok uri ↔ Uri.parse? (g.address identifier path) = some uri := by
  rw [url]
  cases Uri.parse? (g.address identifier path) <;> simp

/-- A path that has a name in it is put behind a slash, without slashes of its own in front. -/
theorem address_of_ne (h : path ≠ "") :
    g.address identifier path = String.ofList ((withoutSlashes g.base.render ++
      '/' :: identifier.toList) ++ '/' :: path.toList.dropWhile (· = '/')) := by
  rw [address, if_neg (by simpa using h)]

/-- Beneath one identifier another path has an address too, unless that is too long. -/
theorem exists_url (hpath : path ≠ "") (h : g.url identifier path = .ok uri)
    (hplain : Uri.IsPlain other.toList)
    (hplace : other.toList.takeWhile (!Uri.endsAuthority ·) ≠ [] ∧
      Uri.isAuthority (other.toList.takeWhile (!Uri.endsAuthority ·)) = true)
    (hlength : (g.address identifier other).utf8ByteSize ≤ Uri.maxLength) :
    ∃ uri', g.url identifier other = .ok uri' := by
  have hother : other ≠ "" := by
    rintro rfl
    exact hplace.1 rfl
  have hfirst : other.toList.dropWhile (· = '/') = other.toList := by
    cases hlist : other.toList with
    | nil => rfl
    | cons first rest =>
      rw [List.dropWhile_cons_of_neg]
      rintro hslash
      rw [hlist] at hplace
      refine hplace.1 ?_
      rw [of_decide_eq_true hslash]
      rfl
  simp only [url_eq_ok_iff] at h ⊢
  rw [address_of_ne hpath] at h
  rw [address_of_ne hother, hfirst] at hlength ⊢
  exact Uri.exists_parse? (by simp) hplain hplace h hlength

end Gateway

end ImageRegistry
