import ImageRegistry.Proofs.Remote.Address
import ImageRegistry.Proofs.Text.Blank
import ImageRegistry.Registry.Manifests
import ImageRegistry.Registry.Route

/-!
# What an address keeps of a reference

A reference is put at the end of an address as it is. What is read of an address is its text up to
the mark of a fragment, so two references beneath one identifier have the same address exactly if
they are the same up to that mark, or if the address breaks off before they begin because the
identifier has the mark (`urls_meet_iff`). All else that has a meaning in addresses, a question mark
or a percent sign, keeps references apart: path and query together are still the whole text
(`of_pathQuery?`).

Addresses beneath one identifier have a common front, and what scheme and authority they have is
settled there (`exists_placed`).
-/

namespace ImageRegistry

namespace Uri

variable {u v : Uri} {text before p q : List Char} {scheme authority : Option String}

/-! ### Fragments -/

/-- The text up to the mark of a fragment. -/
def beforeFragment (text : List Char) : List Char := text.takeWhile (· ≠ '#')

theorem hash_not_mem_beforeFragment (text : List Char) : '#' ∉ beforeFragment text := fun h ↦
  absurd (List.mem_takeWhile_imp h) (by simp)

theorem beforeFragment_append_of_not_mem (h : '#' ∉ text) (p : List Char) :
    beforeFragment (text ++ p) = text ++ beforeFragment p :=
  List.takeWhile_append_of_pos (decide_ne_of_not_mem h)

/-- Behind a common text two texts are the same up to the mark if the mark is in the common text, or
if they are themselves the same up to it. -/
theorem beforeFragment_append_eq_iff :
    beforeFragment (text ++ p) = beforeFragment (text ++ q) ↔
      '#' ∈ text ∨ beforeFragment p = beforeFragment q := by
  by_cases h : '#' ∈ text
  · obtain ⟨kept, dropped, rfl, hkept⟩ := List.eq_append_cons_of_mem h
    simp only [List.append_assoc, List.cons_append, beforeFragment, takeWhile_append_mark hkept]
    simp
  · rw [beforeFragment_append_of_not_mem h, beforeFragment_append_of_not_mem h,
      List.append_cancel_left_eq]
    exact (or_iff_right h).symm

theorem queryText_of_none (h : u.query = none) : u.queryText = "" := by rw [queryText, h]

theorem queryText_of_some {query : String} (h : u.query = some query) :
    u.queryText = "?" ++ query := by rw [queryText, h]

/-- A path and its query are the text that they are read from, up to the mark. -/
theorem of_pathQuery? (h : pathQuery? text = some (u.path, u.query)) :
    (u.path ++ u.queryText).toList = beforeFragment text ∧ '?' ∉ u.path.toList := by
  have hcut := List.takeWhile_append_dropWhile (p := (· ≠ '?')) (l := beforeFragment text)
  have hpath : '?' ∉ (beforeFragment text).takeWhile (· ≠ '?') := fun hmem ↦
    absurd (List.mem_takeWhile_imp hmem) (by simp)
  have hfirst := List.head?_dropWhile_not (· ≠ '?') (beforeFragment text)
  rw [beforeFragment] at hcut hpath hfirst
  rw [pathQuery?] at h
  generalize (text.takeWhile (· ≠ '#')).takeWhile (· ≠ '?') = path at h hcut hpath
  generalize (text.takeWhile (· ≠ '#')).dropWhile (· ≠ '?') = rest at h hcut hfirst
  rw [beforeFragment, ← hcut]
  cases hall : path.all isPathChar with
  | false =>
    rw [hall] at h
    cases h
  | true =>
    rw [hall, if_pos rfl] at h
    cases rest with
    | nil =>
      obtain ⟨hu, hquery⟩ := Prod.mk.inj (Option.some.inj h)
      rw [queryText_of_none hquery.symm, ← hu]
      exact ⟨by simp, by simpa using hpath⟩
    | cons mark query =>
      dsimp only at h
      split at h
      · obtain ⟨hu, hquery⟩ := Prod.mk.inj (Option.some.inj h)
        obtain rfl : mark = '?' := by simpa using hfirst
        rw [queryText_of_some hquery.symm, ← hu]
        exact ⟨by simp, by simpa using hpath⟩
      · cases h

/-! ### Places -/

/-- A `Uri` has a scheme and an authority, and its path and query are a text up to the mark. -/
structure Placed (u : Uri) (scheme authority : Option String) (text : List Char) : Prop where
  scheme : u.scheme = scheme
  authority : u.authority = authority
  kept : (u.path ++ u.queryText).toList = beforeFragment text
  path : '?' ∉ u.path.toList

/-- In one place there is one `Uri` for each text up to the mark. -/
theorem Placed.eq_iff (hu : Placed u scheme authority p) (hv : Placed v scheme authority q) :
    u = v ↔ beforeFragment p = beforeFragment q := by
  rw [← hu.kept, ← hv.kept, String.toList_inj]
  refine ⟨fun h ↦ by rw [h], fun h ↦ ?_⟩
  have hscheme := hu.scheme.trans hv.scheme.symm
  have hauthority := hu.authority.trans hv.authority.symm
  have hcut {path query : String} (hpath : '?' ∉ path.toList) :
      Text.splitFirst '?' (path ++ ("?" ++ query)).toList = some (path.toList, query.toList) :=
    Text.splitFirst_eq_some_iff.2 ⟨by simp, hpath⟩
  have hnone {path path' query : String} (hpath : '?' ∉ path.toList)
      (hsame : path = path' ++ ("?" ++ query)) : False := hpath (by rw [hsame]; simp)
  have hparts : u.path = v.path ∧ u.query = v.query := by
    cases hqu : u.query with
    | none =>
      cases hqv : v.query with
      | none =>
        rw [queryText_of_none hqu, queryText_of_none hqv] at h
        simpa using h
      | some query =>
        rw [queryText_of_none hqu, queryText_of_some hqv, String.append_empty] at h
        exact (hnone hu.path h).elim
    | some query =>
      cases hqv : v.query with
      | none =>
        rw [queryText_of_some hqu, queryText_of_none hqv, String.append_empty] at h
        exact (hnone hv.path h.symm).elim
      | some query' =>
        rw [queryText_of_some hqu, queryText_of_some hqv] at h
        have hsame := (hcut hu.path).symm.trans (h ▸ hcut hv.path)
        simpa [String.toList_inj] using hsame
  obtain ⟨scheme, authority, path, query⟩ := u
  obtain ⟨scheme', authority', path', query'⟩ := v
  obtain ⟨hpath, hquery⟩ := hparts
  subst hscheme hauthority hpath hquery
  rfl

/-- In one place different texts up to the mark are asked for differently. -/
theorem Placed.target_eq_iff (hu : Placed u scheme authority p) (hv : Placed v scheme authority q)
    (hempty : beforeFragment p = [] ↔ beforeFragment q = []) :
    u.target = v.target ↔ beforeFragment p = beforeFragment q := by
  refine ⟨fun h ↦ ?_, fun h ↦ by rw [(hu.eq_iff hv).2 h]⟩
  have hscheme := hu.scheme.trans hv.scheme.symm
  rw [← hu.kept, ← hv.kept, String.toList_eq_nil_iff, String.toList_eq_nil_iff] at hempty
  rw [← hu.kept, ← hv.kept, String.toList_inj]
  rw [target, target, hscheme] at h
  by_cases hnone : u.path ++ u.queryText = ""
  · rw [hnone, hempty.1 hnone]
  · have hnone' := mt hempty.2 hnone
    simpa [hnone, hnone'] using h

/-- Behind its scheme a `Uri` has an authority up to the first mark that ends one. -/
theorem placed_of_absolute? {scheme after : List Char} (h : absolute? scheme after = some u) :
    Placed u (some (String.ofList (normalScheme scheme)))
      (some (String.ofList (after.takeWhile (!endsAuthority ·))))
      (after.dropWhile (!endsAuthority ·)) := by
  rw [absolute?] at h
  split at h
  · obtain ⟨⟨path, query⟩, hpath, rfl⟩ := Option.map_eq_some_iff.1 h
    obtain ⟨hkept, hmark⟩ := of_pathQuery? (u := ⟨_, _, path, query⟩) hpath
    exact ⟨rfl, rfl, hkept, hmark⟩
  · cases h

/-- What stands behind a common front is read in one place, where the scheme and the authority of
the front are: there is a head with these, and the text behind the head is kept up to the mark. -/
theorem exists_placed {middle : List Char} (hbefore : '/' ∉ before) (hmiddle : middle ≠ []) :
    ∃ head tail scheme authority, before ++ '/' :: (middle ++ ['/']) = head ++ tail ∧ tail ≠ [] ∧
      '#' ∉ head ∧ ∀ p u, parse? (String.ofList (before ++ '/' :: (middle ++ '/' :: p))) = some u →
        Placed u scheme authority (tail ++ p) := by
  by_cases hnil : before = []
  · subst hnil
    refine ⟨[], '/' :: (middle ++ ['/']), none, none, rfl, by simp, by simp, fun p u h ↦ ?_⟩
    rw [parse?_of_slash hbefore, if_pos rfl] at h
    split at h
    · cases h
    · obtain ⟨⟨path, query⟩, hpath, rfl⟩ := Option.map_eq_some_iff.1 h
      obtain ⟨hkept, hmark⟩ := of_pathQuery? (u := ⟨none, none, path, query⟩) hpath
      exact ⟨rfl, rfl, by simpa using hkept, hmark⟩
  · by_cases hscheme : ∃ scheme rest, before = scheme ++ [':'] ∧ middle = '/' :: rest ∧
      ∀ c ∈ scheme, isSchemeChar c = true
    · obtain ⟨scheme, rest, rfl, rfl, hall⟩ := hscheme
      let authority := rest.takeWhile (!endsAuthority ·)
      refine ⟨scheme ++ "://".toList ++ authority, rest.dropWhile (!endsAuthority ·) ++ ['/'],
        some (String.ofList (normalScheme scheme)), some (String.ofList authority), ?_, by simp, ?_,
        fun p u h ↦ ?_⟩
      · have hrest : authority ++ rest.dropWhile (!endsAuthority ·) = rest :=
          List.takeWhile_append_dropWhile
        have hassoc (after : List Char) : scheme ++ "://".toList ++ authority ++ (after ++ ['/']) =
            scheme ++ ':' :: '/' :: '/' :: ((authority ++ after) ++ ['/']) := by simp
        rw [hassoc, hrest]
        simp
      · intro hmem
        rcases List.mem_append.1 hmem with hmem | hmem
        · rcases List.mem_append.1 hmem with hmem | hmem
          · exact absurd (hall _ hmem) (by decide)
          · exact absurd hmem (by decide)
        · exact absurd (List.mem_takeWhile_imp hmem) (by decide)
      · have hsplit : splitScheme (scheme ++ [':'] ++ '/' :: ('/' :: rest ++ '/' :: p)) =
            some (scheme, rest ++ '/' :: p) := (splitScheme_eq_some_iff hbefore).2 ⟨rfl, hall, rfl⟩
        rw [parse?_of_slash hbefore, if_neg hnil, hsplit, Option.bind_some] at h
        dsimp only at h
        split at h
        · cases h
        · split at h
          · have hplaced := placed_of_absolute? h
            rw [takeWhile_endsAuthority, dropWhile_endsAuthority] at hplaced
            simpa using hplaced
          · cases h
    · -- Without a scheme in front nothing is read.
      refine ⟨[], _, none, none, rfl, by simp, by simp, fun p u h ↦ ?_⟩
      have hnone : splitScheme (before ++ '/' :: (middle ++ '/' :: p)) = none := by
        rw [Option.eq_none_iff_forall_ne_some]
        rintro ⟨scheme, after⟩ hsplit
        obtain ⟨hscheme', hall, hafter⟩ := (splitScheme_eq_some_iff hbefore).1 hsplit
        obtain ⟨first, rest, rfl⟩ := List.exists_cons_of_ne_nil hmiddle
        obtain ⟨rfl, -⟩ := List.cons.inj hafter
        exact hscheme ⟨scheme, rest, hscheme', rfl, hall⟩
      rw [parse?_of_slash hbefore, if_neg hnil, hnone] at h
      split at h <;> cases h

/-! ### What is printed -/

theorem hash_not_mem_render (hscheme : ∀ s ∈ u.scheme, '#' ∉ s.toList)
    (hauthority : ∀ a ∈ u.authority, '#' ∉ a.toList)
    (hkept : '#' ∉ (u.path ++ u.queryText).toList) : '#' ∉ u.render.toList := by
  rw [String.toList_append, List.mem_append, not_or] at hkept
  have hroute : '#' ∉ u.routePath.toList := by
    rw [routePath]
    split
    · decide
    · exact hkept.1
  have hplace : '#' ∉ (u.authority.getD "").toList := by
    cases hu : u.authority with
    | none => decide
    | some a => exact hauthority a hu
  rw [render]
  simp only [String.toList_append, List.mem_append, not_or]
  refine ⟨⟨⟨?_, hplace⟩, hroute⟩, hkept.2⟩
  cases hu : u.scheme with
  | none => decide
  | some s =>
    rw [String.toList_append, List.mem_append, not_or]
    exact ⟨hscheme s hu, by decide⟩

theorem isSchemeChar_of_mem_normalScheme {scheme : List Char}
    (h : ∀ c ∈ scheme, isSchemeChar c = true) :
    ∀ c ∈ normalScheme scheme, isSchemeChar c = true := by
  rw [normalScheme]
  split
  · next hhttp =>
    rcases hhttp with hhttp | hhttp <;> rw [hhttp] <;> exact List.all_eq_true.1 (by decide)
  · exact h

theorem hash_not_mem_normalScheme {scheme : List Char}
    (h : ∀ c ∈ scheme, isSchemeChar c = true) : '#' ∉ normalScheme scheme :=
  fun hmem ↦ absurd (isSchemeChar_of_mem_normalScheme h _ hmem) (by decide)

/-- What was read from a text has no fragment when it is printed. -/
theorem hash_not_mem_render_of_parse? {text : String} (h : parse? text = some u) :
    '#' ∉ u.render.toList := by
  have hnone {o : Option String} (ho : o = none) : ∀ s ∈ o, '#' ∉ s.toList := by simp [ho]
  rw [parse?] at h
  split at h
  · cases h
  · split at h
    · cases h
    · cases h
      decide
    · obtain ⟨⟨path, query⟩, hpath, rfl⟩ := Option.map_eq_some_iff.1 h
      obtain ⟨hkept, -⟩ := of_pathQuery? (u := ⟨none, none, path, query⟩) hpath
      exact hash_not_mem_render (hnone rfl) (hnone rfl) (hkept ▸ hash_not_mem_beforeFragment _)
    · split at h
      · next scheme rest hsplit =>
        split at h
        · have hplaced := placed_of_absolute? h
          obtain ⟨_, -, hcut⟩ := Option.map_eq_some_iff.1 hsplit
          obtain ⟨rfl, -⟩ := Prod.mk.inj hcut
          refine hash_not_mem_render ?_ ?_ (hplaced.kept ▸ hash_not_mem_beforeFragment _)
          · rw [hplaced.scheme]
            rintro _ ⟨⟩
            rw [String.toList_ofList]
            exact hash_not_mem_normalScheme fun c hc ↦ List.mem_takeWhile_imp hc
          · rw [hplaced.authority]
            rintro _ ⟨⟩
            rw [String.toList_ofList]
            exact fun hmem ↦ absurd (List.mem_takeWhile_imp hmem) (by decide)
        · cases h
      · split at h
        · next hauthority =>
          cases h
          refine hash_not_mem_render (hnone rfl) ?_ (by simp [queryText])
          rintro _ ⟨⟩ hmem
          have hmark (s : AuthorityScan) : s.next '#' = none := by
            simp [AuthorityScan.next, isPlainAuthorityChar]
          rw [isAuthority_of_mem hmark hmem] at hauthority
          cases hauthority
        · cases h

end Uri

namespace Gateway

open Server (manifestPath)

variable {g : Gateway} {u v : Uri}

theorem address_manifestPath (g : Gateway) (identifier reference : String) :
    g.address identifier (manifestPath reference) =
      String.ofList ((withoutSlashes g.base.render ++ '/' :: identifier.toList) ++
        '/' :: ("manifests".toList ++ '/' :: reference.toList)) := by
  have hpath : (manifestPath reference).toList =
      "manifests".toList ++ '/' :: reference.toList := by
    rw [manifestPath, String.toList_append]
    rfl
  have hne : manifestPath reference ≠ "" := by
    intro hempty
    rw [hempty] at hpath
    cases hpath
  rw [address_of_ne hne, hpath]
  rfl

/-- Two references beneath one identifier have the same address, and are asked of the gateway in the
same words, exactly if the identifier has the mark of a fragment, or if they are the same up to that
mark. So references without it, beneath an identifier without it, are never taken for each other. -/
theorem urls_meet_iff {text : String} (hbase : Uri.parse? text = some g.base)
    {identifier first second : String} (hu : g.url identifier (manifestPath first) = .ok u)
    (hv : g.url identifier (manifestPath second) = .ok v) :
    (u = v ↔ '#' ∈ identifier.toList ∨
      Uri.beforeFragment first.toList = Uri.beforeFragment second.toList) ∧
    (u.target = v.target ↔ u = v) := by
  rw [url_eq_ok_iff, address_manifestPath] at hu hv
  let root := withoutSlashes g.base.render
  have hroot : '#' ∉ root := by
    obtain ⟨trail, htrail, -⟩ :=
      Text.exists_eq_dropTrailing (fun c : Char ↦ decide (c = '/')) g.base.render.toList
    intro hmem
    refine Uri.hash_not_mem_render_of_parse? hbase ?_
    rw [htrail]
    exact List.mem_append_left _ hmem
  have hslash : '/' ∈ root ++ '/' :: identifier.toList := by simp
  obtain ⟨before, more, hfront, hbefore⟩ := List.eq_append_cons_of_mem hslash
  have hmiddle : more ++ '/' :: "manifests".toList ≠ [] := by simp
  have hshape (p : List Char) : (root ++ '/' :: identifier.toList) ++
      '/' :: ("manifests".toList ++ '/' :: p) =
        before ++ '/' :: ((more ++ '/' :: "manifests".toList) ++ '/' :: p) := by
    rw [hfront]
    simp
  obtain ⟨head, tail, scheme, authority, hsplit, htail, hhead, hplaced⟩ :=
    Uri.exists_placed hbefore hmiddle
  rw [hshape] at hu hv
  have hplacedU := hplaced _ u hu
  have hplacedV := hplaced _ v hv
  have hmark : '#' ∈ tail ↔ '#' ∈ identifier.toList := by
    have hfrontMark : '#' ∈ head ++ tail ↔ '#' ∈ root ++ '/' :: identifier.toList := by
      rw [← hsplit, hfront]
      simp
    simpa [hhead, hroot] using hfrontMark
  have hempty (p : List Char) : Uri.beforeFragment (tail ++ p) = [] ↔ tail.head? = some '#' := by
    obtain ⟨c, rest, rfl⟩ := List.exists_cons_of_ne_nil htail
    rw [Uri.beforeFragment, List.cons_append, List.takeWhile_cons]
    by_cases hc : c = '#' <;> simp [hc]
  refine ⟨?_, ?_⟩
  · rw [hplacedU.eq_iff hplacedV, Uri.beforeFragment_append_eq_iff, hmark]
  · rw [hplacedU.target_eq_iff hplacedV ((hempty _).trans (hempty _).symm),
      hplacedU.eq_iff hplacedV]

/-- Two references with characters that have a meaning in addresses. -/
theorem urls_meet_iff_marks :
    let g : Gateway := ⟨⟨some "http", some "gateway.test", "/ipfs/", none⟩, 0⟩
    ∃ u v, g.url "image" (manifestPath "a?b%63") = .ok u ∧
      g.url "image" (manifestPath "a?bc") = .ok v ∧ u ≠ v ∧ u.target ≠ v.target := by
  intro g
  have hbase : Uri.parse? "http://gateway.test/ipfs/" = some g.base := by decide +kernel
  let u : Uri := ⟨some "http", some "gateway.test", "/ipfs/image/manifests/a", some "b%63"⟩
  let v : Uri := ⟨some "http", some "gateway.test", "/ipfs/image/manifests/a", some "bc"⟩
  have hu : g.url "image" (manifestPath "a?b%63") = .ok u := by decide +kernel
  have hv : g.url "image" (manifestPath "a?bc") = .ok v := by decide +kernel
  obtain ⟨hsame, htarget⟩ := urls_meet_iff hbase hu hv
  have hne : u ≠ v := mt hsame.1 (by decide +kernel)
  exact ⟨u, v, hu, hv, hne, mt htarget.1 hne⟩

/-- Two references that the registry accepts, and one address for both: what follows the mark of a
fragment is dropped. -/
theorem urls_meet_in_fragments :
    let g : Gateway := ⟨⟨some "http", some "gateway.test", "/ipfs/", none⟩, 0⟩
    "v1" ≠ "v1#b" ∧ Route.checkReference "v1" = .ok () ∧ Route.checkReference "v1#b" = .ok () ∧
      g.url "image" (manifestPath "v1") = g.url "image" (manifestPath "v1#b") ∧
      g.url "image" (manifestPath "v1") =
        .ok ⟨some "http", some "gateway.test", "/ipfs/image/manifests/v1", none⟩ := by
  decide +kernel

end Gateway

end ImageRegistry
