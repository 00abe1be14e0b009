import ImageRegistry.Proofs.Link.Memo
import ImageRegistry.Proofs.Link.Restart

/-!
# The two readers of a link file

A link file is read by the cache, which looks at its first line alone, and by the resolver of link
files, which takes all lines that are not blank. They tell the same first identifier of every text
(`firstIdentifier_eq_head?`) but one that `StartsLate`: its first line is blank, and a later one is
not.

What the cache does not find in a file it asks the resolvers for, and what they tell is written to
that file in the place of what was there. If the only resolver reads the same files, this comes to
nothing as long as the two readers agree, because then it finds nothing either (`reads_alike`). A
file that starts late is cut down to its first identifier (`reads_alike_late`).
-/

namespace ImageRegistry.Link

open ImageRegistry.Action
open Files (Tree)

variable {root repository reference identifier text : String} {t : Tree} {c : Cache}

/-! ### Texts -/

/-- The first line of a text is blank, and a later one is not. -/
def StartsLate (text : String) : Prop :=
  ∃ first rest, Text.lines text.toList = first :: rest ∧ Text.trim first = [] ∧
    ∃ line ∈ rest, Text.trim line ≠ []

/-- Blank lines list nothing. -/
theorem listed_of_lines {first : List Char} {rest : List (List Char)}
    (hlines : Text.lines text.toList = first :: rest) :
    Resolver.listed text =
      (if Text.trim first = [] then [] else [String.ofList (Text.trim first)]) ++
        ((rest.map Text.trim).filter (!·.isEmpty)).map String.ofList := by
  rw [Resolver.listed, hlines, List.map_cons, List.filter_cons]
  by_cases hfirst : Text.trim first = []
  · simp [hfirst]
  · simp [hfirst]

theorem firstIdentifier_eq_head? (h : ¬ StartsLate text) :
    Cache.firstIdentifier text = (Resolver.listed text).head? := by
  cases hlines : Text.lines text.toList with
  | nil => simp [Cache.firstIdentifier, Resolver.listed, hlines]
  | cons first rest =>
    rw [Cache.firstIdentifier, hlines, listed_of_lines hlines]
    by_cases hfirst : Text.trim first = []
    · have hblank : (rest.map Text.trim).filter (!·.isEmpty) = [] := by
        rw [List.filter_eq_nil_iff]
        rintro line hline hne
        obtain ⟨written, hwritten, rfl⟩ := List.mem_map.1 hline
        exact h ⟨first, rest, hlines, hfirst, written, hwritten, by simpa using hne⟩
      simp [hfirst, hblank]
    · simp [hfirst]

/-- Of a text that starts late one reader tells nothing, and the other one does. -/
theorem listed_of_startsLate (h : StartsLate text) :
    Cache.firstIdentifier text = none ∧ ∃ identifier more,
      Resolver.listed text = identifier :: more := by
  obtain ⟨first, rest, hlines, hfirst, line, hline, hne⟩ := h
  refine ⟨by simp [Cache.firstIdentifier, hlines, hfirst], ?_⟩
  rw [listed_of_lines hlines, if_pos hfirst, List.nil_append, ← List.ne_nil_iff_exists_cons]
  refine List.ne_nil_of_mem (a := String.ofList (Text.trim line)) (List.mem_map_of_mem ?_)
  rw [List.mem_filter]
  exact ⟨List.mem_map_of_mem hline, by simpa using hne⟩

/-! ### Files -/

/-- The link file of a reference can be read, and its text starts late. -/
def LateFile (root repository reference : String) (t : Tree) : Prop :=
  ∃ text, t.readText (path root repository reference) = .ok text ∧ StartsLate text

theorem stored?_of_root (hroot : c.root = some root) (t : Tree) (repository reference : String) :
    c.stored? t repository reference =
      (t.readText (path root repository reference)).toOption.bind Cache.firstIdentifier := by
  rw [Cache.stored?, hroot]
  simp only [Option.bind_eq_bind, Option.bind_some]
  cases t.readText (path root repository reference) <;> rfl

/-- The cache finds the first identifier that the resolver finds in a file that does not start
late. -/
theorem stored?_of_early (hroot : c.root = some root) (hreference : reference ≠ "")
    (hearly : ¬ LateFile root repository reference t) :
    c.stored? t repository reference =
      (Resolver.lookUp t root repository reference).toOption.bind List.head? := by
  rw [stored?_of_root hroot, Resolver.lookUp, if_neg (by simpa using hreference),
    Resolver.readIdentifiers]
  cases hread : t.readText (path root repository reference) with
  | error failure => cases failure <;> rfl
  | ok text =>
    have hstarts : ¬ StartsLate text := fun hstarts ↦ hearly ⟨text, hread, hstarts⟩
    exact firstIdentifier_eq_head? hstarts

theorem stored?_of_late (hroot : c.root = some root) (hreference : reference ≠ "")
    (hlate : LateFile root repository reference t) :
    c.stored? t repository reference = none ∧ ∃ identifier more,
      Resolver.lookUp t root repository reference = .ok (identifier :: more) := by
  obtain ⟨text, hread, hstarts⟩ := hlate
  obtain ⟨hnone, identifier, more, hlisted⟩ := listed_of_startsLate hstarts
  rw [stored?_of_root hroot, Resolver.lookUp, if_neg (by simpa using hreference),
    Resolver.readIdentifiers, hread]
  exact ⟨hnone, identifier, more, congrArg Except.ok hlisted⟩

/-! ### The resolver of the same files -/

/-- A chain of the resolver of link files alone tells what it tells, and leaves the world alone. -/
theorem run_resolve_ofFiles (root repository : String) (hreference : reference ≠ "") (w : World) :
    (Resolver.resolve [Resolver.ofFiles root] repository reference).run w =
      match Resolver.lookUp w.files root repository reference with
      | .ok (identifier :: more) => (.done (identifier :: more), w)
      | _ => (.failed (.unresolvable (Resolver.target repository reference)), w) := by
  rw [Resolver.resolve, if_neg (by simpa using hreference), Resolver.firstAnswer, run_bind,
    run_attempt, run_ask_ofFiles]
  rcases Resolver.lookUp w.files root repository reference with failure | _ | ⟨identifier, more⟩ <;>
    rfl

/-- The cache and the resolver read the link file of a reference alike, unless it starts late. -/
structure ReadsAlike (root repository reference : String) : Prop where
  /-- A new cache tells the first identifier that the resolver finds. -/
  first : ∀ w : World, ¬ LateFile root repository reference w.files → ∀ identifier,
    ((Cache.empty (some root)).get w.files repository reference).1 = some identifier ↔
      ∃ more, (((Resolver.ofFiles root).ask repository reference).run w).1 =
        .done (identifier :: more)
  /-- It tells none exactly if the resolver finds nothing or fails. -/
  nothing : ∀ w : World, ¬ LateFile root repository reference w.files →
    (((Cache.empty (some root)).get w.files repository reference).1 = none ↔
      (((Resolver.ofFiles root).ask repository reference).run w).1 = .done [] ∨
        ∃ failure, (((Resolver.ofFiles root).ask repository reference).run w).1 = .failed failure)
  /-- Of a file that starts late the cache tells nothing, and the resolver does. -/
  late : ∀ w : World, LateFile root repository reference w.files →
    ((Cache.empty (some root)).get w.files repository reference).1 = none ∧
      ∃ identifier more, (((Resolver.ofFiles root).ask repository reference).run w).1 =
        .done (identifier :: more)
  /-- With this resolver alone, to locate a reference changes no file, unless its link file starts
  late and memory does not have it. -/
  kept : ∀ s : Setting, s.cache.root = some root →
    (LateFile root repository reference s.world.files →
      s.cache.memory.get? (repository, reference) ≠ none) →
    ((Setting.locate [Resolver.ofFiles root] repository reference).run s).2.world = s.world
  /-- Then the first identifier of the file is added, as if it were not there. -/
  added : ∀ s : Setting, s.cache.root = some root →
    LateFile root repository reference s.world.files →
    s.cache.memory.get? (repository, reference) = none →
    ∃ identifier more,
      ((Resolver.ofFiles root).ask repository reference).run s.world =
        (.done (identifier :: more), s.world) ∧
      (Setting.locate [Resolver.ofFiles root] repository reference).run s = (.done identifier,
        ((Setting.add repository reference identifier :
          Action Setting ResolveFailure _).run s).2)

theorem reads_alike (root repository : String) (hreference : reference ≠ "") :
    ReadsAlike root repository reference := by
  constructor
  · intro w hearly identifier
    simp only [fst_run_ask_ofFiles_eq_done]
    rw [fst_get_empty, stored?_of_early rfl hreference hearly]
    rcases Resolver.lookUp w.files root repository reference with _ | _ | ⟨first, more⟩ <;>
      simp [Except.toOption]
  · intro w hearly
    simp only [fst_run_ask_ofFiles_eq_done, fst_run_ask_ofFiles_eq_failed]
    rw [fst_get_empty, stored?_of_early rfl hreference hearly]
    rcases Resolver.lookUp w.files root repository reference with _ | _ | ⟨first, more⟩ <;>
      simp [Except.toOption]
  · intro w hlate
    simp only [fst_run_ask_ofFiles_eq_done]
    rw [fst_get_empty]
    exact stored?_of_late rfl hreference hlate
  · intro s hroot hmemory
    have hresolve := run_resolve_ofFiles root repository hreference s.world
    have hlocated := Setting.located [Resolver.ofFiles root] repository reference s
    generalize (Setting.locate [Resolver.ofFiles root] repository reference).run s = result
      at hlocated ⊢
    cases hlocated with
    | remembered | stored => rfl
    | resolved identifier more world memory file found =>
      have hearly : ¬ LateFile root repository reference s.world.files :=
        fun hlate ↦ hmemory hlate memory
      rw [found] at hresolve
      rw [stored?_of_early hroot hreference hearly] at file
      rcases hfound : Resolver.lookUp s.world.files root repository reference
        with failure | _ | ⟨first, rest⟩
      · rw [hfound] at hresolve
        cases hresolve
      · rw [hfound] at hresolve
        cases hresolve
      · rw [hfound] at file
        cases file
    | missed outcome world nothing memory file found asked =>
      rw [hresolve] at asked
      rw [← asked]
      split <;> rfl
  · intro s hroot hlate hmemory
    obtain ⟨hnone, identifier, more, hfound⟩ := stored?_of_late hroot hreference hlate
    have hresolve := run_resolve_ofFiles root repository hreference s.world
    rw [hfound] at hresolve
    have hlocated := Setting.located [Resolver.ofFiles root] repository reference s
    generalize (Setting.locate [Resolver.ofFiles root] repository reference).run s = result
      at hlocated ⊢
    refine ⟨identifier, more, ?_, ?_⟩
    · rw [run_ask_ofFiles, hfound]
      rfl
    · cases hlocated with
      | remembered _ memory => cases hmemory.symm.trans memory
      | stored _ _ file => cases hnone.symm.trans file
      | resolved first rest world _ _ found =>
        cases hresolve.symm.trans found
        rfl
      | missed _ _ _ _ _ found =>
        rw [hresolve] at found
        exact absurd rfl (found identifier more)

/-- A file with carriage returns and blanks at the ends of its lines, and a blank line in it. -/
theorem reads_alike_blanks :
    let files : Tree := ⟨((Table.insert ∅ ["links".toUTF8] .directory).insert
      ["links".toUTF8, "app".toUTF8] .directory).insert
        ["links".toUTF8, "app".toUTF8, "@v1".toUTF8] (.file " bafyone\r\n\r\nbafytwo\n".toUTF8)⟩
    let w : World := ⟨files, ⟨fun _ ↦ .stalled, []⟩, [], 0, fun _ ↦ "fresh", 0⟩
    ((Cache.empty (some "links")).get files "app" "v1").1 = some "bafyone" ∧
      (∃ more, (((Resolver.ofFiles "links").ask "app" "v1").run w).1 =
        .done ("bafyone" :: more)) ∧
      ((Setting.locate [Resolver.ofFiles "links"] "app" "v1").run
        ⟨.empty (some "links"), w⟩).2.world = w := by
  intro files w
  have hread : files.readText (path "links" "app" "v1") = .ok " bafyone\r\n\r\nbafytwo\n" := by
    simp only [files]
    decide +kernel
  have hearly : ¬ LateFile "links" "app" "v1" files := by
    rintro ⟨text, htext, hlate⟩
    cases hread.symm.trans htext
    have hsome : Cache.firstIdentifier " bafyone\r\n\r\nbafytwo\n" = some "bafyone" := by
      decide +kernel
    cases hsome.symm.trans (listed_of_startsLate hlate).1
  have hgot : ((Cache.empty (some "links")).get files "app" "v1").1 = some "bafyone" := by
    simp only [files]
    decide +kernel
  have halike := reads_alike "links" "app" (show "v1" ≠ "" by decide)
  refine ⟨hgot, (halike.first w hearly "bafyone").1 hgot, ?_⟩
  exact halike.kept ⟨.empty (some "links"), w⟩ rfl fun hlate ↦ absurd hlate hearly

/-- A file whose first line is blank, with two identifiers behind it. The cache tells none, the
resolver tells both, and when the reference is located the second one is lost. -/
theorem reads_alike_late :
    let files : Tree := ⟨((Table.insert ∅ ["links".toUTF8] .directory).insert
      ["links".toUTF8, "app".toUTF8] .directory).insert
        ["links".toUTF8, "app".toUTF8, "@v1".toUTF8] (.file "\nbafyone\nbafytwo\n".toUTF8)⟩
    let w : World := ⟨files, ⟨fun _ ↦ .stalled, []⟩, [], 0, fun _ ↦ "fresh", 0⟩
    let located := (Setting.locate [Resolver.ofFiles "links"] "app" "v1").run
      ⟨.empty (some "links"), w⟩
    ((Cache.empty (some "links")).get files "app" "v1").1 = none ∧
      (((Resolver.ofFiles "links").ask "app" "v1").run w).1 = .done ["bafyone", "bafytwo"] ∧
      located.1 = .done "bafyone" ∧
      located.2.world.files.readText (path "links" "app" "v1") = .ok "bafyone\n" := by
  intro files w located
  simp only [located, w, files]
  refine ⟨?_, ?_, ?_, ?_⟩
  · decide +kernel
  · decide +kernel
  · decide +kernel
  · decide +kernel

end ImageRegistry.Link
