import ImageRegistry.Proofs.Text.Order
import ImageRegistry.Resolver.Chain
import Mathlib.Data.List.Sort

/-!
# What a chain of resolvers answers

The resolvers of a chain are whatever they are; what counts is what they answer when they are asked
one after the other (`Asked`). To fail and to answer the empty list is to tell nothing. A reference
is answered by the first resolver that tells something (`run_firstAnswer_append`,
`run_firstAnswer_of_told`), a listing is all that is told in the order of its bytes
(`run_allAnswers`), and both fail when nothing is told. `combines_of_asked` puts these together.
-/

namespace ImageRegistry.Resolver

open ImageRegistry.Action

/-- What a resolver answers when it comes to an end. -/
abbrev Answer : Type := Except ResolveFailure (List String)

/-- The identifiers of an answer. -/
def told : Answer → List String
  | .ok identifiers => identifiers
  | .error _ => []

/-- Whether an answer has an identifier. -/
def tells (answer : Answer) : Bool := !(told answer).isEmpty

theorem tells_eq_false_iff {answer : Answer} : tells answer = false ↔ told answer = [] := by
  rw [tells, Bool.not_eq_false', List.isEmpty_iff]

theorem tells_eq_true_iff {answer : Answer} : tells answer = true ↔ told answer ≠ [] := by
  rw [← Bool.not_eq_false, tells_eq_false_iff]

/-- One after the other, and whatever they do to the world, the resolvers give these answers. -/
inductive Asked (repository reference : String) :
    List Resolver → World → List Answer → World → Prop where
  | nil (w : World) : Asked repository reference [] w [] w
  | cons {r : Resolver} {rest : List Resolver} {w u v : World} {answer : Answer}
      {answers : List Answer}
      (asked : ((r.ask repository reference).attempt : Action World ResolveFailure Answer).run w =
        (.done answer, u))
      (more : Asked repository reference rest u answers v) :
      Asked repository reference (r :: rest) w (answer :: answers) v

variable {repository reference : String} {chain : List Resolver} {w u v : World}
  {answers : List Answer}

/-- The first answers come from the first resolvers. -/
theorem Asked.split {before after : List Answer}
    (h : Asked repository reference chain w (before ++ after) v) :
    ∃ u, Asked repository reference (chain.take before.length) w before u ∧
      Asked repository reference (chain.drop before.length) u after v := by
  induction before generalizing chain w with
  | nil => exact ⟨w, .nil w, h⟩
  | cons answer before ih =>
    cases h with
    | cons asked more =>
      obtain ⟨u, hbefore, hafter⟩ := ih more
      exact ⟨u, .cons asked hbefore, hafter⟩

/-! ### References -/

/-- Resolvers that tell nothing are passed over. -/
theorem run_firstAnswer_append (h : Asked repository reference chain w answers u)
    (hnothing : ∀ answer ∈ answers, told answer = []) (rest : List Resolver) :
    (firstAnswer repository reference (chain ++ rest)).run w =
      (firstAnswer repository reference rest).run u := by
  induction h with
  | nil w => rfl
  | @cons r more w u v answer answers asked _ ih =>
    have hrest := ih fun a ha ↦ hnothing a (List.mem_cons_of_mem _ ha)
    rw [List.cons_append, firstAnswer, run_bind, asked]
    cases answer with
    | error failure => exact hrest
    | ok found =>
      have hempty : found = [] := hnothing _ List.mem_cons_self
      subst hempty
      exact hrest

/-- The first resolver that tells something has the last word. -/
theorem run_firstAnswer_of_told {r : Resolver} {found : List String}
    (h : ((r.ask repository reference).attempt : Action World ResolveFailure Answer).run w =
      (.done (.ok found), u)) (hfound : found ≠ []) (rest : List Resolver) :
    (firstAnswer repository reference (r :: rest)).run w = (.done found, u) := by
  rw [firstAnswer, run_bind, h]
  cases found with
  | nil => exact absurd rfl hfound
  | cons identifier more => rfl

/-! ### Listings -/

/-- All resolvers are asked, and what they tell is put together. -/
theorem run_allAnswers (h : Asked repository reference chain w answers u) :
    (allAnswers repository reference chain).run w = (.done (answers.flatMap told), u) := by
  induction h with
  | nil w => rfl
  | @cons r more w u v answer answers asked _ ih =>
    rw [allAnswers, run_bind, asked]
    show (allAnswers repository reference more >>= _).run u = _
    rw [run_bind, ih]
    cases answer <;> rfl

theorem mem_flatMap_told {identifier : String} :
    identifier ∈ answers.flatMap told ↔ ∃ found, .ok found ∈ answers ∧ identifier ∈ found := by
  rw [List.mem_flatMap]
  constructor
  · rintro ⟨answer, hanswer, hidentifier⟩
    cases answer with
    | error failure => cases hidentifier
    | ok found => exact ⟨found, hanswer, hidentifier⟩
  · rintro ⟨found, hfound, hidentifier⟩
    exact ⟨.ok found, hfound, hidentifier⟩

/-- The sorted texts are the only list in the order of the bytes with their members. -/
theorem eq_ofList_iff {found all : List String} : found = Ordered.ofList id all ↔
    found.Pairwise (fun a b ↦ Text.byteList a.toUTF8 < Text.byteList b.toUTF8) ∧
      ∀ identifier, identifier ∈ found ↔ identifier ∈ all := by
  simp only [Text.byteList_lt_iff]
  have hsorted : (Ordered.ofList id all).Pairwise (· < ·) := Ordered.increasing_ofList id all
  constructor
  · rintro rfl
    exact ⟨hsorted, fun identifier ↦ Ordered.mem_ofList_id⟩
  · rintro ⟨hfound, hmem⟩
    exact hfound.eq_of_mem_iff hsorted fun identifier ↦
      (hmem identifier).trans Ordered.mem_ofList_id.symm

/-! ### Chains -/

/-- Either nothing is told, or there is a first answer that tells something. -/
theorem exists_first (answers : List Answer) : (∀ answer ∈ answers, told answer = []) ∨
    ∃ before found after, answers = before ++ .ok found :: after ∧ found ≠ [] ∧
      ∀ answer ∈ before, told answer = [] := by
  induction answers with
  | nil => exact Or.inl fun answer h ↦ absurd h List.not_mem_nil
  | cons answer rest ih =>
    by_cases htold : told answer = []
    · rcases ih with hnothing | ⟨before, found, after, rfl, hfound, hbefore⟩
      · exact Or.inl (List.forall_mem_cons.2 ⟨htold, hnothing⟩)
      · exact Or.inr ⟨answer :: before, found, after, rfl, hfound,
          List.forall_mem_cons.2 ⟨htold, hbefore⟩⟩
    · cases answer with
      | error failure => exact absurd rfl htold
      | ok found => exact Or.inr ⟨[], found, rest, rfl, htold, fun a h ↦ absurd h List.not_mem_nil⟩

/-- When nothing is told, the chain fails, with the words of what was looked up. -/
theorem fst_run_resolve_of_nothing (h : Asked repository reference chain w answers u)
    (hnothing : ∀ answer ∈ answers, told answer = []) :
    ((resolve chain repository reference).run w).1 =
      .failed (.unresolvable (target repository reference)) := by
  rw [resolve]
  split
  · have hall : answers.flatMap told = [] := List.flatMap_eq_nil_iff.2 hnothing
    rw [run_bind, run_allAnswers h, hall]
    rfl
  · have hfirst := run_firstAnswer_append h hnothing []
    rw [List.append_nil] at hfirst
    rw [hfirst]
    rfl

/-- A reference is answered as by the first resolver that tells something, whatever comes behind
it. -/
theorem fst_run_resolve_of_first {before after : List Answer} {found : List String}
    (h : Asked repository reference chain w (before ++ .ok found :: after) u)
    (hreference : reference ≠ "") (hbefore : ∀ answer ∈ before, told answer = [])
    (hfound : found ≠ []) (behind : List Resolver) :
    ((resolve (chain.take (before.length + 1) ++ behind) repository reference).run w).1 =
      .done found := by
  obtain ⟨v, hpassed, hrest⟩ := h.split
  rw [resolve, if_neg (by rwa [String.isEmpty_iff])]
  cases hdrop : chain.drop before.length with
  | nil => rw [hdrop] at hrest; cases hrest
  | cons winner rest =>
    rw [hdrop] at hrest
    cases hrest with
    | cons asked _ =>
      rw [List.take_add_one, ← List.head?_drop, hdrop, List.append_assoc,
        run_firstAnswer_append hpassed hbefore]
      show ((firstAnswer repository reference (winner :: behind)).run v).1 = _
      rw [run_firstAnswer_of_told asked hfound]

theorem fst_run_resolve_of_winner {before after : List Answer} {found : List String}
    (h : Asked repository reference chain w (before ++ .ok found :: after) u)
    (hreference : reference ≠ "") (hbefore : ∀ answer ∈ before, told answer = [])
    (hfound : found ≠ []) :
    ((resolve chain repository reference).run w).1 = .done found := by
  have hfirst := fst_run_resolve_of_first h hreference hbefore hfound
    (chain.drop (before.length + 1))
  rwa [List.take_append_drop] at hfirst

/-- A listing is answered with all that is told, if anything is. -/
theorem fst_run_resolve_of_listing (h : Asked repository "" chain w answers u)
    (htold : ¬ ∀ answer ∈ answers, told answer = []) :
    ((resolve chain repository "").run w).1 =
      .done (Ordered.ofList id (answers.flatMap told)) := by
  have hall : (answers.flatMap told).isEmpty = false := by
    rwa [List.isEmpty_eq_false_iff, Ne, List.flatMap_eq_nil_iff]
  rw [resolve, if_pos (String.isEmpty_iff.2 rfl), run_bind, run_allAnswers h]
  dsimp only
  rw [hall]
  rfl

/-- To a reference the first answer counts that has an identifier. -/
theorem fst_run_resolve_of_reference (h : Asked repository reference chain w answers u)
    (hreference : reference ≠ "") :
    ((resolve chain repository reference).run w).1 =
      (answers.find? tells).elim (.failed (.unresolvable (target repository reference)))
        fun answer ↦ .done (told answer) := by
  rcases exists_first answers with hnothing | ⟨before, found, after, rfl, hfound, hbefore⟩
  · have hnone : answers.find? tells = none := List.find?_eq_none.2 fun answer hanswer ↦ by
      rw [tells_eq_false_iff.2 (hnothing answer hanswer)]
      exact Bool.false_ne_true
    rw [fst_run_resolve_of_nothing h hnothing, hnone]
    rfl
  · have hsome : (before ++ .ok found :: after).find? tells = some (.ok found) := by
      refine List.find?_eq_some_iff_append.2
        ⟨tells_eq_true_iff.2 hfound, before, after, rfl, fun answer hanswer ↦ ?_⟩
      rw [tells_eq_false_iff.2 (hbefore answer hanswer)]
      rfl
    rw [fst_run_resolve_of_winner h hreference hbefore hfound, hsome]
    rfl

/-- Sorted, the lists with the same members are the same. -/
theorem ofList_congr {all more : List String}
    (h : ∀ identifier, identifier ∈ all ↔ identifier ∈ more) :
    Ordered.ofList id all = Ordered.ofList id more := by
  obtain ⟨hsorted, hmem⟩ := eq_ofList_iff.1 (rfl : Ordered.ofList id all = _)
  exact eq_ofList_iff.2 ⟨hsorted, fun identifier ↦ (hmem identifier).trans (h identifier)⟩

theorem exists_done (h : Asked repository reference chain w answers u)
    (htold : ¬ ∀ answer ∈ answers, told answer = []) :
    ∃ found, ((resolve chain repository reference).run w).1 = .done found := by
  by_cases hreference : reference = ""
  · subst hreference
    exact ⟨_, fst_run_resolve_of_listing h htold⟩
  · rw [fst_run_resolve_of_reference h hreference]
    cases hfind : answers.find? tells with
    | some answer => exact ⟨told answer, rfl⟩
    | none =>
      refine absurd (fun answer hanswer ↦ tells_eq_false_iff.1 ?_) htold
      exact Bool.eq_false_of_not_eq_true (List.find?_eq_none.1 hfind answer hanswer)

/-- A chain fails exactly when nothing is told. -/
theorem fst_run_resolve_eq_failed_iff (h : Asked repository reference chain w answers u)
    {failure : ResolveFailure} :
    ((resolve chain repository reference).run w).1 = .failed failure ↔
      failure = .unresolvable (target repository reference) ∧
        ∀ answer ∈ answers, told answer = [] := by
  by_cases hnothing : ∀ answer ∈ answers, told answer = []
  · rw [fst_run_resolve_of_nothing h hnothing, Outcome.failed.injEq]
    exact ⟨fun hfailure ↦ ⟨hfailure.symm, hnothing⟩, fun hfailure ↦ hfailure.1.symm⟩
  · obtain ⟨found, hdone⟩ := exists_done h hnothing
    rw [hdone]
    constructor
    · intro hfailed
      cases hfailed
    · rintro ⟨-, hnothing'⟩
      exact absurd hnothing' hnothing

theorem fst_run_resolve_eq_done_iff (h : Asked repository reference chain w answers u)
    (hreference : reference ≠ "") {found : List String} :
    ((resolve chain repository reference).run w).1 = .done found ↔
      found ≠ [] ∧ ∃ before after, answers = before ++ .ok found :: after ∧
        ∀ answer ∈ before, told answer = [] := by
  constructor
  · intro hdone
    rcases exists_first answers with hnothing | ⟨before, first, after, rfl, hfirst, hbefore⟩
    · rw [fst_run_resolve_of_nothing h hnothing] at hdone
      cases hdone
    · rw [fst_run_resolve_of_winner h hreference hbefore hfirst] at hdone
      cases hdone
      exact ⟨hfirst, before, after, rfl, hbefore⟩
  · rintro ⟨hfound, before, after, rfl, hbefore⟩
    exact fst_run_resolve_of_winner h hreference hbefore hfound

theorem fst_run_resolve_listing_eq_done_iff (h : Asked repository "" chain w answers u)
    {found : List String} :
    ((resolve chain repository "").run w).1 = .done found ↔
      found ≠ [] ∧
        found.Pairwise (fun a b ↦ Text.byteList a.toUTF8 < Text.byteList b.toUTF8) ∧
        ∀ identifier, identifier ∈ found ↔ ∃ all, .ok all ∈ answers ∧ identifier ∈ all := by
  simp only [← mem_flatMap_told, ← eq_ofList_iff]
  by_cases hnothing : ∀ answer ∈ answers, told answer = []
  · have hall : answers.flatMap told = [] := List.flatMap_eq_nil_iff.2 hnothing
    rw [fst_run_resolve_of_nothing h hnothing, hall]
    constructor
    · intro hdone
      cases hdone
    · rintro ⟨hfound, rfl⟩
      exact absurd rfl hfound
  · rw [fst_run_resolve_of_listing h hnothing, Outcome.done.injEq]
    constructor
    · rintro rfl
      refine ⟨fun hempty ↦ hnothing (List.flatMap_eq_nil_iff.1 ?_), rfl⟩
      refine List.eq_nil_iff_forall_not_mem.2 fun identifier hidentifier ↦ ?_
      rw [← Ordered.mem_ofList_id, hempty] at hidentifier
      cases hidentifier
    · rintro ⟨-, rfl⟩
      rfl

theorem mem_flatMap_told_congr {heard : List Answer}
    (h : ∀ answer, tells answer = true → (answer ∈ heard ↔ answer ∈ answers))
    (identifier : String) :
    identifier ∈ heard.flatMap told ↔ identifier ∈ answers.flatMap told := by
  rw [List.mem_flatMap, List.mem_flatMap]
  refine exists_congr fun answer ↦ and_congr_left fun hidentifier ↦ h answer ?_
  exact tells_eq_true_iff.2 (List.ne_nil_of_mem hidentifier)

/-- Chains that are told the same identifiers list the same. -/
theorem fst_run_resolve_listing_congr {others : List Resolver} {heard : List Answer} {x y : World}
    (h : Asked repository "" chain w answers u) (hothers : Asked repository "" others x heard y)
    (hsame : ∀ identifier,
      identifier ∈ heard.flatMap told ↔ identifier ∈ answers.flatMap told) :
    ((resolve others repository "").run x).1 = ((resolve chain repository "").run w).1 := by
  have hnil : heard.flatMap told = [] ↔ answers.flatMap told = [] := by
    rw [List.eq_nil_iff_forall_not_mem, List.eq_nil_iff_forall_not_mem]
    exact forall_congr' fun identifier ↦ not_congr (hsame identifier)
  rw [List.flatMap_eq_nil_iff, List.flatMap_eq_nil_iff] at hnil
  by_cases hnothing : ∀ answer ∈ answers, told answer = []
  · rw [fst_run_resolve_of_nothing h hnothing,
      fst_run_resolve_of_nothing hothers (hnil.2 hnothing)]
  · rw [fst_run_resolve_of_listing h hnothing,
      fst_run_resolve_of_listing hothers fun hheard ↦ hnothing (hnil.1 hheard),
      ofList_congr hsame]

/-- What a chain answers, by the answers that its resolvers give from `w` on. -/
structure Combines (repository reference : String) (chain : List Resolver) (w : World)
    (answers : List Answer) : Prop where
  /-- A reference has the answer of the first resolver that succeeds with a list that is not empty,
  as it is. -/
  first : reference ≠ "" → ∀ found,
    ((resolve chain repository reference).run w).1 = .done found ↔
      found ≠ [] ∧ ∃ before after, answers = before ++ .ok found :: after ∧
        ∀ answer ∈ before, told answer = []
  /-- What comes behind that resolver is of no account. -/
  behind : reference ≠ "" → ∀ {before found after}, answers = before ++ .ok found :: after →
    (∀ answer ∈ before, told answer = []) → found ≠ [] → ∀ others,
      ((resolve (chain.take (before.length + 1) ++ others) repository reference).run w).1 =
        ((resolve chain repository reference).run w).1
  /-- A listing has what stands in some answer, each identifier once, in the order of the bytes. -/
  listing : reference = "" → ∀ found,
    ((resolve chain repository reference).run w).1 = .done found ↔
      found ≠ [] ∧
        found.Pairwise (fun a b ↦ Text.byteList a.toUTF8 < Text.byteList b.toUTF8) ∧
        ∀ identifier, identifier ∈ found ↔ ∃ all, .ok all ∈ answers ∧ identifier ∈ all
  /-- The one failure is that all resolvers fail or answer the empty list. -/
  failing : ∀ failure, ((resolve chain repository reference).run w).1 = .failed failure ↔
    failure = .unresolvable (repository ++ ":" ++ reference) ∧
      ∀ answer ∈ answers, told answer = []
  /-- The chain comes to an end. -/
  ending : ((resolve chain repository reference).run w).1 ≠ .stuck
  /-- Resolvers that fail or answer the empty list may come in and go, anywhere. -/
  passing : reference ≠ "" → ∀ {others heard x y}, Asked repository reference others x heard y →
    heard.filter tells = answers.filter tells →
      ((resolve others repository reference).run x).1 =
        ((resolve chain repository reference).run w).1
  /-- A listing does not depend on the order of the resolvers, nor on how often one stands in the
  chain. -/
  mixing : reference = "" → ∀ {others heard x y}, Asked repository reference others x heard y →
    (∀ answer, tells answer = true → (answer ∈ heard ↔ answer ∈ answers)) →
      ((resolve others repository reference).run x).1 =
        ((resolve chain repository reference).run w).1

/-- Whatever the resolvers of a chain are: when each comes to an end, the chain combines what they
answer. -/
theorem combines_of_asked (h : Asked repository reference chain w answers u) :
    Combines repository reference chain w answers where
  first hreference found := fst_run_resolve_eq_done_iff h hreference
  behind hreference {before found after} hanswers hbefore hfound others := by
    rw [fst_run_resolve_of_first (hanswers ▸ h) hreference hbefore hfound others]
    exact ((fst_run_resolve_eq_done_iff h hreference).2
      ⟨hfound, before, after, hanswers, hbefore⟩).symm
  listing hreference found := by
    subst hreference
    exact fst_run_resolve_listing_eq_done_iff h
  failing failure := fst_run_resolve_eq_failed_iff h
  ending hstuck := by
    by_cases hnothing : ∀ answer ∈ answers, told answer = []
    · rw [fst_run_resolve_of_nothing h hnothing] at hstuck
      cases hstuck
    · obtain ⟨found, hdone⟩ := exists_done h hnothing
      rw [hdone] at hstuck
      cases hstuck
  passing hreference {others heard x y} hothers hsame := by
    rw [fst_run_resolve_of_reference h hreference,
      fst_run_resolve_of_reference hothers hreference, ← List.head?_filter, hsame,
      List.head?_filter]
  mixing hreference {others heard x y} hothers hsame := by
    subst hreference
    exact fst_run_resolve_listing_congr h hothers (mem_flatMap_told_congr hsame)

/-- A chain in which one resolver fails and one knows nothing. -/
theorem combines_of_asked_two_silent :
    let w : World := ⟨∅, ⟨fun _ ↦ .answer ⟨.ok, []⟩ (.complete ByteArray.empty), []⟩, [], 0,
      fun _ ↦ "fresh", 0⟩
    let chain : List Resolver := [.broken "broken", .fixed "empty" [],
      .fixed "first" ["zz", "aa", "zz"], .fixed "second" ["bb", "aa"]]
    let answers : List Answer := [.error (.unresolvable "app"), .ok [], .ok ["zz", "aa", "zz"],
      .ok ["bb", "aa"]]
    Combines "app" "v1" chain w answers ∧ Combines "app" "" chain w answers ∧
      ((resolve chain "app" "v1").run w).1 = .done ["zz", "aa", "zz"] ∧
      ((resolve chain "app" "").run w).1 = .done ["aa", "bb", "zz"] := by
  intro w chain answers
  have hasked (reference : String) : Asked "app" reference chain w answers w :=
    .cons rfl (.cons rfl (.cons rfl (.cons rfl (.nil w))))
  have hreference := combines_of_asked (hasked "v1")
  have hlisting := combines_of_asked (hasked "")
  refine ⟨hreference, hlisting, (hreference.first (by decide) _).2 ⟨by decide, ?_⟩,
    (hlisting.listing rfl _).2 ⟨by decide, by decide, fun identifier ↦ ?_⟩⟩
  · exact ⟨[.error (.unresolvable "app"), .ok []], [.ok ["bb", "aa"]], rfl, by decide⟩
  · simp only [answers, List.mem_cons, List.not_mem_nil, reduceCtorEq, Except.ok.injEq, false_or,
      or_false, exists_eq_or_imp, exists_eq_left]
    tauto

end ImageRegistry.Resolver
