import ImageRegistry.Link.Locate
import ImageRegistry.Proofs.Action
import ImageRegistry.Proofs.Resolver.Reads

/-!
# Links that are remembered

An identifier that was looked up, located or added is in memory from then on, and memory is asked
first. `located` says once what it comes to when a reference is located. That an identifier stays
(`knows_run`) rests on one thing: only what is added for the very same key takes its place, because
a look-up remembers what it found in a link file only when memory had nothing (`knows_take`). What
becomes of the files, of the resolvers and of other keys does not matter, and keys that share a link
file are other keys.

A run takes its calls one after the other: each comes to its end before the next one begins, and
between them the files and what the resolvers ask may change at will.
-/

namespace ImageRegistry.Link

open ImageRegistry.Action

namespace Cache

variable {c : Cache} {repository reference identifier : String}

/-- Memory has an identifier for a reference. -/
def Knows (c : Cache) (repository reference identifier : String) : Prop :=
  c.memory.get? (repository, reference) = some identifier

/-- What is remembered for a key that memory does not have takes nothing's place. -/
theorem Knows.remember {r f : String} (h : c.Knows repository reference identifier)
    (hkey : c.memory.get? (r, f) = none) (value : String) :
    (c.remember r f value).Knows repository reference identifier := by
  refine (Table.get?_insert_of_ne _ _ fun hsame ↦ ?_).trans h
  rw [hsame] at hkey
  cases hkey.symm.trans h

/-- A look-up remembers only what memory does not have. -/
theorem Knows.get (h : c.Knows repository reference identifier) (files : Files.Tree)
    (r f : String) : (c.get files r f).2.Knows repository reference identifier := by
  cases hmemory : c.memory.get? (r, f) with
  | some other => rwa [get_of_memory hmemory]
  | none =>
    cases hfile : c.stored? files r f with
    | some value =>
      simp only [Cache.get, hmemory, hfile]
      exact h.remember hmemory value
    | none =>
      simp only [Cache.get, hmemory, hfile]
      exact h

/-- Only what is added for the same key takes the place of an identifier. -/
theorem Knows.add {r f : String} (h : c.Knows repository reference identifier)
    (hkey : (r, f) ≠ (repository, reference)) (files : Files.Tree) (value : String) :
    (c.add files r f value).2.1.Knows repository reference identifier := by
  rw [memory_add]
  exact (Table.get?_insert_of_ne _ _ hkey).trans h

/-- What is added is in memory, whatever becomes of its file. -/
theorem knows_add (c : Cache) (files : Files.Tree) (repository reference identifier : String) :
    (c.add files repository reference identifier).2.1.Knows repository reference identifier := by
  rw [memory_add]
  exact Table.get?_insert_self _ _ _

end Cache

namespace Setting

variable {s t : Setting} {repository reference identifier : String} {chain : List Resolver}

/-! ### Locating a reference -/

theorem cache_run_add {ε : Type} (s : Setting) (repository reference identifier : String) :
    ((add repository reference identifier : Action Setting ε _).run s).2.cache =
      (s.cache.add s.world.files repository reference identifier).2.1 := rfl

/-- What comes of locating a reference. -/
inductive Located (chain : List Resolver) (repository reference : String) (s : Setting) :
    Outcome ResolveFailure String × Setting → Prop where
  /-- Memory has the identifier. -/
  | remembered (identifier : String)
      (memory : s.cache.memory.get? (repository, reference) = some identifier) :
      Located chain repository reference s (.done identifier, s)
  /-- The link file has it. -/
  | stored (identifier : String)
      (memory : s.cache.memory.get? (repository, reference) = none)
      (file : s.cache.stored? s.world.files repository reference = some identifier) :
      Located chain repository reference s
        (.done identifier, { s with cache := s.cache.remember repository reference identifier })
  /-- The chain of resolvers finds it first. -/
  | resolved (identifier : String) (more : List String) (world : World)
      (memory : s.cache.memory.get? (repository, reference) = none)
      (file : s.cache.stored? s.world.files repository reference = none)
      (found : (Resolver.resolve chain repository reference).run s.world =
        (.done (identifier :: more), world)) :
      Located chain repository reference s (.done identifier,
        ((add repository reference identifier : Action Setting ResolveFailure _).run
          ⟨s.cache, world⟩).2)
  /-- Nothing is found, and there is nothing to remember. -/
  | missed (outcome : Outcome ResolveFailure String) (world : World)
      (nothing : ∀ identifier, outcome ≠ .done identifier)
      (memory : s.cache.memory.get? (repository, reference) = none)
      (file : s.cache.stored? s.world.files repository reference = none)
      (found : ∀ identifier more,
        ((Resolver.resolve chain repository reference).run s.world).1 ≠ .done (identifier :: more))
      (asked : ((Resolver.resolve chain repository reference).run s.world).2 = world) :
      Located chain repository reference s (outcome, ⟨s.cache, world⟩)

theorem located (chain : List Resolver) (repository reference : String) (s : Setting) :
    Located chain repository reference s ((locate chain repository reference).run s) := by
  have hlookUp : (lookUp repository reference : Action Setting ResolveFailure _).run s =
      (.done (s.cache.get s.world.files repository reference).1,
        { s with cache := (s.cache.get s.world.files repository reference).2 }) := rfl
  rw [locate, run_bind, hlookUp]
  cases hmemory : s.cache.memory.get? (repository, reference) with
  | some identifier =>
    rw [Cache.get_of_memory hmemory]
    exact .remembered identifier hmemory
  | none =>
    cases hfile : s.cache.stored? s.world.files repository reference with
    | some identifier =>
      simp only [Cache.get, hmemory, hfile]
      exact .stored identifier hmemory hfile
    | none =>
      simp only [Cache.get, hmemory, hfile]
      rw [run_bind, onWorld, run_within]
      have hmissed (outcome : Outcome ResolveFailure String)
          (houtcome : ∀ identifier, outcome ≠ .done identifier)
          (hfound : ∀ identifier more,
            ((Resolver.resolve chain repository reference).run s.world).1 ≠
              .done (identifier :: more)) :=
        Located.missed outcome _ houtcome hmemory hfile hfound rfl
      rcases hrun : (Resolver.resolve chain repository reference).run s.world with
        ⟨(_ | ⟨identifier, more⟩) | failure | _, world⟩
      · rw [hrun] at hmissed
        exact hmissed _ (by simp) (by simp)
      · exact .resolved identifier more world hmemory hfile hrun
      · rw [hrun] at hmissed
        exact hmissed _ (by simp) (by simp)
      · rw [hrun] at hmissed
        exact hmissed _ (by simp) (by simp)

/-! ### What is in memory -/

/-- Memory is asked first, and answers without the files and the resolvers. -/
theorem run_lookUp_of_knows {ε : Type} (h : s.cache.Knows repository reference identifier) :
    (lookUp repository reference : Action Setting ε _).run s = (.done (some identifier), s) := by
  show (Outcome.done (s.cache.get s.world.files repository reference).1,
    { s with cache := (s.cache.get s.world.files repository reference).2 }) = _
  rw [Cache.get_of_memory h]

theorem run_locate_of_knows (h : s.cache.Knows repository reference identifier)
    (chain : List Resolver) :
    (locate chain repository reference).run s = (.done identifier, s) := by
  have hlocated := located chain repository reference s
  generalize (locate chain repository reference).run s = result at hlocated ⊢
  cases hlocated with
  | remembered other memory =>
    rw [Option.some.inj (h.symm.trans memory)]
  | stored _ memory | resolved _ _ _ memory | missed _ _ _ memory => cases h.symm.trans memory

end Setting

/-! ### Runs -/

/-- What happens to a link cache. -/
inductive Event where
  | lookUp (repository reference : String)
  /-- A reference is located, with the resolvers that there are then. -/
  | locate (chain : List Resolver) (repository reference : String)
  | add (repository reference identifier : String)
  /-- The files, or what the resolvers ask, are not what they were any more. -/
  | world (world : World)

/-- An identifier is added for this very key. -/
def Event.Adds (repository reference : String) (e : Event) : Prop :=
  ∃ identifier, e = .add repository reference identifier

namespace Setting

variable {s : Setting} {repository reference identifier : String} {e : Event}

/-- A link cache after an event. -/
def take (s : Setting) : Event → Setting
  | .lookUp repository reference =>
    ((lookUp repository reference : Action Setting ResolveFailure _).run s).2
  | .locate chain repository reference => ((locate chain repository reference).run s).2
  | .add repository reference identifier =>
    ((add repository reference identifier : Action Setting ResolveFailure _).run s).2
  | .world world => { s with world := world }

/-- A link cache after some events. -/
def run (s : Setting) (events : List Event) : Setting := events.foldl take s

/-- An event that tells an identifier for a reference, or brings it. -/
inductive Learns (s : Setting) (repository reference identifier : String) : Event → Prop where
  | lookUp (told : ((lookUp repository reference : Action Setting ResolveFailure _).run s).1 =
      .done (some identifier)) :
      Learns s repository reference identifier (.lookUp repository reference)
  | locate (chain : List Resolver)
      (told : ((locate chain repository reference).run s).1 = .done identifier) :
      Learns s repository reference identifier (.locate chain repository reference)
  | add : Learns s repository reference identifier (.add repository reference identifier)

/-- What is told or added is in memory. -/
theorem knows_of_learns (h : Learns s repository reference identifier e) :
    (s.take e).cache.Knows repository reference identifier := by
  cases h with
  | lookUp told =>
    exact Cache.memory_of_get (Outcome.done.inj told)
  | locate chain told =>
    have hlocated := located chain repository reference s
    rw [take]
    generalize (Setting.locate chain repository reference).run s = result at hlocated told ⊢
    cases hlocated with
    | remembered other memory =>
      cases told
      exact memory
    | stored other memory file =>
      cases told
      exact Table.get?_insert_self _ _ _
    | resolved other more world memory file found =>
      cases told
      rw [cache_run_add]
      exact s.cache.knows_add world.files repository reference identifier
    | missed outcome world nothing => exact absurd told (nothing identifier)
  | add => exact s.cache.knows_add s.world.files repository reference identifier

/-- No event takes an identifier out of memory, and only what is added for its key takes its
place. -/
theorem knows_take (h : s.cache.Knows repository reference identifier)
    (hadds : ¬ e.Adds repository reference) :
    (s.take e).cache.Knows repository reference identifier := by
  cases e with
  | lookUp r f => exact h.get s.world.files r f
  | locate chain r f =>
    have hlocated := located chain r f s
    rw [take]
    generalize (Setting.locate chain r f).run s = result at hlocated ⊢
    cases hlocated with
    | remembered other memory => exact h
    | stored other memory file => exact h.remember memory other
    | resolved other more world memory file found =>
      rw [cache_run_add]
      refine h.add (fun hsame ↦ ?_) world.files other
      rw [hsame] at memory
      cases memory.symm.trans h
    | missed outcome world nothing memory file found asked => exact h
  | add r f other =>
    refine h.add (fun hsame ↦ hadds ⟨other, ?_⟩) s.world.files other
    obtain ⟨rfl, rfl⟩ := Prod.mk.inj hsame
    rfl
  | world world => exact h

/-- An identifier stays in memory for as long as nothing is added for its key. -/
theorem knows_run {later : List Event} (h : s.cache.Knows repository reference identifier)
    (hlater : ∀ e ∈ later, ¬ e.Adds repository reference) :
    (s.run later).cache.Knows repository reference identifier := by
  induction later generalizing s with
  | nil => exact h
  | cons first rest ih =>
    exact ih (knows_take h (hlater first List.mem_cons_self))
      fun e he ↦ hlater e (List.mem_cons_of_mem first he)

/-! ### What a cache remembers -/

/-- How a link cache remembers what belongs to a reference of a repository. The resolvers of a chain
may be anything, so they could change the world themselves; those that only read do not. -/
structure Memoizes (repository reference : String) : Prop where
  /-- What was told or added once is told ever after, in whatever world and with whatever chain of
  resolvers: neither is asked, and nothing changes. -/
  kept : ∀ {s t : Setting} {e : Event} {identifier : String} {later : List Event},
    s.Learns repository reference identifier e →
    (∀ e ∈ later, ¬ e.Adds repository reference) →
    t.cache = ((s.take e).run later).cache →
    (lookUp repository reference : Action Setting ResolveFailure _).run t =
      (.done (some identifier), t) ∧
    ∀ chain : List Resolver, (locate chain repository reference).run t = (.done identifier, t)
  /-- A failure leaves memory as it is, and the world to the resolvers. -/
  failing : ∀ (s : Setting) (chain : List Resolver),
    ((locate chain repository reference).run s).1.value? = none →
    ((locate chain repository reference).run s).2 =
      ⟨s.cache, ((Resolver.resolve chain repository reference).run s.world).2⟩ ∧
    ((∀ r ∈ chain, r.Reads) →
      ((locate chain repository reference).run s).2.world.files = s.world.files)
  /-- The first answer is that of the link file, or else the first one of the resolvers. -/
  first : ∀ (s : Setting) (chain : List Resolver) (identifier : String),
    s.cache.memory.get? (repository, reference) = none →
    (((locate chain repository reference).run s).1 = .done identifier ↔
      s.cache.stored? s.world.files repository reference = some identifier ∨
      s.cache.stored? s.world.files repository reference = none ∧
        ∃ more, ((Resolver.resolve chain repository reference).run s.world).1 =
          .done (identifier :: more))

theorem snd_run_locate_of_failing {chain : List Resolver}
    (h : ((locate chain repository reference).run s).1.value? = none) :
    ((locate chain repository reference).run s).2 =
      ⟨s.cache, ((Resolver.resolve chain repository reference).run s.world).2⟩ := by
  have hlocated := located chain repository reference s
  generalize (locate chain repository reference).run s = result at hlocated h ⊢
  cases hlocated with
  | remembered | stored | resolved => cases h
  | missed outcome world nothing memory file found asked => rw [asked]

theorem fst_run_locate_eq_done_iff (chain : List Resolver) (identifier : String)
    (hmemory : s.cache.memory.get? (repository, reference) = none) :
    ((locate chain repository reference).run s).1 = .done identifier ↔
      s.cache.stored? s.world.files repository reference = some identifier ∨
      s.cache.stored? s.world.files repository reference = none ∧
        ∃ more, ((Resolver.resolve chain repository reference).run s.world).1 =
          .done (identifier :: more) := by
  have hlocated := located chain repository reference s
  generalize (locate chain repository reference).run s = result at hlocated ⊢
  cases hlocated with
  | remembered other memory => cases hmemory.symm.trans memory
  | stored other memory file => simp [file]
  | resolved other more world memory file found => simp [file, found]
  | missed outcome world nothing memory file found asked => simp [file, nothing, found]

theorem memoizes (repository reference : String) : Memoizes repository reference where
  kept {s t e identifier later} hlearns hlater hcache := by
    have hknows : t.cache.Knows repository reference identifier := by
      rw [hcache]
      exact knows_run (knows_of_learns hlearns) hlater
    exact ⟨run_lookUp_of_knows hknows, run_locate_of_knows hknows⟩
  failing s chain h := by
    have hafter := snd_run_locate_of_failing h
    refine ⟨hafter, fun hreads ↦ ?_⟩
    rw [hafter]
    exact Resolver.keeps_resolve hreads repository reference s.world
  first s chain identifier hmemory := fst_run_locate_eq_done_iff chain identifier hmemory

/-- Two references that share a link file. What was added for the second one stands in it, and the
first one is told as it was added. -/
theorem memoizes_shared_file :
    let once := (Cache.empty (some "links")).add ∅ "app" "a/b" "bafyone"
    let twice := once.2.1.add once.2.2 "app" "a%2Fb" "bafytwo"
    let w : World := ⟨twice.2.2, ⟨fun _ ↦ .answer ⟨.ok, []⟩ (.complete ByteArray.empty), []⟩, [], 0,
      fun _ ↦ "fresh", 0⟩
    let t : Setting := ⟨twice.2.1, w⟩
    twice.2.1.stored? twice.2.2 "app" "a/b" = some "bafytwo" ∧
      (lookUp "app" "a/b" : Action Setting ResolveFailure _).run t = (.done (some "bafyone"), t) ∧
      (locate [.fixed "other" ["bafythree"]] "app" "a/b").run t = (.done "bafyone", t) := by
  intro once twice w t
  have hlater : ∀ e ∈ [Event.add "app" "a%2Fb" "bafytwo"], ¬ e.Adds "app" "a/b" := by
    intro e he
    rw [List.mem_singleton.1 he]
    rintro ⟨identifier, hadd⟩
    exact absurd (Event.add.inj hadd).2.1 (by decide)
  have hstored : twice.2.1.stored? twice.2.2 "app" "a/b" = some "bafytwo" := by
    simp only [twice, once]
    decide +kernel
  let s : Setting := ⟨.empty (some "links"), { w with files := ∅ }⟩
  have hlearns : s.Learns "app" "a/b" "bafyone" (.add "app" "a/b" "bafyone") := .add
  have hcache : t.cache =
      ((s.take (.add "app" "a/b" "bafyone")).run [.add "app" "a%2Fb" "bafytwo"]).cache := by
    -- What is in memory does not depend on the files.
    simp only [t, twice, once, s, run, List.foldl_cons, List.foldl_nil, take, cache_run_add,
      Cache.memory_add]
  have hkept := (memoizes "app" "a/b").kept hlearns hlater hcache
  exact ⟨hstored, hkept.1, hkept.2 _⟩

end Setting

end ImageRegistry.Link
