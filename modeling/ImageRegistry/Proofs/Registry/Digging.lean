import ImageRegistry.Proofs.Registry.Isolation
import ImageRegistry.Proofs.Registry.Pulls
import ImageRegistry.Proofs.Text.Form

/-!
# What a pull would serve

The chain of resolvers can be asked directly, and what comes of that is answered and not kept. For a
manifest that is not there and has no link, it is what a pull answers: both ask the same chain, and
then the gateway for the same bytes (`fst_run_dig_eq_done_iff`, `fst_run_pull_eq_done_iff`), and all
else that a pull does can fail without harm. Where there is nothing to answer, the two say so in
words of their own, so only what tells of success is compared (`digs_like_pull`).

The repository and the reference come in one text, with a colon between them, and are parted at the
first one. A digest has a colon too, so it is the repository that must have none.
-/

namespace ImageRegistry

open ImageRegistry.Action Http

/-! ### Questions in a query string -/

namespace Query

/-- The query string that asks for a target, of which each byte outside a class is escaped. -/
def asking (keep : UInt8 → Bool) (target : String) : String :=
  "q=" ++ String.ofList (Text.ofAscii (Text.percentEncode keep (Text.byteList target.toUTF8)))

/-- However much of it is escaped, it asks for this target, and not for identifiers alone. -/
theorem dig?_asking {keep : UInt8 → Bool} (h : Text.IsFormClass keep) (target : String) :
    dig? (some (asking keep target)) = .ok ⟨target, false⟩ := by
  obtain ⟨value, hvalue⟩ : ∃ value,
      value = Text.percentEncode keep (Text.byteList target.toUTF8) := ⟨_, rfl⟩
  have hplain : ∀ b ∈ value, b < 0x80 ∧ b ≠ 0x2b ∧ b ≠ 0x26 := by
    rw [hvalue]
    exact fun b ↦ h.mem_percentEncode
  have hascii : ∀ b ∈ [0x71] ++ 0x3d :: value, b < 0x80 := by
    rw [List.singleton_append, List.forall_mem_cons, List.forall_mem_cons]
    exact ⟨by decide, by decide, fun b hb ↦ (hplain b hb).1⟩
  have hquery : asking keep target = String.ofList (Text.ofAscii ([0x71] ++ 0x3d :: value)) := by
    rw [asking, ← hvalue, ← String.toList_inj]
    simp only [String.toList_append, String.toList_ofList]
    rfl
  have hpairs : pairs (some (asking keep target)) = [("q", target)] := by
    have hname : Text.formText [0x71] = "q" := by decide +kernel
    rw [pairs, Option.getD_some, hquery, Text.byteList_ofAscii hascii,
      Text.formPairs_single (by simp) fun hb ↦ (hplain _ hb).2.2 rfl, hname, hvalue,
      Text.formText_percentEncode h]
  rw [dig?, hpairs]
  rfl

end Query

namespace Server

variable {s t : Server} {repository reference identifier : String} {body : ByteArray}
  {request : Request} {response : Response}

/-! ### What is asked -/

theorem digTarget_of_not_mem (h : ':' ∉ repository.toList) :
    digTarget (repository ++ ":" ++ reference) = (repository, reference) := by
  have hsplit : Text.splitFirst ':' (repository ++ ":" ++ reference).toList =
      some (repository.toList, reference.toList) := by
    rw [Text.splitFirst_eq_some_iff]
    exact ⟨by simp, h⟩
  rw [digTarget, hsplit]
  simp

/-- A request to the chain of resolvers is answered as its query string says. -/
theorem run_handle_of_dig {query : Query.Dig} (hpath : request.uri.routePath = "/dig")
    (hread : request.method.isRead = true) (hquery : Query.dig? request.uri.query = .ok query)
    (s : Server) :
    (handle request).run s = ended request.method ((dig query).run s) := by
  have hroot : ¬ ("/dig".toList = "/v2".toList ∨ "/dig".toList = "/v2/".toList) := by decide
  rw [handle, serve, hpath, if_neg hroot, if_pos rfl, if_pos hread, bind_assoc, serveDig, hquery]
  simp only [pure_bind]
  rw [run_answer]

/-! ### What is answered -/

/-- What is answered without an error is what the handler ended with. -/
theorem fst_ended_eq_done_iff {method : Method}
    {result : Outcome RegistryError Response × Server} (h : response.Granted) :
    (ended method result).1 = .done response ↔
      ∃ served, result.1 = .done served ∧ response = (served.answering method).stamped := by
  rcases result with ⟨served | error | _, t⟩
  · simp [ended, eq_comm]
  · simp only [ended, Outcome.done.injEq, reduceCtorEq, false_and, exists_false, iff_false]
    rintro rfl
    rw [Response.Granted, Response.status_stamped, Response.status_answering] at h
    exact Bool.false_ne_true (h.symm.trans error.isError_status)
  · simp [ended]

/-- Where there is no link, the chain of resolvers is asked, and then the gateway for what a pull
asks it for. -/
theorem fst_run_dig_eq_done_iff (hcolon : ':' ∉ repository.toList) (hne : reference.isEmpty = false)
    (hmemory : s.registry.links.memory.get? (repository, reference) = none)
    (hfile : s.registry.links.stored? s.world.files repository reference = none) :
    ((dig ⟨repository ++ ":" ++ reference, false⟩).run s).1 = .done response ↔
      Route.checkRepository repository = .ok () ∧ ∃ identifier body,
        Supplies s repository reference identifier body ∧
          response = manifestResponse .get (.ofBody body none (some identifier)) := by
  rw [dig, digTarget_of_not_mem hcolon]
  dsimp only
  rw [hne]
  constructor
  · intro h
    obtain ⟨_, u, hcheck, h⟩ := run_bind_eq_done.1 (Prod.ext h rfl)
    obtain ⟨identifiers, v, hresolve, h⟩ := run_bind_eq_done.1 h
    obtain ⟨hrepository, rfl⟩ := run_ofExcept_eq_done.1 hcheck
    rw [run_mapError_eq_done, run_resolve, Prod.mk.injEq] at hresolve
    obtain ⟨hfound, rfl⟩ := hresolve
    cases identifiers with
    | nil => cases h
    | cons identifier more =>
      obtain ⟨body, w, hget, hserved⟩ := run_bind_eq_done.1 h
      cases hserved
      rw [run_mapError_eq_done, run_get, Prod.mk.injEq, Gateway.fst_run_get_eq_done_iff] at hget
      obtain ⟨⟨uri, head, hurl, hexchange, hsuccess⟩, -⟩ := hget
      have hfinds : Finds s repository reference identifier _ :=
        .resolved hmemory hfile more _ (Prod.ext hfound rfl)
      exact ⟨hrepository, identifier, body, ⟨_, uri, head, hfinds, hurl, hexchange, hsuccess⟩, rfl⟩
  · rintro ⟨hrepository, identifier, body, hsupplies, rfl⟩
    obtain ⟨world, uri, head, hfinds, hurl, hexchange, hsuccess⟩ := hsupplies
    cases hfinds with
    | remembered memory => cases hmemory.symm.trans memory
    | stored _ file => cases hfile.symm.trans file
    | resolved _ _ more _ found =>
      obtain ⟨u, hresolve, hregistry, rfl⟩ := run_resolve_of_done found
      obtain ⟨t, hget, -⟩ := run_get_of_answer (hregistry ▸ hurl) hexchange hsuccess
      rw [hrepository, run_bind, run_ofExcept_ok]
      dsimp only
      rw [run_bind, run_mapError_eq_done.2 hresolve]
      dsimp only
      rw [Bool.or_self, if_neg Bool.false_ne_true, run_bind, run_mapError_eq_done.2 hget]
      dsimp only
      rw [run_pure]

/-- A manifest that is not there is read as it is pulled. -/
theorem fst_run_perform_eq_done_iff {digest : Option String} {headers : Headers} {body : ByteArray}
    (hreference : Route.checkReference reference = .ok ())
    (hmissing : s.registry.manifests.get? repository reference = none) :
    ((perform .get (.manifest repository reference) digest headers body).run s).1 =
        .done response ↔
      Route.checkRepository repository = .ok () ∧ ∃ identifier body,
        Supplies s repository reference identifier body ∧
          response = manifestResponse .get (.ofBody body none (some identifier)) := by
  cases hrepository : Route.checkRepository repository with
  | error error =>
    have hunchecked : Route.checkRepository (Route.manifest repository reference).repository =
        .error error := hrepository
    rw [run_perform_of_unchecked .get hunchecked]
    simp
  | ok =>
    rw [run_perform_manifest_of_checked rfl hrepository hreference,
      run_serveManifest_of_missing hmissing]
    constructor
    · intro h
      obtain ⟨m, t, hpull, hserved⟩ := run_bind_eq_done.1 (Prod.ext h rfl)
      obtain ⟨identifier, body, hsupplies, rfl⟩ :=
        fst_run_pull_eq_done_iff.1 (congrArg Prod.fst hpull)
      cases hserved
      exact ⟨rfl, identifier, body, hsupplies, rfl⟩
    · rintro ⟨-, identifier, body, hsupplies, rfl⟩
      obtain ⟨t, hpull, -⟩ := run_pull_of_supplies hsupplies
      rw [run_bind, hpull]
      dsimp only
      rw [run_pure]

/-! ### The same answer -/

/-- A request asks the chain of resolvers what there is for a reference, and not for identifiers
alone. -/
structure Digs (request : Request) (repository reference : String) : Prop where
  get : request.method = .get
  path : request.uri.routePath = "/dig"
  query : Query.dig? request.uri.query = .ok ⟨repository ++ ":" ++ reference, false⟩

theorem digs_of_asking {keep : UInt8 → Bool} (h : Text.IsFormClass keep)
    (hget : request.method = .get) (hpath : request.uri.routePath = "/dig")
    (hquery : request.uri.query = some (Query.asking keep (repository ++ ":" ++ reference))) :
    Digs request repository reference := by
  refine ⟨hget, hpath, ?_⟩
  rw [hquery]
  exact Query.dig?_asking h _

/-- A reference in order is not empty. -/
theorem isEmpty_of_checkReference (h : Route.checkReference reference = .ok ()) :
    reference.isEmpty = false := by
  by_contra hempty
  rw [Bool.not_eq_false, String.isEmpty_iff] at hempty
  subst hempty
  cases h

/-- For a manifest that is not there and has no link, in memory or in a file, the chain of resolvers
answers what a pull does: one of the two requests is answered with success if and only if the other
one is, and with the same status, headers and body. Nothing of the registry is changed by asking the
chain, and no files are by the resolvers that there are. It is asked with a query string that may
escape whatever else it likes, as long as it escapes all that has a meaning of its own. -/
theorem digs_like_pull (s : Server) {ask read : Request} {repository reference : String}
    (hcolon : ':' ∉ repository.toList) (hasks : Digs ask repository reference)
    (hreads : read.method = .get)
    (haddressed : addressed? read = some (.manifest repository reference))
    (hunhindered : s.Unhindered read) (hreference : Route.checkReference reference = .ok ())
    (hmissing : s.registry.manifests.get? repository reference = none)
    (hmemory : s.registry.links.memory.get? (repository, reference) = none)
    (hfile : s.registry.links.stored? s.world.files repository reference = none) :
    (∀ response, response.status = .ok →
      (((handle ask).run s).1 = .done response ↔ ((handle read).run s).1 = .done response)) ∧
    ((handle ask).run s).2.registry = s.registry ∧
    ((∀ r ∈ s.registry.resolvers, r.Known) →
      ((handle ask).run s).2.world.files = s.world.files) ∧
    ∀ keep other, Text.IsFormClass keep → other.method = .get → other.uri.routePath = "/dig" →
      other.uri.query = some (Query.asking keep (repository ++ ":" ++ reference)) →
      Digs other repository reference := by
  have hundisturbed := undisturbed_of_nowhere (addressed?_of_dig hasks.path) s
  refine ⟨fun response hok ↦ ?_, hundisturbed.1,
    fun hknown ↦ hundisturbed.2 fun r hr ↦ Resolver.reads_of_known (hknown r hr),
    fun keep other hkeep hget hpath hquery ↦ digs_of_asking hkeep hget hpath hquery⟩
  have hgranted : response.Granted := by
    rw [Response.Granted, hok]
    rfl
  have hisRead : ask.method.isRead = true := by
    rw [hasks.get]
    rfl
  obtain ⟨⟨digest, hquery⟩, hlength⟩ := hunhindered
  rw [run_handle_of_dig hasks.path hisRead hasks.query,
    run_handle_of_addressed haddressed hquery hlength, fst_ended_eq_done_iff hgranted,
    fst_ended_eq_done_iff hgranted, hasks.get, hreads]
  refine exists_congr fun served ↦ and_congr_left fun _ ↦ ?_
  rw [fst_run_dig_eq_done_iff hcolon (isEmpty_of_checkReference hreference) hmemory hfile,
    fst_run_perform_eq_done_iff hreference hmissing]

/-- A digest is asked for, in a query string that escapes the first colon only, and pulled. -/
theorem digs_like_pull_digest :
    let digest := "sha256:2cf24dba5fb0a30e26e83b2ac5b9e29e1b161e5c1fa7425e73043362938b9824"
    let s : Server :=
      ⟨⟨∅, ∅, .empty (some "links"), [.fixed "fixed" ["image"]], ⟨defaultGateway, 0⟩, none⟩,
        ⟨∅, ⟨fun _ ↦ .answer ⟨.ok, []⟩ (.complete "hello".toUTF8), []⟩, [], 0, fun _ ↦ "fresh", 0⟩⟩
    let ask : Request :=
      ⟨.get, ⟨none, none, "/dig", some ("q=library%3A" ++ digest)⟩, [], ByteArray.empty⟩
    let read : Request :=
      ⟨.get, ⟨none, none, "/v2/library/manifests/" ++ digest, none⟩, [], ByteArray.empty⟩
    (∃ response, response.status = .ok ∧ ((handle ask).run s).1 = .done response ∧
      ((handle read).run s).1 = .done response) ∧
    ((handle ask).run s).2.registry = s.registry ∧
    ((handle ask).run s).2.world.files = s.world.files := by
  intro digest s ask read
  have hasks : Digs ask "library" digest := ⟨rfl, rfl, by decide +kernel⟩
  have hfile : s.registry.links.stored? s.world.files "library" digest = none := by
    simp only [s, digest]
    decide +kernel
  have haddressed : addressed? read = some (.manifest "library" digest) := by decide +kernel
  obtain ⟨hsame, hregistry, hfiles, -⟩ := digs_like_pull s (by decide) hasks rfl haddressed
    ⟨⟨none, rfl⟩, isTooLong_empty _⟩ (by decide +kernel) rfl rfl hfile
  have hanswer : ∃ response ∈ ((handle ask).run s).1.value?, response.status = .ok := by
    decide +kernel
  obtain ⟨response, hvalue, hok⟩ := hanswer
  have hdone := Outcome.value?_eq_some_iff.1 hvalue
  refine ⟨⟨response, hok, hdone, (hsame response hok).1 hdone⟩, hregistry,
    hfiles fun r hr ↦ ?_⟩
  rw [List.mem_singleton.1 hr]
  exact .fixed "fixed" ["image"]

end Server

end ImageRegistry
