import ImageRegistry.Proofs.Registry.Naming
import Mathlib.Data.Set.Function

/-!
# What has been served once is served again

A manifest that a client has pushed or got under a tag is there for the next one, with the same
bytes, whatever the gateway would answer by then: under the tag until another one is pushed under
it, and under the digest of its bytes for good (`kept_of_run`). Nothing but the store is looked at
for that (`run_handle_of_found`).

A tag is only written by a push under it, because a pull begins with a manifest that is missing.
A digest is written again and again, by every push and every pull of the same bytes under whatever
reference. That does no harm as long as no other bytes have the same digest, for what comes in under
it has it (`Manifest.Store.Holds`): a push is checked for that, and a pull of that very digest,
which is not, would have to find nothing there.
-/

namespace ImageRegistry

open ImageRegistry.Action Http

/-! ### Digests that stand for their bytes -/

namespace Manifest.Store

variable {s : Store} {repository reference r digest : String} {m : Manifest}

/-- A key that has a manifest has it after an `insert`, or has the one that came in. -/
theorem found_insert {key : String} {old : Manifest} (repository reference : String)
    (m : Manifest) (h : s.get? r key = some old) :
    ∃ found, (s.insert repository reference m).get? r key = some found ∧
      (found = old ∨ found = m ∧ repository = r ∧ (reference = key ∨ m.digest = key)) := by
  by_cases hwhere : repository = r ∧ (reference = key ∨ m.digest = key)
  · exact ⟨m, by rw [get?_insert, if_pos hwhere], Or.inr ⟨rfl, hwhere⟩⟩
  · exact ⟨old, by rw [get?_insert, if_neg hwhere, h], Or.inl rfl⟩

/-- Under a digest there is a manifest whose bytes have it. -/
def Holds (s : Store) (repository digest : String) : Prop :=
  ∃ m, s.get? repository digest = some m ∧ Digest.ofContent m.body = digest

/-- A manifest with the digest of its bytes does not take the place of another under a digest that
is not its own. -/
structure Fits (s : Store) (repository reference : String) (m : Manifest) : Prop where
  hashed : m.digest = Digest.ofContent m.body
  fresh : Digest.isDigest reference = true →
    m.digest = reference ∨ s.get? repository reference = none

theorem Fits.holds_insert (h : s.Fits repository reference m) :
    (s.insert repository reference m).Holds repository m.digest := by
  refine ⟨m, ?_, h.hashed.symm⟩
  rw [get?_insert, if_pos ⟨rfl, Or.inr rfl⟩]

theorem Holds.insert (h : s.Holds r digest) (hfits : s.Fits repository reference m) :
    (s.insert repository reference m).Holds r digest := by
  obtain ⟨old, hold, hbytes⟩ := h
  obtain ⟨found, hfound, rfl | ⟨rfl, rfl, hreference⟩⟩ := found_insert repository reference m hold
  · exact ⟨found, hfound, hbytes⟩
  · refine ⟨found, hfound, hfits.hashed.symm.trans ?_⟩
    rcases hreference with rfl | hdigest
    · have hshape : Digest.isDigest reference = true := by
        rw [← hbytes]
        exact Digest.isDigest_ofContent old.body
      exact (hfits.fresh hshape).resolve_right (by simp [hold])
    · exact hdigest

/-- Each manifest has the digest of its bytes, and under that digest there are such bytes. -/
def Rooted (s : Store) : Prop :=
  ∀ r k m, s.get? r k = some m → m.digest = Digest.ofContent m.body ∧ s.Holds r m.digest

theorem Rooted.insert (h : s.Rooted) (hfits : s.Fits repository reference m) :
    (s.insert repository reference m).Rooted := by
  intro r k stored hget
  rw [get?_insert] at hget
  split at hget
  · next hwhere =>
    obtain rfl : m = stored := Option.some.inj hget
    obtain rfl : repository = r := hwhere.1
    exact ⟨hfits.hashed, hfits.holds_insert⟩
  · obtain ⟨hhashed, hheld⟩ := h r k stored hget
    exact ⟨hhashed, hheld.insert hfits⟩

end Manifest.Store

namespace Server

variable {s t : Server} {e : Event} {request : Request} {response : Response}
  {repository reference digest tag : String} {m : Manifest}

/-- An event leaves the manifests as they are, or it inserts one that fits. -/
theorem manifests_take (s : Server) (e : Event) :
    (s.take e).registry.manifests = s.registry.manifests ∨
      ∃ repository reference m, s.registry.manifests.Fits repository reference m ∧
        (s.take e).registry.manifests = s.registry.manifests.insert repository reference m := by
  have hchanged := s.changed e
  show (stored (s.take e)).2 = _ ∨ ∃ repository reference m, _ ∧ (stored (s.take e)).2 = _
  generalize stored (s.take e) = after at hchanged ⊢
  cases hchanged with
  | kept | called => exact Or.inl rfl
  | pushed request repository reference pushes accepts =>
    refine Or.inr ⟨repository, reference, _, ⟨rfl, fun hshape ↦ Or.inl ?_⟩, rfl⟩
    exact (accepts.named hshape).symm
  | pulled request repository reference brought hbrought =>
    obtain ⟨identifier, body, -, rfl⟩ := hbrought.offered
    exact Or.inr ⟨repository, reference, _, ⟨rfl, fun _ ↦ Or.inr hbrought.missing⟩, rfl⟩

theorem holds_take (h : s.registry.manifests.Holds repository digest) (e : Event) :
    (s.take e).registry.manifests.Holds repository digest := by
  rcases s.manifests_take e with hkept | ⟨r, reference, m, hfits, hinserted⟩
  · rwa [hkept]
  · rw [hinserted]
    exact h.insert hfits

theorem holds_run (h : s.registry.manifests.Holds repository digest) (events : List Event) :
    (s.run events).registry.manifests.Holds repository digest := by
  induction events using List.reverseRecOn with
  | nil => exact h
  | append_singleton events e ih =>
    rw [run_concat]
    exact holds_take ih e

theorem rooted_run (plan : Settings.Plan) (world : World) (events : List Event) :
    ((start plan world).run events).registry.manifests.Rooted := by
  induction events using List.reverseRecOn with
  | nil =>
    intro r k m hget
    cases hget
  | append_singleton events e ih =>
    rw [run_concat]
    rcases Server.manifests_take ((start plan world).run events) e with
      hkept | ⟨r, reference, m, hfits, hinserted⟩
    · rwa [hkept]
    · rw [hinserted]
      exact ih.insert hfits

/-! ### References that have a manifest -/

/-- A reference that has a manifest keeps it, unless another one is pushed under it, or one comes in
that has the reference for its digest. A pull under it would have to find nothing there. -/
theorem found_take (hget : s.registry.manifests.get? repository reference = some m) (e : Event) :
    ∃ found, (s.take e).registry.manifests.get? repository reference = some found ∧
      (found = m ∨ Digest.ofContent found.body = reference ∨
        ∃ request, e = .request request ∧ Pushes s request repository reference) := by
  have hchanged := s.changed e
  show ∃ found, (stored (s.take e)).2.get? repository reference = some found ∧ _
  generalize stored (s.take e) = after at hchanged ⊢
  cases hchanged with
  | kept | called => exact ⟨m, hget, Or.inl rfl⟩
  | pushed request r pushed pushes accepts =>
    obtain ⟨found, hfound, hsame | ⟨rfl, rfl, rfl | hdigest⟩⟩ :=
      Manifest.Store.found_insert r pushed (pushedManifest request) hget
    · exact ⟨found, hfound, Or.inl hsame⟩
    · exact ⟨_, hfound, Or.inr (Or.inr ⟨request, rfl, pushes⟩)⟩
    · exact ⟨_, hfound, Or.inr (Or.inl hdigest)⟩
  | pulled request r pulled brought hbrought =>
    obtain ⟨found, hfound, hsame | ⟨rfl, rfl, rfl | hdigest⟩⟩ :=
      Manifest.Store.found_insert r pulled brought hget
    · exact ⟨found, hfound, Or.inl hsame⟩
    · cases hbrought.missing.symm.trans hget
    · obtain ⟨identifier, body, -, rfl⟩ := hbrought.offered
      exact ⟨_, hfound, Or.inr (Or.inl hdigest)⟩

/-- At some point of a run a manifest is pushed under a reference. -/
def PushedIn (s : Server) (events : List Event) (repository reference : String) : Prop :=
  ∃ before request after, events = before ++ .request request :: after ∧
    Pushes (s.run before) request repository reference

/-- Only a request pushes. -/
theorem PushedIn.exists_mem {events : List Event} (h : s.PushedIn events repository reference) :
    ∃ request, Event.request request ∈ events := by
  obtain ⟨before, request, after, rfl, -⟩ := h
  exact ⟨request, by simp⟩

theorem PushedIn.append {events : List Event} (h : s.PushedIn events repository reference)
    (more : List Event) : s.PushedIn (events ++ more) repository reference := by
  obtain ⟨before, request, after, rfl, hpushes⟩ := h
  exact ⟨before, request, after ++ more, by simp, hpushes⟩

/-- A tag has no colon, so no digest is a tag. -/
theorem ofContent_ne_tag (htag : ':' ∉ tag.toList) (body : ByteArray) :
    Digest.ofContent body ≠ tag := by
  rintro rfl
  rw [Digest.toList_ofContent, List.mem_append, not_or] at htag
  exact htag.1 (by decide)

/-- What is kept under a tag stays until something is pushed under that very tag. -/
theorem tag_run (htag : ':' ∉ tag.toList)
    (hget : s.registry.manifests.get? repository tag = some m) (events : List Event)
    (hnone : ¬ PushedIn s events repository tag) :
    (s.run events).registry.manifests.get? repository tag = some m := by
  induction events using List.reverseRecOn with
  | nil => exact hget
  | append_singleton events e ih =>
    rw [run_concat]
    have hkept : (s.run events).registry.manifests.get? repository tag = some m :=
      ih fun hin ↦ hnone (hin.append [e])
    obtain ⟨found, hfound, hsame | hdigest | ⟨request, rfl, hpushes⟩⟩ := found_take hkept e
    · rw [hfound, hsame]
    · exact absurd hdigest (ofContent_ne_tag htag found.body)
    · exact absurd ⟨events, request, [], rfl, hpushes⟩ hnone

/-- What is kept under a tag is found there until something is pushed under that tag, and under its
digest there are bytes with that digest for good. -/
theorem found_run (htag : ':' ∉ tag.toList)
    (hget : s.registry.manifests.get? repository tag = some m)
    (hrooted : s.registry.manifests.Rooted) (events : List Event)
    (hwhich : reference = tag ∧ ¬ PushedIn s events repository tag ∨
      reference = Digest.ofContent m.body) :
    ∃ found, (s.run events).registry.manifests.get? repository reference = some found ∧
      Digest.ofContent found.body = Digest.ofContent m.body := by
  rcases hwhich with ⟨rfl, hnone⟩ | rfl
  · exact ⟨m, tag_run htag hget events hnone, rfl⟩
  · obtain ⟨hhashed, hholds⟩ := hrooted _ _ m hget
    rw [hhashed] at hholds
    exact holds_run hholds events

/-! ### Reading what is there -/

/-- A request to read a manifest, with neither a query string nor a body. -/
structure Asks (request : Request) (repository reference : String) : Prop where
  read : request.method.isRead = true
  addressed : addressed? request = some (.manifest repository reference)
  query : request.uri.query = none
  body : request.body = ByteArray.empty

/-- A manifest that is there is served, and nothing but the store is looked at for that. -/
theorem run_handle_of_found (hasks : Asks request repository reference)
    (hrepository : Route.checkRepository repository = .ok ())
    (hreference : Route.checkReference reference = .ok ())
    (hfound : s.registry.manifests.get? repository reference = some m) :
    (handle request).run s =
      (.done ((manifestResponse request.method m).answering request.method).stamped, s) := by
  have hquery : Query.digest? request.uri.query = .ok none := by
    rw [hasks.query]
    rfl
  have hlength : isTooLong s.registry request.body = false := by
    rw [hasks.body]
    exact isTooLong_empty _
  rw [run_handle_of_addressed hasks.addressed hquery hlength,
    run_perform_manifest_of_checked hasks.read hrepository hreference,
    run_serveManifest_of_found hfound, ended]

/-- A digest is a reference in order. -/
theorem checkReference_ofContent (content : ByteArray) :
    Route.checkReference (Digest.ofContent content) = .ok () := by
  have hcolon : (Digest.ofContent content).toList.contains ':' = true := by
    rw [List.contains_iff_mem, Digest.toList_ofContent, List.mem_append]
    exact Or.inl (by decide)
  rw [Route.checkReference, if_pos hcolon, Blob.Store.validate_ofContent]

/-! ### What an answer tells -/

/-- What the answer to a push or a read tells of the bytes of a manifest. -/
structure Tells (request : Request) (response : Response) (body : ByteArray) : Prop where
  pushed : request.method = .put → body = request.body
  sent : request.method = .get → response.body = body
  named : request.method.isRead = true →
    response.headers.get? "docker-content-digest" = some (Digest.ofContent body)

theorem tells_manifestResponse (hread : request.method.isRead = true)
    (hhashed : m.digest = Digest.ofContent m.body) :
    Tells request ((manifestResponse request.method m).answering request.method).stamped
      m.body where
  pushed h := by
    rw [h] at hread
    cases hread
  sent h := by rw [h, body_manifestResponse_get]
  named _ := by
    rw [get?_digest_manifestResponse, hhashed]
    rw [hhashed]
    exact (Digest.isSha256_ofContent m.body).isHeaderValue

/-- What is told to be stored, or is served, is in the store afterwards. -/
theorem told_of_success (hmethod : request.method = .put ∨ request.method.isRead = true)
    (haddressed : addressed? request = some (.manifest repository reference))
    (hrun : (handle request).run s = (.done response, t))
    (hsuccess : response.status.isSuccess = true) (hrooted : t.registry.manifests.Rooted) :
    ∃ m, t.registry.manifests.get? repository reference = some m ∧
      Tells request response m.body := by
  rcases hmethod with hput | hread
  · have hanswer : ((handle request).run s).1 = .done response := by rw [hrun]
    obtain ⟨-, hstored⟩ := stored_of_pushes ⟨hput, haddressed, response, hanswer, hsuccess⟩
    rw [hrun] at hstored
    obtain rfl : t = _ := hstored
    refine ⟨pushedManifest request, ?_, fun _ ↦ rfl, fun h ↦ ?_, fun h ↦ ?_⟩
    · show (s.registry.manifests.insert _ _ _).get? _ _ = _
      rw [Manifest.Store.get?_insert, if_pos ⟨rfl, Or.inl rfl⟩]
    · cases hput.symm.trans h
    · rw [hput] at h
      cases h
  · obtain ⟨m, hm, rfl⟩ :=
      read_of_granted hread haddressed hrun (Response.granted_of_isSuccess hsuccess)
    exact ⟨m, hm, tells_manifestResponse hread (hrooted _ _ _ hm).1⟩

/-! ### Runs -/

/-- The bytes of the manifests that are kept at some point of a run. -/
def bodies (s : Server) (events : List Event) : Set ByteArray :=
  { body | ∃ before after repository key m, events = before ++ after ∧
    (s.run before).registry.manifests.get? repository key = some m ∧ m.body = body }

/-- Once a manifest has been pushed or read under a tag, whatever else happens from then on, each
later request for it without a query string and a body is answered with the same bytes: under the
tag until something is pushed under it, and under the digest of the bytes for good. Such a request
changes nothing, and its answer does not depend on anything but the manifests. All of that if no two
bodies of the run have the same digest. -/
theorem kept_of_run (plan : Settings.Plan) (world : World) (before : List Event)
    (request : Request) {repository tag : String} {response : Response} {s : Server}
    (htag : ':' ∉ tag.toList) (hmethod : request.method = .put ∨ request.method.isRead = true)
    (haddressed : addressed? request = some (.manifest repository tag))
    (hrun : (handle request).run ((start plan world).run before) = (.done response, s))
    (hsuccess : response.status.isSuccess = true) :
    ∃ body, Tells request response body ∧ ∀ after later reference,
      Set.InjOn Digest.ofContent (bodies (start plan world) (before ++ .request request :: after)) →
      Asks later repository reference →
      (reference = tag ∧ ¬ PushedIn s after repository tag ∨
        reference = Digest.ofContent body) →
      ∃ answer, answer.status = .ok ∧ Tells later answer body ∧
        ∀ t, t.registry.manifests = (s.run after).registry.manifests →
          (handle later).run t = (.done answer, t) := by
  have hs : (start plan world).run (before ++ [.request request]) = s := by
    rw [run_concat]
    exact congrArg Prod.snd hrun
  have hrooted (after : List Event) : (s.run after).registry.manifests.Rooted := by
    rw [← hs, ← run_append]
    exact rooted_run plan world _
  obtain ⟨m, hm, htells⟩ := told_of_success hmethod haddressed hrun hsuccess (hrooted [])
  obtain ⟨digest, served, hperform, -⟩ :=
    performed_of_granted haddressed hrun (Response.granted_of_isSuccess hsuccess)
  obtain ⟨hrepository, hchecked⟩ := checked_of_run_perform hperform
  refine ⟨m.body, htells, fun after later reference hinj hasks hwhich ↦ ?_⟩
  have hbody {middle rest : List Event} (h : middle ++ rest = after) {key : String} {k : Manifest}
      (hk : (s.run middle).registry.manifests.get? repository key = some k) :
      k.body ∈ bodies (start plan world) (before ++ .request request :: after) := by
    refine ⟨before ++ [.request request] ++ middle, rest, repository, key, k, ?_, ?_, rfl⟩
    · simp [← h]
    · rwa [run_append, hs]
  have hreference : Route.checkReference reference = .ok () := by
    rcases hwhich with ⟨rfl, -⟩ | rfl
    · exact hchecked
    · exact checkReference_ofContent m.body
  obtain ⟨found, hfound, hdigest⟩ := found_run htag hm (hrooted []) after hwhich
  have hsame : found.body = m.body :=
    hinj (hbody (List.append_nil after) hfound) (hbody (List.nil_append after) hm) hdigest
  have htold := tells_manifestResponse hasks.read (hrooted after _ _ found hfound).1
  rw [hsame] at htold
  refine ⟨_, ?_, htold, fun t ht ↦ run_handle_of_found hasks hrepository hreference ?_⟩
  · rw [Response.status_stamped, Response.status_answering, status_manifestResponse]
  · rw [ht, hfound]

/-- A manifest is pulled, and then the gateway does not answer any more. -/
theorem kept_of_run_stalled :
    let plan : Settings.Plan := ⟨defaultGateway, none, [.fixed "fixed" ["image"]], 0, none, none⟩
    let world : World := ⟨∅, ⟨fun _ ↦ .answer ⟨.ok, []⟩ (.complete "[]".toUTF8), []⟩, [], 0,
      fun _ ↦ "fresh", 0⟩
    let stalled : World := { world with gateway := ⟨fun _ ↦ .stalled, []⟩ }
    let read : Request :=
      ⟨.get, ⟨none, none, "/v2/library/manifests/v1", none⟩, [], ByteArray.empty⟩
    let t := (start plan world).run [.request read, .world stalled]
    ∃ answer, (handle read).run t = (.done answer, t) ∧ answer.status = .ok ∧
      answer.body = "[]".toUTF8 := by
  intro plan world stalled read t
  have haddressed : addressed? read = some (.manifest "library" "v1") := by decide +kernel
  obtain ⟨response, hvalue, hstatus, hsent⟩ :
      ∃ response ∈ ((handle read).run (start plan world)).1.value?,
        response.status.isSuccess = true ∧ response.body = "[]".toUTF8 := by decide +kernel +revert
  have hpulled : ((start plan world).run [.request read]).registry.manifests =
      (∅ : Manifest.Store).insert "library" "v1" (.ofBody "[]".toUTF8 none (some "image")) := by
    decide +kernel +revert
  have hbodies : ∀ body ∈ bodies (start plan world) [.request read, .world stalled],
      body = "[]".toUTF8 := by
    rintro body ⟨before, after, repository, key, m, hsplit, hget, rfl⟩
    have hbefore : before <+: [.request read, .world stalled] := ⟨after, hsplit.symm⟩
    have hmanifests : ((start plan world).run before).registry.manifests = ∅ ∨
        ((start plan world).run before).registry.manifests =
          (∅ : Manifest.Store).insert "library" "v1" (.ofBody "[]".toUTF8 none (some "image")) := by
      -- The gateway only comes to a halt when the manifest is there.
      rcases List.prefix_cons_iff.1 hbefore with rfl | ⟨rest, rfl, hrest⟩
      · exact Or.inl rfl
      · rcases List.prefix_cons_iff.1 hrest with rfl | ⟨none, rfl, hnone⟩
        · exact Or.inr hpulled
        · rw [List.prefix_nil.1 hnone]
          exact Or.inr hpulled
    rcases hmanifests with hempty | hone
    · rw [hempty] at hget
      cases hget
    · rw [hone, Manifest.Store.get?_insert] at hget
      split at hget
      · cases hget
        rfl
      · cases hget
  have hrun : (handle read).run (start plan world) =
      (.done response, (start plan world).run [.request read]) :=
    Prod.ext (Outcome.value?_eq_some_iff.1 hvalue) rfl
  have hnone : ¬ PushedIn ((start plan world).run [.request read]) [.world stalled] "library"
      "v1" := by
    intro hpushed
    obtain ⟨request, hmem⟩ := hpushed.exists_mem
    cases List.mem_singleton.1 hmem
  obtain ⟨body, htells, hlater⟩ := kept_of_run plan world [] read (by decide) (Or.inr rfl)
    haddressed hrun hstatus
  obtain ⟨answer, hok, htold, hanswer⟩ := hlater [.world stalled] read "v1"
    (fun a ha b hb _ ↦ (hbodies a ha).trans (hbodies b hb).symm) ⟨rfl, haddressed, rfl, rfl⟩
    (Or.inl ⟨rfl, hnone⟩)
  refine ⟨answer, hanswer t rfl, hok, ?_⟩
  rw [htold.sent rfl, ← htells.sent rfl, hsent]

end Server

end ImageRegistry
