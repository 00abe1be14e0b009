import ImageRegistry.Proofs.Registry.Pulls
import ImageRegistry.Proofs.Remote.Address

/-!
# The links of an image that was pulled

What is in memory stays there until something is added for the very same key. `Follows` takes the
calls to a link cache as they come, from whatever requests and in whatever order; the requests of a
run are a case of it (`follows_run`). Until then a blob that is not in memory is asked of the
gateway under the identifier that its link has, and no resolver is asked before that
(`run_serveBlob_of_knows`). So it is with every blob of an image whose manifest was pulled
(`warming`).
-/

namespace ImageRegistry

open ImageRegistry.Action Http

theorem Digest.IsSha256.isDigest {digest : String} (h : IsSha256 digest) :
    isDigest digest = true := by
  obtain ⟨hex, htext, hlength, -⟩ := h
  refine isDigest_iff.2 ⟨"sha256".toList, hex, htext, by decide, by decide, ?_⟩
  rintro rfl
  cases hlength

namespace Server

variable {s t u v : Server} {repository reference other identifier : String} {body : ByteArray}
  {m : Manifest}

/-! ### What stays in memory -/

/-- One server comes of another one, and its link cache by calls, from whatever requests, by none of
which something is added for the reference. -/
structure Follows (repository other : String) (s t : Server) : Prop where
  gateway : t.registry.gateway = s.registry.gateway
  called : ∃ calls : List Link.Event, (∀ e ∈ calls, ¬ e.Adds repository other) ∧
    t.registry.links = (s.setting.run calls).cache

theorem follows_of_links_eq (hgateway : t.registry.gateway = s.registry.gateway)
    (hlinks : t.registry.links = s.registry.links) : Follows repository other s t :=
  ⟨hgateway, [], by simp, hlinks⟩

instance (repository other : String) : IsPreorder Server (Follows repository other) where
  refl _ := follows_of_links_eq rfl rfl
  trans s t u := by
    rintro ⟨hgateway, first, hfirst, ht⟩ ⟨hgateway', second, hsecond, hu⟩
    -- Between the calls the world becomes the one that the second server is in.
    refine ⟨hgateway'.trans hgateway, first ++ .world t.world :: second, fun e he ↦ ?_, ?_⟩
    · rcases List.mem_append.1 he with he | he
      · exact hfirst e he
      · rcases List.mem_cons.1 he with rfl | he
        · rintro ⟨_, hadd⟩
          cases hadd
        · exact hsecond e he
    · have hsetting : (s.setting.run first).take (.world t.world) = t.setting := by
        show Link.Setting.mk (s.setting.run first).cache t.world = ⟨t.registry.links, t.world⟩
        rw [ht]
      rw [Link.Setting.run, List.foldl_append, List.foldl_cons]
      show u.registry.links = (Link.Setting.run ((s.setting.run first).take _) second).cache
      rw [hsetting, hu]

theorem Follows.knows (h : Follows repository other s t)
    (hknows : s.registry.links.Knows repository other identifier) :
    t.registry.links.Knows repository other identifier := by
  obtain ⟨calls, hcalls, hlinks⟩ := h.called
  rw [hlinks]
  exact Link.Setting.knows_run (s := s.setting) hknows hcalls

section Requests

variable {ε α : Type}

theorem follows_onWorld (act : Action World ε α) :
    Moves (Follows repository other) (onWorld act) := fun _ ↦ follows_of_links_eq rfl rfl

theorem follows_locate (r f : String) : Moves (Follows repository other) (locate r f) := by
  intro s
  refine ⟨rfl, [.locate s.registry.resolvers r f], ?_, rfl⟩
  rintro e he ⟨_, hadd⟩
  cases (List.mem_singleton.1 he).symm.trans hadd

theorem follows_get (identifier path : String) :
    Moves (Follows repository other) (get identifier path) :=
  moves_bind (moves_reading _) fun _ ↦ follows_onWorld _

/-- What is added for another key is not added for this one. -/
theorem follows_addLinks {r : String} {references : List String} (identifier : String)
    (h : r = repository → other ∉ references) :
    Moves (Follows repository other)
      (addLinks r identifier references : Action Server ε Unit) := by
  refine (composes_moves (Follows repository other)).addLinks fun reference hreference s ↦ ?_
  refine ⟨rfl, [.add r reference identifier], ?_, rfl⟩
  rintro e he ⟨_, hadd⟩
  cases (List.mem_singleton.1 he).symm.trans hadd
  exact h rfl hreference

theorem follows_serveBlob (method : Method) (r digest : String) :
    Moves (Follows repository other) (serveBlob method r digest) :=
  (composes_moves (Follows repository other)).serveBlob (follows_locate r digest)
    (fun _ _ _ ↦ moves_bind (moves_reading _) fun _ ↦ follows_onWorld _) method

theorem follows_dig (query : Query.Dig) : Moves (Follows repository other) (dig query) :=
  (composes_moves (Follows repository other)).dig
    (fun _ _ ↦ moves_bind (moves_reading _) fun _ ↦ follows_onWorld _) follows_get query

/-- A pull adds nothing for a reference that the bytes which it gets do not link. -/
theorem follows_pull {r f : String}
    (h : ∀ identifier body, Supplies s r f identifier body → r = repository →
      ∀ document, Manifest.Document.read? body = some document →
        other ≠ Digest.ofContent body ∧ ¬ document.Names other) :
    Follows repository other s ((pull r f).run s).2 := by
  have hobtain : Follows repository other s _ := (composes_moves
    (Follows repository other)).obtain (follows_locate r f) follows_get s
  have hpulled := pulled s r f
  generalize (pull r f).run s = result at hpulled ⊢
  cases hpulled with
  | missed outcome u obtained =>
    rw [obtained] at hobtain
    exact hobtain
  | kept identifier body m u v offers made obtained linked =>
    rw [obtained] at hobtain
    have hnone : r = repository → other ∉ warmed m := by
      intro hr hmem
      rw [made, mem_warmed_iff] at hmem
      obtain ⟨document, hread, hnames⟩ := hmem
      obtain ⟨hdigest, hnot⟩ := h identifier body (supplies_of_offers offers) hr document hread
      exact hnames.elim hdigest hnot
    have hlinks : Follows repository other u _ :=
      follows_addLinks (ε := RegistryError) identifier hnone u
    rw [linked] at hlinks
    have hkept : Follows repository other v
        (v.withManifests (v.registry.manifests.insert r f m)) := follows_of_links_eq rfl rfl
    exact IsTrans.trans _ _ _ (IsTrans.trans _ _ _ hobtain hlinks) hkept

end Requests

/-- In this event a manifest is pulled that links the reference. -/
def Relinks (s : Server) (repository other : String) (e : Event) : Prop :=
  ∃ request reference identifier body document, e = .request request ∧
    request.method.isRead = true ∧
    addressed? request = some (.manifest repository reference) ∧
    s.registry.manifests.get? repository reference = none ∧
    Supplies s repository reference identifier body ∧
    Manifest.Document.read? body = some document ∧
    (other = Digest.ofContent body ∨ document.Names other)

theorem follows_take {e : Event} (h : ¬ s.Relinks repository other e) :
    Follows repository other s (s.take e) := by
  cases e with
  | world world => exact follows_of_links_eq rfl rfl
  | blobs event => exact follows_of_links_eq rfl rfl
  | request request =>
    show Follows repository other s ((handle request).run s).2
    have hhandled := handled request s
    generalize (handle request).run s = result at hhandled ⊢
    cases hhandled with
    | told response refused => exact refl s
    | dug query nowhere =>
      rw [ended_snd]
      exact follows_dig query s
    | performed route digest addressed =>
      rw [ended_snd]
      have hperformed := performed request route digest s
      generalize (perform request.method route digest request.headers request.body).run s = done
        at hperformed ⊢
      cases hperformed with
      | refused | drew | called | pushed => exact follows_of_links_eq rfl rfl
      | blob r digest read => exact follows_serveBlob _ r digest s
      | manifest r f read =>
        cases hget : s.registry.manifests.get? r f with
        | some m =>
          rw [run_serveManifest_of_found hget]
          exact refl s
        | none =>
          rw [run_serveManifest_of_missing hget, snd_run_map]
          refine follows_pull fun identifier body hsupplies hr document hread ↦ ?_
          subst hr
          have hrelinks (hlinks : other = Digest.ofContent body ∨ document.Names other) : False :=
            h ⟨request, f, identifier, body, document, rfl, read, addressed, hget, hsupplies, hread,
              hlinks⟩
          exact ⟨fun hdigest ↦ hrelinks (.inl hdigest), fun hnames ↦ hrelinks (.inr hnames)⟩

/-- Nothing is added for a reference by requests that pull nothing which links it. -/
theorem follows_run {events : List Event} (h : ∀ before e after, events = before ++ e :: after →
    ¬ (s.run before).Relinks repository other e) :
    Follows repository other s (s.run events) := by
  induction events using List.reverseRecOn with
  | nil => exact refl s
  | append_singleton events e ih =>
    rw [run_concat]
    refine IsTrans.trans _ _ _ (ih fun before e' after hsplit ↦ ?_) (follows_take ?_)
    · exact h before e' (after ++ [e]) (by rw [hsplit, List.append_assoc, List.cons_append])
    · exact h events e [] rfl

/-! ### Blobs that are linked -/

/-- The server when the service behind its gateway has been asked once more. -/
def asked (s : Server) (question : Remote.Request) : Server :=
  { s with world := { s.world with gateway := (s.world.gateway.exchange question).2 } }

/-- What is made of the answer of the gateway to a request for a blob. -/
def relayOutcome (digest identifier : String) :
    Except FetchFailure Fetched → Outcome RegistryError Response
  | .ok fetched =>
    if fetched.status.isSuccess then .done (relayedResponse digest identifier fetched)
    else .failed (.blobNotFound digest)
  | .error failure => .failed (.gateway failure)

/-- What is in memory is located at once, and nothing is asked for that. -/
theorem run_locate_of_knows (h : s.registry.links.Knows repository reference identifier) :
    (locate repository reference).run s = (.done identifier, s) := by
  rw [run_locate, Link.Setting.run_locate_of_knows (s := s.setting) h]
  rfl

/-- A blob that is linked is asked of the gateway, with one question to the service behind it. -/
theorem run_relayBlob_of_knows {uri : Uri}
    (h : s.registry.links.Knows repository other identifier)
    (hurl : s.registry.gateway.url identifier ("blobs/" ++ other) = .ok uri) (method : Method) :
    (relayBlob method repository other).run s =
      (relayOutcome other identifier (s.registry.gateway.receive
        (s.world.gateway.respond ⟨method, uri.target⟩)), s.asked ⟨method, uri.target⟩) := by
  rw [relayBlob, run_bind, run_mapError, run_locate_of_knows h]
  dsimp only
  rw [run_bind, run_mapError, run_fetch, Gateway.run_fetch_of_url hurl]
  cases s.registry.gateway.receive (s.world.gateway.respond ⟨method, uri.target⟩) with
  | error failure => rfl
  | ok fetched =>
    rw [run_ofExcept_ok]
    dsimp only
    rw [relayOutcome]
    split <;> rfl

theorem run_relayBlob_of_error {failure : FetchFailure}
    (h : s.registry.links.Knows repository other identifier)
    (hurl : s.registry.gateway.url identifier ("blobs/" ++ other) = .error failure)
    (method : Method) :
    (relayBlob method repository other).run s = (.failed (.gateway failure), s) := by
  rw [relayBlob, run_bind, run_mapError, run_locate_of_knows h]
  dsimp only
  rw [run_bind, run_mapError, run_fetch, Gateway.run_fetch_of_error hurl]

/-- The address of a blob ends in nothing but letters, digits, a slash and a colon, so it is one if
the manifest beneath the same identifier has one, and if it is not too long. -/
theorem exists_blob_url {uri : Uri}
    (h : s.registry.gateway.url identifier (manifestPath reference) = .ok uri)
    (hdigest : Digest.IsSha256 other)
    (hlength : (s.registry.gateway.address identifier ("blobs/" ++ other)).utf8ByteSize ≤
      Uri.maxLength) :
    ∃ uri', s.registry.gateway.url identifier ("blobs/" ++ other) = .ok uri' := by
  obtain ⟨hex, htext, -, hdigits⟩ := hdigest
  have hlist : ("blobs/" ++ other).toList = "blobs".toList ++ '/' :: "sha256:".toList ++ hex := by
    rw [String.toList_append, htext]
    rfl
  have hplain : Uri.IsPlain ("blobs/" ++ other).toList := by
    have hfront : Uri.IsPlain ("blobs".toList ++ '/' :: "sha256:".toList) := by decide +kernel
    have hdigit : Uri.IsPlain "0123456789abcdef".toList := by decide +kernel
    intro c hc
    rw [hlist] at hc
    exact (List.mem_append.1 hc).elim (hfront c) fun hc ↦ hdigit c (hdigits c hc)
  have htake : ("blobs/" ++ other).toList.takeWhile (!Uri.endsAuthority ·) = "blobs".toList := by
    rw [hlist]
    rfl
  refine Gateway.exists_url ?_ h hplain ?_ hlength
  · rw [manifestPath]
    simp
  · rw [htake]
    exact ⟨by decide, by decide⟩

/-- What comes of a request for a blob that is asked of the gateway under an identifier. -/
structure Relayed (s : Server) (request : Request) (digest identifier : String) : Prop where
  /-- The service behind the gateway is asked for the blob, and that is all that is done. -/
  asked : ∀ uri, s.registry.gateway.url identifier ("blobs/" ++ digest) = .ok uri →
    (handle request).run s = ended request.method
      (relayOutcome digest identifier (s.registry.gateway.receive
        (s.world.gateway.respond ⟨request.method, uri.target⟩)),
      s.asked ⟨request.method, uri.target⟩)
  /-- What has no address cannot be asked for, and that is the answer. -/
  unaddressed : ∀ failure,
    s.registry.gateway.url identifier ("blobs/" ++ digest) = .error failure →
      (handle request).run s = ended request.method (.failed (.gateway failure), s)
  /-- Only what is too long has no address. -/
  addressed : (s.registry.gateway.address identifier ("blobs/" ++ digest)).utf8ByteSize ≤
      Uri.maxLength →
    ∃ uri, s.registry.gateway.url identifier ("blobs/" ++ digest) = .ok uri

/-- A blob that is not in memory is relayed. -/
theorem run_handle_of_blob {request : Request} (hread : request.method.isRead = true)
    (haddressed : addressed? request = some (.blob repository other))
    (hunhindered : s.Unhindered request) (hrepository : Route.checkRepository repository = .ok ())
    (hdigest : Digest.isDigest other = true) (hmissing : s.registry.blobs.get? other = none) :
    (handle request).run s =
      ended request.method ((relayBlob request.method repository other).run s) := by
  obtain ⟨⟨digest, hquery⟩, hlength⟩ := hunhindered
  rw [run_handle_of_addressed haddressed hquery hlength]
  have hserve (method : Method) : (serveBlob method repository other).run s =
      (relayBlob method repository other).run s := by
    rw [serveBlob, run_bind, run_reading, hmissing]
  have hchecked (method : Method) : (ofExcept (fun e ↦ e) (Route.checkRepository repository) >>=
      fun _ ↦ ofExcept (fun e ↦ e) (Blob.Store.validate other) >>= fun _ ↦
        serveBlob method repository other).run s =
      (relayBlob method repository other).run s := by
    rw [hrepository, Blob.Store.validate, if_pos hdigest]
    exact hserve method
  congr 1
  generalize request.method = method at hread
  cases method with
  | get | head => exact hchecked _
  | put | post | patch | delete | other name => cases hread

/-! ### Images that were pulled -/

/-- What comes of a pull that got bytes from under an identifier. -/
structure Warmed (s t : Server) (repository reference identifier : String) (body : ByteArray) :
    Prop where
  /-- Memory has what it had, and the links of these bytes. -/
  linked : Linked repository identifier (Warms body reference) s t
  /-- No blob has come or gone. -/
  blobs : t.registry.blobs = s.registry.blobs
  /-- For as long as nothing is added for the link of a blob, and while the blob is not in memory,
  a request for it is relayed to the gateway under that very identifier. -/
  relayed : ∀ other v request, Warms body reference other → Digest.IsSha256 other →
    Follows repository other t v → v.registry.blobs.get? other = none →
    request.method.isRead = true → addressed? request = some (.blob repository other) →
    v.Unhindered request → v.Relayed request other identifier
  /-- Nothing is added for a link by requests of which none pulls a manifest that has it. -/
  follows : ∀ other events, (∀ before e after, events = before ++ e :: after →
      ¬ (t.run before).Relinks repository other e) →
    Follows repository other t (t.run events)

/-- How a request is answered that reads a manifest which is not there. -/
structure Warming (s : Server) (request : Request) (repository reference : String) : Prop where
  /-- Where it succeeds, bytes are supplied. -/
  supplied : ∀ response t, (handle request).run s = (.done response, t) →
    response.status.isSuccess = true →
    ∃ identifier body, Supplies s repository reference identifier body
  /-- Where they are, it succeeds if nothing stands in its way, whether or not a link file can be
  written. -/
  succeeds : ∀ identifier body, Supplies s repository reference identifier body →
    s.Unhindered request → Route.checkRepository repository = .ok () →
    Route.checkReference reference = .ok () →
    ∃ response t, (handle request).run s = (.done response, t) ∧ response.status.isSuccess = true
  /-- When it has succeeded, these bytes are the answer, and they are linked. -/
  warms : ∀ identifier body, Supplies s repository reference identifier body →
    ∀ response t, (handle request).run s = (.done response, t) →
      response.status.isSuccess = true →
      response.status = .ok ∧ (request.method = .get → response.body = body) ∧
        Warmed s t repository reference identifier body

theorem warmed_of_supplies (hrepository : Route.checkRepository repository = .ok ())
    (hsupplies : Supplies s repository reference identifier body)
    (hgateway : t.registry.gateway = s.registry.gateway)
    (hblobs : t.registry.blobs = s.registry.blobs)
    (hlinked : Linked repository identifier (Warms body reference) s t) :
    Warmed s t repository reference identifier body := by
  obtain ⟨world, uri, head, -, hurl, -⟩ := hsupplies
  refine ⟨hlinked, hblobs, ?_, fun other events h ↦ follows_run h⟩
  intro other v request hwarms hdigest hfollows hmissing hread haddressed hunhindered
  have hknows := hfollows.knows (hlinked.bound other hwarms)
  have hrun := run_handle_of_blob hread haddressed hunhindered hrepository hdigest.isDigest hmissing
  refine ⟨fun uri' hurl' ↦ ?_, fun failure hurl' ↦ ?_, fun hlength ↦ ?_⟩
  · rw [hrun, run_relayBlob_of_knows hknows hurl']
  · rw [hrun, run_relayBlob_of_error hknows hurl']
  · rw [← hgateway, ← hfollows.gateway] at hurl
    exact exists_blob_url hurl hdigest hlength

/-- Every request that reads a manifest which is not there is answered so. -/
theorem warming {request : Request} (hread : request.method.isRead = true)
    (haddressed : addressed? request = some (.manifest repository reference))
    (hmissing : s.registry.manifests.get? repository reference = none) :
    Warming s request repository reference := by
  -- A request that succeeds is in order, so it is answered with what it pulls.
  have hpulls : ∀ response t, (handle request).run s = (.done response, t) →
      response.status.isSuccess = true → Route.checkRepository repository = .ok () ∧
        ∃ m, (pull repository reference).run s = (.done m, t) ∧
          response = ((manifestResponse request.method m).answering request.method).stamped := by
    intro response t hrun hsuccess
    obtain ⟨digest, served, hperform, rfl⟩ :=
      performed_of_granted haddressed hrun (Response.granted_of_isSuccess hsuccess)
    obtain ⟨hrepository, hreference⟩ := checked_of_run_perform hperform
    rw [run_perform_manifest_of_checked hread hrepository hreference,
      run_serveManifest_of_missing hmissing] at hperform
    obtain ⟨m, u, hpull, hserved⟩ := run_bind_eq_done.1 hperform
    cases hserved
    exact ⟨hrepository, m, hpull, rfl⟩
  refine ⟨?_, ?_, ?_⟩
  · intro response t hrun hsuccess
    obtain ⟨-, m, hpull, -⟩ := hpulls response t hrun hsuccess
    exact supplies_of_run_pull hpull
  · intro identifier body hsupplies hunhindered hrepository hreference
    obtain ⟨⟨digest, hquery⟩, hlength⟩ := hunhindered
    obtain ⟨t, hpull, -⟩ := run_pull_of_supplies hsupplies
    have hserve : (serveManifest request.method repository reference).run s =
        (.done (manifestResponse request.method (.ofBody body none (some identifier))), t) := by
      rw [run_serveManifest_of_missing hmissing]
      exact run_bind_eq_done.2 ⟨_, t, hpull, rfl⟩
    have hrun : (handle request).run s = (.done ((manifestResponse request.method
        (.ofBody body none (some identifier))).answering request.method).stamped, t) := by
      rw [run_handle_of_addressed haddressed hquery hlength,
        run_perform_manifest_of_checked hread hrepository hreference, hserve]
      rfl
    refine ⟨_, t, hrun, ?_⟩
    rw [Response.status_stamped, Response.status_answering, status_manifestResponse]
    rfl
  · intro identifier body hsupplies response t hrun hsuccess
    obtain ⟨hrepository, m, hpull, rfl⟩ := hpulls response t hrun hsuccess
    obtain ⟨u, hpull', hgateway, hblobs, hlinked⟩ := run_pull_of_supplies hsupplies
    cases hpull.symm.trans hpull'
    refine ⟨?_, fun hget ↦ ?_, warmed_of_supplies hrepository hsupplies hgateway hblobs hlinked⟩
    · rw [Response.status_stamped, Response.status_answering, status_manifestResponse]
    · rw [hget, body_manifestResponse_get, Manifest.body_ofBody]

/-- A registry whose root for link files is itself a file, so none of them can be written. The
manifest is served, and the layer that it names is then asked of the gateway, whatever the resolvers
are now. -/
theorem warming_unwritable :
    let digest := "sha256:2cf24dba5fb0a30e26e83b2ac5b9e29e1b161e5c1fa7425e73043362938b9824"
    let body := ("\x7b\"layers\":[\x7b\"digest\":\"" ++ digest ++ "\"\x7d]\x7d").toUTF8
    let files : Files.Tree := ⟨Table.insert ∅ ["links".toUTF8] (.file "".toUTF8)⟩
    let s : Server :=
      ⟨⟨∅, ∅, .empty (some "links"), [.fixed "fixed" ["image"]], ⟨defaultGateway, 0⟩, none⟩,
        ⟨files, ⟨fun _ ↦ .answer ⟨.ok, []⟩ (.complete body), []⟩, [], 0, fun _ ↦ "fresh", 0⟩⟩
    let read : Request :=
      ⟨.get, ⟨none, none, "/v2/library/manifests/v1", none⟩, [], ByteArray.empty⟩
    let layer : Request :=
      ⟨.get, ⟨none, none, "/v2/library/blobs/" ++ digest, none⟩, [], ByteArray.empty⟩
    let t := ((handle read).run s).2
    (s.registry.links.add files "library" "v1" "image").1 =
        .error ⟨"links/library/@v1", .notADirectory⟩ ∧
      (∃ response, (handle read).run s = (.done response, t) ∧ response.status = .ok ∧
        response.body = body) ∧
      t.registry.links.memory.get? ("library", digest) = some "image" ∧
      ∀ chain, Relayed { t with registry := { t.registry with resolvers := chain } } layer digest
        "image" := by
  intro digest body files s read layer t
  have haddressed : addressed? read = some (.manifest "library" "v1") := by decide +kernel
  have hstored : s.registry.links.stored? s.world.files "library" "v1" = none := by
    simp only [s, files]
    decide +kernel
  have hfailed : (s.registry.links.add files "library" "v1" "image").1 =
      .error ⟨"links/library/@v1", .notADirectory⟩ := by
    simp only [s, files]
    decide +kernel
  have hsupplies : Supplies s "library" "v1" "image" body := by
    refine ⟨s.world, ⟨some "http", some "127.0.0.1:8080", "/ipfs/image/manifests/v1", none⟩,
      ⟨.ok, []⟩, .resolved rfl hstored [] s.world rfl, ?_, rfl, rfl⟩
    decide +kernel
  have hlayer : addressed? layer = some (.blob "library" digest) := by decide +kernel
  have hwarms : Warms body "v1" digest := by
    refine Or.inr ⟨⟨none, none, none, [digest], [], []⟩, ?_, Or.inr (Or.inr (Or.inl ?_))⟩
    · decide +kernel
    · exact List.mem_singleton.2 rfl
  have hhello : digest = Digest.ofContent "hello".toUTF8 := by decide +kernel
  have hdigest : Digest.IsSha256 digest := hhello ▸ Digest.isSha256_ofContent _
  have hwarming := warming (s := s) rfl haddressed rfl
  obtain ⟨response, u, hrun, hsuccess⟩ := hwarming.succeeds "image" body hsupplies
    ⟨⟨none, rfl⟩, rfl⟩ (by decide +kernel) (by decide +kernel)
  obtain rfl : t = u := congrArg Prod.snd hrun
  obtain ⟨hok, hbody, hwarmed⟩ := hwarming.warms "image" body hsupplies response t hrun hsuccess
  refine ⟨hfailed, ⟨response, hrun, hok, hbody rfl⟩, hwarmed.linked.bound digest hwarms,
    fun chain ↦ ?_⟩
  have hmissing : t.registry.blobs.get? digest = none := by
    rw [hwarmed.blobs]
    rfl
  exact hwarmed.relayed digest _ layer hwarms hdigest (follows_of_links_eq rfl rfl) hmissing rfl
    hlayer ⟨⟨none, rfl⟩, isTooLong_empty _⟩

end Server

end ImageRegistry
