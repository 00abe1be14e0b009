import ImageRegistry.Proofs.Blob.Ownership
import ImageRegistry.Proofs.Registry.Run

/-!
# Whether a digest names what is served

A client that asks for a digest expects the bytes that have it. What is pushed is checked: a blob
comes into the store under the digest of its bytes, and so does a manifest, whose reference must be
its digest if it is one. What comes from the gateway is not checked, and that is the only way in
which a digest comes to stand for other bytes:

* a manifest under a digest that is not its own was brought by a request for that very digest
  (`named_of_run`), and from then on it is served without a look at the gateway;
* a blob that is not in memory is what the gateway answers with to that very request
  (`blob_of_granted`), and it is asked again each time.

The digest in the header of an answer is that of the bytes for a manifest, and for a blob it is the
one that was asked for, whatever the bytes are.
-/

namespace ImageRegistry

/-! ### Digests in headers -/

namespace Digest

/-- The name of the hash, a colon and 64 small hexadecimal digits. -/
def IsSha256 (digest : String) : Prop :=
  ∃ hex : List Char, digest.toList = "sha256:".toList ++ hex ∧ hex.length = 64 ∧
    ∀ c ∈ hex, c ∈ "0123456789abcdef".toList

theorem isSha256_ofContent (content : ByteArray) : IsSha256 (ofContent content) :=
  ⟨(hashHex content).toList, toList_ofContent content, length_hashHex content,
    fun _ hc ↦ mem_hashHex hc⟩

/-- Such a digest can be the value of a header. -/
theorem IsSha256.isHeaderValue {digest : String} (h : IsSha256 digest) :
    Http.isHeaderValue digest = true := by
  obtain ⟨hex, htext, -, hdigits⟩ := h
  have hname : Http.isHeaderValue "sha256:" = true := by decide
  have hdigit : Http.isHeaderValue "0123456789abcdef" = true := by decide
  rw [Http.isHeaderValue, List.all_eq_true] at hname hdigit ⊢
  intro c hc
  rw [htext, List.mem_append] at hc
  rcases hc with hc | hc
  · exact hname c hc
  · exact hdigit c (hdigits c hc)

end Digest

namespace Server

open Http

variable {s t : Server} {request : Request} {response : Response}

/-! ### Manifests -/

theorem get?_digest_manifestResponse (method : Method) {m : Manifest}
    (hvalue : isHeaderValue m.digest = true) :
    ((manifestResponse method m).answering method).stamped.headers.get? "docker-content-digest" =
      some m.digest := by
  rw [Response.get?_headers_finished _ _ (by decide) (by decide), manifestResponse,
    Response.get?_headers_withOptional_of_ne _ _ (by decide),
    Response.get?_headers_withOptional_self _ _ hvalue]

theorem body_manifestResponse_get (m : Manifest) :
    ((manifestResponse .get m).answering .get).stamped.body = m.body := by
  rw [Response.body_finished_get, manifestResponse]
  simp only [Response.body_withOptional]
  rfl

/-- The answer to a request to read a manifest is made of one that is then in the store. -/
theorem read_of_granted {repository reference : String} (hread : request.method.isRead = true)
    (haddressed : addressed? request = some (.manifest repository reference))
    (h : (handle request).run s = (.done response, t)) (hgranted : response.Granted) :
    ∃ m, t.registry.manifests.get? repository reference = some m ∧
      response = ((manifestResponse request.method m).answering request.method).stamped := by
  obtain ⟨digest, served, hperform, rfl⟩ := performed_of_granted haddressed h hgranted
  rcases run_perform_manifest hread repository reference digest request.headers request.body s with
    ⟨error, hrefused⟩ | hserve
  · rw [hrefused] at hperform
    cases hperform
  · rw [hserve] at hperform
    obtain ⟨m, hm, rfl⟩ := found_of_run_serveManifest hperform
    exact ⟨m, hm, rfl⟩

/-- The answer with a manifest has its bytes, and their digest in its header. -/
theorem manifest_of_granted {repository reference : String} (hget : request.method = .get)
    (haddressed : addressed? request = some (.manifest repository reference))
    (h : (handle request).run s = (.done response, t)) (hgranted : response.Granted) :
    ∃ m, t.registry.manifests.get? repository reference = some m ∧ response.body = m.body ∧
      (isHeaderValue m.digest = true →
        response.headers.get? "docker-content-digest" = some m.digest) := by
  have hread : request.method.isRead = true := by rw [hget]; rfl
  obtain ⟨m, hm, rfl⟩ := read_of_granted hread haddressed h hgranted
  refine ⟨m, hm, ?_, get?_digest_manifestResponse request.method⟩
  rw [hget, body_manifestResponse_get]

/-- A manifest that is in the store after an event was there before, or it has the digest of its
bytes, and if it came in under another digest, then the event is a request that brought it. -/
theorem named_of_take (s : Server) (e : Event) {repository key : String} {m : Manifest}
    (hget : (s.take e).registry.manifests.get? repository key = some m) :
    s.registry.manifests.get? repository key = some m ∨
      m.digest = Digest.ofContent m.body ∧ (Digest.isDigest key = true → m.digest = key ∨
        ∃ request, e = .request request ∧ Brought s request repository key m) := by
  have hchanged := s.changed e
  have hafter : (stored (s.take e)).2.get? repository key = some m := hget
  generalize stored (s.take e) = after at hchanged hafter
  cases hchanged with
  | kept | called => exact Or.inl hafter
  | pushed request r reference pushes accepts =>
    rw [Manifest.Store.get?_insert] at hafter
    split at hafter
    · next hwhere =>
      cases hafter
      -- It was checked that the reference of a push is no other digest.
      refine Or.inr ⟨rfl, fun hkey ↦ Or.inl ?_⟩
      rcases hwhere.2 with rfl | hdigest
      · exact (accepts.named hkey).symm
      · exact hdigest
    · exact Or.inl hafter
  | pulled request r reference brought hbrought =>
    rw [Manifest.Store.get?_insert] at hafter
    split at hafter
    · next hwhere =>
      cases hafter
      obtain ⟨rfl, hreference⟩ := hwhere
      refine Or.inr ⟨?_, fun hkey ↦ ?_⟩
      · obtain ⟨identifier, body, -, rfl⟩ := hbrought.offered
        rfl
      · rcases hreference with rfl | hdigest
        · exact Or.inr ⟨request, rfl, hbrought⟩
        · exact Or.inl hdigest
    · exact Or.inl hafter

/-- At some point of a run a request brings a manifest. -/
def BroughtIn (s : Server) (events : List Event) (repository reference : String) (m : Manifest) :
    Prop :=
  ∃ before request after, events = before ++ .request request :: after ∧
    Brought (s.run before) request repository reference m

theorem BroughtIn.concat {events : List Event} {repository reference : String} {m : Manifest}
    (h : BroughtIn s events repository reference m) (e : Event) :
    BroughtIn s (events ++ [e]) repository reference m := by
  obtain ⟨before, request, after, rfl, hbrought⟩ := h
  exact ⟨before, request, after ++ [e], by simp, hbrought⟩

/-- A manifest has the digest of its bytes, and a digest that it is kept under is its own, or it was
brought for that digest. -/
structure Named (s : Server) (events : List Event) (repository key : String) (m : Manifest) :
    Prop where
  hashed : m.digest = Digest.ofContent m.body
  named : Digest.isDigest key = true → m.digest = key ∨ BroughtIn s events repository key m

theorem named_of_run (plan : Settings.Plan) (world : World) (events : List Event)
    {repository key : String} {m : Manifest}
    (hget : ((start plan world).run events).registry.manifests.get? repository key = some m) :
    Named (start plan world) events repository key m := by
  -- Induction from the end: what an event brings in, it brings to the state that it finds.
  induction events using List.reverseRecOn generalizing repository key m with
  | nil => cases hget
  | append_singleton events e ih =>
    rw [run_concat] at hget
    rcases named_of_take _ e hget with hold | ⟨hhashed, hnamed⟩
    · exact ⟨(ih hold).hashed, fun hkey ↦ ((ih hold).named hkey).imp_right fun hin ↦ hin.concat e⟩
    · refine ⟨hhashed, fun hkey ↦ (hnamed hkey).imp_right ?_⟩
      rintro ⟨request, rfl, hbrought⟩
      exact ⟨events, request, [], rfl, hbrought⟩

/-- Whatever is asked of a registry that had nothing in it, in whatever world: each manifest that is
kept has the digest of its bytes, and if it is kept under another digest, then a request for that
digest has brought it from the gateway. So the answer to a request for a digest names the digest of
the bytes that it sends, and those bytes have the digest that was asked for unless a request for it
has brought them. -/
theorem digests_of_run (plan : Settings.Plan) (world : World) (events : List Event) :
    let s := (start plan world).run events
    (∀ repository key m, s.registry.manifests.get? repository key = some m →
      m.digest = Digest.ofContent m.body ∧ (Digest.isDigest key = true →
        m.digest = key ∨ BroughtIn (start plan world) events repository key m)) ∧
    ∀ request repository digest response t, request.method = .get →
      addressed? request = some (.manifest repository digest) → Digest.isDigest digest = true →
      (handle request).run s = (.done response, t) → response.status = .ok →
        response.headers.get? "docker-content-digest" = some (Digest.ofContent response.body) ∧
          (Digest.ofContent response.body = digest ∨ ∃ m, m.body = response.body ∧
            BroughtIn (start plan world) (events ++ [.request request]) repository digest m) := by
  intro s
  refine ⟨fun repository key m hget ↦ ?_, ?_⟩
  · have hnamed := named_of_run plan world events hget
    exact ⟨hnamed.hashed, hnamed.named⟩
  · intro request repository digest response t hmethod haddressed hdigest hrun hstatus
    have hgranted : response.Granted := by
      rw [Response.Granted, hstatus]
      rfl
    obtain ⟨m, hget, hbody, hheader⟩ := manifest_of_granted hmethod haddressed hrun hgranted
    have ht : (start plan world).run (events ++ [.request request]) = t := by
      rw [run_concat]
      exact congrArg Prod.snd hrun
    have hnamed := named_of_run plan world (events ++ [.request request]) (by rwa [ht])
    rw [hbody, ← hnamed.hashed]
    refine ⟨hheader ?_, (hnamed.named hdigest).imp_right fun hin ↦ ⟨m, rfl, hin⟩⟩
    rw [hnamed.hashed]
    exact (Digest.isSha256_ofContent m.body).isHeaderValue

/-- The digest of `hello`, for which the gateway has `goodbye`: that is kept under it and served. -/
theorem digests_of_run_goodbye :
    let digest := "sha256:2cf24dba5fb0a30e26e83b2ac5b9e29e1b161e5c1fa7425e73043362938b9824"
    let plan : Settings.Plan := ⟨defaultGateway, none, [.fixed "fixed" ["image"]], 0, none, none⟩
    let world : World := ⟨∅, ⟨fun _ ↦ .answer ⟨.ok, []⟩ (.complete "goodbye".toUTF8), []⟩, [], 0,
      fun _ ↦ "fresh", 0⟩
    let request : Request :=
      ⟨.get, ⟨none, none, "/v2/library/manifests/" ++ digest, none⟩, [], ByteArray.empty⟩
    let answer := (handle request).run (start plan world)
    Digest.isDigest digest = true ∧ digest = Digest.ofContent "hello".toUTF8 ∧
      (∃ m ∈ answer.2.registry.manifests.get? "library" digest, m.digest ≠ digest) ∧
      ∃ response ∈ answer.1.value?, response.status = .ok ∧
        Digest.ofContent response.body ≠ digest := by
  decide +kernel

/-! ### Blobs -/

/-- The answer with a blob has the digest that is asked for in its header, and the bytes are those
in memory, or else those that the gateway answers with. -/
theorem blob_of_granted {repository digest : String} (hget : request.method = .get)
    (haddressed : addressed? request = some (.blob repository digest))
    (h : (handle request).run s = (.done response, t)) (hgranted : response.Granted)
    (hvalue : isHeaderValue digest = true) :
    response.headers.get? "docker-content-digest" = some digest ∧
      (s.registry.blobs.get? digest = some response.body ∨
        s.registry.blobs.get? digest = none ∧ ∃ identifier fetched,
          Relays s .get repository digest identifier fetched ∧ fetched.body = response.body) := by
  obtain ⟨query, served, hperform, rfl⟩ := performed_of_granted haddressed h hgranted
  have hread : request.method.isRead = true := by rw [hget]; rfl
  rcases run_perform_blob hread repository digest query request.headers request.body s with
    ⟨error, hrefused⟩ | hserve
  · rw [hrefused] at hperform
    cases hperform
  · rw [hserve, hget] at hperform
    rw [hget, Response.body_finished_get,
      Response.get?_headers_finished _ _ (by decide) (by decide)]
    rcases found_of_run_serveBlob hperform with
      ⟨data, hdata, rfl⟩ | ⟨hnone, identifier, fetched, hrelays, -, rfl⟩
    · refine ⟨?_, Or.inl hdata⟩
      rw [blobResponse, Response.get?_headers_withHeader, if_pos rfl]
    · refine ⟨?_, Or.inr ⟨hnone, identifier, fetched, hrelays, ?_⟩⟩
      · rw [relayedResponse, Response.get?_headers_withOptional_of_ne _ _ (by decide),
          Response.get?_headers_withOptional_self _ _ hvalue]
      · rw [relayedResponse]
        simp only [Response.body_withOptional]
        rfl

/-- Whatever has been asked of a registry that had nothing in it, in whatever world: the answer to a
request for a blob names the digest that was asked for. If the blob is in memory, however it was
pushed, its bytes have that digest; and if it is not, they are the bytes that the gateway answers
with, so they have that digest exactly if the gateway keeps to it. -/
theorem blobs_of_run (plan : Settings.Plan) (world : World) (events : List Event) :
    let s := (start plan world).run events
    ∀ request repository digest response t, request.method = .get →
      addressed? request = some (.blob repository digest) → Digest.IsSha256 digest →
      (handle request).run s = (.done response, t) → response.status.isSuccess = true →
        response.headers.get? "docker-content-digest" = some digest ∧
          (s.registry.blobs.get? digest = some response.body ∧
              Digest.ofContent response.body = digest ∨
            s.registry.blobs.get? digest = none ∧ ∃ identifier fetched,
              Relays s .get repository digest identifier fetched ∧
                fetched.body = response.body) := by
  intro s request repository digest response t hget haddressed hdigest hrun hsuccess
  obtain ⟨calls, hcalls⟩ := blobs_run (start plan world) events
  have hsound : s.registry.blobs.Sound := by
    rw [hcalls]
    exact Blob.Store.sound_run calls
  obtain ⟨hheader, hbytes⟩ := blob_of_granted hget haddressed hrun
    (Response.granted_of_isSuccess hsuccess) hdigest.isHeaderValue
  refine ⟨hheader, ?_⟩
  rcases hbytes with hthere | hrelayed
  · exact Or.inl ⟨hthere, (hsound.named hthere).symm⟩
  · exact Or.inr hrelayed

/-- The digest of `hello`, for which the gateway has `goodbye`: that is served under it. -/
theorem blobs_of_run_goodbye :
    let digest := "sha256:2cf24dba5fb0a30e26e83b2ac5b9e29e1b161e5c1fa7425e73043362938b9824"
    let plan : Settings.Plan := ⟨defaultGateway, none, [.fixed "fixed" ["image"]], 0, none, none⟩
    let world : World := ⟨∅, ⟨fun _ ↦ .answer ⟨.ok, []⟩ (.complete "goodbye".toUTF8), []⟩, [], 0,
      fun _ ↦ "fresh", 0⟩
    let request : Request :=
      ⟨.get, ⟨none, none, "/v2/library/blobs/" ++ digest, none⟩, [], ByteArray.empty⟩
    digest = Digest.ofContent "hello".toUTF8 ∧
      ∃ response ∈ ((handle request).run (start plan world)).1.value?,
        response.status.isSuccess = true ∧
          response.headers.get? "docker-content-digest" = some digest ∧
            Digest.ofContent response.body ≠ digest := by
  decide +kernel

end Server

end ImageRegistry
