import ImageRegistry.Proofs.Pairing
import ImageRegistry.Proofs.Registry.Answering

/-!
# A `HEAD` request is answered like a `GET` request

The two methods part in three places: a body that is in memory is left out for `HEAD`, a blob that
is not there is asked for with the method of the request, and the body of every answer to `HEAD` is
dropped at the end. Up to there both do the same thing in the same state, so what is to be shown is
that the answers have the same headers at these places. `Response.Outlines` says so, and that the
length is among them, as it would otherwise be told from a body that is missing (`answering_head`).

The gateway has to answer `HEAD` like `GET` for this (`Remote.Service.Outlines`), but only where a
blob is asked for; a manifest is pulled with `GET` in any case.
-/

namespace ImageRegistry

open ImageRegistry.Action Http

/-! ### Answers that differ in their bodies -/

/-- An answer that is like another one but for the body, and names a length. -/
structure Http.Response.Outlines (r whole : Response) : Prop where
  status : r.status = whole.status
  headers : r.headers = whole.headers
  length : r.headers.contains "content-length" = true

namespace Http.Response

variable {r whole : Response}

theorem contains_headers_withHeader (r : Response) (name value : String) {other : String}
    (h : name = other ∨ r.headers.contains other = true) :
    (r.withHeader name value).headers.contains other = true := by
  rw [Table.contains, get?_headers_withHeader]
  split
  · rfl
  · next hne => exact h.resolve_left hne

/-- Two bodies of one kind, with the same length laid over them. -/
theorem outlines_withLength (status : Status) (body outlined : ByteArray) (length : String) :
    Outlines ((bytes status outlined).withHeader "content-length" length)
      ((bytes status body).withHeader "content-length" length) where
  status := rfl
  headers := rfl
  length := contains_headers_withHeader _ _ _ (Or.inl rfl)

theorem Outlines.withHeader (h : Outlines r whole) (name value : String) :
    Outlines (r.withHeader name value) (whole.withHeader name value) where
  status := h.status
  headers := congrArg (Table.insert · name value) h.headers
  length := contains_headers_withHeader r name value (Or.inr h.length)

theorem Outlines.withOptional (h : Outlines r whole) (name : String) (value : Option String) :
    Outlines (r.withOptional name value) (whole.withOptional name value) := by
  cases value with
  | none => exact h
  | some value =>
    rw [Response.withOptional, Response.withOptional]
    split
    · exact h.withHeader name value
    · exact h

/-- The answer to `HEAD` is that to `GET` without its body: both have the length already. -/
theorem Outlines.answering_head (h : Outlines r whole) :
    (r.answering .head).stamped = (whole.answering .get).stamped.withoutBody := by
  have hlength : whole.headers.contains "content-length" = true := h.headers ▸ h.length
  have hhead : r.answering .head = r.withoutBody :=
    congrArg withoutBody (if_pos h.length : r.withLength = r)
  have hget : whole.answering .get = whole := if_pos hlength
  have hsame : r.withoutBody = whole.withoutBody := by
    rw [withoutBody, withoutBody, h.status, h.headers]
  rw [hhead, hget, hsame]
  rfl

/-- So it is for one answer: its length is that of its body, which is dropped afterwards. -/
theorem answering_head (r : Response) :
    (r.answering .head).stamped = (r.answering .get).stamped.withoutBody := rfl

end Http.Response

/-! ### The gateway -/

/-- The length that the headers of an answer name, if they name one that can be read. -/
def Remote.Head.length? (head : Head) : Option Nat :=
  (head.headers.text? "content-length").bind fun text ↦
    Text.unsigned? Text.wordBound text.toList

/-- A service that answers `HEAD` like `GET`: with the same status and the same headers, among them
a length, and both answers come in to their end. -/
def Remote.Service.Outlines (service : Service) (target : String) : Prop :=
  ∃ head body outlined, service.respond ⟨.get, target⟩ = .answer head (.complete body) ∧
    service.respond ⟨.head, target⟩ = .answer head (.complete outlined) ∧ head.length?.isSome

/-- The service without its memory of what it was asked. -/
def Remote.Service.unlogged (service : Service) : Service := { service with log := [] }

/-- An answer of the gateway that is like another one but for the body. -/
structure Fetched.Outlines (fetched whole : Fetched) : Prop where
  status : fetched.status = whole.status
  contentLength : fetched.contentLength = whole.contentLength
  contentType : fetched.contentType = whole.contentType

/-- When the headers name the length, no body is measured. -/
theorem Gateway.outlines_assemble {head : Remote.Head} (h : head.length?.isSome)
    (outlined body : ByteArray) : (assemble head outlined).Outlines (assemble head body) where
  status := rfl
  contentLength := by
    obtain ⟨length, hlength⟩ := Option.isSome_iff_exists.1 h
    show head.length?.getD outlined.size = head.length?.getD body.size
    rw [hlength]
    rfl
  contentType := rfl

theorem Gateway.paired_fetch (g : Gateway) {service : Remote.Service} {identifier path : String}
    (h : ∀ uri, g.url identifier path = .ok uri → service.Outlines uri.target) :
    Paired (fun s t ↦ s.unlogged = t.unlogged) Fetched.Outlines
      ((g.fetch .head identifier path).run service)
      ((g.fetch .get identifier path).run service) := by
  refine paired_bind_of_same fun uri t hread ↦ ?_
  obtain ⟨hurl, rfl⟩ := run_ofExcept_eq_done.1 hread
  obtain ⟨head, body, outlined, hget, hhead, hlength⟩ := h uri hurl
  have hfetch (method : Method) {exchange : Remote.Exchange}
      (hexchange : service.respond ⟨method, uri.target⟩ = exchange) :
      ((changing fun service : Remote.Service ↦ service.exchange ⟨method, uri.target⟩) >>=
        fun exchange ↦ (ofExcept id (g.receive exchange) :
          Action Remote.Service FetchFailure Fetched)).run service =
        (ofExcept id (g.receive exchange)).run
          (service.exchange ⟨method, uri.target⟩).2 := by
    rw [← hexchange]
    rfl
  rw [hfetch .head hhead, hfetch .get hget]
  exact .done (outlines_assemble hlength outlined body) rfl

/-! ### The server -/

/-- A route to what a registry holds: a manifest or a blob. -/
def Route.IsContent : Route → Prop
  | manifest .. => True
  | blob .. => True
  | uploads .. => False
  | upload .. => False

/-- The world without the gateway's memory of what it was asked. -/
def World.unlogged (w : World) : World := { w with gateway := w.gateway.unlogged }

namespace Server

/-- The server without the gateway's memory of what it was asked. -/
def unlogged (s : Server) : Server := { s with world := s.world.unlogged }

theorem unlogged_eq_iff (s t : Server) :
    s.unlogged = t.unlogged ↔ s.registry = t.registry ∧ s.world.unlogged = t.world.unlogged := by
  rw [unlogged, unlogged, Server.mk.injEq]

/-- Wherever a blob is located, the gateway answers `HEAD` for it like `GET`. -/
def Outlines (s : Server) (repository digest : String) : Prop :=
  ∀ identifier t uri, (locate repository digest).run s = (.done identifier, t) →
    t.registry.gateway.url identifier ("blobs/" ++ digest) = .ok uri →
      t.world.gateway.Outlines uri.target

variable {s : Server}

/-- Two ways to answer that leave the same server, but for what the gateway was asked. -/
abbrev Alike {ε α α' : Type} (R : α → α' → Prop) :
    Outcome ε α × Server → Outcome ε α' × Server → Prop :=
  Paired (fun t u ↦ t.unlogged = u.unlogged) R

theorem alike_fetch {identifier path : String}
    (h : ∀ uri, s.registry.gateway.url identifier path = .ok uri →
      s.world.gateway.Outlines uri.target) :
    Alike Fetched.Outlines ((fetch .head identifier path).run s)
      ((fetch .get identifier path).run s) := by
  have hgateway := s.registry.gateway.paired_fetch h
  have hworld : Paired (fun v w : World ↦ v.unlogged = w.unlogged) Fetched.Outlines
      ((World.onGateway (s.registry.gateway.fetch .head identifier path)).run s.world)
      ((World.onGateway (s.registry.gateway.fetch .get identifier path)).run s.world) :=
    hgateway.within fun _ _ hsame ↦ congrArg (fun g ↦ { s.world with gateway := g }) hsame
  have hserver : Alike Fetched.Outlines
      ((onWorld (World.onGateway (s.registry.gateway.fetch .head identifier path))).run s)
      ((onWorld (World.onGateway (s.registry.gateway.fetch .get identifier path))).run s) :=
    hworld.within fun _ _ hsame ↦ congrArg (fun w ↦ { s with world := w }) hsame
  exact hserver

/-- A blob from the gateway has the headers that the gateway gives. -/
theorem alike_relayBlob {repository digest : String} (h : s.Outlines repository digest) :
    Alike Response.Outlines ((relayBlob .head repository digest).run s)
      ((relayBlob .get repository digest).run s) := by
  refine paired_bind_of_same fun identifier t hlocate ↦ ?_
  have hfetch : Alike Fetched.Outlines ((fetch .head identifier ("blobs/" ++ digest)).run t)
      ((fetch .get identifier ("blobs/" ++ digest)).run t) :=
    alike_fetch fun uri ↦ h identifier t uri (run_mapError_eq_done.1 hlocate)
  refine (hfetch.mapError _).bind fun fetched whole u v hsame hstate ↦ ?_
  rw [hsame.status]
  split
  · refine .done ?_ hstate
    rw [relayedResponse, relayedResponse, hsame.status, hsame.contentLength, hsame.contentType]
    have hlength := Response.outlines_withLength whole.status whole.body fetched.body
      (toString whole.contentLength)
    exact ((hlength.withOptional _ _).withOptional _ _).withOptional _ _
  · exact .failed _ hstate

theorem alike_serveBlob {repository digest : String} (h : s.Outlines repository digest) :
    Alike Response.Outlines ((serveBlob .head repository digest).run s)
      ((serveBlob .get repository digest).run s) := by
  refine paired_bind_of_same fun found t hfound ↦ ?_
  rw [run_reading, Prod.mk.injEq, Outcome.done.injEq] at hfound
  obtain ⟨rfl, rfl⟩ := hfound
  cases s.registry.blobs.get? digest with
  | some data =>
    have hlength := Response.outlines_withLength .ok data ByteArray.empty (toString data.size)
    exact .done (hlength.withHeader "docker-content-digest" digest) rfl
  | none => exact alike_relayBlob h

/-- A manifest is pulled in the same way for both. -/
theorem alike_serveManifest (repository reference : String) :
    Alike Response.Outlines ((serveManifest .head repository reference).run s)
      ((serveManifest .get repository reference).run s) := by
  have houtlines (manifest : Manifest) :
      Response.Outlines (manifestResponse .head manifest) (manifestResponse .get manifest) := by
    have hlength := Response.outlines_withLength .ok manifest.body ByteArray.empty
      (toString manifest.body.size)
    exact ((hlength.withOptional _ _).withOptional _ _).withOptional _ _
  refine paired_bind_of_same fun found t _ ↦ ?_
  cases found with
  | some manifest => exact .done (houtlines manifest) rfl
  | none => exact paired_bind_of_same fun manifest u _ ↦ .done (houtlines manifest) rfl

/-- Whatever is done under such a route goes the same way. -/
theorem alike_perform {route : Route} (hcontent : route.IsContent)
    (h : ∀ repository digest, route = .blob repository digest → s.Outlines repository digest)
    (digest : Option String) (headers : Headers) (body : ByteArray) :
    Alike Response.Outlines ((perform .head route digest headers body).run s)
      ((perform .get route digest headers body).run s) := by
  refine paired_bind_of_same fun _ t hrepository ↦ ?_
  obtain ⟨-, rfl⟩ := run_ofExcept_eq_done.1 hrepository
  cases route with
  | manifest repository reference =>
    exact paired_bind_of_same fun _ t _ ↦ alike_serveManifest repository reference
  | blob repository blob =>
    refine paired_bind_of_same fun _ t hblob ↦ ?_
    obtain ⟨-, rfl⟩ := run_ofExcept_eq_done.1 hblob
    exact alike_serveBlob (h repository blob rfl)
  | uploads repository => exact hcontent.elim
  | upload repository id => exact hcontent.elim

theorem alike_ended {result result' : Outcome RegistryError Response × Server}
    (h : Alike Response.Outlines result result') :
    Alike (fun answer whole ↦ answer = whole.withoutBody) (ended .head result)
      (ended .get result') := by
  cases h with
  | done value state => exact .done value.answering_head state
  | failed error state => exact .done error.response.answering_head state
  | stuck state => exact .stuck state

/-- The answers to the two methods, whatever stands between the request and its handler. -/
theorem alike_handle {request : Request} {route : Route}
    (haddressed : addressed? request = some route) (hcontent : route.IsContent)
    (h : ∀ repository digest, route = .blob repository digest → s.Outlines repository digest) :
    Alike (fun answer whole ↦ answer = whole.withoutBody)
      ((handle { request with method := .head }).run s)
      ((handle { request with method := .get }).run s) := by
  have hfault (hfault : (∃ fault, Query.digest? request.uri.query = .error fault) ∨
      isTooLong s.registry request.body = true) :
      Alike (fun answer whole ↦ answer = whole.withoutBody)
        ((handle { request with method := .head }).run s)
        ((handle { request with method := .get }).run s) := by
    obtain ⟨response, htold⟩ := run_handle_of_fault haddressed hfault
    rw [htold, htold]
    exact .done response.answering_head rfl
  cases hquery : Query.digest? request.uri.query with
  | error fault => exact hfault (Or.inl ⟨fault, hquery⟩)
  | ok digest =>
    cases hlength : isTooLong s.registry request.body with
    | true => exact hfault (Or.inr hlength)
    | false =>
      have hrun (method : Method) : (handle { request with method := method }).run s =
          ended method ((perform method route digest request.headers request.body).run s) := by
        have hsame : addressed? { request with method := method } = some route := haddressed
        exact run_handle_of_addressed hsame hquery hlength
      rw [hrun, hrun]
      exact alike_ended (alike_perform hcontent h digest request.headers request.body)

/-- A `HEAD` request for a manifest or a blob is answered with the status and the headers of the
`GET` request that is otherwise the same, and without a body, if the gateway answers so where it is
asked for a blob. Both leave the same registry in the same world, in which only the gateway may
remember to have been asked in another way. -/
theorem head_like_get (s : Server) {request : Request} {route : Route}
    (haddressed : addressed? request = some route) (hcontent : route.IsContent)
    (hgateway : ∀ repository digest, route = .blob repository digest →
      s.Outlines repository digest) :
    let got := (handle { request with method := .get }).run s
    let outlined := (handle { request with method := .head }).run s
    (∀ whole, got.1 = .done whole → ∃ answer, outlined.1 = .done answer ∧
        answer.status = whole.status ∧ answer.headers = whole.headers ∧
        answer.body = ByteArray.empty) ∧
      (outlined.1 = .stuck ↔ got.1 = .stuck) ∧ (s.Prompt → got.1 ≠ .stuck) ∧
      outlined.2.registry = got.2.registry ∧
      outlined.2.world.unlogged = got.2.world.unlogged := by
  intro got outlined
  have hprompt : s.Prompt → got.1 ≠ .stuck := by
    intro hs hstuck
    obtain ⟨response, t, hrun, -⟩ := answered hs { request with method := .get }
    have hdone : got.1 = .done response := congrArg Prod.fst hrun
    cases hdone.symm.trans hstuck
  have halike : Alike (fun answer whole ↦ answer = whole.withoutBody) outlined got :=
    alike_handle haddressed hcontent hgateway
  generalize got = got, outlined = outlined at halike hprompt ⊢
  cases halike with
  | @done answer whole t u value state =>
    obtain ⟨hregistry, hworld⟩ := (unlogged_eq_iff t u).1 state
    refine ⟨?_, by simp, hprompt, hregistry, hworld⟩
    rintro _ ⟨⟩
    exact ⟨answer, rfl, by rw [value]; rfl, by rw [value]; rfl, by rw [value]; rfl⟩
  | failed error => cases error
  | stuck state =>
    obtain ⟨hregistry, hworld⟩ := (unlogged_eq_iff _ _).1 state
    refine ⟨?_, Iff.rfl, hprompt, hregistry, hworld⟩
    rintro whole ⟨⟩

/-- A blob that the gateway has, of whatever it is asked. -/
theorem head_like_get_relayed :
    let service : Remote.Service := ⟨fun asked ↦ .answer ⟨.ok, [("content-length", "4".toUTF8)]⟩
      (.complete (if asked.method = .head then ByteArray.empty else "blob".toUTF8)), []⟩
    let s : Server := ⟨⟨∅, ∅, .empty none, [.fixed "fixed" ["image"]], ⟨defaultGateway, 10⟩, none⟩,
      ⟨∅, service, [], 0, fun _ ↦ "fresh", 0⟩⟩
    let digest := "sha256:fa2c8cc4f28176bbeed4b736df569a34c79cd3723e9ec42f9674b4d46ac6b8b8"
    let head : Request :=
      ⟨.head, ⟨none, none, "/v2/library/blobs/" ++ digest, none⟩, [], ByteArray.empty⟩
    ∃ answer, ((handle head).run s).1 = .done answer ∧ answer.status = .ok ∧
      answer.headers.get? "content-length" = some "4" ∧
      answer.headers.get? "docker-content-digest" = some digest ∧
      answer.body = ByteArray.empty := by
  intro service s digest head
  have haddressed : addressed? head = some (.blob "library" digest) := by decide +kernel +revert
  have hserved : (((ended .get ((perform .get (.blob "library" digest) none []
      ByteArray.empty).run s)).1.value?.map fun whole ↦ (whole.status,
        whole.headers.get? "content-length", whole.headers.get? "docker-content-digest"))) =
      some (.ok, some "4", some digest) := by
    clear haddressed
    decide +kernel +revert
  have hgateway : ∀ repository digest', Route.blob "library" digest = .blob repository digest' →
      s.Outlines repository digest' := by
    rintro _ _ ⟨⟩ identifier t uri hlocate -
    have hkept : ((locate "library" digest).run s).2.world.gateway = service := rfl
    rw [hlocate] at hkept
    rw [hkept]
    exact ⟨_, _, _, rfl, rfl, by decide +kernel⟩
  have hsame : addressed? { head with method := .get } = some (.blob "library" digest) := haddressed
  have hquery : Query.digest? head.uri.query = .ok none := rfl
  have hrun : (handle { head with method := .get }).run s = _ :=
    run_handle_of_addressed hsame hquery rfl
  obtain ⟨whole, hvalue, hparts⟩ := Option.map_eq_some_iff.1 hserved
  rw [← hrun] at hvalue
  rw [Prod.mk.injEq, Prod.mk.injEq] at hparts
  obtain ⟨hstatus, hlength, hdigest⟩ := hparts
  obtain ⟨hanswered, -⟩ := head_like_get s haddressed trivial hgateway
  obtain ⟨answer, hanswer, hsame, hheaders, hbody⟩ :=
    hanswered whole (Outcome.value?_eq_some_iff.1 hvalue)
  rw [← hheaders] at hlength hdigest
  exact ⟨answer, hanswer, hsame.trans hstatus, hlength, hdigest, hbody⟩

end Server

end ImageRegistry
