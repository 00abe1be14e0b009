import ImageRegistry.Proofs.Registry.Performing
import ImageRegistry.Proofs.Remote.Deadline

/-!
# Every request is answered

What a server waits for is the gateway and, through its resolvers, the storages. All calls to the
gateway come to an end, whatever is behind it, and so do those to the storages if the bodies of
their answers do (`World.BodiesEnd`). So on a server with the resolvers that there are, in such a
world, everything that is asked is answered (`answered`), and the server is such a one afterwards.

That is as much as there is: a listing whose body does not end is waited for without a deadline
(`calls_come_back_endless`).
-/

namespace ImageRegistry

open ImageRegistry.Action Http

/-! ### Resolvers -/

namespace Resolver

theorem ends_ask {r : Resolver} (h : r.Known) (repository reference : String) :
    Ends World.BodiesEnd (r.ask repository reference) :=
  (composes_ends World.BodiesEnd).ask World.ends_onStorage h repository reference

theorem ends_resolve {chain : List Resolver} (h : ∀ r ∈ chain, r.Known)
    (repository reference : String) :
    Ends World.BodiesEnd (resolve chain repository reference) :=
  (composes_ends World.BodiesEnd).resolve fun r hr ↦ ends_ask (h r hr) repository reference

end Resolver

/-- A link cache waits for its resolvers alone. -/
theorem Link.ends_locate {chain : List Resolver} (h : ∀ r ∈ chain, r.Known)
    (repository reference : String) :
    Ends (fun s : Setting ↦ s.world.BodiesEnd) (Setting.locate chain repository reference) := by
  refine (composes_ends fun s : Setting ↦ s.world.BodiesEnd).locateLink ?_ ?_ fun identifier ↦ ?_
  · exact ends_changing fun s hs ↦ hs
  · exact ends_within (Resolver.ends_resolve h repository reference) (fun _ hs ↦ hs)
      fun _ _ _ hworld ↦ hworld
  · exact ends_changing fun s hs ↦ hs

namespace Server

variable {ε α : Type} {s : Server} {request : Request}

/-- The resolvers are known ones, and the bodies of what storages answer with have an end. -/
structure Prompt (s : Server) : Prop where
  resolvers : ∀ r ∈ s.registry.resolvers, r.Known
  world : s.world.BodiesEnd

theorem ends_onWorld {act : Action World ε α} (h : Ends World.BodiesEnd act) :
    Ends Prompt (onWorld act) :=
  ends_within h (fun _ hs ↦ hs.world) fun _ _ hs hworld ↦ ⟨hs.resolvers, hworld⟩

theorem ends_onLinks {act : Action Link.Setting ε α}
    (h : Ends (fun s : Link.Setting ↦ s.world.BodiesEnd) act) : Ends Prompt (onLinks act) :=
  ends_within h (fun _ hs ↦ hs.world) fun _ _ hs hworld ↦ ⟨hs.resolvers, hworld⟩

-- Which resolvers are asked is read from the server, so these go by its state.

theorem ends_locate (repository reference : String) :
    Ends Prompt (locate repository reference) := fun s hs ↦
  ends_onLinks (Link.ends_locate hs.resolvers repository reference) s hs

theorem ends_resolve (repository reference : String) :
    Ends Prompt (resolve repository reference) := fun s hs ↦
  ends_onWorld (Resolver.ends_resolve hs.resolvers repository reference) s hs

theorem ends_fetch (method : Method) (identifier path : String) :
    Ends Prompt (fetch method identifier path) :=
  ends_bind (ends_reading _) fun gateway ↦
    ends_onWorld (World.ends_onGateway (gateway.ends_fetch method identifier path))

theorem ends_get (identifier path : String) : Ends Prompt (get identifier path) :=
  ends_bind (ends_reading _) fun gateway ↦
    ends_onWorld (World.ends_onGateway (gateway.ends_get identifier path))

/-! ### Requests -/

theorem ends_serveManifest (method : Method) (repository reference : String) :
    Ends Prompt (serveManifest method repository reference) := by
  refine (composes_ends Prompt).serveManifest (ends_locate repository reference) ends_get
    (fun other identifier ↦ ?_) (fun manifest s hs ↦ ?_) method
  · exact ends_onLinks (ends_changing fun s hs ↦ hs)
  · exact ⟨trivial, hs.resolvers, hs.world⟩

/-- Whatever is done under a route comes to an end. -/
theorem ends_of_performed {route : Route} {result : Outcome RegistryError Response × Server}
    (hs : s.Prompt) (h : Performed request s route result) :
    result.1.IsEnd ∧ result.2.Prompt := by
  cases h with
  | refused => exact ⟨trivial, hs⟩
  | drew => exact ⟨trivial, hs.resolvers, hs.world⟩
  | called _ _ _ _ ends => exact ⟨ends, hs.resolvers, hs.world⟩
  | pushed => exact ⟨trivial, hs.resolvers, hs.world⟩
  | manifest repository reference =>
    exact ends_serveManifest request.method repository reference s hs
  | blob repository digest =>
    exact (composes_ends Prompt).serveBlob (ends_locate repository digest) ends_fetch
      request.method s hs

/-- The end of a handler makes an answer. -/
theorem answered_of_isEnd {result : Outcome RegistryError Response × Server}
    (h : result.1.IsEnd ∧ result.2.Prompt) (method : Method) :
    ∃ response t, ended method result = (.done response, t) ∧ t.Prompt := by
  obtain ⟨hends, hprompt⟩ := h
  rcases result with ⟨response | error | _, t⟩
  · exact ⟨_, t, rfl, hprompt⟩
  · exact ⟨_, t, rfl, hprompt⟩
  · exact hends.elim

/-- Every request is answered, and the next one will be. -/
theorem answered (hs : s.Prompt) (request : Request) :
    ∃ response t, (handle request).run s = (.done response, t) ∧ t.Prompt := by
  have hhandled := handled request s
  generalize (handle request).run s = result at hhandled ⊢
  cases hhandled with
  | told response => exact ⟨response, s, rfl, hs⟩
  | dug query =>
    exact answered_of_isEnd ((composes_ends Prompt).dig ends_resolve ends_get query s hs) _
  | performed route digest =>
    exact answered_of_isEnd (ends_of_performed hs (performed request route digest s)) _

/-- A call to the gateway comes back whatever is behind it, with a timeout if that keeps one waiting
at any time. A listing through a node comes back exactly if the body of its answer ends, and with a
timeout if there is no answer at all. So if all such bodies end, whatever the resolvers of a server
are asked comes back, and everything that is asked of the server is answered. -/
theorem calls_come_back (g : Gateway) (service : Remote.Service) (method : Method)
    (identifier path : String) (n : Storage.Node) (s : Server) (request : Request) :
    (((g.fetch method identifier path).run service).1 ≠ .stuck ∧
      ∀ uri, g.url identifier path = .ok uri → (service.respond ⟨method, uri.target⟩).Hangs →
        ((g.fetch method identifier path).run service).1 = .failed (.timeout g.timeout)) ∧
    ((((Storage.Node.list identifier).run n).1 = .stuck ↔ ∃ uri head body,
        n.listUrl identifier = .ok uri ∧
          n.service.respond ⟨.post, uri.target⟩ = .answer head (.endless body)) ∧
      ∀ uri, n.listUrl identifier = .ok uri →
        n.service.respond ⟨.post, uri.target⟩ = .stalled →
          ((Storage.Node.list identifier).run n).1 =
            .failed (Storage.Node.failure .timeout .deadline (some identifier))) ∧
    (s.Prompt →
      (∀ r ∈ s.registry.resolvers, ∀ repository reference,
        ((r.ask repository reference).run s.world).1 ≠ .stuck) ∧
      ∃ response t, (handle request).run s = (.done response, t) ∧ t.Prompt) := by
  refine ⟨⟨?_, fun uri ↦ Gateway.run_fetch_of_hangs⟩,
    ⟨Storage.Node.list_eq_stuck_iff, fun uri ↦ Storage.Node.run_list_of_stalled⟩,
    fun hs ↦ ⟨fun r hr repository reference ↦ ?_, answered hs request⟩⟩
  · exact Outcome.isEnd_iff.1 (g.ends_fetch method identifier path service trivial).1
  · have hends := Resolver.ends_ask (hs.resolvers r hr) repository reference s.world hs.world
    exact Outcome.isEnd_iff.1 hends.1

/-- A gateway and a node that never answer. -/
theorem calls_come_back_stalled :
    let stalled : Remote.Service := ⟨fun _ ↦ .stalled, []⟩
    let g : Gateway := ⟨defaultGateway, 10⟩
    let n : Storage.Node := ⟨⟨some "http", some "node.test:5001", "/", none⟩, 10, stalled⟩
    let s : Server := ⟨⟨∅, ∅, .empty none, [.ofStorage 0 none], g, none⟩,
      ⟨∅, stalled, [.node n], 0, fun _ ↦ "fresh", 0⟩⟩
    let read : Request :=
      ⟨.get, ⟨none, none, "/v2/library/manifests/v1", none⟩, [], ByteArray.empty⟩
    ((g.fetch .get "image" "manifests/v1").run stalled).1 = .failed (.timeout 10) ∧
      ((Storage.Node.list "image").run n).1 =
        .failed (Storage.Node.failure .timeout .deadline (some "image")) ∧
      ∃ response t, (handle read).run s = (.done response, t) := by
  intro stalled g n s read
  have hurl : g.url "image" "manifests/v1" =
      .ok ⟨some "http", some "127.0.0.1:8080", "/ipfs/image/manifests/v1", none⟩ := by
    decide +kernel
  have hlist : n.listUrl "image" =
      .ok ⟨some "http", some "node.test:5001", "/api/v0/ls", some "arg=image"⟩ := by
    decide +kernel +revert
  have hprompt : s.Prompt := by
    refine ⟨fun r hr ↦ ?_, fun storage hstorage ↦ ?_⟩
    · rw [List.mem_singleton.1 hr]
      exact .ofStorage 0 none
    · rw [List.mem_singleton.1 hstorage]
      rintro request head body ⟨⟩
  obtain ⟨⟨-, hfetch⟩, ⟨-, hlisting⟩, hserved⟩ :=
    calls_come_back g stalled .get "image" "manifests/v1" n s read
  obtain ⟨-, response, t, hrun, -⟩ := hserved hprompt
  exact ⟨hfetch _ hurl .stalled, hlisting _ hlist rfl, response, t, hrun⟩

/-- A node that answers and never comes to the end of the body: the listing is waited for, and so is
a request that needs it, without an end. -/
theorem calls_come_back_endless :
    let endless : Remote.Service := ⟨fun _ ↦ .answer ⟨.ok, []⟩ (.endless "[".toUTF8), []⟩
    let n : Storage.Node := ⟨⟨some "http", some "node.test:5001", "/", none⟩, 10, endless⟩
    let s : Server := ⟨⟨∅, ∅, .empty none, [.ofStorage 0 none], ⟨defaultGateway, 10⟩, none⟩,
      ⟨∅, endless, [.node n], 0, fun _ ↦ "fresh", 0⟩⟩
    let read : Request :=
      ⟨.get, ⟨none, none, "/v2/library/manifests/v1", none⟩, [], ByteArray.empty⟩
    ((Storage.Node.list "bafyroot").run n).1 = .stuck ∧ ((handle read).run s).1 = .stuck := by
  intro endless n s read
  have hlist : n.listUrl "bafyroot" =
      .ok ⟨some "http", some "node.test:5001", "/api/v0/ls", some "arg=bafyroot"⟩ := by
    decide +kernel +revert
  have hnone : ((handle read).run s).1.value?.isNone = true := by decide +kernel +revert
  refine ⟨Storage.Node.list_eq_stuck_iff.2 ⟨_, _, _, hlist, rfl⟩, ?_⟩
  cases hrun : ((handle read).run s).1 with
  | done response =>
    rw [hrun] at hnone
    cases hnone
  | failed error => cases error
  | stuck => rfl

end Server

end ImageRegistry
