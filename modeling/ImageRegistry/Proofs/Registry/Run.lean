import ImageRegistry.Proofs.Registry.Performing
import ImageRegistry.Settings.Basic
import Mathlib.Data.List.Induction

/-!
# Runs of a server

A server is asked one thing after the other. Between two requests the world may become any other:
files come and go, the gateway answers something else, the clock goes on. Blobs may also be dropped
by what looks after the store. A run is a list of such events, from a registry with nothing in it.

`Changed` says once what an event can do to what is stored: one call is made to the blob store, or
a manifest is pushed, was checked, and is told to be stored (`Pushes`), or one is pulled, and is
made of the bytes that the gateway offered to that very request (`Brought`). So the blobs at the end
of a run are those of a run of the blob store (`blobs_run`), and whatever holds along runs of that
store holds along runs of a server.
-/

namespace ImageRegistry.Server

open ImageRegistry.Action Http

variable {s t : Server}

/-! ### Events and runs -/

/-- What happens to a server. -/
inductive Event where
  | request (request : Request)
  /-- The world is not what it was any more. -/
  | world (world : World)
  /-- A call to the blob store that no request makes. -/
  | blobs (event : Blob.Event)

/-- A registry that is planned, with nothing in it, in a world. -/
def start (plan : Settings.Plan) (world : World) : Server := ⟨plan.registry, world⟩

/-- The server after an event. -/
def take (s : Server) : Event → Server
  | .request request => ((handle request).run s).2
  | .world world => { s with world := world }
  | .blobs event => s.withBlobs (s.registry.blobs.take event).2

/-- The server after some events. -/
def run (s : Server) (events : List Event) : Server := events.foldl take s

@[simp] theorem run_nil (s : Server) : s.run [] = s := rfl

theorem run_append (s : Server) (before after : List Event) :
    s.run (before ++ after) = (s.run before).run after := List.foldl_append

theorem run_concat (s : Server) (events : List Event) (e : Event) :
    s.run (events ++ [e]) = (s.run events).take e := run_append s events [e]

/-! ### What an event can do -/

/-- A request pushes a manifest, and is told that it is stored. -/
structure Pushes (s : Server) (request : Request) (repository reference : String) : Prop where
  put : request.method = .put
  addressed : addressed? request = some (.manifest repository reference)
  stored : ∃ response, ((handle request).run s).1 = .done response ∧
    response.status.isSuccess = true

/-- A request to read a manifest finds none, and gets the bytes of this one from the gateway. -/
structure Brought (s : Server) (request : Request) (repository reference : String) (m : Manifest) :
    Prop where
  reads : request.method.isRead = true
  addressed : addressed? request = some (.manifest repository reference)
  missing : s.registry.manifests.get? repository reference = none
  offered : ∃ identifier body, Offers s repository reference identifier body ∧
    m = .ofBody body none (some identifier)

/-- What an event can make of what is stored. -/
inductive Changed (s : Server) : Event → Blob.Store × Manifest.Store → Prop where
  | kept (e : Event) : Changed s e (stored s)
  | called (e : Event) (call : Blob.Event) :
    Changed s e ((s.registry.blobs.take call).2, s.registry.manifests)
  | pushed (request : Request) (repository reference : String)
      (pushes : Pushes s request repository reference)
      (accepts : s.registry.manifests.Accepts repository reference (pushedManifest request)) :
    Changed s (.request request) (s.registry.blobs,
      s.registry.manifests.insert repository reference (pushedManifest request))
  | pulled (request : Request) (repository reference : String) (m : Manifest)
      (brought : Brought s request repository reference m) :
    Changed s (.request request)
      (s.registry.blobs, s.registry.manifests.insert repository reference m)

section Requests

variable {ε α : Type} {request : Request} {repository reference : String}

theorem changed_of_keeps {act : Action Server ε α} (h : Keeps stored act) (e : Event) (s : Server) :
    Changed s e (stored (act.run s).2) := by
  rw [h s]
  exact .kept e

/-- A manifest that is served was there, or it is brought by this request. -/
theorem changed_serveManifest (hread : request.method.isRead = true)
    (haddressed : addressed? request = some (.manifest repository reference)) (s : Server) :
    Changed s (.request request)
      (stored ((serveManifest request.method repository reference).run s).2) := by
  rcases stored_serveManifest request.method repository reference s with
    hkept | ⟨hmissing, identifier, body, hoffers, hstored⟩
  · rw [hkept]
    exact .kept _
  · rw [hstored]
    exact .pulled request repository reference _
      ⟨hread, haddressed, hmissing, identifier, body, hoffers, rfl⟩

theorem changed_request (request : Request) (s : Server) :
    Changed s (.request request) (stored ((handle request).run s).2) := by
  have hhandled := handled request s
  generalize hresult : (handle request).run s = result at hhandled ⊢
  cases hhandled with
  | told response refused => exact .kept _
  | dug query nowhere =>
    rw [ended_snd]
    exact changed_of_keeps (keeps_dig query) _ s
  | performed route digest addressed =>
    rw [ended_snd]
    have hperformed := performed request route digest s
    generalize (perform request.method route digest request.headers request.body).run s = done
      at hperformed hresult ⊢
    cases hperformed with
    | refused | drew => exact .kept _
    | called _ call => exact .called _ ⟨s.world.clock, call⟩
    | pushed repository reference put accepts response created =>
      refine .pushed request repository reference ⟨put, addressed, ?_⟩ accepts
      rw [hresult]
      refine ⟨_, rfl, ?_⟩
      rw [Response.status_stamped, Response.status_answering, created]
      rfl
    | manifest repository reference read => exact changed_serveManifest read addressed s
    | blob repository digest read =>
      exact changed_of_keeps (keeps_serveBlob _ repository digest) _ s

/-- A push that is told to be stored is stored, because it was checked. -/
theorem stored_of_pushes (h : Pushes s request repository reference) :
    s.registry.manifests.Accepts repository reference (pushedManifest request) ∧
      ((handle request).run s).2 = s.withManifests
        (s.registry.manifests.insert repository reference (pushedManifest request)) := by
  obtain ⟨response, hanswer, hsuccess⟩ := h.stored
  have hrun : (handle request).run s = (.done response, ((handle request).run s).2) :=
    Prod.ext hanswer rfl
  obtain ⟨digest, served, hperform, -⟩ :=
    performed_of_granted h.addressed hrun (Response.granted_of_isSuccess hsuccess)
  have hperformed := performed request (.manifest repository reference) digest s
  rw [hperform] at hperformed
  generalize ((handle request).run s).2 = t at hperformed ⊢
  generalize hresult : (Outcome.done served, t) = result at hperformed
  cases hperformed with
  | refused => cases hresult
  | called _ call calls => cases calls
  | pushed _ _ put accepts =>
    cases hresult
    exact ⟨accepts, rfl⟩
  | manifest _ _ read =>
    rw [h.put] at read
    cases read

end Requests

/-- Every event does one of these things. -/
theorem changed (s : Server) (e : Event) : Changed s e (stored (s.take e)) := by
  cases e with
  | request request => exact changed_request request s
  | world world => exact .kept _
  | blobs event => exact .called _ event

/-! ### What holds along a run -/

/-- The blobs at the end of a run are those of a run of the blob store. -/
theorem blobs_run (s : Server) (events : List Event) :
    ∃ calls : List Blob.Event, (s.run events).registry.blobs = s.registry.blobs.run calls := by
  induction events using List.reverseRecOn with
  | nil => exact ⟨[], rfl⟩
  | append_singleton events e ih =>
    obtain ⟨calls, hcalls⟩ := ih
    rw [run_concat]
    generalize s.run events = t at hcalls ⊢
    have hchanged := t.changed e
    show ∃ calls, (stored (t.take e)).1 = _
    generalize stored (t.take e) = after at hchanged ⊢
    cases hchanged with
    | kept | pushed | pulled => exact ⟨calls, hcalls⟩
    | called _ call =>
      refine ⟨calls ++ [call], ?_⟩
      rw [Blob.Store.run_append, ← hcalls]
      rfl

end ImageRegistry.Server
