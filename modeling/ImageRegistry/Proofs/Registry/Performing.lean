import ImageRegistry.Proofs.Blob.Run
import ImageRegistry.Proofs.Ending
import ImageRegistry.Proofs.Registry.Reading
import ImageRegistry.Proofs.Registry.Request

/-!
# What is done under a route

A request that is not refused makes one call to the blob store, or it pushes a manifest, or it reads
a manifest or a blob, or it only draws an identifier for an upload. `Performed` says so once, with
the route that allows it and the server that comes of it, and `performed` that under every route
one of these things is done. The answer to a push is part of it, because a push that is not answered
with success must not have stored anything.

What is proved of all requests goes by these cases, and the handlers are not opened again.
-/

namespace ImageRegistry.Server

open ImageRegistry.Action Http

/-- The call to the blob store that a request makes under a route. Whatever it is, it is made in the
name of the repository of the route, and its bytes are those of the request. -/
inductive Calls (request : Request) : Route → Blob.Call → Prop where
  | commit (repository expected : String) (post : request.method = .post) :
    Calls request (.uploads repository) (.commit repository expected request.body)
  | append (repository id : String) (range : Option Blob.Range) (patch : request.method = .patch) :
    Calls request (.upload repository id) (.append repository id range request.body)
  | finalize (repository id expected : String) (put : request.method = .put) :
    Calls request (.upload repository id) (.finalize repository id expected request.body)
  | status (repository id : String) (get : request.method = .get) :
    Calls request (.upload repository id) (.status repository id)
  | cancel (repository id : String) (delete : request.method = .delete) :
    Calls request (.upload repository id) (.cancel repository id)

/-- The manifest that a request pushes. -/
def pushedManifest (request : Request) : Manifest :=
  .ofBody request.body (request.headers.text? "content-type") none

/-- What can be done under a route, how it ends, and the server after it. -/
inductive Performed (request : Request) (s : Server) :
    Route → Outcome RegistryError Response × Server → Prop where
  | refused (route : Route) (error : RegistryError) : Performed request s route (.failed error, s)
  | drew (repository : String) (response : Response) :
    Performed request s (.uploads repository)
      (.done response, { s with world := { s.world with drawn := s.world.drawn + 1 } })
  | called (route : Route) (call : Blob.Call) (calls : Calls request route call)
      (outcome : Outcome RegistryError Response) (ends : outcome.IsEnd) :
    Performed request s route
      (outcome, s.withBlobs (s.registry.blobs.take ⟨s.world.clock, call⟩).2)
  | pushed (repository reference : String) (put : request.method = .put)
      (accepts : s.registry.manifests.Accepts repository reference (pushedManifest request))
      (response : Response) (created : response.status = .created) :
    Performed request s (.manifest repository reference) (.done response, s.withManifests
      (s.registry.manifests.insert repository reference (pushedManifest request)))
  | manifest (repository reference : String) (read : request.method.isRead = true) :
    Performed request s (.manifest repository reference)
      ((serveManifest request.method repository reference).run s)
  | blob (repository digest : String) (read : request.method.isRead = true) :
    Performed request s (.blob repository digest)
      ((serveBlob request.method repository digest).run s)

variable {request : Request} {s : Server}

/-! ### Calls to the blob store -/

/-- An action that answers with what a step on the blobs gives makes the call of that step. -/
theorem performed_onBlobStep {α : Type} {route : Route} {step : Step Blob.Store RegistryError α}
    {call : Blob.Call} {reply : α → Blob.Reply} (calls : Calls request route call)
    (respond : α → Response)
    (hstep : s.registry.blobs.take ⟨s.world.clock, call⟩ =
      Blob.Store.settle reply (step.on s.registry.blobs)) :
    Performed request s route ((onBlobStep step >>= fun a ↦ pure (respond a)).run s) := by
  have hsame : (s.registry.blobs.take ⟨s.world.clock, call⟩).2 =
      (step.on s.registry.blobs).2 := by
    rw [hstep]
    rcases step.on s.registry.blobs with ⟨_ | _, blobs⟩ <;> rfl
  have hafter : ((onBlobStep step >>= fun a ↦ pure (respond a)).run s).2 =
      s.withBlobs (s.registry.blobs.take ⟨s.world.clock, call⟩).2 := by
    rw [snd_run_map, onBlobStep, run_within, snd_run_ofStep, hsame]
  have hends : ((onBlobStep step >>= fun a ↦ pure (respond a)).run s).1.IsEnd := by
    have hblobs : Ends (fun _ ↦ True) (ofStep step) := ends_ofStep fun _ _ ↦ trivial
    have hstep : Ends (fun _ ↦ True) (onBlobStep step) :=
      ends_within hblobs (fun _ _ ↦ trivial) fun _ _ _ _ ↦ trivial
    exact (ends_bind hstep (fun a ↦ ends_pure (respond a)) s trivial).1
  have hcalled (outcome : Outcome RegistryError Response) (h : outcome.IsEnd) :
      Performed request s route
        (outcome, s.withBlobs (s.registry.blobs.take ⟨s.world.clock, call⟩).2) :=
    .called route call calls outcome h
  rw [← hafter] at hcalled
  exact hcalled _ hends

theorem performed_beginUpload {repository : String} (post : request.method = .post)
    (digest : Option String) :
    Performed request s (.uploads repository)
      ((beginUpload repository digest request.body).run s) := by
  cases digest with
  | some expected =>
    exact performed_onBlobStep (.commit repository expected post) _ rfl
  | none => exact .drew repository _

theorem performed_appendUpload {repository id : String} (patch : request.method = .patch) :
    Performed request s (.upload repository id)
      ((appendUpload repository id request.headers request.body).run s) := by
  rw [appendUpload, run_bind]
  cases givenRange request.headers with
  | error error => exact .refused _ error
  | ok range =>
    rw [run_ofExcept_ok]
    dsimp only
    rw [run_bind, run_reading]
    exact performed_onBlobStep (.append repository id range patch)
      (uploadProgress .noContent repository id) rfl

theorem performed_finishUpload {repository id : String} (put : request.method = .put)
    (digest : Option String) :
    Performed request s (.upload repository id)
      ((finishUpload repository id digest request.body).run s) := by
  cases digest with
  | some expected => exact performed_onBlobStep (.finalize repository id expected put) _ rfl
  | none => exact .refused _ _

theorem performed_uploadStatus {repository id : String} (get : request.method = .get) :
    Performed request s (.upload repository id) ((uploadStatus repository id).run s) :=
  performed_onBlobStep (.status repository id get) _ rfl

theorem performed_cancelUpload {repository id : String} (delete : request.method = .delete) :
    Performed request s (.upload repository id) ((cancelUpload repository id).run s) :=
  performed_onBlobStep (.cancel repository id delete) (fun _ ↦ .empty .noContent) rfl

/-! ### Pushes -/

/-- A push that is refused changes nothing, and one that is not was checked and is answered with
success, even if the headers of the answer cannot be written. -/
theorem performed_storeManifest {repository reference : String} (put : request.method = .put) :
    Performed request s (.manifest repository reference)
      ((storeManifest repository reference request.headers request.body).run s) := by
  rw [storeManifest, run_bind, onManifestStep, run_within]
  rcases hon : (Manifest.push repository reference (request.headers.text? "content-type")
    request.body).on s.registry.manifests with ⟨error | m, manifests⟩
  · have hsame := Manifest.atomic_push _ _ _ _ _ _ _ hon
    rw [run_ofStep_of_error hon, hsame]
    exact .refused _ error
  · obtain ⟨rfl, accepts, rfl⟩ :=
      Manifest.Store.put_eq_ok_iff.1 (Step.result_eq_ok_iff.2 hon)
    rw [run_ofStep_of_ok hon]
    refine .pushed repository reference put accepts _ ?_
    rw [storedAt, Response.status_headersOnly]

/-! ### Any route -/

/-- After a check that an action begins with, it is what follows, or it is refused. -/
theorem performed_checked {route : Route} {check : Except RegistryError Unit}
    {act : Action Server RegistryError Response} (h : Performed request s route (act.run s)) :
    Performed request s route ((ofExcept (fun e ↦ e) check >>= fun _ ↦ act).run s) := by
  cases check with
  | error error => exact .refused route error
  | ok => exact h

/-- Under every route one of these things is done. -/
theorem performed (request : Request) (route : Route) (digest : Option String) (s : Server) :
    Performed request s route
      ((perform request.method route digest request.headers request.body).run s) := by
  refine performed_checked ?_
  -- Under each route a method with no meaning is refused.
  cases route with
  | manifest repository reference =>
    refine performed_checked ?_
    have hread : request.method.isRead = true → Performed request s _
        ((serveManifest request.method repository reference).run s) :=
      .manifest repository reference
    cases hmethod : request.method with
    | get | head =>
      rw [hmethod] at hread
      exact hread rfl
    | put => exact performed_storeManifest hmethod
    | post | patch | delete | other name => exact .refused _ _
  | blob repository blob =>
    refine performed_checked ?_
    have hread : request.method.isRead = true → Performed request s _
        ((serveBlob request.method repository blob).run s) := .blob repository blob
    cases hmethod : request.method with
    | get | head =>
      rw [hmethod] at hread
      exact hread rfl
    | put | post | patch | delete | other name => exact .refused _ _
  | uploads repository =>
    cases hmethod : request.method with
    | post => exact performed_beginUpload hmethod digest
    | get | head | put | patch | delete | other name => exact .refused _ _
  | upload repository id =>
    cases hmethod : request.method with
    | patch => exact performed_appendUpload hmethod
    | put => exact performed_finishUpload hmethod digest
    | get => exact performed_uploadStatus hmethod
    | delete => exact performed_cancelUpload hmethod
    | head | post | other name => exact .refused _ _

end ImageRegistry.Server
