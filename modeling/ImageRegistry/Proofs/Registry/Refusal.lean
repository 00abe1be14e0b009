import ImageRegistry.Proofs.Blob.Effects
import ImageRegistry.Proofs.Frame
import ImageRegistry.Proofs.Manifest.Run
import ImageRegistry.Proofs.Registry.Parts

/-!
# A refused request changes nothing that is stored

What a registry stores is its blobs, with their layers and uploads, and its manifests (`stored`);
the link cache is no part of it. An answer is *granted* when its status tells of no error. Every
handler keeps what is stored unless it grants its request, for one of three reasons:

* it only looks, or changes only links and the world (`Keeps`);
* it takes a step on the blobs or the manifests, which is atomic, and makes its answer from the
  value of the step: such an answer cannot be refused any more, because an answer whose headers
  cannot be written keeps its status (`Response.status_headersOnly`);
* it pulls a manifest, which is only kept when all that can fail is over.
-/

namespace ImageRegistry

/-! ### The status of an answer -/

namespace Http.Response

variable (r : Response)

@[simp] theorem status_withHeader (name value : String) :
    (r.withHeader name value).status = r.status := rfl

@[simp] theorem status_withOptional (name : String) (value : Option String) :
    (r.withOptional name value).status = r.status := by
  cases value with
  | none => rfl
  | some value =>
    rw [withOptional]
    split <;> rfl

/-- Whether or not its headers can be written, a response has the status that it is made with. -/
@[simp] theorem status_headersOnly (status : Status) (headers : List (String × String)) :
    (headersOnly status headers).status = status := by
  have hfold (r : Response) :
      (headers.foldl (fun r h ↦ r.withHeader h.1 h.2) r).status = r.status := by
    induction headers generalizing r with
    | nil => rfl
    | cons h rest ih => exact ih (r.withHeader h.1 h.2)
  rw [headersOnly]
  split
  · exact hfold (empty status)
  · rfl

@[simp] theorem status_answering (method : Method) : (r.answering method).status = r.status := by
  have hlength : r.withLength.status = r.status := by
    rw [withLength]
    split <;> rfl
  rw [answering]
  split
  · exact hlength
  · exact hlength

@[simp] theorem status_stamped : r.stamped.status = r.status := rfl

/-- The status tells of no error. -/
def Granted : Prop := r.status.isError = false

theorem granted_of_isSuccess {r : Response} (h : r.status.isSuccess = true) : r.Granted := by
  rw [Status.isSuccess, Bool.and_eq_true, decide_eq_true_iff, decide_eq_true_iff] at h
  exact decide_eq_false (by omega)

end Http.Response

namespace Server

open ImageRegistry.Action Http

variable {ε α : Type}

/-- What a registry stores. -/
def stored (s : Server) : Blob.Store × Manifest.Store := (s.registry.blobs, s.registry.manifests)

/-! ### What only looks -/

theorem keeps_onLinks (act : Action Link.Setting ε α) : Keeps stored (onLinks act) :=
  keeps_within act fun _ _ ↦ rfl

theorem keeps_onWorld (act : Action World ε α) : Keeps stored (onWorld act) :=
  keeps_within act fun _ _ ↦ rfl

theorem keeps_locate (repository reference : String) : Keeps stored (locate repository reference) :=
  keeps_bind (keeps_reading _ _) fun _ ↦ keeps_onLinks _

theorem keeps_resolve (repository reference : String) :
    Keeps stored (resolve repository reference) :=
  keeps_bind (keeps_reading _ _) fun _ ↦ keeps_onWorld _

theorem keeps_fetch (method : Method) (identifier path : String) :
    Keeps stored (fetch method identifier path) :=
  keeps_bind (keeps_reading _ _) fun _ ↦ keeps_onWorld _

theorem keeps_get (identifier path : String) : Keeps stored (get identifier path) :=
  keeps_bind (keeps_reading _ _) fun _ ↦ keeps_onWorld _

theorem keeps_addLinks (repository identifier : String) (references : List String) :
    Keeps stored (addLinks repository identifier references : Action Server ε Unit) :=
  (composes_keeps stored).addLinks fun _ _ ↦ keeps_onLinks _

theorem keeps_obtain (repository reference : String) :
    Keeps stored (obtain repository reference) :=
  (composes_keeps stored).obtain (keeps_locate repository reference) keeps_get

/-! ### What changes something -/

/-- A step on the blobs changes what is stored only if it succeeds. -/
theorem keepsUnless_onBlobStep {step : Step Blob.Store RegistryError α} (h : step.Atomic) :
    KeepsUnless (fun _ ↦ True) stored (onBlobStep step) :=
  keepsUnless_within (keepsUnless_ofStep h) fun _ ↦ rfl

/-- A step on the manifests changes what is stored only if it succeeds. -/
theorem keepsUnless_onManifestStep {step : Step Manifest.Store RegistryError α} (h : step.Atomic) :
    KeepsUnless (fun _ ↦ True) stored (onManifestStep step) :=
  keepsUnless_within (keepsUnless_ofStep h) fun _ ↦ rfl

/-- A manifest is kept only at the end of a pull, when nothing can fail any more. -/
theorem keepsUnless_pull (repository reference : String) :
    KeepsUnless (fun _ ↦ True) stored (pull repository reference) := by
  -- Whether or not links are added first, the change comes last.
  have hkeep (manifest : Manifest) : KeepsUnless (fun _ ↦ True) stored
      (keep repository reference manifest >>= fun _ ↦
        (pure manifest : Action Server RegistryError Manifest)) :=
    keepsUnless_map (keepsUnless_change _ _) fun _ _ ↦ trivial
  refine keepsUnless_bind (keeps_obtain repository reference) fun manifest ↦ ?_
  cases manifest.origin with
  | none => exact hkeep manifest
  | some identifier =>
    exact keepsUnless_bind (keeps_addLinks repository identifier _) fun _ ↦ hkeep manifest

/-! ### Requests for blobs -/

theorem granted_blobCreated (repository digest : String) :
    (blobCreated repository digest).Granted := by
  rw [Response.Granted, blobCreated, storedAt, Response.status_headersOnly]
  rfl

theorem granted_uploadProgress {status : Status} (h : status.isError = false)
    (repository id : String) (length : Nat) :
    (uploadProgress status repository id length).Granted := by
  rw [Response.Granted, uploadProgress, Response.status_headersOnly, h]

theorem keeps_serveBlob (method : Method) (repository digest : String) :
    Keeps stored (serveBlob method repository digest) :=
  (composes_keeps stored).serveBlob (keeps_locate repository digest) keeps_fetch method

theorem keepsUnless_beginUpload (repository : String) (digest : Option String) (body : ByteArray) :
    KeepsUnless Response.Granted stored (beginUpload repository digest body) := by
  cases digest with
  | some expected =>
    exact keepsUnless_map (keepsUnless_onBlobStep (Blob.atomic_commit repository expected body))
      fun digest _ ↦ granted_blobCreated repository digest
  | none =>
    refine keepsUnless_of_keeps (keeps_bind (keeps_onWorld _) fun id ↦ ?_)
    exact keeps_pure _ _

theorem keepsUnless_appendUpload (repository id : String) (headers : Headers) (body : ByteArray) :
    KeepsUnless Response.Granted stored (appendUpload repository id headers body) := by
  refine keepsUnless_bind (keeps_ofExcept _ _ _) fun range ↦ ?_
  refine keepsUnless_bind (keeps_reading _ _) fun now ↦ ?_
  exact keepsUnless_map (keepsUnless_onBlobStep (Blob.atomic_append now repository id range body))
    fun length _ ↦ granted_uploadProgress rfl repository id length

theorem keepsUnless_finishUpload (repository id : String) (digest : Option String)
    (body : ByteArray) :
    KeepsUnless Response.Granted stored (finishUpload repository id digest body) := by
  cases digest with
  | none => exact keepsUnless_of_keeps (keeps_fail _ _)
  | some expected =>
    exact keepsUnless_map
      (keepsUnless_onBlobStep (Blob.atomic_finalize repository id expected body))
      fun digest _ ↦ granted_blobCreated repository digest

theorem keepsUnless_uploadStatus (repository id : String) :
    KeepsUnless Response.Granted stored (uploadStatus repository id) :=
  keepsUnless_map (keepsUnless_onBlobStep (Blob.atomic_status repository id))
    fun length _ ↦ granted_uploadProgress rfl repository id length

theorem keepsUnless_cancelUpload (repository id : String) :
    KeepsUnless Response.Granted stored (cancelUpload repository id) :=
  keepsUnless_map (keepsUnless_onBlobStep (Blob.atomic_cancel repository id)) fun _ _ ↦ rfl

/-! ### Requests for manifests -/

@[simp] theorem status_manifestResponse (method : Method) (manifest : Manifest) :
    (manifestResponse method manifest).status = .ok := by
  rw [manifestResponse]
  simp only [Response.status_withOptional, Response.status_withHeader]
  rfl

theorem granted_manifestResponse (method : Method) (manifest : Manifest) :
    (manifestResponse method manifest).Granted := by
  rw [Response.Granted, status_manifestResponse]
  rfl

theorem keepsUnless_serveManifest (method : Method) (repository reference : String) :
    KeepsUnless Response.Granted stored (serveManifest method repository reference) := by
  refine keepsUnless_bind (keeps_reading _ _) fun found ↦ ?_
  cases found with
  | some manifest => exact keepsUnless_of_keeps (keeps_pure _ _)
  | none =>
    exact keepsUnless_map (keepsUnless_pull repository reference)
      fun manifest _ ↦ granted_manifestResponse method manifest

theorem keepsUnless_storeManifest (repository reference : String) (headers : Headers)
    (body : ByteArray) :
    KeepsUnless Response.Granted stored (storeManifest repository reference headers body) := by
  refine keepsUnless_map
    (keepsUnless_onManifestStep (Manifest.atomic_push repository reference _ body))
    fun manifest _ ↦ ?_
  rw [Response.Granted, storedAt, Response.status_headersOnly]
  rfl

/-! ### Any request -/

theorem keepsUnless_perform (method : Method) (route : Route) (digest : Option String)
    (headers : Headers) (body : ByteArray) :
    KeepsUnless Response.Granted stored (perform method route digest headers body) := by
  refine keepsUnless_bind (keeps_ofExcept _ _ _) fun _ ↦ ?_
  -- Under each path a method with no meaning is refused before anything is done.
  cases route with
  | manifest repository reference =>
    refine keepsUnless_bind (keeps_ofExcept _ _ _) fun _ ↦ ?_
    cases method with
    | get | head => exact keepsUnless_serveManifest _ repository reference
    | put => exact keepsUnless_storeManifest repository reference headers body
    | post | patch | delete | other name => exact keepsUnless_of_keeps (keeps_fail _ _)
  | blob repository blob =>
    refine keepsUnless_bind (keeps_ofExcept _ _ _) fun _ ↦ ?_
    cases method with
    | get | head => exact keepsUnless_of_keeps (keeps_serveBlob _ repository blob)
    | put | post | patch | delete | other name => exact keepsUnless_of_keeps (keeps_fail _ _)
  | uploads repository =>
    cases method with
    | post => exact keepsUnless_beginUpload repository digest body
    | get | head | put | patch | delete | other name =>
      exact keepsUnless_of_keeps (keeps_fail _ _)
  | upload repository id =>
    cases method with
    | patch => exact keepsUnless_appendUpload repository id headers body
    | put => exact keepsUnless_finishUpload repository id digest body
    | get => exact keepsUnless_uploadStatus repository id
    | delete => exact keepsUnless_cancelUpload repository id
    | head | post | other name => exact keepsUnless_of_keeps (keeps_fail _ _)

theorem keepsUnless_dispatch (method : Method) (path : String) (digest : Option String)
    (headers : Headers) (body : ByteArray) :
    KeepsUnless Response.Granted stored (dispatch method path digest headers body) := by
  rw [dispatch]
  split
  · exact keepsUnless_perform method _ digest headers body
  · exact keepsUnless_of_keeps (keeps_fail _ _)

theorem keeps_dig (query : Query.Dig) : Keeps stored (dig query) :=
  (composes_keeps stored).dig keeps_resolve keeps_get query

/-- An answer that tells of an error is not granted. -/
theorem keepsUnless_answer {act : Action Server RegistryError Response}
    (h : KeepsUnless Response.Granted stored act) :
    KeepsUnless Response.Granted stored (answer act) := by
  refine keepsUnless_bind_of_granted (keepsUnless_attempt h) (fun result ↦ ?_)
    fun result hresult s ↦ ?_
  · cases result with
    | ok response => exact keeps_pure _ _
    | error error => exact keeps_pure _ _
  · obtain ⟨response, rfl, hgranted⟩ := hresult
    exact ⟨response, rfl, hgranted⟩

theorem keepsUnless_serveRegistry (request : Request) (path : List Char) :
    KeepsUnless Response.Granted stored (serveRegistry request path) := by
  rw [serveRegistry]
  split
  · exact keepsUnless_of_keeps (keeps_pure _ _)
  · split
    · exact keepsUnless_of_keeps (keeps_pure _ _)
    · refine keepsUnless_bind (keeps_reading _ _) fun registry ↦ ?_
      split
      · exact keepsUnless_of_keeps (keeps_pure _ _)
      · exact keepsUnless_answer (keepsUnless_dispatch _ _ _ _ _)

theorem keepsUnless_serveDig (request : Request) :
    KeepsUnless Response.Granted stored (serveDig request) := by
  rw [serveDig]
  split
  · exact keepsUnless_of_keeps (keeps_pure _ _)
  · exact keepsUnless_answer (keepsUnless_of_keeps (keeps_dig _))

theorem keepsUnless_serve (request : Request) :
    KeepsUnless Response.Granted stored (serve request) := by
  have hanswering {r : Response} (hr : r.Granted) : (r.answering request.method).Granted := by
    rwa [Response.Granted, Response.status_answering]
  rw [serve]
  split
  · exact keepsUnless_of_keeps (keeps_pure _ _)
  · split
    · split
      · exact keepsUnless_map (keepsUnless_serveDig request) fun _ ↦ hanswering
      · exact keepsUnless_of_keeps (keeps_pure _ _)
    · split
      · exact keepsUnless_map (keepsUnless_serveRegistry request _) fun _ ↦ hanswering
      · exact keepsUnless_of_keeps (keeps_pure _ _)

/-- Whatever is asked of whatever server, an answer that tells of an error leaves the blobs, the
layers, the uploads and the manifests as they were. -/
theorem stored_of_isError {request : Request} {s t : Server} {response : Response}
    (h : (handle request).run s = (.done response, t)) (herror : 400 ≤ response.status.code) :
    t.registry.blobs = s.registry.blobs ∧ t.registry.manifests = s.registry.manifests := by
  have hhandle : KeepsUnless Response.Granted stored (handle request) :=
    keepsUnless_map (keepsUnless_serve request) fun _ hr ↦ hr
  have hs := hhandle s
  rw [h] at hs
  rcases hs with hkept | ⟨value, hvalue, hgranted⟩
  · exact ⟨congrArg Prod.fst hkept, congrArg Prod.snd hkept⟩
  · cases hvalue
    have hcode : response.status.isError = true := decide_eq_true herror
    rw [Response.Granted, hcode] at hgranted
    cases hgranted

/-- A part that leaves a gap behind the three bytes that are there. -/
theorem stored_of_isError_gap :
    let blobs : Blob.Store := (∅ : Blob.Store).putSession "u" ⟨"library", ⟨#[1, 2, 3]⟩, 0⟩
    let s : Server :=
      ⟨⟨blobs, ∅, .empty none, [], ⟨defaultGateway, 0⟩, none⟩,
        ⟨⟨∅⟩, ⟨fun _ ↦ .stalled, []⟩, [], 7, fun _ ↦ "fresh", 0⟩⟩
    let request : Request := ⟨.patch, ⟨none, none, "/v2/library/blobs/uploads/u", none⟩,
      [("content-range", "5-7".toUTF8)], ⟨#[4, 5, 6]⟩⟩
    ∃ response t, (handle request).run s = (.done response, t) ∧ response.status.code = 416 ∧
      t.registry.blobs = s.registry.blobs ∧ t.registry.manifests = s.registry.manifests := by
  intro blobs s request
  have hstatus : (match ((handle request).run s).1 with
      | .done response => response.status.code
      | _ => 0) = 416 := by decide +kernel +revert
  rcases hrun : (handle request).run s with ⟨response | error | _, t⟩
  · rw [hrun] at hstatus
    have hcode : response.status.code = 416 := hstatus
    have herror : 400 ≤ response.status.code := by omega
    exact ⟨response, t, rfl, hcode, stored_of_isError hrun herror⟩
  · cases error
  · rw [hrun] at hstatus
    cases hstatus

end Server

end ImageRegistry
