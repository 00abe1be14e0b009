import ImageRegistry.Proofs.Blob.Range
import ImageRegistry.Proofs.Blob.Tiling
import ImageRegistry.Proofs.Registry.Run

/-!
# Uploads that are gone on with

An answer about an upload tells of the range of the bytes that are there, `0-4` for five of them.
The range of the next part has to begin at the number after that, and to end with the part. So a
client can go on from what it was told, as long as what is told is read back as it was meant, and as
what was told last is still true: an upload is changed by its parts alone (`session_take`), and each
part that is granted is answered with the range of what is there after it (`patched`). So the answer
to the last part is still true at the end of a run (`exists_lastAppends`), and a request for the
status is told the same (`resumes_of_run`).

The range of an upload without bytes reads `0-0`, as that of an upload with one byte does, so
nothing is said of it here.
-/

namespace ImageRegistry

open ImageRegistry.Action Http

/-! ### Ranges that are told -/

theorem Http.isHeaderValue_append (a b : String) :
    isHeaderValue (a ++ b) = (isHeaderValue a && isHeaderValue b) := by
  rw [isHeaderValue, String.toList_append, List.all_append, isHeaderValue, isHeaderValue]

namespace Blob

theorem rangeText_eq_plainText (length : Nat) : rangeText length = plainText (0, length - 1) := by
  have hstart : toString 0 ++ "-" = "0-" := by decide
  rw [rangeText, plainText, hstart]

/-- The range of the first so many bytes reads back. -/
theorem parseRange_rangeText {length : Nat} (h : length ≤ Text.wordBound) :
    parseRange (rangeText length) = .ok (0, length - 1) := by
  have hbound : 0 < Text.wordBound := by decide
  have hmem : rangeText length ∈ spellings (0, length - 1) "" := by
    rw [rangeText_eq_plainText]
    exact List.mem_cons_self
  exact parseRange_of_mem_spellings (Nat.zero_le _) (by simp only; omega) hmem

theorem isHeaderValue_rangeText (length : Nat) : isHeaderValue (rangeText length) = true := by
  have hstart : isHeaderValue "0-" = true := by decide
  have hlast : isHeaderValue (toString (length - 1)) = true := by
    rw [isHeaderValue, List.all_eq_true, Text.toList_toString]
    intro c hc
    have hdigit := Text.toNat_of_isDigit (Text.isDigit_of_mem_digits hc)
    simp only [Bool.or_eq_true, Bool.and_eq_true, decide_eq_true_eq]
    exact Or.inr ⟨by omega, by omega⟩
  rw [rangeText, isHeaderValue_append, hstart, hlast, Bool.and_self]

namespace Store

variable {s : Store} {id : String} {session : Session}

/-- An upload that is there goes on with a part if the check of its range says so. -/
theorem append_of_found (found : s.sessions.get? id = some session) (now : Nat) (range : Range)
    (chunk : ByteArray) :
    s.append now session.repository id (some range) chunk =
      (checkRange id session.buffer.size range chunk).map fun _ ↦
        ((session.buffer ++ chunk).size,
          s.putSession id ⟨session.repository, session.buffer ++ chunk, now⟩) := by
  have hcontains : s.sessions.contains id = true := Table.contains_eq_true_iff.2 ⟨session, found⟩
  rw [append, Blob.append, Step.result_get_bind, if_pos hcontains, Blob.extend,
    Step.result_get_bind, session_eq_ok_iff.2 ⟨found, rfl⟩]
  simp only [Step.result_ofExcept_bind, Step.result_modify_bind, Step.result_pure]
  show (checkRange id session.buffer.size range chunk >>= fun _ ↦ _) = _
  cases checkRange id session.buffer.size range chunk <;> rfl

/-- After a part the upload belongs to the repository that it came from, and as many bytes are there
as the answer says. -/
theorem held_of_append {t : Store} {now length : Nat} {repository : String} {range : Option Range}
    {chunk : ByteArray} (h : s.append now repository id range chunk = .ok (length, t))
    (hget : t.sessions.get? id = some session) :
    session.repository = repository ∧ session.buffer.size = length := by
  rcases append_eq_ok_iff.1 h with ⟨-, -, rfl, rfl⟩ | ⟨old, r, -, -, -, -, rfl, rfl⟩
  · rw [get?_putSession_self] at hget
    cases hget
    exact ⟨rfl, rfl⟩
  · rw [get?_putSession_self] at hget
    cases hget
    exact ⟨rfl, rfl⟩

/-- A call other than an append to an upload does not bring it into being and does not change it. -/
theorem found_of_take {e : Event}
    (hnone : ∀ repository range chunk, e.call ≠ .append repository id range chunk)
    (h : (s.take e).2.sessions.get? id = some session) : s.sessions.get? id = some session := by
  refine found_of_take_of_write? ?_ h
  rw [Option.eq_none_iff_forall_ne_some]
  intro w hwrite
  obtain ⟨rfl, -⟩ := write?_eq_some_iff.1 hwrite
  exact hnone w.repository w.range w.chunk rfl

end Store

end Blob

/-- An answer tells how much of an upload is there: it tells of success, and this is its range. -/
structure Http.Response.Tells (response : Response) (text : String) : Prop where
  status : response.status = .noContent
  range : response.headers.get? "range" = some text

namespace Server

variable {s t : Server} {repository id : String} {request : Request}

/-- What is told of an upload has a range if its repository and its identifier can stand in a
header. -/
theorem tells_uploadProgress (method : Method) (hrepository : isHeaderValue repository = true)
    (hid : isHeaderValue id = true) (length : Nat) :
    ((uploadProgress .noContent repository id length).answering method).stamped.Tells
      (Blob.rangeText length) := by
  have hpath : isHeaderValue (uploadPath repository id) = true := by
    have hlead : isHeaderValue "/v2/" = true := by decide
    have hmiddle : isHeaderValue "/blobs/uploads/" = true := by decide
    simp only [uploadPath, isHeaderValue_append, hlead, hmiddle, hrepository, hid, Bool.and_self]
  have hrange := Blob.isHeaderValue_rangeText length
  refine ⟨?_, ?_⟩
  · rw [Response.status_stamped, Response.status_answering, uploadProgress,
      Response.status_headersOnly]
  · rw [Response.get?_headers_finished _ _ (by decide) (by decide), uploadProgress,
      Response.headersOnly, if_pos (by simp [hpath, hrange, hid]; decide)]
    simp [Response.get?_headers_withHeader]

/-! ### Requests for an upload -/

section Requests

variable {headers : Headers} {body : ByteArray} {range : Option Blob.Range} {length : Nat}
  {blobs : Blob.Store} {error : RegistryError}

theorem run_onBlobStep_of_ok {α : Type} {step : Step Blob.Store RegistryError α} {value : α}
    (h : step.result s.registry.blobs = .ok (value, blobs)) :
    (onBlobStep step).run s = (.done value, s.withBlobs blobs) := by
  rw [onBlobStep, run_within, run_ofStep_of_ok (Step.result_eq_ok_iff.1 h)]

theorem run_onBlobStep_of_error {α : Type} {step : Step Blob.Store RegistryError α}
    (hatomic : step.Atomic) (h : step.result s.registry.blobs = .error error) :
    (onBlobStep step).run s = (.failed error, s) := by
  have hon : step.on s.registry.blobs = (.error error, s.registry.blobs) := by
    rw [← Step.ofResult_result hatomic, Step.on_ofResult, h]
  rw [onBlobStep, run_within, run_ofStep_of_error hon]
  rfl

/-- With a range in order, or none, what is done is the step on the blobs. -/
theorem run_appendUpload (hrange : givenRange headers = .ok range) (s : Server) :
    (appendUpload repository id headers body).run s =
      (onBlobStep (Blob.append s.world.clock repository id range body) >>= fun length ↦
        (pure (uploadProgress .noContent repository id length) :
          Action Server RegistryError Response)).run s := by
  rw [appendUpload, hrange, run_bind, run_ofExcept_ok]
  dsimp only
  rw [run_bind, run_reading]

theorem run_appendUpload_of_ok (hrange : givenRange headers = .ok range)
    (h : s.registry.blobs.append s.world.clock repository id range body = .ok (length, blobs)) :
    (appendUpload repository id headers body).run s =
      (.done (uploadProgress .noContent repository id length), s.withBlobs blobs) := by
  rw [run_appendUpload hrange]
  exact run_bind_eq_done.2 ⟨length, _, run_onBlobStep_of_ok h, rfl⟩

theorem run_appendUpload_of_error (hrange : givenRange headers = .ok range)
    (h : s.registry.blobs.append s.world.clock repository id range body = .error error) :
    (appendUpload repository id headers body).run s = (.failed error, s) := by
  rw [run_appendUpload hrange, run_bind,
    run_onBlobStep_of_error (Blob.atomic_append _ _ _ _ _) h]

theorem run_uploadStatus_of_ok
    (h : (Blob.status repository id).result s.registry.blobs = .ok (length, s.registry.blobs)) :
    (uploadStatus repository id).run s =
      (.done (uploadProgress .noContent repository id length), s) :=
  run_bind_eq_done.2 ⟨length, _, run_onBlobStep_of_ok h, rfl⟩

variable {digest : Option String}

theorem run_perform_patch (h : Route.checkRepository repository = .ok ()) (s : Server) :
    (perform .patch (.upload repository id) digest headers body).run s =
      (appendUpload repository id headers body).run s := by
  show (ofExcept (fun e ↦ e) (Route.checkRepository repository) >>= fun _ ↦
    appendUpload repository id headers body).run s = _
  rw [h]
  rfl

theorem run_perform_status (h : Route.checkRepository repository = .ok ()) (s : Server) :
    (perform .get (.upload repository id) digest headers body).run s =
      (uploadStatus repository id).run s := by
  show (ofExcept (fun e ↦ e) (Route.checkRepository repository) >>= fun _ ↦
    uploadStatus repository id).run s = _
  rw [h]
  rfl

/-- A request that brings a part is refused, or its part is appended and what is there is told. -/
theorem patched (hpatch : request.method = .patch)
    (haddressed : addressed? request = some (.upload repository id)) (s : Server) :
    (∃ response, (handle request).run s = (.done response, s) ∧
      response.status.isError = true) ∨
    ∃ range length blobs, Route.checkRepository repository = .ok () ∧
      s.registry.blobs.append s.world.clock repository id range request.body = .ok (length, blobs) ∧
      (handle request).run s =
        (.done ((uploadProgress .noContent repository id length).answering request.method).stamped,
          s.withBlobs blobs) := by
  have hhandled := handled request s
  generalize (handle request).run s = result at hhandled ⊢
  cases hhandled with
  | told response refused => exact Or.inl ⟨response, rfl, refused (by simp [haddressed])⟩
  | dug query nowhere => cases haddressed.symm.trans nowhere
  | performed route digest addressed =>
    obtain rfl : Route.upload repository id = route :=
      Option.some.inj (haddressed.symm.trans addressed)
    generalize hresult : (perform request.method (.upload repository id) digest request.headers
      request.body).run s = result
    -- Whatever is wrong is told, and nothing was done before it.
    have hrefused {error : RegistryError} (h : result = (.failed error, s)) :
        ∃ response, ended request.method result = (.done response, s) ∧
          response.status.isError = true := by
      refine ⟨_, congrArg (ended request.method) h, ?_⟩
      rw [Response.status_stamped, Response.status_answering]
      exact error.isError_status
    cases hrepository : Route.checkRepository repository with
    | error error =>
      exact Or.inl (hrefused (hresult.symm.trans (run_perform_of_unchecked _ hrepository)))
    | ok =>
      rw [hpatch, run_perform_patch hrepository] at hresult
      cases hrange : givenRange request.headers with
      | error error =>
        have hrun : (appendUpload repository id request.headers request.body).run s =
            (.failed error, s) := by
          rw [appendUpload, hrange]
          rfl
        exact Or.inl (hrefused (hresult.symm.trans hrun))
      | ok range =>
        cases happend : s.registry.blobs.append s.world.clock repository id range request.body with
        | error error =>
          exact Or.inl (hrefused (hresult.symm.trans (run_appendUpload_of_error hrange happend)))
        | ok value =>
          obtain ⟨length, blobs⟩ := value
          rw [run_appendUpload_of_ok hrange happend] at hresult
          exact Or.inr ⟨range, length, blobs, rfl, happend, hresult ▸ rfl⟩

end Requests

/-! ### The last part of an upload -/

/-- A part goes straight to the blob store, to the upload of an identifier, and no client is
told. -/
def Event.Bypasses (id : String) : Event → Prop
  | .blobs call => ∃ repository range chunk, call.call = .append repository id range chunk
  | .request _ | .world _ => False

/-- A request brings a part of an upload, and its answer tells of success. -/
structure Appends (s : Server) (request : Request) (repository id : String) (response : Response) :
    Prop where
  patch : request.method = .patch
  addressed : addressed? request = some (.upload repository id)
  answered : ((handle request).run s).1 = .done response
  success : response.status.isSuccess = true

/-- The answer to the last part of an upload that was granted in a run. -/
def LastAppends (s : Server) (events : List Event) (repository id : String)
    (response : Response) : Prop :=
  ∃ before request after, events = before ++ .request request :: after ∧
    (s.run before).Appends request repository id response ∧
      ∀ between later rest, after = between ++ .request later :: rest → ∀ other,
        ¬ (s.run (before ++ .request request :: between)).Appends later repository id other

variable {events : List Event} {e : Event} {response : Response} {session : Blob.Session}

theorem lastAppends_concat_of_appends (h : (s.run events).Appends request repository id response) :
    s.LastAppends (events ++ [.request request]) repository id response :=
  ⟨events, request, [], rfl, h, fun _ _ _ heq ↦ by simp at heq⟩

/-- What was the last part is still the last one after an event that brings none. -/
theorem lastAppends_concat (h : s.LastAppends events repository id response)
    (hnone : ∀ request, e = .request request → ∀ other,
      ¬ (s.run events).Appends request repository id other) :
    s.LastAppends (events ++ [e]) repository id response := by
  obtain ⟨before, request, after, rfl, happends, hlast⟩ := h
  refine ⟨before, request, after ++ [e], by simp, happends, ?_⟩
  intro between later rest heq other
  rcases List.eq_nil_or_concat rest with rfl | ⟨front, last, rfl⟩
  · obtain ⟨rfl, hevent⟩ := List.append_inj' heq rfl
    exact hnone later (List.singleton_inj.1 hevent) other
  · rw [List.concat_eq_append, ← List.cons_append, ← List.append_assoc] at heq
    exact hlast between later front (List.append_inj' heq rfl).1 other

/-- A request that brings no part of an upload does not bring it into being and does not change
it. -/
theorem found_of_request (hnone : request.method = .patch →
      ∀ repository, addressed? request ≠ some (.upload repository id))
    (hfound : ((handle request).run s).2.registry.blobs.sessions.get? id = some session) :
    s.registry.blobs.sessions.get? id = some session := by
  have hkept {t : Server} (h : (stored t).1 = (stored s).1)
      (hfound : t.registry.blobs.sessions.get? id = some session) :
      s.registry.blobs.sessions.get? id = some session := by
    have hsame : t.registry.blobs = s.registry.blobs := h
    rwa [hsame] at hfound
  have hhandled := handled request s
  generalize (handle request).run s = result at hhandled hfound
  cases hhandled with
  | told => exact hfound
  | dug query nowhere =>
    rw [ended_snd] at hfound
    exact hkept (congrArg Prod.fst (keeps_dig query s)) hfound
  | performed route digest addressed =>
    rw [ended_snd] at hfound
    have hperformed := performed request route digest s
    generalize (perform request.method route digest request.headers request.body).run s = done
      at hperformed hfound
    cases hperformed with
    | refused | drew | pushed => exact hfound
    | called _ call calls =>
      refine Blob.Store.found_of_take (fun other range chunk heq ↦ ?_) hfound
      cases calls with
      | commit | finalize | status | cancel => cases heq
      | append repository target range patch =>
        cases heq
        exact hnone patch _ addressed
    | manifest repository reference read =>
      refine hkept ?_ hfound
      rcases stored_serveManifest request.method repository reference s with
        hsame | ⟨-, identifier, body, -, hstored⟩
      · rw [hsame]
      · rw [hstored]
        rfl
    | blob repository digest read =>
      exact hkept (congrArg Prod.fst (keeps_serveBlob _ repository digest s)) hfound

/-- An upload that is there after a request was there before it as it is, and the request was no
part of it that was granted; or it was a part of it, and its answer tells of what is there. -/
theorem session_request
    (hfound : ((handle request).run s).2.registry.blobs.sessions.get? id = some session) :
    (s.registry.blobs.sessions.get? id = some session ∧
      ∀ response, ¬ s.Appends request session.repository id response) ∨
    ∃ response, s.Appends request session.repository id response ∧
      Route.checkRepository session.repository = .ok () ∧
        response = ((uploadProgress .noContent session.repository id
          session.buffer.size).answering request.method).stamped := by
  by_cases hpart : request.method = .patch ∧
    ∃ repository, addressed? request = some (.upload repository id)
  · obtain ⟨hpatch, repository, haddressed⟩ := hpart
    rcases patched hpatch haddressed s with ⟨refusal, hrun, herror⟩ |
      ⟨range, length, blobs, hrepository, happend, hrun⟩
    · rw [hrun] at hfound
      refine Or.inl ⟨hfound, fun response happends ↦ ?_⟩
      -- What tells of success tells of no error.
      obtain rfl : refusal = response :=
        Outcome.done.inj ((congrArg Prod.fst hrun).symm.trans happends.answered)
      rw [Response.granted_of_isSuccess happends.success] at herror
      cases herror
    · rw [hrun] at hfound
      obtain ⟨rfl, rfl⟩ := Blob.Store.held_of_append happend hfound
      refine Or.inr ⟨_, ⟨hpatch, haddressed, congrArg Prod.fst hrun, ?_⟩, hrepository, rfl⟩
      rw [Response.status_stamped, Response.status_answering, uploadProgress,
        Response.status_headersOnly]
      rfl
  · refine Or.inl ⟨found_of_request (fun hpatch repository haddressed ↦
      hpart ⟨hpatch, repository, haddressed⟩) hfound, fun response happends ↦ ?_⟩
    exact hpart ⟨happends.patch, _, happends.addressed⟩

/-- So it is with every event that does not go past the requests. -/
theorem session_take (hbypass : ¬ e.Bypasses id)
    (hfound : (s.take e).registry.blobs.sessions.get? id = some session) :
    (s.registry.blobs.sessions.get? id = some session ∧ ∀ request, e = .request request →
      ∀ response, ¬ s.Appends request session.repository id response) ∨
    ∃ request response, e = .request request ∧
      s.Appends request session.repository id response ∧
        Route.checkRepository session.repository = .ok () ∧
          response = ((uploadProgress .noContent session.repository id
            session.buffer.size).answering request.method).stamped := by
  cases e with
  | world world => exact Or.inl ⟨hfound, fun _ heq ↦ by cases heq⟩
  | blobs call =>
    refine Or.inl ⟨Blob.Store.found_of_take (fun repository range chunk heq ↦ ?_) hfound,
      fun _ heq ↦ by cases heq⟩
    exact hbypass ⟨repository, range, chunk, heq⟩
  | request request =>
    rcases session_request hfound with ⟨hbefore, hnone⟩ | ⟨response, happends⟩
    · refine Or.inl ⟨hbefore, ?_⟩
      rintro _ ⟨⟩
      exact hnone
    · exact Or.inr ⟨request, response, rfl, happends⟩

/-- An upload that is there at the end of a run has had a part, and the answer to the last one tells
of what is there. The induction is on the events from the last one backwards. -/
theorem exists_lastAppends (plan : Settings.Plan) (world : World)
    (hbypass : ∀ e ∈ events, ¬ e.Bypasses id)
    (hfound : ((start plan world).run events).registry.blobs.sessions.get? id = some session) :
    Route.checkRepository session.repository = .ok () ∧
      ∃ response, (start plan world).LastAppends events session.repository id response ∧
        (isHeaderValue session.repository = true → isHeaderValue id = true →
          response.Tells (Blob.rangeText session.buffer.size)) := by
  induction events using List.reverseRecOn with
  | nil => cases hfound
  | append_singleton events e ih =>
    rw [run_concat] at hfound
    rcases session_take (hbypass e (by simp)) hfound with
      ⟨hbefore, hnone⟩ | ⟨request, response, rfl, happends, hrepository, rfl⟩
    · obtain ⟨hrepository, response, hlast, htells⟩ :=
        ih (fun e he ↦ hbypass e (List.mem_append_left _ he)) hbefore
      exact ⟨hrepository, response, lastAppends_concat hlast hnone, htells⟩
    · exact ⟨hrepository, _, lastAppends_concat_of_appends happends, fun hrepository hid ↦
        tells_uploadProgress _ hrepository hid _⟩

/-! ### Going on -/

section GoingOn

variable {text : String} {range : Blob.Range} {error : RegistryError}

/-- A request brings a part of an upload with a range, and nothing stands in its way. -/
structure Brings (s : Server) (request : Request) (repository id text : String) : Prop where
  patch : request.method = .patch
  addressed : addressed? request = some (.upload repository id)
  unhindered : s.Unhindered request
  range : request.headers.text? "content-range" = some text

theorem givenRange_of_text {headers : Headers} (h : headers.text? "content-range" = some text)
    (hrange : Blob.parseRange text = .ok range) : givenRange headers = .ok (some range) := by
  obtain ⟨value, hvalue, htext⟩ := Option.bind_eq_some_iff.1 h
  rw [givenRange, hvalue]
  dsimp only
  rw [htext]
  dsimp only
  rw [hrange]
  rfl

theorem run_handle_of_status (hfound : s.registry.blobs.sessions.get? id = some session)
    (hrepository : Route.checkRepository session.repository = .ok ())
    (hget : request.method = .get)
    (haddressed : addressed? request = some (.upload session.repository id))
    (hunhindered : s.Unhindered request) :
    (handle request).run s = (.done ((uploadProgress .noContent session.repository id
      session.buffer.size).answering request.method).stamped, s) := by
  obtain ⟨⟨digest, hquery⟩, hlength⟩ := hunhindered
  have htold := Blob.Store.tell_eq_ok_iff.2 ⟨⟨session, hfound, rfl, rfl⟩, rfl⟩
  rw [run_handle_of_addressed haddressed hquery hlength, hget, run_perform_status hrepository,
    run_uploadStatus_of_ok htold, ended]

theorem run_handle_of_brings (h : s.Brings request repository id text)
    (hrepository : Route.checkRepository repository = .ok ()) :
    (handle request).run s = ended request.method
      ((appendUpload repository id request.headers request.body).run s) := by
  obtain ⟨⟨digest, hquery⟩, hlength⟩ := h.unhindered
  rw [run_handle_of_addressed h.addressed hquery hlength, h.patch, run_perform_patch hrepository]

/-- A part whose range lies over it, right after what is there, is appended. -/
theorem run_handle_of_covers (hfound : s.registry.blobs.sessions.get? id = some session)
    (hrepository : Route.checkRepository session.repository = .ok ())
    (h : s.Brings request session.repository id text) (hrange : Blob.parseRange text = .ok range)
    (hcovers : Blob.Covers range session.buffer.size request.body) :
    (handle request).run s =
      (.done ((uploadProgress .noContent session.repository id
        (session.buffer ++ request.body).size).answering request.method).stamped,
      s.withBlobs (s.registry.blobs.putSession id
        ⟨session.repository, session.buffer ++ request.body, s.world.clock⟩)) := by
  have hgiven := givenRange_of_text h.range hrange
  have hcheck : Blob.Store.checkRange id session.buffer.size range request.body = .ok () :=
    Blob.Store.checkRange_eq_ok_iff.2 (Or.inl hcovers)
  have happend := Blob.Store.append_of_found hfound s.world.clock range request.body
  rw [hcheck] at happend
  rw [run_handle_of_brings h hrepository, run_appendUpload_of_ok hgiven happend, ended]

/-- A part whose range does not pass its check is refused, and nothing changes. -/
theorem run_handle_of_checkRange (hfound : s.registry.blobs.sessions.get? id = some session)
    (hrepository : Route.checkRepository session.repository = .ok ())
    (h : s.Brings request session.repository id text) (hrange : Blob.parseRange text = .ok range)
    (herror : Blob.Store.checkRange id session.buffer.size range request.body = .error error) :
    ∃ response, (handle request).run s = (.done response, s) ∧ response.status = error.status := by
  have hgiven := givenRange_of_text h.range hrange
  have happend := Blob.Store.append_of_found hfound s.world.clock range request.body
  rw [herror] at happend
  refine ⟨(error.response.answering request.method).stamped, ?_, ?_⟩
  · rw [run_handle_of_brings h hrepository, run_appendUpload_of_error hgiven happend, ended]
  · rw [Response.status_stamped, Response.status_answering]
    rfl

end GoingOn

/-- A client can go on with an upload from the range that it was told. Whatever has happened to a
registry, if some bytes of an upload are there, no more than 64 bits can count and none of them put
there past the requests, and its repository and its identifier can stand in a header: a request for
its status is answered with a range that reads back as that of these bytes, and so was the last part
that was granted. A part with the range that follows, in any of the usual spellings, is appended,
and what is told then reads back again; a part with another range is refused and nothing changes,
with one status if the range begins elsewhere and with another one if it does not end with the
part. -/
theorem resumes_of_run (plan : Settings.Plan) (world : World) (events : List Event) {id : String}
    {session : Blob.Session} (hbypass : ∀ e ∈ events, ¬ e.Bypasses id)
    (hfound : ((start plan world).run events).registry.blobs.sessions.get? id = some session)
    (hsome : 0 < session.buffer.size) (hsize : session.buffer.size ≤ Text.wordBound)
    (hrepository : isHeaderValue session.repository = true) (hid : isHeaderValue id = true) :
    let s := (start plan world).run events
    let length := session.buffer.size
    (∃ text, Blob.parseRange text = .ok (0, length - 1) ∧
      (∃ response, (start plan world).LastAppends events session.repository id response ∧
        response.Tells text) ∧
      ∀ request, request.method = .get →
        addressed? request = some (.upload session.repository id) → s.Unhindered request →
        ∃ response, (handle request).run s = (.done response, s) ∧ response.Tells text) ∧
    ∀ request text, s.Brings request session.repository id text →
      (∀ total, 0 < request.body.size → length + request.body.size ≤ Text.wordBound →
        text ∈ Blob.spellings (length, length + request.body.size - 1) total →
        ∃ response told t, (handle request).run s = (.done response, t) ∧ response.Tells told ∧
          Blob.parseRange told = .ok (0, length + request.body.size - 1) ∧
          t.registry.blobs.sessions.get? id =
            some ⟨session.repository, session.buffer ++ request.body, s.world.clock⟩) ∧
      ∀ range, Blob.parseRange text = .ok range →
        (range.1 ≠ length → ∃ response, (handle request).run s = (.done response, s) ∧
          response.status = .rangeNotSatisfiable) ∧
        (range.1 = length → range.2 + 1 ≠ length + request.body.size →
          ∃ response, (handle request).run s = (.done response, s) ∧
            response.status = .badRequest) := by
  intro s length
  obtain ⟨hchecked, last, hlast, htells⟩ := exists_lastAppends plan world hbypass hfound
  refine ⟨⟨Blob.rangeText length, Blob.parseRange_rangeText hsize,
    ⟨last, hlast, htells hrepository hid⟩, fun request hget haddressed hunhindered ↦ ?_⟩,
    fun request text hbrings ↦ ⟨fun total hpart hfits htext ↦ ?_, fun range hrange ↦ ⟨?_, ?_⟩⟩⟩
  · exact ⟨_, run_handle_of_status hfound hchecked hget haddressed hunhindered,
      tells_uploadProgress _ hrepository hid _⟩
  · -- The range that follows is written in 64 bits, because its part ends there.
    have hordered : length ≤ length + request.body.size - 1 := by omega
    have hrange := Blob.parseRange_of_mem_spellings hordered (by omega) htext
    have hcovers := Blob.covers_span length hpart
    have hheld : (session.buffer ++ request.body).size = length + request.body.size :=
      ByteArray.size_append
    refine ⟨_, Blob.rangeText (length + request.body.size), _,
      run_handle_of_covers hfound hchecked hbrings hrange hcovers, ?_,
      Blob.parseRange_rangeText hfits, Blob.Store.get?_putSession_self _ id _⟩
    rw [← hheld]
    exact tells_uploadProgress _ hrepository hid _
  · intro hstart
    have herror : Blob.Store.checkRange id length range request.body =
        .error (.rangeNotSatisfiable length range.1) := if_pos hstart
    exact run_handle_of_checkRange hfound hchecked hbrings hrange herror
  · intro hstart hlast
    have herror : Blob.Store.checkRange id length range request.body =
        .error (.uploadInvalid (.rangeMismatch id range.1 range.2 request.body.size)) := by
      rw [Blob.Store.checkRange, if_neg (not_not.2 hstart), Blob.Store.checkLength, if_neg]
      rintro ⟨hordered, hcounted | ⟨rfl, -⟩⟩
      · exact hlast (by omega)
      · -- The greatest range begins at zero, where an upload with bytes does not go on.
        exact absurd hstart (Nat.ne_of_lt hsome)
    exact run_handle_of_checkRange hfound hchecked hbrings hrange herror

/-- An upload that began with five bytes, after which the time went on. Two more are appended with
the range that follows `0-4`, and with other ranges they are refused. -/
theorem resumes_of_run_two_more :
    let plan : Settings.Plan := ⟨defaultGateway, none, [], 0, none, none⟩
    let world : World := ⟨∅, ⟨fun _ ↦ .stalled, []⟩, [], 0, fun _ ↦ "fresh", 0⟩
    let uri : Uri := ⟨none, none, "/v2/library/blobs/uploads/u", none⟩
    let first : Request := ⟨.patch, uri, [], "hello".toUTF8⟩
    let status : Request := ⟨.get, uri, [], ByteArray.empty⟩
    let next (range : String) : Request :=
      ⟨.patch, uri, [("Content-Range", range.toUTF8)], "es".toUTF8⟩
    let s := (start plan world).run [.request first, .world { world with clock := 7 }]
    (∃ text, Blob.parseRange text = .ok (0, 4) ∧
      ∃ response, (handle status).run s = (.done response, s) ∧ response.Tells text) ∧
    (∃ response told t, (handle (next "bytes 5-6/*")).run s = (.done response, t) ∧
      response.Tells told ∧ Blob.parseRange told = .ok (0, 6)) ∧
    (∃ response, (handle (next "4-5")).run s = (.done response, s) ∧
      response.status = .rangeNotSatisfiable) ∧
    ∃ response, (handle (next "5-7")).run s = (.done response, s) ∧
      response.status = .badRequest := by
  intro plan world uri first status next s
  have hfound : s.registry.blobs.sessions.get? "u" = some ⟨"library", "hello".toUTF8, 0⟩ := by
    decide +kernel
  have hbypass : ∀ e ∈ [Event.request first, .world { world with clock := 7 }],
      ¬ e.Bypasses "u" := by
    simp [Event.Bypasses]
  have haddressed : addressed? status = some (.upload "library" "u") := by decide +kernel
  have hlength : isTooLong s.registry "es".toUTF8 = false := by decide +kernel
  have hbrings (range : String) (h : (next range).headers.text? "content-range" = some range) :
      s.Brings (next range) "library" "u" range :=
    ⟨rfl, haddressed, ⟨⟨none, rfl⟩, hlength⟩, h⟩
  obtain ⟨⟨text, htext, -, hstatus⟩, hnext⟩ :=
    resumes_of_run plan world _ hbypass hfound (by decide) (by decide) (by decide) (by decide)
  have hfits := hnext _ _ (hbrings "bytes 5-6/*" (by decide +kernel))
  have helsewhere := hnext _ _ (hbrings "4-5" (by decide +kernel))
  have hlonger := hnext _ _ (hbrings "5-7" (by decide +kernel))
  refine ⟨⟨text, htext, hstatus status rfl haddressed ⟨⟨none, rfl⟩, isTooLong_empty _⟩⟩, ?_,
    (helsewhere.2 (4, 5) (by decide +kernel)).1 (by decide),
    (hlonger.2 (5, 7) (by decide +kernel)).2 (by decide) (by decide)⟩
  obtain ⟨response, told, t, hrun, htells, hread, -⟩ :=
    hfits.1 "*" (by decide) (by decide) (by decide +kernel)
  exact ⟨response, told, t, hrun, htells, hread⟩

end Server

end ImageRegistry
