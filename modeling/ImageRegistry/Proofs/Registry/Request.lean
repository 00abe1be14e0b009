import ImageRegistry.Proofs.Registry.Grammar
import ImageRegistry.Proofs.Registry.Refusal

/-!
# What becomes of a request

Between a request and its handler stand the checks of the path, of the query string and of the
length of the body, and after the handler the answer gets what every answer has. `Handled` says once
what can come of all that, with one case for each way through, and `handled` that every request goes
one of these ways. What is proved of a handler is carried to requests by its cases, and the router
is not opened again.

A request that reads a manifest or a blob is then refused, or it is what serves it
(`run_perform_manifest`, `run_perform_blob`).
-/

namespace ImageRegistry

open Http

/-! ### Headers and bodies of answers -/

namespace Http.Response

variable (r : Response)

theorem get?_headers_withHeader (name value other : String) :
    (r.withHeader name value).headers.get? other =
      if name = other then some value else r.headers.get? other :=
  Table.get?_insert _ _ _ _

/-- A header other than those that every answer gets is the one that the answer was made with. -/
theorem get?_headers_finished (method : Method) {name : String} (hlength : name ≠ "content-length")
    (hversion : name ≠ "docker-distribution-api-version") :
    (r.answering method).stamped.headers.get? name = r.headers.get? name := by
  have hwithLength : r.withLength.headers.get? name = r.headers.get? name := by
    rw [withLength]
    split
    · rfl
    · rw [get?_headers_withHeader, if_neg hlength.symm]
  rw [stamped, get?_headers_withHeader, if_neg hversion.symm, answering]
  split
  · exact hwithLength
  · exact hwithLength

/-- Only the answer to a `HEAD` request loses its body. -/
theorem body_finished_get : (r.answering .get).stamped.body = r.body := by
  show (withLength r).body = r.body
  rw [withLength]
  split <;> rfl

@[simp] theorem body_withOptional (name : String) (value : Option String) :
    (r.withOptional name value).body = r.body := by
  cases value with
  | none => rfl
  | some value =>
    rw [withOptional]
    split <;> rfl

theorem get?_headers_withOptional_of_ne {name other : String} (value : Option String)
    (h : name ≠ other) : (r.withOptional name value).headers.get? other = r.headers.get? other := by
  cases value with
  | none => rfl
  | some value =>
    rw [withOptional]
    split
    · rw [get?_headers_withHeader, if_neg h]
    · rfl

theorem get?_headers_withOptional_self (name : String) {value : String}
    (h : isHeaderValue value = true) :
    (r.withOptional name (some value)).headers.get? name = some value := by
  rw [withOptional, if_pos h, get?_headers_withHeader, if_pos rfl]

end Http.Response

/-! ### Routes -/

/-- The reference of a manifest is one part of the path. -/
theorem Route.slash_not_mem_of_ofPath? {path repository reference : String}
    (h : ofPath? path = some (.manifest repository reference)) : '/' ∉ reference.toList := by
  obtain ⟨slashes, hspelled⟩ := ofPath?_eq_some_iff.1 h
  exact hspelled.part.2

namespace Server

open ImageRegistry.Action

variable {s t : Server}

/-! ### The ways of a request -/

/-- What a request addresses beneath `/v2/`, if its path is the path of anything. -/
def addressed? (request : Request) : Option Route := do
  let rest ← Text.stripLead? "/v2/".toList request.uri.routePath.toList
  Route.ofPath? (← decodedPath? rest)

/-- The answer that the end of a handler stands for, and the server after it. -/
def ended (method : Method) :
    Outcome RegistryError Response × Server → Outcome Empty Response × Server
  | (.done response, t) => (.done (response.answering method).stamped, t)
  | (.failed error, t) => (.done (error.response.answering method).stamped, t)
  | (.stuck, t) => (.stuck, t)

@[simp] theorem ended_snd (method : Method) (result : Outcome RegistryError Response × Server) :
    (ended method result).2 = result.2 := by
  rcases result with ⟨_ | _ | _, t⟩ <;> rfl

/-- What can come of a request. -/
inductive Handled (request : Request) (s : Server) : Outcome Empty Response × Server → Prop where
  /-- It is answered before anything is done, and with an error if it addresses anything. -/
  | told (response : Response)
      (refused : addressed? request ≠ none → response.status.isError = true) :
    Handled request s (.done response, s)
  /-- It asks the chain of resolvers. -/
  | dug (query : Query.Dig) (nowhere : addressed? request = none) :
    Handled request s (ended request.method ((dig query).run s))
  | performed (route : Route) (digest : Option String)
      (addressed : addressed? request = some route) :
    Handled request s
      (ended request.method
        ((perform request.method route digest request.headers request.body).run s))

theorem run_answer (method : Method) (act : Action Server RegistryError Response) (s : Server) :
    (answer act >>= fun response ↦
      (pure (response.answering method).stamped : Action Server Empty Response)).run s =
        ended method (act.run s) := by
  rw [run_bind, answer, run_bind, run_attempt]
  rcases act.run s with ⟨response | error | _, t⟩ <;> rfl

/-- What addresses nothing beneath `/v2/` is answered at once. -/
theorem handled_serveRegistry (request : Request) (s : Server) (rest : List Char)
    (hrest : Text.stripLead? "/v2/".toList request.uri.routePath.toList = some rest) :
    Handled request s ((serveRegistry request rest >>= fun response ↦ (pure
      (response.answering request.method).stamped : Action Server Empty Response)).run s) := by
  -- Each of these answers is a refusal, whatever the request addresses.
  have hrefused {response : Response} (h : response.status.isError = true) :
      Handled request s (.done (response.answering request.method).stamped, s) :=
    .told _ fun _ ↦ by rw [Response.status_stamped, Response.status_answering, h]
  rw [serveRegistry]
  cases hpath : decodedPath? rest with
  | none => exact hrefused rfl
  | some path =>
    have haddressed : addressed? request = Route.ofPath? path := by
      simp only [addressed?, hrest, hpath, Option.bind_eq_bind, Option.bind_some]
    cases hquery : Query.digest? request.uri.query with
    | error fault => exact hrefused rfl
    | ok digest =>
      show Handled request s (((if isTooLong s.registry request.body then pure tooLongResponse
        else answer (dispatch request.method path digest request.headers request.body)) >>=
          _).run s)
      split
      · exact hrefused rfl
      · rw [run_answer, dispatch]
        cases hroute : Route.ofPath? path with
        | none => exact hrefused (RegistryError.isError_status _)
        | some route => exact .performed route digest (haddressed.trans hroute)

/-- A path to ask whether the registry is there addresses nothing. -/
theorem addressed?_of_root {request : Request}
    (h : request.uri.routePath.toList = "/v2".toList ∨
      request.uri.routePath.toList = "/v2/".toList) : addressed? request = none := by
  rcases h with h | h <;> rw [addressed?, h] <;> decide +kernel

/-- Every request goes one of these ways. -/
theorem handled (request : Request) (s : Server) :
    Handled request s ((handle request).run s) := by
  -- A path that does not begin with `/v2/` addresses nothing.
  have hnowhere (h : Text.stripLead? "/v2/".toList request.uri.routePath.toList = none) :
      addressed? request = none := by
    simp only [addressed?, h, Option.bind_eq_bind, Option.bind_none]
  rw [handle, serve]
  split
  · next hroot =>
    exact .told _ fun h ↦ absurd (addressed?_of_root hroot) h
  · split
    · next hdig =>
      have hnone : addressed? request = none := hnowhere (by rw [hdig]; decide)
      split
      · rw [bind_assoc, serveDig]
        cases Query.dig? request.uri.query with
        | error fault => exact .told _ fun h ↦ absurd hnone h
        | ok query =>
          simp only [pure_bind]
          rw [run_answer]
          exact .dug query hnone
      · exact .told _ fun h ↦ absurd hnone h
    · split
      · next rest hrest =>
        rw [bind_assoc]
        simp only [pure_bind]
        exact handled_serveRegistry request s rest hrest
      · next hnone => exact .told _ fun h ↦ absurd (hnowhere hnone) h

/-- What is answered without an error comes from what is done under the route. -/
theorem performed_of_granted {request : Request} {route : Route} {response : Response}
    (haddressed : addressed? request = some route)
    (h : (handle request).run s = (.done response, t)) (hgranted : response.Granted) :
    ∃ digest served,
      (perform request.method route digest request.headers request.body).run s =
        (.done served, t) ∧ response = (served.answering request.method).stamped := by
  have hhandled := handled request s
  rw [h] at hhandled
  have herror (error : RegistryError)
      (heq : response = (error.response.answering request.method).stamped) : False := by
    rw [heq, Response.Granted, Response.status_stamped, Response.status_answering] at hgranted
    exact Bool.false_ne_true (hgranted.symm.trans error.isError_status)
  generalize hresult : (Outcome.done response, t) = result at hhandled
  cases hhandled with
  | told _ refused =>
    cases hresult
    exact absurd (refused (by rw [haddressed]; simp)) (by rw [hgranted]; simp)
  | dug query nowhere =>
    rw [haddressed] at nowhere
    cases nowhere
  | performed other digest addressed =>
    rw [haddressed, Option.some.injEq] at addressed
    subst addressed
    rcases hrun : (perform request.method route digest request.headers request.body).run s with
      ⟨served | error | _, u⟩
    · rw [hrun] at hresult
      cases hresult
      exact ⟨digest, served, hrun, rfl⟩
    · rw [hrun] at hresult
      cases hresult
      exact (herror error rfl).elim
    · rw [hrun] at hresult
      cases hresult

/-- A request that addresses something beneath `/v2/` gets as far as its query string. -/
theorem run_handle_eq_serveRegistry {request : Request} {route : Route}
    (haddressed : addressed? request = some route) (s : Server) :
    ∃ rest path, decodedPath? rest = some path ∧ Route.ofPath? path = some route ∧
      (handle request).run s = (serveRegistry request rest >>= fun response ↦ (pure
        (response.answering request.method).stamped : Action Server Empty Response)).run s := by
  have hroot : ¬ (request.uri.routePath.toList = "/v2".toList ∨
      request.uri.routePath.toList = "/v2/".toList) := by
    intro h
    cases (addressed?_of_root h).symm.trans haddressed
  obtain ⟨rest, hrest, hroute⟩ := Option.bind_eq_some_iff.1 haddressed
  obtain ⟨path, hpath, hroute⟩ := Option.bind_eq_some_iff.1 hroute
  have hdig : request.uri.routePath.toList ≠ "/dig".toList := by
    intro h
    rw [h] at hrest
    cases hrest
  refine ⟨rest, path, hpath, hroute, ?_⟩
  rw [handle, serve, if_neg hroot, if_neg hdig, hrest, bind_assoc]
  simp only [pure_bind]

/-- A request without a body is not too long, whatever the limit is. -/
theorem isTooLong_empty (registry : Registry) : isTooLong registry ByteArray.empty = false := by
  rw [isTooLong]
  split
  · exact decide_eq_false (Nat.not_lt_zero _)
  · rfl

/-- Nothing stands in the way of a request: its query string can be read, and its body is not too
long. -/
def Unhindered (s : Server) (request : Request) : Prop :=
  (∃ digest, Query.digest? request.uri.query = .ok digest) ∧
    isTooLong s.registry request.body = false

/-- A request whose query string and length are in order is answered as its route says. -/
theorem run_handle_of_addressed {request : Request} {route : Route} {digest : Option String}
    (haddressed : addressed? request = some route)
    (hquery : Query.digest? request.uri.query = .ok digest)
    (hlength : isTooLong s.registry request.body = false) :
    (handle request).run s = ended request.method
      ((perform request.method route digest request.headers request.body).run s) := by
  obtain ⟨rest, path, hpath, hroute, hrun⟩ := run_handle_eq_serveRegistry haddressed s
  rw [hrun, serveRegistry, hpath]
  dsimp only
  rw [hquery, bind_assoc, run_bind, run_reading]
  dsimp only
  rw [hlength, if_neg Bool.false_ne_true, run_answer, dispatch, hroute]

/-- A query string at fault or a body that is too long is told whatever the method is. -/
theorem run_handle_of_fault {request : Request} {route : Route}
    (haddressed : addressed? request = some route)
    (hfault : (∃ fault, Query.digest? request.uri.query = .error fault) ∨
      isTooLong s.registry request.body = true) :
    ∃ response : Response, ∀ method, (handle { request with method := method }).run s =
      (.done (response.answering method).stamped, s) := by
  have hsame (method : Method) : addressed? { request with method := method } = some route :=
    haddressed
  cases hquery : Query.digest? request.uri.query with
  | error fault =>
    refine ⟨badQueryResponse fault, fun method ↦ ?_⟩
    obtain ⟨rest, path, hpath, -, hrun⟩ := run_handle_eq_serveRegistry (hsame method) s
    rw [hrun, serveRegistry, hpath]
    dsimp only
    rw [hquery]
    rfl
  | ok digest =>
    have hlength : isTooLong s.registry request.body = true := by
      rcases hfault with ⟨fault, hfault⟩ | hlength
      · cases hquery.symm.trans hfault
      · exact hlength
    refine ⟨tooLongResponse, fun method ↦ ?_⟩
    obtain ⟨rest, path, hpath, -, hrun⟩ := run_handle_eq_serveRegistry (hsame method) s
    rw [hrun, serveRegistry, hpath]
    dsimp only
    rw [hquery, bind_assoc, run_bind, run_reading]
    dsimp only
    rw [hlength, if_pos rfl]
    rfl

/-- Nothing is done for a repository whose name is not in order. -/
theorem run_perform_of_unchecked {route : Route} {error : RegistryError} (method : Method)
    {digest : Option String} {headers : Headers} {body : ByteArray}
    (h : Route.checkRepository route.repository = .error error) :
    (perform method route digest headers body).run s = (.failed error, s) := by
  show (ofExcept (fun e ↦ e) (Route.checkRepository route.repository) >>= fun _ ↦ _).run s = _
  rw [h]
  rfl

/-! ### Reading a manifest or a blob -/

/-- After two checks an action is refused, or it is done. -/
theorem run_checked (first second : Except RegistryError Unit)
    (act : Action Server RegistryError Response) (s : Server) :
    let checked := ofExcept (fun e ↦ e) first >>= fun _ ↦
      ofExcept (fun e ↦ e) second >>= fun _ ↦ act
    (∃ error, checked.run s = (.failed error, s)) ∨ checked.run s = act.run s := by
  cases first with
  | error error => exact Or.inl ⟨error, rfl⟩
  | ok =>
    cases second with
    | error error => exact Or.inl ⟨error, rfl⟩
    | ok => exact Or.inr rfl

/-- A request that reads a manifest is refused for its name or its reference, or the manifest is
served. -/
theorem run_perform_manifest {method : Method} (hread : method.isRead = true)
    (repository reference : String) (digest : Option String) (headers : Headers) (body : ByteArray)
    (s : Server) :
    (∃ error, (perform method (.manifest repository reference) digest headers body).run s =
        (.failed error, s)) ∨
      (perform method (.manifest repository reference) digest headers body).run s =
        (serveManifest method repository reference).run s := by
  have hchecked := run_checked (Route.checkRepository repository) (Route.checkReference reference)
    (serveManifest method repository reference) s
  cases method with
  | get | head => exact hchecked
  | put | post | patch | delete | other name => cases hread

/-- When its name and its reference are in order, the manifest is served. -/
theorem run_perform_manifest_of_checked {method : Method} (hread : method.isRead = true)
    {repository reference : String} (hrepository : Route.checkRepository repository = .ok ())
    (hreference : Route.checkReference reference = .ok ()) (digest : Option String)
    (headers : Headers) (body : ByteArray) (s : Server) :
    (perform method (.manifest repository reference) digest headers body).run s =
      (serveManifest method repository reference).run s := by
  have hchecked : (ofExcept (fun e ↦ e) (Route.checkRepository repository) >>= fun _ ↦
      ofExcept (fun e ↦ e) (Route.checkReference reference) >>= fun _ ↦
        serveManifest method repository reference).run s =
      (serveManifest method repository reference).run s := by
    rw [hrepository, hreference]
    rfl
  cases method with
  | get | head => exact hchecked
  | put | post | patch | delete | other name => cases hread

/-- What is done under the route of a manifest only succeeds for a name and a reference in order. -/
theorem checked_of_run_perform {method : Method} {repository reference : String}
    {digest : Option String} {headers : Headers} {body : ByteArray} {response : Response}
    (h : (perform method (.manifest repository reference) digest headers body).run s =
      (.done response, t)) :
    Route.checkRepository repository = .ok () ∧ Route.checkReference reference = .ok () := by
  obtain ⟨_, u, hrepository, h⟩ := run_bind_eq_done.1 h
  obtain ⟨_, v, hreference, -⟩ := run_bind_eq_done.1 h
  exact ⟨(run_ofExcept_eq_done.1 hrepository).1, (run_ofExcept_eq_done.1 hreference).1⟩

/-- A request that reads a blob is refused for its name or its digest, or the blob is served. -/
theorem run_perform_blob {method : Method} (hread : method.isRead = true)
    (repository blob : String) (digest : Option String) (headers : Headers) (body : ByteArray)
    (s : Server) :
    (∃ error, (perform method (.blob repository blob) digest headers body).run s =
        (.failed error, s)) ∨
      (perform method (.blob repository blob) digest headers body).run s =
        (serveBlob method repository blob).run s := by
  have hchecked := run_checked (Route.checkRepository repository) (Blob.Store.validate blob)
    (serveBlob method repository blob) s
  cases method with
  | get | head => exact hchecked
  | put | post | patch | delete | other name => cases hread

end Server

end ImageRegistry
