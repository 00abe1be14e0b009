import ImageRegistry.Proofs.Ending
import ImageRegistry.Proofs.Frame
import ImageRegistry.World
import ImageRegistry.Gateway

/-!
# Calls under a deadline

A service somewhere else may keep a client waiting twice: for its answer, and for the end of the
body. A call to the gateway is under a deadline both times, so it always comes to an end
(`Gateway.ends_fetch`), and it ends with a timeout if the service keeps it waiting
(`Gateway.run_fetch_of_hangs`). The listing of a directory through a node is under a deadline until
the answer is there, and not any more after that. It comes to an end exactly if the body of the
answer does (`Storage.Node.list_eq_stuck_iff`), so it always does with a service whose bodies all
end (`BodiesEnd`), and that a service does not cease to be by being asked.
-/

namespace ImageRegistry

open ImageRegistry.Action

namespace Remote

/-- The service keeps one waiting, for an answer or for the end of its body. -/
inductive Exchange.Hangs : Exchange → Prop where
  | stalled : Hangs .stalled
  | endless (head : Head) (body : ByteArray) : Hangs (.answer head (.endless body))

/-- Every answer of the service has a body with an end, unless it breaks off. -/
def Service.BodiesEnd (service : Service) : Prop :=
  ∀ request head body, service.respond request ≠ .answer head (.endless body)

end Remote

/-! ### The gateway -/

namespace Gateway

variable {g : Gateway} {method : Http.Method} {identifier path : String} {uri : Uri}
  {service : Remote.Service}

theorem ends_fetch (g : Gateway) (method : Http.Method) (identifier path : String) :
    Ends (fun _ ↦ True) (g.fetch method identifier path) := by
  have hcomposes := composes_ends fun _ : Remote.Service ↦ True
  refine hcomposes.bind (hcomposes.ofExcept _ _) fun uri ↦ ?_
  refine hcomposes.bind (ends_changing fun _ _ ↦ trivial) fun exchange ↦ ?_
  exact hcomposes.ofExcept _ _

theorem ends_get (g : Gateway) (identifier path : String) :
    Ends (fun _ ↦ True) (g.get identifier path) := by
  have hcomposes := composes_ends fun _ : Remote.Service ↦ True
  refine hcomposes.bind (g.ends_fetch .get identifier path) fun fetched ↦ ?_
  split
  · exact hcomposes.pure _
  · refine hcomposes.bind (hcomposes.ofExcept _ _) fun uri ↦ ?_
    exact hcomposes.fail _

/-- Whether the service keeps it waiting for the answer or for the rest of it, the call ends with a
timeout. -/
theorem run_fetch_of_hangs (hurl : g.url identifier path = .ok uri)
    (hhangs : (service.respond ⟨method, uri.target⟩).Hangs) :
    ((g.fetch method identifier path).run service).1 = .failed (.timeout g.timeout) := by
  have hreceive :
      g.receive (service.respond ⟨method, uri.target⟩) = .error (.timeout g.timeout) := by
    generalize service.respond ⟨method, uri.target⟩ = exchange at hhangs
    cases hhangs with
    | stalled => rfl
    | endless head body => rfl
  rw [fetch, hurl, run_bind, run_ofExcept_ok]
  show ((ofExcept id (g.receive (service.respond ⟨method, uri.target⟩))).run _).1 = _
  rw [hreceive]
  rfl

end Gateway

/-! ### Listings -/

namespace Storage

namespace Node

variable {n : Node} {identifier : String} {uri : Uri}

/-- What a node answers with, and what is made of it. -/
theorem run_list_of_url (hurl : n.listUrl identifier = .ok uri) :
    (list identifier).run n =
      ((match n.service.respond ⟨.post, uri.target⟩ with
        | .answer head (.complete body) => ofExcept id (entries head.status body identifier)
        | .answer _ (.broken _ reason) => fail (failure .io (.body reason) (some identifier))
        | .answer _ (.endless _) => wait
        | .fault fault => fail (failure .io (.fault fault) (some identifier))
        | .stalled => fail (failure .timeout .deadline (some identifier))) :
          Action Node Error (List Entry)).run
        { n with service := (n.service.exchange ⟨.post, uri.target⟩).2 } := by
  rw [list, run_bind, run_state]
  dsimp only
  rw [hurl]
  rfl

/-- A listing comes to an end exactly if the body of its answer does. -/
theorem list_eq_stuck_iff :
    ((list identifier).run n).1 = .stuck ↔ ∃ uri head body,
      n.listUrl identifier = .ok uri ∧
        n.service.respond ⟨.post, uri.target⟩ = .answer head (.endless body) := by
  cases hurl : n.listUrl identifier with
  | error error =>
    have hrun : (list identifier).run n = (.failed error, n) := by
      rw [list, run_bind, run_state]
      dsimp only
      rw [hurl]
      rfl
    simp [hrun]
  | ok uri =>
    rw [run_list_of_url hurl]
    have hentries (head : Remote.Head) (body : ByteArray) (changed : Node) :
        ((ofExcept id (entries head.status body identifier)).run changed).1 ≠ .stuck := by
      cases entries head.status body identifier <;> simp
    rcases hexchange : n.service.respond ⟨.post, uri.target⟩ with
      ⟨head, body | ⟨body, reason⟩ | body⟩ | fault | _
    all_goals simp [hexchange, hentries]

theorem run_list_of_stalled (hurl : n.listUrl identifier = .ok uri)
    (hstalled : n.service.respond ⟨.post, uri.target⟩ = .stalled) :
    ((list identifier).run n).1 = .failed (failure .timeout .deadline (some identifier)) := by
  rw [run_list_of_url hurl, hstalled]
  rfl

/-- To be asked changes nothing of how a service answers. -/
theorem keeps_respond_list (identifier : String) :
    Keeps (fun n : Node ↦ n.service.respond) (list identifier) := by
  intro n
  cases hurl : n.listUrl identifier with
  | error error =>
    rw [list, run_bind, run_state]
    dsimp only
    rw [hurl]
    rfl
  | ok uri =>
    rw [run_list_of_url hurl]
    rcases n.service.respond ⟨.post, uri.target⟩ with
      ⟨head, body | ⟨body, reason⟩ | body⟩ | fault | _
    · exact keeps_ofExcept (fun n : Node ↦ n.service.respond) id _ _
    all_goals rfl

end Node

/-- Every answer to a storage has a body with an end. -/
def BodiesEnd : Storage → Prop
  | .memory _ => True
  | .node n => n.service.BodiesEnd

theorem run_list_node {n changed : Node} {identifier : String}
    {outcome : Outcome Error (List Entry)}
    (h : (Node.list identifier).run n = (outcome, changed)) :
    (list identifier).run (.node n) = (outcome, .node changed) := by
  rw [run, list, h]

theorem ends_list (identifier : String) : Ends BodiesEnd (list identifier) := by
  intro s hs
  cases s with
  | memory tree =>
    have hlist : (list identifier).run (.memory tree) =
      (ofExcept id (tree.list identifier)).run (.memory tree) := rfl
    rw [hlist]
    cases tree.list identifier with
    | ok entries => exact ⟨trivial, trivial⟩
    | error error => exact ⟨trivial, trivial⟩
  | node n =>
    have hrespond := Node.keeps_respond_list identifier n
    have hends : ((Node.list identifier).run n).1 ≠ .stuck := by
      rw [ne_eq, Node.list_eq_stuck_iff]
      rintro ⟨uri, head, body, -, hendless⟩
      exact hs _ head body hendless
    rcases hrun : (Node.list identifier).run n with ⟨outcome, changed⟩
    rw [hrun] at hrespond hends
    dsimp only at hrespond
    rw [run_list_node hrun]
    refine ⟨Outcome.isEnd_iff.2 hends, ?_⟩
    rw [BodiesEnd, Remote.Service.BodiesEnd, hrespond]
    exact hs

end Storage

/-! ### The world -/

namespace World

/-- Every answer to a storage has a body with an end. What is behind the gateway may do whatever it
likes. -/
def BodiesEnd (w : World) : Prop := ∀ storage ∈ w.storages, storage.BodiesEnd

theorem ends_onStorage (index : Nat) (identifier : String) :
    Ends BodiesEnd (onStorage index (Storage.list identifier)) := by
  refine ends_within (Storage.ends_list identifier) (fun w hw ↦ ?_) fun storage w hw hstorage ↦ ?_
  · rw [storage, List.getD_eq_getElem?_getD]
    cases hindex : w.storages[index]? with
    | none => exact trivial
    | some found => exact hw found (List.mem_of_getElem? hindex)
  · intro other hother
    rcases List.mem_or_eq_of_mem_set hother with hold | rfl
    · exact hw other hold
    · exact hstorage

theorem ends_onGateway {ε α : Type} {act : Action Remote.Service ε α}
    (h : Ends (fun _ ↦ True) act) : Ends BodiesEnd (onGateway act) :=
  ends_within h (fun _ _ ↦ trivial) fun _ _ hw _ ↦ hw

end World

end ImageRegistry
