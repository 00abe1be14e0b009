import ImageRegistry.Proofs.Link.Memo
import ImageRegistry.Proofs.Registry.Naming

/-!
# What a pull does

A pull finds an identifier for the reference that is asked for, gets bytes from the gateway under
it, and links everything that the document in these bytes refers to to the same identifier.
`Finds` and `Supplies` say where the two come from. Neither says anything about writing, so link
files that cannot be written have no part in whether a pull succeeds, nor in what is in memory after
it (`run_pull_of_supplies`).
-/

namespace ImageRegistry

open ImageRegistry.Action Http

/-! ### What a manifest refers to -/

/-- A document gives a text as the digest of its configuration, of a layer or of a manifest. -/
def Manifest.Document.Names (d : Document) (digest : String) : Prop :=
  d.config = some digest ∨ digest ∈ d.layers ∨ digest ∈ d.manifests ∨ digest ∈ d.fsLayers

theorem Manifest.Document.mem_references_iff {d : Document} {digest : String} :
    digest ∈ d.references ↔ d.Names digest := by
  simp only [references, Names, List.mem_append, Option.mem_toList, or_assoc]

/-! ### Calls to the gateway -/

namespace Gateway

variable {g : Gateway} {method : Method} {identifier path : String} {uri : Uri}

/-- There is one call to the service for a path that has an address. -/
theorem run_fetch_of_url (hurl : g.url identifier path = .ok uri) (service : Remote.Service) :
    (g.fetch method identifier path).run service =
      (ofExcept id (g.receive (service.respond ⟨method, uri.target⟩)) :
        Action Remote.Service FetchFailure Fetched).run
          (service.exchange ⟨method, uri.target⟩).2 := by
  rw [fetch, hurl]
  rfl

/-- There is none for a path that has no address. -/
theorem run_fetch_of_error {failure : FetchFailure} (hurl : g.url identifier path = .error failure)
    (service : Remote.Service) :
    (g.fetch method identifier path).run service = (.failed failure, service) := by
  rw [fetch, hurl]
  rfl

theorem receive_eq_ok_iff {exchange : Remote.Exchange} {fetched : Fetched} :
    g.receive exchange = .ok fetched ↔
      ∃ head body, exchange = .answer head (.complete body) ∧ fetched = assemble head body := by
  rcases exchange with ⟨head, body | ⟨body, reason⟩ | body⟩ | fault | _ <;> simp [receive, eq_comm]

/-- Bytes are got when the service sends them to their end and tells of success. -/
theorem fst_run_get_eq_done_iff {service : Remote.Service} {body : ByteArray} :
    ((g.get identifier path).run service).1 = .done body ↔
      ∃ uri head, g.url identifier path = .ok uri ∧
        service.respond ⟨.get, uri.target⟩ = .answer head (.complete body) ∧
        head.status.isSuccess = true := by
  constructor
  · intro hbody
    have hrun : (g.get identifier path).run service =
        (.done body, ((g.get identifier path).run service).2) := by rw [← hbody]
    obtain ⟨fetched, t, hfetch, hsent⟩ := run_bind_eq_done.1 hrun
    cases hurl : g.url identifier path with
    | error failure =>
      rw [run_fetch_of_error hurl] at hfetch
      cases hfetch
    | ok uri =>
      rw [run_fetch_of_url hurl, run_ofExcept_eq_done] at hfetch
      obtain ⟨head, sent, hexchange, rfl⟩ := receive_eq_ok_iff.1 hfetch.1
      split at hsent
      · next hsuccess =>
        obtain rfl : sent = body := Outcome.done.inj (congrArg Prod.fst hsent)
        exact ⟨uri, head, rfl, hexchange, hsuccess⟩
      · obtain ⟨_, _, _, hfail⟩ := run_bind_eq_done.1 hsent
        cases hfail
  · rintro ⟨uri, head, hurl, hexchange, hsuccess⟩
    have hfetch : (g.fetch .get identifier path).run service =
        (.done (assemble head body), (service.exchange ⟨.get, uri.target⟩).2) := by
      rw [run_fetch_of_url hurl, run_ofExcept_eq_done]
      exact ⟨receive_eq_ok_iff.2 ⟨head, body, hexchange, rfl⟩, rfl⟩
    have hassembled : (assemble head body).status.isSuccess = true := hsuccess
    rw [Gateway.get, run_bind, hfetch]
    dsimp only
    rw [if_pos hassembled]
    rfl

end Gateway

namespace Server

variable {s t u v : Server} {repository reference other identifier : String} {body : ByteArray}
  {m : Manifest}

/-! ### Where a manifest comes from -/

/-- The identifier that is found for a reference, and the world when that is done: it is in memory,
or else in the link file, or else the first one that the resolvers give. -/
inductive Finds (s : Server) (repository reference identifier : String) : World → Prop where
  | remembered (memory : s.registry.links.memory.get? (repository, reference) = some identifier) :
    Finds s repository reference identifier s.world
  | stored (memory : s.registry.links.memory.get? (repository, reference) = none)
      (file : s.registry.links.stored? s.world.files repository reference = some identifier) :
    Finds s repository reference identifier s.world
  | resolved (memory : s.registry.links.memory.get? (repository, reference) = none)
      (file : s.registry.links.stored? s.world.files repository reference = none)
      (more : List String) (world : World)
      (found : (Resolver.resolve s.registry.resolvers repository reference).run s.world =
        (.done (identifier :: more), world)) :
    Finds s repository reference identifier world

/-- The gateway has bytes under the identifier that is found, and tells of success. -/
def Supplies (s : Server) (repository reference identifier : String) (body : ByteArray) : Prop :=
  ∃ world uri head, Finds s repository reference identifier world ∧
    s.registry.gateway.url identifier (manifestPath reference) = .ok uri ∧
    world.gateway.respond ⟨.get, uri.target⟩ = .answer head (.complete body) ∧
    head.status.isSuccess = true

theorem run_locate (repository reference : String) (s : Server) :
    (locate repository reference).run s =
      (((Link.Setting.locate s.registry.resolvers repository reference).run s.setting).1,
        withSetting ((Link.Setting.locate s.registry.resolvers repository reference).run
          s.setting).2 s) := rfl

theorem run_resolve (repository reference : String) (s : Server) :
    (resolve repository reference).run s =
      (((Resolver.resolve s.registry.resolvers repository reference).run s.world).1,
        { s with world :=
          ((Resolver.resolve s.registry.resolvers repository reference).run s.world).2 }) := rfl

/-- What the resolvers give is got, and only the world has changed. -/
theorem run_resolve_of_done {identifiers : List String} {world : World}
    (h : (Resolver.resolve s.registry.resolvers repository reference).run s.world =
      (.done identifiers, world)) :
    ∃ t, (resolve repository reference).run s = (.done identifiers, t) ∧
      t.registry = s.registry ∧ t.world = world := by
  rw [run_resolve, h]
  exact ⟨_, rfl, rfl, rfl⟩

theorem run_get (identifier path : String) (s : Server) :
    (get identifier path).run s =
      (((s.registry.gateway.get identifier path).run s.world.gateway).1,
        { s with world := { s.world with
          gateway := ((s.registry.gateway.get identifier path).run s.world.gateway).2 } }) := rfl

theorem run_fetch (method : Method) (identifier path : String) (s : Server) :
    (fetch method identifier path).run s =
      (((s.registry.gateway.fetch method identifier path).run s.world.gateway).1,
        { s with world := { s.world with
          gateway :=
            ((s.registry.gateway.fetch method identifier path).run s.world.gateway).2 } }) := rfl

/-! ### Memory -/

/-- The memory of one server is that of another one with some references of a repository bound to an
identifier. -/
structure Linked (repository identifier : String) (linked : String → Prop) (s t : Server) :
    Prop where
  bound : ∀ other, linked other → t.registry.links.Knows repository other identifier
  others : ∀ r other, ¬ (r = repository ∧ linked other) →
    t.registry.links.memory.get? (r, other) = s.registry.links.memory.get? (r, other)

/-- What is bound already can be bound again. -/
theorem linked_of_knows (h : s.registry.links.Knows repository reference identifier)
    (ht : t.registry.links = s.registry.links) :
    Linked repository identifier (· = reference) s t := by
  refine ⟨?_, fun r other _ ↦ by rw [ht]⟩
  rintro other rfl
  rwa [ht]

theorem linked_of_remember
    (ht : t.registry.links = s.registry.links.remember repository reference identifier) :
    Linked repository identifier (· = reference) s t := by
  rw [Link.Cache.remember] at ht
  refine ⟨?_, fun r other hother ↦ ?_⟩
  · rintro other rfl
    rw [ht]
    exact Table.get?_insert_self _ _ _
  · rw [ht]
    refine Table.get?_insert_of_ne _ _ fun hsame ↦ hother ?_
    obtain ⟨rfl, rfl⟩ := Prod.mk.inj hsame
    exact ⟨rfl, rfl⟩

theorem Linked.of_iff {linked more : String → Prop} (h : Linked repository identifier linked s t)
    (hiff : ∀ other, more other ↔ linked other) : Linked repository identifier more s t :=
  ⟨fun other hother ↦ h.bound other ((hiff other).1 hother),
    fun r other hother ↦ h.others r other fun hr ↦ hother ⟨hr.1, (hiff other).2 hr.2⟩⟩

theorem Linked.congr {linked : String → Prop} (h : Linked repository identifier linked s t)
    (hu : u.registry.links = t.registry.links) : Linked repository identifier linked s u := by
  refine ⟨fun other hother ↦ ?_, fun r other hother ↦ ?_⟩
  · rw [hu]
    exact h.bound other hother
  · rw [hu]
    exact h.others r other hother

theorem Linked.trans {linked more : String → Prop} (hst : Linked repository identifier linked s t)
    (htu : Linked repository identifier more t u) :
    Linked repository identifier (fun other ↦ linked other ∨ more other) s u := by
  refine ⟨fun other hother ↦ ?_, fun r other hother ↦ ?_⟩
  · by_cases hmore : more other
    · exact htu.bound other hmore
    · rw [Link.Cache.Knows, htu.others repository other fun h ↦ hmore h.2]
      exact hst.bound other (hother.resolve_right hmore)
  · rw [htu.others r other fun h ↦ hother ⟨h.1, .inr h.2⟩,
      hst.others r other fun h ↦ hother ⟨h.1, .inl h.2⟩]

/-- What is found is located, and it is in memory then. Beside memory only files have changed since
the resolvers were asked, if they were. -/
theorem run_locate_of_finds {world : World} (h : Finds s repository reference identifier world) :
    ∃ t, (locate repository reference).run s = (.done identifier, t) ∧
      t.registry.gateway = s.registry.gateway ∧ t.world.gateway = world.gateway ∧
      Linked repository identifier (· = reference) s t := by
  have hlocated := Link.Setting.located s.registry.resolvers repository reference s.setting
  rw [run_locate]
  generalize (Link.Setting.locate s.registry.resolvers repository reference).run s.setting = result
    at hlocated ⊢
  cases h with
  | remembered memory =>
    cases hlocated with
    | remembered found memory' =>
      cases memory.symm.trans memory'
      exact ⟨_, rfl, rfl, rfl, linked_of_knows memory rfl⟩
    | stored _ memory' | resolved _ _ _ memory' | missed _ _ _ memory' =>
      cases memory.symm.trans memory'
  | stored memory file =>
    cases hlocated with
    | stored found _ file' =>
      cases file.symm.trans file'
      exact ⟨_, rfl, rfl, rfl, linked_of_remember rfl⟩
    | remembered _ memory' => cases memory.symm.trans memory'
    | resolved _ _ _ _ file' | missed _ _ _ _ file' => cases file.symm.trans file'
  | resolved memory file more world found =>
    cases hlocated with
    | resolved first rest after _ _ found' =>
      obtain ⟨hdone, rfl⟩ := Prod.mk.inj (found.symm.trans found')
      obtain ⟨rfl, rfl⟩ := List.cons.inj (Outcome.done.inj hdone)
      have hcache : ((Link.Setting.add repository reference identifier :
          Action Link.Setting ResolveFailure _).run ⟨s.setting.cache, world⟩).2.cache =
            s.registry.links.remember repository reference identifier := by
        rw [Link.Setting.cache_run_add]
        exact s.registry.links.memory_add world.files repository reference identifier
      refine ⟨_, rfl, ?_, ?_, ?_⟩
      · rfl
      · rfl
      · exact linked_of_remember hcache
    | missed _ _ _ _ _ found' =>
      refine absurd ?_ (found' identifier more)
      exact congrArg Prod.fst found
    | remembered _ memory' => cases memory.symm.trans memory'
    | stored _ _ file' => cases file.symm.trans file'

theorem finds_of_run_locate (h : (locate repository reference).run s = (.done identifier, t)) :
    ∃ world, Finds s repository reference identifier world := by
  rw [run_locate, Prod.mk.injEq] at h
  have hrun := h.1.symm
  have hlocated := Link.Setting.located s.registry.resolvers repository reference s.setting
  generalize (Link.Setting.locate s.registry.resolvers repository reference).run s.setting = result
    at hlocated hrun
  cases hlocated with
  | remembered found memory =>
    cases hrun
    exact ⟨_, .remembered memory⟩
  | stored found memory file =>
    cases hrun
    exact ⟨_, .stored memory file⟩
  | resolved first more world memory file found =>
    cases hrun
    exact ⟨_, .resolved memory file more world found⟩
  | missed outcome world nothing => exact absurd hrun.symm (nothing identifier)

/-- A registry beside its links. -/
def besideLinks (s : Server) : Registry := { s.registry with links := .empty none }

theorem keeps_besideLinks_addLinks {ε : Type} (repository identifier : String)
    (references : List String) :
    Keeps besideLinks (addLinks repository identifier references : Action Server ε Unit) :=
  (composes_keeps _).addLinks fun _ _ ↦ keeps_within _ fun _ _ ↦ rfl

theorem keeps_besideLinks_obtain (repository reference : String) :
    Keeps besideLinks (obtain repository reference) :=
  (composes_keeps _).obtain (keeps_bind (keeps_reading _ _) fun _ ↦ keeps_within _ fun _ _ ↦ rfl)
    fun _ _ ↦ keeps_bind (keeps_reading _ _) fun _ ↦ keeps_within _ fun _ _ ↦ rfl

theorem linked_addLinks {ε : Type} (repository identifier : String) (references : List String)
    (s : Server) :
    Linked repository identifier (· ∈ references) s
      ((addLinks repository identifier references : Action Server ε Unit).run s).2 := by
  induction references generalizing s with
  | nil => exact ⟨fun _ h ↦ (List.not_mem_nil h).elim, fun _ _ _ ↦ rfl⟩
  | cons reference rest ih =>
    let added := ((onLinks (Link.Setting.add repository reference identifier) :
      Action Server ε _).run s).2
    have hadded : Linked repository identifier (· = reference) s added :=
      linked_of_remember (s.registry.links.memory_add s.world.files repository reference identifier)
    exact (hadded.trans (ih added)).of_iff fun other ↦ List.mem_cons

/-! ### Pulls -/

/-- The references that a pull of bytes links: the one that was asked for, and if the bytes are a
document, their digest and all that the document gives as digests. -/
def Warms (body : ByteArray) (reference other : String) : Prop :=
  other = reference ∨ ∃ document, Manifest.Document.read? body = some document ∧
    (other = Digest.ofContent body ∨ document.Names other)

theorem mem_warmed_iff {origin : Option String} :
    other ∈ warmed (.ofBody body none origin) ↔
      ∃ document, Manifest.Document.read? body = some document ∧
        (other = Digest.ofContent body ∨ document.Names other) := by
  rw [warmed, Manifest.body_ofBody, Manifest.digest_ofBody]
  cases Manifest.Document.read? body with
  | none => simp
  | some document =>
    simp [Manifest.Document.mem_references_iff, or_comm]

theorem supplies_of_offers (h : Offers s repository reference identifier body) :
    Supplies s repository reference identifier body := by
  obtain ⟨u, v, hlocate, hget⟩ := h
  obtain ⟨world, hfinds⟩ := finds_of_run_locate hlocate
  obtain ⟨t, ht, hgateway, hworld, -⟩ := run_locate_of_finds hfinds
  obtain rfl : u = t := congrArg Prod.snd (hlocate.symm.trans ht)
  rw [run_get, Prod.mk.injEq, Gateway.fst_run_get_eq_done_iff] at hget
  obtain ⟨⟨uri, head, hurl, hexchange, hsuccess⟩, -⟩ := hget
  rw [hgateway] at hurl
  rw [hworld] at hexchange
  exact ⟨world, uri, head, hfinds, hurl, hexchange, hsuccess⟩

/-- Bytes that the gateway sends are got, and nothing of the registry changes. -/
theorem run_get_of_answer {path : String} {uri : Uri} {head : Remote.Head}
    (hurl : s.registry.gateway.url identifier path = .ok uri)
    (hexchange : s.world.gateway.respond ⟨.get, uri.target⟩ = .answer head (.complete body))
    (hsuccess : head.status.isSuccess = true) :
    ∃ t, (get identifier path).run s = (.done body, t) ∧ t.registry = s.registry := by
  have hbody := Gateway.fst_run_get_eq_done_iff.2 ⟨uri, head, hurl, hexchange, hsuccess⟩
  rw [run_get, hbody]
  exact ⟨_, rfl, rfl⟩

/-- A pull gets the bytes that are supplied, whatever can be written, and then memory has what it
had and the links of these bytes. -/
theorem run_pull_of_supplies (h : Supplies s repository reference identifier body) :
    ∃ t, (pull repository reference).run s =
        (.done (.ofBody body none (some identifier)), t) ∧
      t.registry.gateway = s.registry.gateway ∧ t.registry.blobs = s.registry.blobs ∧
      Linked repository identifier (Warms body reference) s t := by
  obtain ⟨world, uri, head, hfinds, hurl, hexchange, hsuccess⟩ := h
  obtain ⟨u, hlocate, hgateway, hworld, hlocated⟩ := run_locate_of_finds hfinds
  obtain ⟨v, hget, hregistry⟩ := run_get_of_answer (hgateway ▸ hurl) (hworld ▸ hexchange) hsuccess
  obtain ⟨m, hm⟩ : ∃ m, m = Manifest.ofBody body none (some identifier) := ⟨_, rfl⟩
  have hobtain : (obtain repository reference).run s = (.done m, v) := by
    refine run_bind_eq_done.2 ⟨identifier, u, run_mapError_eq_done.2 hlocate, ?_⟩
    exact run_bind_eq_done.2 ⟨body, v, run_mapError_eq_done.2 hget, by rw [hm]; rfl⟩
  obtain ⟨w, hadd⟩ := run_addLinks (ε := RegistryError) repository identifier (warmed m) v
  have hkept : besideLinks w = besideLinks s := by
    have hlinks :=
      keeps_besideLinks_addLinks (ε := RegistryError) repository identifier (warmed m) v
    have hobtained := keeps_besideLinks_obtain repository reference s
    rw [hadd] at hlinks
    rw [hobtain] at hobtained
    exact hlinks.trans hobtained
  have hadded := linked_addLinks (ε := RegistryError) repository identifier (warmed m) v
  rw [hadd] at hadded
  have hgatewaySame := congrArg Registry.gateway hkept
  have hblobs := congrArg Registry.blobs hkept
  refine ⟨w.withManifests (w.registry.manifests.insert repository reference m), ?_,
    hgatewaySame, hblobs, ?_⟩
  · rw [← hm]
    refine run_bind_eq_done.2 ⟨m, v, hobtain, ?_⟩
    subst hm
    exact run_bind_eq_done.2 ⟨(), w, hadd, rfl⟩
  · have hgot := hlocated.congr (congrArg Registry.links hregistry)
    rw [hm] at hadded
    have hlinked : Linked repository identifier (Warms body reference) s w :=
      (hgot.trans hadded).of_iff fun other ↦ or_congr_right mem_warmed_iff.symm
    exact hlinked.congr rfl

theorem supplies_of_run_pull (h : (pull repository reference).run s = (.done m, t)) :
    ∃ identifier body, Supplies s repository reference identifier body := by
  have hpulled := pulled s repository reference
  rw [h] at hpulled
  cases hpulled with
  | missed _ _ _ nothing => exact absurd rfl (nothing m)
  | kept identifier body _ _ _ offers => exact ⟨identifier, body, supplies_of_offers offers⟩

/-- A pull gets what is supplied, and nothing else. -/
theorem fst_run_pull_eq_done_iff {m : Manifest} :
    ((pull repository reference).run s).1 = .done m ↔
      ∃ identifier body, Supplies s repository reference identifier body ∧
        m = .ofBody body none (some identifier) := by
  constructor
  · intro h
    have hrun : (pull repository reference).run s =
        (.done m, ((pull repository reference).run s).2) := Prod.ext h rfl
    obtain ⟨identifier, body, hsupplies⟩ := supplies_of_run_pull hrun
    obtain ⟨t, hpull, -⟩ := run_pull_of_supplies hsupplies
    rw [hpull] at h
    exact ⟨identifier, body, hsupplies, (Outcome.done.inj h).symm⟩
  · rintro ⟨identifier, body, hsupplies, rfl⟩
    obtain ⟨t, hpull, -⟩ := run_pull_of_supplies hsupplies
    rw [hpull]

end Server

end ImageRegistry
