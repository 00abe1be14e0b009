import ImageRegistry.Proofs.Registry.Performing
import ImageRegistry.Proofs.Resolver.Reads

/-!
# Requests for one repository leave the others alone

All repositories share one table of blobs, one table of uploads under identifiers that clients
choose, and one table of links. A request that addresses a repository changes nothing that another
one has: not its manifests, not its layers, not its uploads, not its links in memory
(`isolation_of_request`). Each rests on something else:

* a call to the blob store is made in the name of the repository of the route (`Calls`), and an
  upload that is there is only changed for the repository that began it (`elsewhere_of_calls`);
* a manifest goes into the table of the repository that was addressed;
* the links that are added, of whatever a manifest refers to, are links of that repository
  (`Link.Cache.linksOf`).

What addresses nothing, and what asks the chain of resolvers, leaves the whole registry as it is
(`Undisturbed`); it leaves the files as they are if the resolvers do.
-/

namespace ImageRegistry

open ImageRegistry.Action Http

/-! ### Blobs and uploads of other repositories -/

namespace Blob.Store

variable {s t u : Store} {repository id : String} {session : Session}

/-- For every repository but one, the layers and the uploads are the same. -/
structure SameElsewhere (repository : String) (s t : Store) : Prop where
  layers : ∀ other, other ≠ repository → t.layersOf other = s.layersOf other
  uploads : ∀ id session, session.repository ≠ repository →
    (t.sessions.get? id = some session ↔ s.sessions.get? id = some session)

theorem SameElsewhere.refl (repository : String) (s : Store) : SameElsewhere repository s s :=
  ⟨fun _ _ ↦ rfl, fun _ _ _ ↦ Iff.rfl⟩

theorem SameElsewhere.trans (hst : SameElsewhere repository s t)
    (htu : SameElsewhere repository t u) : SameElsewhere repository s u :=
  ⟨fun other h ↦ (htu.layers other h).trans (hst.layers other h),
    fun id session h ↦ (htu.uploads id session h).trans (hst.uploads id session h)⟩

theorem SameElsewhere.own (s : Store) (repository digest : String) (data : ByteArray) :
    SameElsewhere repository s (s.own repository digest data) := by
  refine ⟨fun other h ↦ ?_, fun _ _ _ ↦ Iff.rfl⟩
  show ((s.layers.insert repository _).get? other).getD [] = _
  rw [Table.get?_insert_of_ne _ _ h.symm]
  rfl

/-- An upload goes on for the repository that began it, or none was there. -/
theorem SameElsewhere.putSession (hsession : session.repository = repository)
    (hold : ∀ old, s.sessions.get? id = some old → old.repository = repository) :
    SameElsewhere repository s (s.putSession id session) := by
  refine ⟨fun _ _ ↦ rfl, fun other kept hkept ↦ ?_⟩
  rcases eq_or_ne id other with rfl | hne
  · rw [get?_putSession_self, Option.some.injEq]
    constructor
    · rintro rfl
      exact absurd hsession hkept
    · intro hthere
      exact absurd (hold kept hthere) hkept
  · rw [get?_putSession_of_ne _ _ hne]

theorem SameElsewhere.dropSession
    (hold : ∀ old, s.sessions.get? id = some old → old.repository = repository) :
    SameElsewhere repository s (s.dropSession id) := by
  refine ⟨fun _ _ ↦ rfl, fun other kept hkept ↦ ?_⟩
  rcases eq_or_ne id other with rfl | hne
  · rw [get?_dropSession_self]
    constructor
    · rintro ⟨⟩
    · intro hthere
      exact absurd (hold kept hthere) hkept
  · rw [get?_dropSession_of_ne _ hne]

/-- The content is the same, or one blob came in under the digest of its bytes. These are the bytes
of a request, behind what was there of an upload of the repository. -/
def Adds (s : Store) (repository : String) (body : ByteArray) (t : Store) : Prop :=
  t.content = s.content ∨ ∃ before,
    (before = ByteArray.empty ∨ ∃ id session, s.sessions.get? id = some session ∧
      session.repository = repository ∧ before = session.buffer) ∧
    t.content = s.content.insert (Digest.ofContent (before ++ body)) (before ++ body)

end Blob.Store

namespace Server

variable {request : Request} {route : Route} {call : Blob.Call}

/-- A call that a request makes is made for the repository of its route. -/
theorem elsewhere_of_calls (calls : Calls request route call) (blobs : Blob.Store) (now : Nat) :
    Blob.Store.SameElsewhere route.repository blobs (blobs.take ⟨now, call⟩).2 ∧
      blobs.Adds route.repository request.body (blobs.take ⟨now, call⟩).2 := by
  have heffect := blobs.take_effect ⟨now, call⟩
  dsimp only at heffect
  generalize (blobs.take ⟨now, call⟩).1 = reply at heffect
  generalize (blobs.take ⟨now, call⟩).2 = after at heffect ⊢
  have hkept : blobs.Adds route.repository request.body blobs := Or.inl rfl
  cases calls with
  | commit repository expected post =>
    cases heffect with
    | refused => exact ⟨.refl _ _, hkept⟩
    | committed =>
      refine ⟨.own blobs repository _ request.body, Or.inr ⟨ByteArray.empty, Or.inl rfl, ?_⟩⟩
      rw [ByteArray.empty_append]
      rfl
  | append repository id range patch =>
    cases heffect with
    | refused => exact ⟨.refl _ _, hkept⟩
    | begun _ _ _ _ absent =>
      refine ⟨.putSession rfl fun old hold ↦ ?_, Or.inl rfl⟩
      cases absent.symm.trans hold
    | extended _ session r _ found =>
      refine ⟨.putSession rfl fun old hold ↦ ?_, Or.inl rfl⟩
      cases found.symm.trans hold
      rfl
  | finalize repository id expected put =>
    cases heffect with
    | refused => exact ⟨.refl _ _, hkept⟩
    | finalized _ _ bytes _ found =>
      have hbuffered := Blob.Store.buffered_eq_ok_iff.1 found
      refine ⟨.trans (.dropSession fun old hold ↦ ?_) (.own _ repository _ _),
        Or.inr ⟨bytes, ?_, rfl⟩⟩
      · rcases hbuffered with ⟨absent, -⟩ | ⟨session, hfound, howner, -⟩
        · cases absent.symm.trans hold
        · cases hfound.symm.trans hold
          exact howner
      · rcases hbuffered with ⟨-, hempty⟩ | ⟨session, hfound, howner, hbytes⟩
        · exact Or.inl hempty
        · exact Or.inr ⟨id, session, hfound, howner, hbytes⟩
  | status repository id get =>
    cases heffect with
    | refused | told => exact ⟨.refl _ _, hkept⟩
  | cancel repository id delete =>
    cases heffect with
    | refused => exact ⟨.refl _ _, hkept⟩
    | cancelled _ session found =>
      refine ⟨.dropSession fun old hold ↦ ?_, Or.inl rfl⟩
      cases found.symm.trans hold
      rfl

end Server

/-! ### Links of other repositories -/

namespace Link

variable {ε : Type} {repository other : String}

/-- The links of a repository that are in memory. -/
def Cache.linksOf (c : Cache) (repository : String) : String → Option String :=
  fun reference ↦ c.memory.get? (repository, reference)

theorem Cache.linksOf_remember (h : other ≠ repository) (c : Cache)
    (reference identifier : String) :
    (c.remember repository reference identifier).linksOf other = c.linksOf other := by
  funext asked
  exact Table.get?_insert_of_ne _ _ fun hsame ↦ h (Prod.mk.inj hsame).1.symm

theorem keeps_linksOf_add (h : other ≠ repository) (reference identifier : String) :
    Keeps (fun s : Setting ↦ s.cache.linksOf other)
      (Setting.add repository reference identifier : Action Setting ε _) := by
  intro s
  show (s.cache.add s.world.files repository reference identifier).2.1.linksOf other = _
  rw [Cache.memory_add, Cache.linksOf_remember h]

theorem keeps_linksOf_lookUp (h : other ≠ repository) (reference : String) :
    Keeps (fun s : Setting ↦ s.cache.linksOf other)
      (Setting.lookUp repository reference : Action Setting ε _) := by
  intro s
  show (s.cache.get s.world.files repository reference).2.linksOf other = _
  rw [Cache.get]
  split
  · rfl
  · split
    · exact Cache.linksOf_remember h _ _ _
    · rfl

theorem keeps_linksOf_locate (h : other ≠ repository) (chain : List Resolver)
    (reference : String) :
    Keeps (fun s : Setting ↦ s.cache.linksOf other)
      (Setting.locate chain repository reference) := by
  have hresolve : Keeps (fun s : Setting ↦ s.cache.linksOf other)
      (Setting.onWorld (Resolver.resolve chain repository reference)) :=
    keeps_within _ fun _ _ ↦ rfl
  exact (composes_keeps _).locateLink (keeps_linksOf_lookUp h reference) hresolve
    fun identifier ↦ keeps_linksOf_add h reference identifier

end Link

namespace Server

variable {ε α : Type} {repository other : String}

/-- The links of a repository that are in memory. -/
def linksOf (repository : String) (s : Server) : String → Option String :=
  s.registry.links.linksOf repository

theorem keeps_linksOf_onLinks {act : Action Link.Setting ε α}
    (h : Keeps (fun s : Link.Setting ↦ s.cache.linksOf other) act) :
    Keeps (linksOf other) (onLinks act) := fun s ↦ h s.setting

theorem keeps_linksOf_onWorld (act : Action World ε α) : Keeps (linksOf other) (onWorld act) :=
  keeps_within act fun _ _ ↦ rfl

theorem keeps_linksOf_located (h : other ≠ repository) (reference : String) :
    Keeps (linksOf other) (locate repository reference) :=
  keeps_bind (keeps_reading _ _) fun chain ↦
    keeps_linksOf_onLinks (Link.keeps_linksOf_locate h chain reference)

/-- All links that a read of a manifest adds are links of its repository. -/
theorem keeps_linksOf_serveManifest (h : other ≠ repository) (method : Method)
    (reference : String) :
    Keeps (linksOf other) (serveManifest method repository reference) := by
  refine (composes_keeps (linksOf other)).serveManifest (keeps_linksOf_located h reference)
    (fun identifier path ↦ ?_) (fun added identifier ↦ ?_) (fun _ _ ↦ rfl) method
  · exact keeps_bind (keeps_reading _ _) fun _ ↦ keeps_linksOf_onWorld _
  · exact keeps_linksOf_onLinks (Link.keeps_linksOf_add h added identifier)

theorem keeps_linksOf_serveBlob (h : other ≠ repository) (method : Method) (digest : String) :
    Keeps (linksOf other) (serveBlob method repository digest) := by
  refine (composes_keeps (linksOf other)).serveBlob (keeps_linksOf_located h digest)
    (fun _ identifier path ↦ ?_) method
  exact keeps_bind (keeps_reading _ _) fun _ ↦ keeps_linksOf_onWorld _

/-! ### What leaves the whole registry alone -/

/-- The registry is the same, and the files are if the resolvers leave them as they are. -/
def Undisturbed (s t : Server) : Prop :=
  t.registry = s.registry ∧
    ((∀ r ∈ s.registry.resolvers, r.Reads) → t.world.files = s.world.files)

instance : IsPreorder Server Undisturbed where
  refl _ := ⟨rfl, fun _ ↦ rfl⟩
  trans s t u hst htu := by
    refine ⟨htu.1.trans hst.1, fun hreads ↦ ?_⟩
    have hlater := htu.2 (by rwa [hst.1])
    exact hlater.trans (hst.2 hreads)

theorem moves_undisturbed_dig (query : Query.Dig) : Moves Undisturbed (dig query) := by
  refine (composes_moves Undisturbed).dig (fun repository reference s ↦ ⟨rfl, fun hreads ↦ ?_⟩)
    (fun identifier path s ↦ ⟨rfl, fun _ ↦ rfl⟩) query
  exact Resolver.keeps_resolve hreads repository reference s.world

/-- A path to ask the chain of resolvers addresses nothing. -/
theorem addressed?_of_dig {request : Request} (h : request.uri.routePath = "/dig") :
    addressed? request = none := by
  rw [addressed?, h]
  decide

theorem undisturbed_of_nowhere {request : Request} (h : addressed? request = none) (s : Server) :
    Undisturbed s ((handle request).run s).2 := by
  have hhandled := handled request s
  generalize (handle request).run s = result at hhandled ⊢
  cases hhandled with
  | told response refused => exact refl s
  | dug query nowhere =>
    rw [ended_snd]
    exact moves_undisturbed_dig query s
  | performed route digest addressed =>
    rw [h] at addressed
    cases addressed

/-! ### Any request -/

/-- For every repository but one, what is stored for it and its links in memory are the same. -/
structure Isolates (repository : String) (s t : Server) : Prop where
  manifests : ∀ other, other ≠ repository →
    t.registry.manifests.tableOf other = s.registry.manifests.tableOf other
  blobs : Blob.Store.SameElsewhere repository s.registry.blobs t.registry.blobs
  links : ∀ other, other ≠ repository → linksOf other t = linksOf other s

variable {request : Request} {route : Route} {s t : Server} {repository reference : String}

theorem isolates_of_kept (hstored : stored t = stored s)
    (hlinks : ∀ other, other ≠ repository → linksOf other t = linksOf other s) :
    Isolates repository s t := by
  rw [stored, stored, Prod.mk.injEq] at hstored
  refine ⟨fun other _ ↦ by rw [hstored.2], ?_, hlinks⟩
  rw [hstored.1]
  exact .refl _ _

/-- A manifest comes into the table of its own repository. -/
theorem isolates_of_inserted {m : Manifest}
    (hstored : stored t =
      (s.registry.blobs, s.registry.manifests.insert repository reference m))
    (hlinks : ∀ other, other ≠ repository → linksOf other t = linksOf other s) :
    Isolates repository s t := by
  rw [stored, Prod.mk.injEq] at hstored
  refine ⟨fun other h ↦ ?_, ?_, hlinks⟩
  · rw [hstored.2, Manifest.Store.tableOf_insert, if_neg h.symm]
  · rw [hstored.1]
    exact .refl _ _

/-- What is done under a route leaves other repositories alone, and adds one blob at most. -/
theorem isolates_of_performed {result : Outcome RegistryError Response × Server}
    (h : Performed request s route result) :
    Isolates route.repository s result.2 ∧
      s.registry.blobs.Adds route.repository request.body result.2.registry.blobs := by
  have hadds {t : Server} (hstored : t.registry.blobs = s.registry.blobs) :
      s.registry.blobs.Adds route.repository request.body t.registry.blobs :=
    Or.inl (by rw [hstored])
  cases h with
  | refused | drew => exact ⟨isolates_of_kept rfl fun _ _ ↦ rfl, hadds rfl⟩
  | called _ call calls =>
    obtain ⟨helsewhere, hadded⟩ := elsewhere_of_calls calls s.registry.blobs s.world.clock
    exact ⟨⟨fun _ _ ↦ rfl, helsewhere, fun _ _ ↦ rfl⟩, hadded⟩
  | pushed => exact ⟨isolates_of_inserted rfl fun _ _ ↦ rfl, hadds rfl⟩
  | manifest repository reference read =>
    have hlinks (other : String) (hne : other ≠ repository) :=
      keeps_linksOf_serveManifest hne request.method reference s
    rcases stored_serveManifest request.method repository reference s with
      hkept | ⟨-, identifier, body, -, hinserted⟩
    · exact ⟨isolates_of_kept hkept hlinks, hadds (congrArg Prod.fst hkept)⟩
    · exact ⟨isolates_of_inserted hinserted hlinks, hadds (congrArg Prod.fst hinserted)⟩
  | blob repository digest read =>
    have hlinks (other : String) (hne : other ≠ repository) :=
      keeps_linksOf_serveBlob hne request.method digest s
    have hkept := keeps_serveBlob request.method repository digest s
    exact ⟨isolates_of_kept hkept hlinks, hadds (congrArg Prod.fst hkept)⟩

theorem isolates_of_addressed (haddressed : addressed? request = some route) (s : Server) :
    Isolates route.repository s ((handle request).run s).2 ∧
      s.registry.blobs.Adds route.repository request.body
        ((handle request).run s).2.registry.blobs := by
  have hhandled := handled request s
  generalize (handle request).run s = result at hhandled ⊢
  cases hhandled with
  | told response refused => exact ⟨isolates_of_kept rfl fun _ _ ↦ rfl, Or.inl rfl⟩
  | dug query nowhere =>
    rw [haddressed] at nowhere
    cases nowhere
  | performed other digest addressed =>
    rw [haddressed, Option.some.injEq] at addressed
    subst addressed
    rw [ended_snd]
    exact isolates_of_performed (performed request route digest s)

/-- Whatever a request is answered: for every repository but the one that it addresses, the
manifests, the layers, the uploads and the links in memory are as they were, and of the blobs none
is lost and one at most came in, under the digest of the bytes that the request brings, behind what
was there of an upload of its own repository. A request that addresses nothing, or asks the chain of
resolvers, leaves the registry as it was, and the files too, which resolvers only read. -/
theorem isolation_of_request (request : Request) (s : Server) :
    let t := ((handle request).run s).2
    (∀ route, addressed? request = some route →
      (∀ other, other ≠ route.repository →
        t.registry.manifests.tableOf other = s.registry.manifests.tableOf other ∧
        t.registry.blobs.layersOf other = s.registry.blobs.layersOf other ∧
        (∀ id session, session.repository = other →
          (t.registry.blobs.sessions.get? id = some session ↔
            s.registry.blobs.sessions.get? id = some session)) ∧
        ∀ reference, t.registry.links.memory.get? (other, reference) =
          s.registry.links.memory.get? (other, reference)) ∧
      s.registry.blobs.Adds route.repository request.body t.registry.blobs) ∧
    (addressed? request = none ∨ request.uri.routePath = "/dig" →
      t.registry.blobs = s.registry.blobs ∧ t.registry.manifests = s.registry.manifests ∧
        t.registry.links = s.registry.links ∧
        ((∀ r ∈ s.registry.resolvers, r.Reads) → t.world.files = s.world.files)) := by
  intro t
  refine ⟨fun route haddressed ↦ ?_, fun hnowhere ↦ ?_⟩
  · obtain ⟨hisolates, hadds⟩ := isolates_of_addressed haddressed s
    refine ⟨fun other hother ↦ ⟨?_, ?_, ?_, ?_⟩, hadds⟩
    · exact hisolates.manifests other hother
    · exact hisolates.blobs.layers other hother
    · rintro id session rfl
      exact hisolates.blobs.uploads id session hother
    · exact congrFun (hisolates.links other hother)
  · have hnone : addressed? request = none := hnowhere.elim (fun h ↦ h) addressed?_of_dig
    obtain ⟨hregistry, hfiles⟩ := undisturbed_of_nowhere hnone s
    have hsame : t.registry = s.registry := hregistry
    rw [hsame]
    exact ⟨rfl, rfl, rfl, hfiles⟩

/-- A manifest that is pulled into one repository, when another one has a link under the same tag
and an upload; and the same tag asked of the chain of resolvers. -/
theorem isolation_of_request_same_tag :
    let blobs := (∅ : Blob.Store).putSession "u" ⟨"other", ⟨#[1, 2, 3]⟩, 0⟩
    let s : Server :=
      ⟨⟨blobs, ∅, ⟨Table.insert ∅ ("other", "v1") "theirs", none⟩, [.fixed "fixed" ["image"]],
        ⟨defaultGateway, 0⟩, none⟩,
        ⟨∅, ⟨fun _ ↦ .answer ⟨.ok, []⟩ (.complete "[]".toUTF8), []⟩, [], 0, fun _ ↦ "fresh", 0⟩⟩
    let read : Request :=
      ⟨.get, ⟨none, none, "/v2/library/manifests/v1", none⟩, [], ByteArray.empty⟩
    let ask : Request := ⟨.get, ⟨none, none, "/dig", some "q=library:v1"⟩, [], ByteArray.empty⟩
    let t := ((handle read).run s).2
    let u := ((handle ask).run s).2
    (t.registry.manifests.get? "library" "v1").isSome = true ∧
      t.registry.links.memory.get? ("library", "v1") = some "image" ∧
      t.registry.links.memory.get? ("other", "v1") = some "theirs" ∧
      t.registry.blobs.sessions.get? "u" = some ⟨"other", ⟨#[1, 2, 3]⟩, 0⟩ ∧
      u.registry.links = s.registry.links ∧ u.world.files = s.world.files := by
  intro blobs s read ask t u
  have haddressed : addressed? read = some (.manifest "library" "v1") := by decide +kernel
  have hpulled : (t.registry.manifests.get? "library" "v1").isSome = true ∧
      t.registry.links.memory.get? ("library", "v1") = some "image" := by decide +kernel +revert
  have hreads : ∀ r ∈ s.registry.resolvers, r.Reads := by
    intro r hr
    rw [List.mem_singleton.1 hr]
    exact Resolver.reads_fixed "fixed" ["image"]
  obtain ⟨-, -, huploads, hlinks⟩ :=
    ((isolation_of_request read s).1 _ haddressed).1 "other" (by decide)
  obtain ⟨-, -, hsame, hfiles⟩ := (isolation_of_request ask s).2 (Or.inr (by decide))
  refine ⟨hpulled.1, hpulled.2, ?_, ?_, hsame, hfiles hreads⟩
  · exact (hlinks "v1").trans rfl
  · exact (huploads "u" ⟨"other", ⟨#[1, 2, 3]⟩, 0⟩ rfl).2 rfl

end Server

end ImageRegistry
