import ImageRegistry.Proofs.Link.Spare
import ImageRegistry.Proofs.Registry.Reading
import ImageRegistry.Proofs.Registry.Request

/-!
# The links of other tags when a manifest is pulled

A pull adds links under the identifier that it located: for the reference that was asked for, for
the digest of the manifest, and for every text that the document of the manifest gives as a digest.
Nobody checks that those are digests, and the document comes from the gateway. So a pull spares the
link of a tag when its manifest is `Harmless`, and no such text names that tag or its link file;
when one does, the tag points to what was pulled afterwards.

A server is related to what becomes of it by `Spares`, which every part of a pull moves by. Of files
it says which names were written, so it holds of all files with the name of the link file of the
tag, in every directory; that a path which led to one of them still leads there comes with it.
-/

namespace ImageRegistry

open ImageRegistry.Action Http

namespace Server

variable {ε α : Type} {s t : Server} {repository other reference : String}

/-- While the resolvers leave the files alone, they stay, and a link is spared. -/
def Spares (repository other : String) (s t : Server) : Prop :=
  (∀ r ∈ s.registry.resolvers, r.Reads) →
    t.registry.resolvers = s.registry.resolvers ∧
      Link.Spared repository other s.setting t.setting

instance (repository other : String) : IsPreorder Server (Spares repository other) where
  refl s _ := ⟨rfl, refl s.setting⟩
  trans s t u hst htu hreads := by
    obtain ⟨hresolvers, hspared⟩ := hst hreads
    obtain ⟨hresolvers', hspared'⟩ := htu (by rwa [hresolvers])
    exact ⟨hresolvers'.trans hresolvers, IsTrans.trans _ _ _ hspared hspared'⟩

theorem moves_onLinks {act : Action Link.Setting ε α}
    (h : Moves (Link.Spared repository other) act) :
    Moves (Spares repository other) (onLinks act) := fun s _ ↦ ⟨rfl, h s.setting⟩

theorem moves_locate (h : Link.Apart other reference) :
    Moves (Spares repository other) (locate repository reference) := fun s hreads ↦
  moves_onLinks (Link.moves_locate hreads h) s hreads

theorem moves_get (identifier path : String) :
    Moves (Spares repository other) (get identifier path) := by
  have hgateway {act : Action Remote.Service FetchFailure ByteArray} :
      Moves (Spares repository other) (onWorld (World.onGateway act)) := fun _ _ ↦
    ⟨rfl, Link.spared_of_eq rfl rfl⟩
  exact moves_bind (moves_reading _) fun gateway ↦ hgateway

theorem moves_addLinks (identifier : String) {references : List String}
    (h : ∀ reference ∈ references, Link.Apart other reference) :
    Moves (Spares repository other)
      (addLinks repository identifier references : Action Server ε Unit) :=
  (composes_moves (Spares repository other)).addLinks fun reference hreference ↦
    moves_onLinks (Link.moves_add (h reference hreference) identifier)

theorem moves_obtain (h : Link.Apart other reference) :
    Moves (Spares repository other) (obtain repository reference) :=
  (composes_moves (Spares repository other)).obtain (moves_locate h) moves_get

/-- A manifest does not name a tag among the digests of its document, nor its link file. -/
def Harmless (other : String) (m : Manifest) : Prop :=
  ∀ document, Manifest.Document.read? m.body = some document →
    ∀ reference ∈ document.references, Link.Apart other reference

/-- A pull spares the link of a tag that its manifest does not name. -/
theorem spares_pull (hother : Digest.isDigest other = false) (h : Link.Apart other reference)
    (hharmless : ∀ m, ((pull repository reference).run s).2.registry.manifests.get? repository
      reference = some m → Harmless other m) :
    Spares repository other s ((pull repository reference).run s).2 := by
  have hpulled := pulled s repository reference
  generalize (pull repository reference).run s = result at hpulled hharmless ⊢
  cases hpulled with
  | missed outcome u obtained nothing =>
    have hobtain : Spares repository other s _ := moves_obtain h s
    rwa [obtained] at hobtain
  | kept identifier body m u v offers made obtained linked =>
    have hm : Harmless other m := by
      refine hharmless m ?_
      show (v.registry.manifests.insert repository reference m).get? repository reference = some m
      rw [Manifest.Store.get?_insert]
      simp
    have hwarmed : ∀ r ∈ warmed m, Link.Apart other r := by
      intro r hr
      rw [warmed] at hr
      split at hr
      · next document hdocument =>
        rcases List.mem_append.1 hr with hr | hr
        · exact hm document hdocument r hr
        · rw [List.mem_singleton.1 hr, made, Manifest.digest_ofBody]
          exact Link.apart_of_isDigest hother (Digest.isDigest_ofContent body)
      · cases hr
    have hobtain : Spares repository other s _ := moves_obtain h s
    have hlinks : Spares repository other u _ :=
      moves_addLinks (ε := RegistryError) identifier hwarmed u
    rw [obtained] at hobtain
    rw [linked] at hlinks
    exact IsTrans.trans _ _ _ hobtain hlinks

/-- A tag that can stand in a path is apart from every other reference that a path addresses. -/
theorem apart_of_addressed {request : Request} (hother : '/' ∉ other.toList)
    (haddressed : addressed? request = some (.manifest repository reference))
    (hne : reference ≠ other) : Link.Apart other reference := by
  obtain ⟨rest, -, haddressed⟩ := Option.bind_eq_some_iff.1 haddressed
  obtain ⟨path, -, hroute⟩ := Option.bind_eq_some_iff.1 haddressed
  exact Link.apart_of_ne hne hother (Route.slash_not_mem_of_ofPath? hroute)

/-- Whatever the gateway answers when a manifest is read: the link of another tag is as it was, in
memory and in its file, if the document of the manifest names neither the tag nor its link file
where it should name digests. -/
theorem links_of_read {request : Request} (hread : request.method.isRead = true)
    (haddressed : addressed? request = some (.manifest repository reference))
    (hresolvers : ∀ r ∈ s.registry.resolvers, r.Reads) (hother : Digest.isDigest other = false)
    (hreference : Link.Apart other reference)
    (hharmless : ∀ m, ((handle request).run s).2.registry.manifests.get? repository
      reference = some m → Harmless other m) :
    let t := ((handle request).run s).2
    t.registry.links.memory.get? (repository, other) =
        s.registry.links.memory.get? (repository, other) ∧
      (Link.Plain s.world.files →
        (∀ place content, place.getLast? = some (Link.nameOf other) →
          (t.world.files.node? place = some (.file content) ↔
            s.world.files.node? place = some (.file content))) ∧
        ∀ root content,
          s.world.files.read (Link.path root repository other).toUTF8 = .ok content →
            t.world.files.read (Link.path root repository other).toUTF8 = .ok content) := by
  intro t
  have hspares : Spares repository other s t := by
    show Spares repository other s ((handle request).run s).2
    have hhandled := handled request s
    generalize (handle request).run s = result at hhandled hharmless ⊢
    cases hhandled with
    | told response refused => exact refl s
    | dug query nowhere =>
      rw [haddressed] at nowhere
      cases nowhere
    | performed route digest addressed =>
      rw [haddressed, Option.some.injEq] at addressed
      subst addressed
      rw [ended_snd] at hharmless ⊢
      rcases run_perform_manifest hread repository reference digest request.headers request.body s
        with ⟨error, hrefused⟩ | hserve
      · rw [hrefused]
        exact refl s
      · rw [hserve] at hharmless ⊢
        cases hget : s.registry.manifests.get? repository reference with
        | some m =>
          rw [run_serveManifest_of_found hget]
          exact refl s
        | none =>
          rw [run_serveManifest_of_missing hget, snd_run_map] at hharmless ⊢
          exact spares_pull hother hreference hharmless
  obtain ⟨-, hspared⟩ := hspares hresolvers
  refine ⟨hspared.memory, fun hplain ↦ ⟨fun place content hplace ↦ ?_, fun root content hfile ↦ ?_⟩⟩
  · exact (hspared.files hplain).file_iff hplace content
  · exact (hspared.files hplain).read_of_read (Link.getLast?_parts_path root repository other)
      (Link.isName_nameOf other) (hplain other) hfile

/-- A document that gives a digest for its configuration, and a tag with a link file. -/
theorem links_of_read_digest :
    let files : Files.Tree := ⟨((Table.insert ∅ ["links".toUTF8] .directory).insert
      ["links".toUTF8, "library".toUTF8] .directory).insert
        ["links".toUTF8, "library".toUTF8, "@stable".toUTF8] (.file "good\n".toUTF8)⟩
    let s : Server :=
      ⟨⟨∅, ∅, ⟨(Table.insert ∅ ("library", "stable") "good").insert ("library", "v1") "image",
        some "links"⟩, [.fixed "fixed" ["image"]], ⟨defaultGateway, 0⟩, none⟩,
        ⟨files, ⟨fun _ ↦ .answer ⟨.ok, []⟩
          (.complete "\x7b\"config\":\x7b\"digest\":\"sha256:0a\"\x7d\x7d".toUTF8), []⟩, [], 0,
          fun _ ↦ "fresh", 0⟩⟩
    let request : Request :=
      ⟨.get, ⟨none, none, "/v2/library/manifests/v1", none⟩, [], ByteArray.empty⟩
    let t := ((handle request).run s).2
    (t.registry.manifests.get? "library" "v1").isSome = true ∧
      t.registry.links.memory.get? ("library", "sha256:0a") = some "image" ∧
      t.registry.links.memory.get? ("library", "stable") = some "good" ∧
      t.world.files.node? ["links".toUTF8, "library".toUTF8, "@stable".toUTF8] =
        some (.file "good\n".toUTF8) := by
  intro files s request t
  have hpulled : (t.registry.manifests.get? "library" "v1").isSome = true ∧
      t.registry.links.memory.get? ("library", "sha256:0a") = some "image" ∧
      ∀ m ∈ t.registry.manifests.get? "library" "v1",
        ∀ document ∈ Manifest.Document.read? m.body, ∀ reference ∈ document.references,
          Digest.isDigest reference = true := by decide +kernel +revert
  have haddressed : addressed? request = some (.manifest "library" "v1") := by
    decide +kernel +revert
  have hplain : Link.Plain files := by
    have hnone : files.nodes.entries.all (fun e ↦ match e.2 with
      | .link _ => false
      | _ => true) = true := by decide +kernel +revert
    intro reference place target hplace hlink
    cases place with
    | nil => cases hlink
    | cons first rest =>
      have hmem := (files.nodes.get?_eq_some_iff (first :: rest) (.link target)).1 hlink
      exact Bool.false_ne_true (List.all_eq_true.1 hnone _ hmem)
  obtain ⟨hsome, hlinked, hdigests⟩ := hpulled
  have htag : Digest.isDigest "stable" = false := by decide
  have hapart : Link.Apart "stable" "v1" := apart_of_addressed (by decide) haddressed (by decide)
  have hreads : ∀ r ∈ s.registry.resolvers, r.Reads := by
    intro r hr
    rw [List.mem_singleton.1 hr]
    exact Resolver.reads_fixed "fixed" ["image"]
  obtain ⟨hmemory, hfiles⟩ := links_of_read rfl haddressed hreads htag hapart
    fun m hm document hdocument reference hreference ↦
      Link.apart_of_isDigest htag (hdigests m hm document hdocument reference hreference)
  refine ⟨hsome, hlinked, hmemory, ((hfiles hplain).1 _ _ ?_).2 rfl⟩
  decide +kernel

/-- A document that gives a tag for the digest of its configuration. -/
theorem links_of_read_config :
    let s : Server :=
      ⟨⟨∅, ∅, ⟨Table.insert ∅ ("library", "stable") "good", none⟩, [.fixed "fixed" ["image"]],
        ⟨defaultGateway, 0⟩, none⟩,
        ⟨∅, ⟨fun _ ↦ .answer ⟨.ok, []⟩
          (.complete "\x7b\"config\":\x7b\"digest\":\"stable\"\x7d\x7d".toUTF8), []⟩, [], 0,
          fun _ ↦ "fresh", 0⟩⟩
    let request : Request :=
      ⟨.get, ⟨none, none, "/v2/library/manifests/v1", none⟩, [], ByteArray.empty⟩
    let t := ((handle request).run s).2
    s.registry.manifests.get? "library" "v1" = none ∧ Digest.isDigest "stable" = false ∧
      s.registry.links.memory.get? ("library", "stable") = some "good" ∧
      t.registry.links.memory.get? ("library", "stable") = some "image" := by
  decide +kernel

end Server

end ImageRegistry
