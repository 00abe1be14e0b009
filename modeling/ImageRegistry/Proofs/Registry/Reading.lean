import ImageRegistry.Proofs.Action
import ImageRegistry.Proofs.Registry.Refusal

/-!
# Where what is served comes from

What a registry serves it has in its store, or it asks the gateway for it. `Offers` and `Relays`
name the bytes that the gateway answers with: those of a manifest, and those of a blob. A manifest
that is pulled is made of the bytes that are offered and is kept as it is (`Pulled`); a blob that is
not in memory is sent on as it comes in (`found_of_run_serveBlob`). In neither case does anything
look at the bytes before they are served.
-/

namespace ImageRegistry.Server

open ImageRegistry.Action Http

variable {s t : Server}

/-! ### Pulling a manifest -/

/-- The bytes that the gateway answers with when it is asked for a manifest at the identifier that
is located for its reference. -/
def Offers (s : Server) (repository reference identifier : String) (body : ByteArray) : Prop :=
  ∃ u v, (locate repository reference).run s = (.done identifier, u) ∧
    (get identifier (manifestPath reference)).run u = (.done body, v)

/-- What can come of a pull. -/
inductive Pulled (s : Server) (repository reference : String) :
    Outcome RegistryError Manifest × Server → Prop where
  /-- Nothing was obtained, and nothing is kept. -/
  | missed (outcome : Outcome RegistryError Manifest) (u : Server)
      (obtained : (obtain repository reference).run s = (outcome, u))
      (nothing : ∀ m, outcome ≠ .done m) :
    Pulled s repository reference (outcome, u)
  /-- The bytes that the gateway offers are kept as they are. -/
  | kept (identifier : String) (body : ByteArray) (m : Manifest) (u v : Server)
      (offers : Offers s repository reference identifier body)
      (made : m = .ofBody body none (some identifier))
      (obtained : (obtain repository reference).run s = (.done m, u))
      (linked : (addLinks repository identifier (warmed m) :
        Action Server RegistryError Unit).run u = (.done (), v)) :
    Pulled s repository reference
      (.done m, v.withManifests (v.registry.manifests.insert repository reference m))

/-- Links are added whatever becomes of their files. -/
theorem run_addLinks {ε : Type} (repository identifier : String) (references : List String)
    (s : Server) :
    ∃ t, (addLinks repository identifier references : Action Server ε Unit).run s =
      (.done (), t) := by
  induction references generalizing s with
  | nil => exact ⟨s, rfl⟩
  | cons reference rest ih =>
    have hadd : ∃ result t, (onLinks (Link.Setting.add repository reference identifier) :
        Action Server ε _).run s = (.done result, t) := ⟨_, _, rfl⟩
    obtain ⟨result, t, hadd⟩ := hadd
    obtain ⟨u, hrest⟩ := ih t
    exact ⟨u, run_bind_eq_done.2 ⟨result, t, hadd, hrest⟩⟩

/-- What is obtained is made of the bytes that the gateway offers, and nothing checks them. -/
theorem offers_of_run_obtain {repository reference : String} {m : Manifest}
    (h : (obtain repository reference).run s = (.done m, t)) :
    ∃ identifier body, Offers s repository reference identifier body ∧
      m = .ofBody body none (some identifier) := by
  obtain ⟨identifier, u, hlocate, h⟩ := run_bind_eq_done.1 h
  obtain ⟨body, v, hget, h⟩ := run_bind_eq_done.1 h
  rw [run_pure, Prod.mk.injEq, Outcome.done.injEq] at h
  exact ⟨identifier, body, ⟨u, v, run_mapError_eq_done.1 hlocate, run_mapError_eq_done.1 hget⟩,
    h.1.symm⟩

theorem pulled (s : Server) (repository reference : String) :
    Pulled s repository reference ((pull repository reference).run s) := by
  rcases hobtain : (obtain repository reference).run s with ⟨m | error | _, u⟩
  · obtain ⟨identifier, body, hoffers, hmade⟩ := offers_of_run_obtain hobtain
    obtain ⟨v, hlinked⟩ : ∃ v, (addLinks repository identifier (warmed m) :
      Action Server RegistryError Unit).run u = (.done (), v) := run_addLinks _ _ _ u
    have hrun : (pull repository reference).run s =
        (.done m, v.withManifests (v.registry.manifests.insert repository reference m)) := by
      refine run_bind_eq_done.2 ⟨m, u, hobtain, ?_⟩
      subst hmade
      exact run_bind_eq_done.2 ⟨(), v, hlinked, rfl⟩
    rw [hrun]
    exact .kept identifier body m u v hoffers hmade hobtain hlinked
  · rw [pull, run_bind, hobtain]
    exact .missed (.failed error) u hobtain fun m h ↦ by cases h
  · rw [pull, run_bind, hobtain]
    exact .missed .stuck u hobtain fun m h ↦ by cases h

/-! ### Serving a manifest or a blob -/

/-- A manifest that is there is served as it is, and nothing changes. -/
theorem run_serveManifest_of_found {repository reference : String} {m : Manifest}
    (hfound : s.registry.manifests.get? repository reference = some m) (method : Method) :
    (serveManifest method repository reference).run s = (.done (manifestResponse method m), s) := by
  rw [serveManifest, run_bind, run_reading, hfound]
  rfl

/-- A manifest that is missing is served as it is pulled. -/
theorem run_serveManifest_of_missing {repository reference : String}
    (hmissing : s.registry.manifests.get? repository reference = none) (method : Method) :
    (serveManifest method repository reference).run s =
      (pull repository reference >>= fun m ↦ pure (manifestResponse method m)).run s := by
  rw [serveManifest, run_bind, run_reading, hmissing]

/-- A manifest that is served is in the store afterwards. -/
theorem found_of_run_serveManifest {method : Method} {repository reference : String}
    {response : Response}
    (h : (serveManifest method repository reference).run s = (.done response, t)) :
    ∃ m, t.registry.manifests.get? repository reference = some m ∧
      response = manifestResponse method m := by
  cases hget : s.registry.manifests.get? repository reference with
  | some m =>
    rw [run_serveManifest_of_found hget, Prod.mk.injEq, Outcome.done.injEq] at h
    obtain ⟨rfl, rfl⟩ := h
    exact ⟨m, hget, rfl⟩
  | none =>
    rw [run_serveManifest_of_missing hget] at h
    obtain ⟨m, u, hpull, h⟩ := run_bind_eq_done.1 h
    rw [run_pure, Prod.mk.injEq, Outcome.done.injEq] at h
    obtain ⟨rfl, rfl⟩ := h
    have hpulled := pulled s repository reference
    rw [hpull] at hpulled
    cases hpulled with
    | missed _ _ obtained nothing => exact absurd rfl (nothing m)
    | kept identifier body _ _ v offers made obtained linked =>
      refine ⟨m, ?_, rfl⟩
      show (v.registry.manifests.insert repository reference m).get? repository reference = some m
      rw [Manifest.Store.get?_insert]
      simp

/-- Serving a manifest changes nothing that is stored, or a manifest was missing and is kept as the
gateway offers it. -/
theorem stored_serveManifest (method : Method) (repository reference : String) (s : Server) :
    let t := ((serveManifest method repository reference).run s).2
    stored t = stored s ∨ s.registry.manifests.get? repository reference = none ∧
      ∃ identifier body, Offers s repository reference identifier body ∧
        stored t = (s.registry.blobs, s.registry.manifests.insert repository reference
          (.ofBody body none (some identifier))) := by
  intro t
  cases hget : s.registry.manifests.get? repository reference with
  | some m =>
    refine Or.inl ?_
    show stored ((serveManifest method repository reference).run s).2 = stored s
    rw [run_serveManifest_of_found hget]
  | none =>
    have ht : t = ((pull repository reference).run s).2 := by
      show ((serveManifest method repository reference).run s).2 = _
      rw [run_serveManifest_of_missing hget, snd_run_map]
    have hpulled := pulled s repository reference
    rw [ht]
    generalize (pull repository reference).run s = result at hpulled ⊢
    cases hpulled with
    | missed outcome u obtained nothing =>
      have hkept := keeps_obtain repository reference s
      rw [obtained] at hkept
      exact Or.inl hkept
    | kept identifier body m u v offers made obtained linked =>
      have hkept : stored v = stored s := by
        have hobtain := keeps_obtain repository reference s
        have hlinks : stored _ = stored u :=
          keeps_addLinks (ε := RegistryError) repository identifier (warmed m) u
        rw [obtained] at hobtain
        rw [linked] at hlinks
        exact hlinks.trans hobtain
      rw [stored, stored, Prod.mk.injEq] at hkept
      refine Or.inr ⟨rfl, identifier, body, offers, ?_⟩
      show (v.registry.blobs, v.registry.manifests.insert repository reference m) = _
      rw [hkept.1, hkept.2, made]

/-- What the gateway answers with when it is asked for a blob at the identifier that is located for
its digest. -/
def Relays (s : Server) (method : Method) (repository digest identifier : String)
    (fetched : Fetched) : Prop :=
  ∃ u v, (locate repository digest).run s = (.done identifier, u) ∧
    (fetch method identifier ("blobs/" ++ digest)).run u = (.done fetched, v)

/-- A blob that is served is in memory, or else it is what the gateway answers with, and nothing
checks it. -/
theorem found_of_run_serveBlob {method : Method} {repository digest : String} {response : Response}
    (h : (serveBlob method repository digest).run s = (.done response, t)) :
    (∃ data, s.registry.blobs.get? digest = some data ∧
        response = blobResponse method digest data) ∨
      s.registry.blobs.get? digest = none ∧ ∃ identifier fetched,
        Relays s method repository digest identifier fetched ∧ fetched.status.isSuccess = true ∧
          response = relayedResponse digest identifier fetched := by
  rw [serveBlob, run_bind, run_reading] at h
  cases hget : s.registry.blobs.get? digest with
  | some data =>
    rw [hget] at h
    cases h
    exact Or.inl ⟨data, rfl, rfl⟩
  | none =>
    rw [hget] at h
    obtain ⟨identifier, u, hlocate, h⟩ := run_bind_eq_done.1 h
    obtain ⟨fetched, v, hfetch, h⟩ := run_bind_eq_done.1 h
    split at h
    · next hsuccess =>
      cases h
      exact Or.inr ⟨rfl, identifier, fetched, ⟨u, _, run_mapError_eq_done.1 hlocate,
        run_mapError_eq_done.1 hfetch⟩, hsuccess, rfl⟩
    · cases h

end ImageRegistry.Server
