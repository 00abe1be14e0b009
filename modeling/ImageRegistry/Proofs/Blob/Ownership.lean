import ImageRegistry.Proofs.Blob.Run

/-!
# Who owns the blobs

The store keeps no count of the repositories that have a blob, so `remove` has to look at the layers
of every other repository before it drops one. What makes that right is `Sound`: each blob has the
digest of its bytes, and the digests with a blob are exactly the layers of the repositories. Every
operation keeps it. `own` adds to both sides at once; `remove` takes a digest from the content only
when its last owner goes (`get?_remove`); the operations on uploads touch neither side.

`remove` counts as it goes. The count is right because each step of its loop takes the one binding
that it counts (`count_dropOrphans`), so that the count and the size of what is left always add up
to the size at the start.
-/

namespace ImageRegistry.Blob.Store

variable {s t : Store} {repository other digest : String} {data : ByteArray}

/-! ### Layers -/

/-- Owning a blob adds its digest to the layers of that repository, and to no others. -/
theorem mem_layersOf_own {d : String} :
    d ∈ (s.own repository digest data).layersOf other ↔
      (other = repository ∧ d = digest) ∨ d ∈ s.layersOf other := by
  show d ∈ ((s.layers.insert repository _).get? other).getD [] ↔ _
  rw [Table.get?_insert]
  rcases eq_or_ne repository other with rfl | h
  · rw [if_pos rfl, Option.getD_some, Ordered.mem_insert_id]
    simp
  · rw [if_neg h]
    simp [h.symm, layersOf]

/-- A repository without layers has no entry, or an empty one. -/
theorem mem_layersOf_iff :
    digest ∈ s.layersOf repository ↔
      ∃ digests, s.layers.get? repository = some digests ∧ digest ∈ digests := by
  rw [layersOf]
  cases s.layers.get? repository with
  | none => simp
  | some digests => simp

theorem isOwned_iff {layers : Table String (List String)} :
    isOwned layers digest = true ↔
      ∃ repository digests, layers.get? repository = some digests ∧ digest ∈ digests := by
  rw [isOwned, List.any_eq_true]
  constructor
  · rintro ⟨digests, hmem, hcontains⟩
    obtain ⟨⟨repository, _⟩, hentry, rfl⟩ := List.mem_map.1 hmem
    exact ⟨repository, _, (layers.get?_eq_some_iff _ _).2 hentry, List.contains_iff_mem.1 hcontains⟩
  · rintro ⟨repository, digests, hget, hmem⟩
    have hentry := (layers.get?_eq_some_iff _ _).1 hget
    exact ⟨digests, List.mem_map.2 ⟨_, hentry, rfl⟩, List.contains_iff_mem.2 hmem⟩

/-- The repository has the digest among its layers, and no other repository has. -/
def SolelyOwned (s : Store) (repository digest : String) : Prop :=
  digest ∈ s.layersOf repository ∧ ∀ other, other ≠ repository → digest ∉ s.layersOf other

/-- What is owned when a repository's layers are forgotten is what another repository has. -/
theorem isOwned_erase_iff :
    isOwned (s.layers.erase repository) digest = true ↔
      ∃ other, other ≠ repository ∧ digest ∈ s.layersOf other := by
  rw [isOwned_iff]
  constructor
  · rintro ⟨other, digests, hget, hmem⟩
    rw [Table.get?_erase] at hget
    split at hget
    · cases hget
    · next hne => exact ⟨other, Ne.symm hne, mem_layersOf_iff.2 ⟨digests, hget, hmem⟩⟩
  · rintro ⟨other, hne, hmem⟩
    obtain ⟨digests, hget, hmem⟩ := mem_layersOf_iff.1 hmem
    exact ⟨other, digests, by rw [Table.get?_erase_of_ne _ (Ne.symm hne), hget], hmem⟩

theorem solelyOwned_iff :
    s.SolelyOwned repository digest ↔
      digest ∈ s.layersOf repository ∧ isOwned (s.layers.erase repository) digest = false := by
  rw [← Bool.not_eq_true, isOwned_erase_iff, SolelyOwned]
  simp

/-! ### The loop of `remove` -/

/-- One step drops the blob of its digest if no repository has it, and no other blob. -/
theorem get?_dropOrphan (layers : Table String (List String)) (d : String)
    (state : Nat × Table String ByteArray) :
    (dropOrphan layers state d).2.get? digest =
      if digest = d ∧ isOwned layers digest = false then none else state.2.get? digest := by
  rw [dropOrphan]
  rcases eq_or_ne digest d with rfl | hd
  · cases howned : isOwned layers digest with
    | true => simp
    | false =>
      -- A blob that is not there is not dropped, and it is not there afterwards either.
      cases hcontains : state.2.contains digest with
      | true => simp
      | false => simp [Table.contains_eq_false_iff.1 hcontains]
  · have hother : ¬ (digest = d ∧ isOwned layers digest = false) := fun h ↦ hd h.1
    rw [if_neg hother]
    split
    · exact Table.get?_erase_of_ne _ (Ne.symm hd)
    · rfl

/-- The blobs of the digests that no repository has are dropped, and the others stay. -/
theorem get?_dropOrphans (layers : Table String (List String)) (digests : List String)
    (state : Nat × Table String ByteArray) :
    (digests.foldl (dropOrphan layers) state).2.get? digest =
      if digest ∈ digests ∧ isOwned layers digest = false then none else state.2.get? digest := by
  induction digests generalizing state with
  | nil => simp
  | cons d rest ih =>
    rw [List.foldl_cons, ih, get?_dropOrphan]
    by_cases howned : isOwned layers digest = false
    · by_cases hrest : digest ∈ rest
      · simp [howned, hrest]
      · simp [howned, hrest]
    · simp [howned]

/-- Each step takes as many bindings as it counts. -/
theorem count_dropOrphans (layers : Table String (List String)) (digests : List String)
    (state : Nat × Table String ByteArray) :
    (digests.foldl (dropOrphan layers) state).1 +
      (digests.foldl (dropOrphan layers) state).2.size = state.1 + state.2.size := by
  induction digests generalizing state with
  | nil => rfl
  | cons d rest ih =>
    rw [List.foldl_cons, ih, dropOrphan]
    split
    · next hdrop =>
      rw [Bool.and_eq_true] at hdrop
      have hsize := Table.size_erase_of_contains hdrop.2
      show state.1 + 1 + (state.2.erase d).size = _
      omega
    · rfl

/-! ### Removing a repository -/

theorem layers_remove (s : Store) (repository : String) :
    (s.remove repository).2.layers = s.layers.erase repository := by
  rw [remove]
  split
  · next hget => exact (Table.erase_of_get?_eq_none hget).symm
  · rfl

theorem layersOf_remove (s : Store) (repository other : String) :
    (s.remove repository).2.layersOf other =
      if other = repository then [] else s.layersOf other := by
  rw [layersOf, layers_remove, Table.get?_erase]
  by_cases h : other = repository
  · rw [if_pos h.symm, if_pos h]
    rfl
  · rw [if_neg (Ne.symm h), if_neg h]
    rfl

/-- A blob goes with its last owner. -/
theorem get?_remove (s : Store) (repository digest : String) :
    (s.remove repository).2.get? digest =
      if digest ∈ s.layersOf repository ∧ isOwned (s.layers.erase repository) digest = false then
        none
      else s.get? digest := by
  rw [remove, layersOf]
  cases s.layers.get? repository with
  | none => simp
  | some digests => exact get?_dropOrphans (s.layers.erase repository) digests (0, s.content)

theorem count_remove (s : Store) (repository : String) :
    (s.remove repository).1 + (s.remove repository).2.content.size = s.content.size := by
  rw [remove]
  split
  · exact Nat.zero_add _
  · exact (count_dropOrphans _ _ _).trans (Nat.zero_add _)

/-! ### Blobs and their owners -/

/-- Each blob has the digest of its bytes, and the digests with a blob are the layers of the
repositories. -/
structure Sound (s : Store) : Prop where
  named : ∀ {digest data}, s.get? digest = some data → digest = Digest.ofContent data
  owned : ∀ digest, s.content.contains digest = true ↔
    ∃ repository, digest ∈ s.layersOf repository

theorem sound_empty : (∅ : Store).Sound where
  named h := by cases h
  owned digest := by
    have hnone (repository : String) : (∅ : Store).layersOf repository = [] := rfl
    simp [hnone, show (∅ : Store).content.contains digest = false from rfl]

namespace Sound

/-- What is neither content nor layers does not matter. -/
theorem of_eq (hs : s.Sound) (hcontent : t.content = s.content) (hlayers : t.layers = s.layers) :
    t.Sound where
  named h := hs.named (by rwa [get?, hcontent] at h)
  owned digest := by
    have hlayersOf (repository : String) : t.layersOf repository = s.layersOf repository := by
      rw [layersOf, hlayers, layersOf]
    simp only [hcontent, hlayersOf]
    exact hs.owned digest

/-- A blob comes in together with an owner. -/
theorem own (hs : s.Sound) (repository : String) (data : ByteArray) :
    (s.own repository (Digest.ofContent data) data).Sound where
  named {digest found} h := by
    have hget : (s.content.insert (Digest.ofContent data) data).get? digest = some found := h
    rw [Table.get?_insert] at hget
    split at hget
    · next heq =>
      cases hget
      exact heq.symm
    · exact hs.named hget
  owned digest := by
    show (s.content.insert _ _).contains digest = true ↔ _
    rw [Table.contains_insert, Bool.or_eq_true, decide_eq_true_iff, hs.owned]
    simp only [mem_layersOf_own]
    constructor
    · rintro (rfl | ⟨owner, h⟩)
      · exact ⟨repository, Or.inl ⟨rfl, rfl⟩⟩
      · exact ⟨owner, Or.inr h⟩
    · rintro ⟨owner, ⟨-, rfl⟩ | h⟩
      · exact Or.inl rfl
      · exact Or.inr ⟨owner, h⟩

/-- A blob goes when its last owner goes, and not before. -/
theorem remove (hs : s.Sound) (repository : String) : (s.remove repository).2.Sound where
  named h := by
    rw [get?_remove] at h
    split at h
    · cases h
    · exact hs.named h
  owned digest := by
    -- What stays has an owner that stays, so the two sides lose the same digests.
    have hcontains : (s.remove repository).2.content.contains digest = true ↔
        s.content.contains digest = true ∧ ¬ s.SolelyOwned repository digest := by
      show ((s.remove repository).2.get? digest).isSome = true ↔ _
      rw [get?_remove, solelyOwned_iff]
      split
      · next hsole => simp [hsole]
      · next hsole => simp only [hsole, not_false_eq_true, and_true]; rfl
    rw [hcontains, hs.owned]
    simp only [layersOf_remove]
    constructor
    · rintro ⟨⟨owner, hmem⟩, hsole⟩
      -- Either the owner stays, or it is the one that goes and there is another one.
      rcases eq_or_ne owner repository with rfl | howner
      · have hother : ¬ ∀ other, other ≠ owner → digest ∉ s.layersOf other :=
          fun h ↦ hsole ⟨hmem, h⟩
        push Not at hother
        obtain ⟨other, hne, hmem⟩ := hother
        exact ⟨other, by rwa [if_neg hne]⟩
      · exact ⟨owner, by rwa [if_neg howner]⟩
    · rintro ⟨owner, hmem⟩
      split at hmem
      · cases hmem
      · next hne => exact ⟨⟨owner, hmem⟩, fun hsole ↦ hsole.2 owner hne hmem⟩

/-- Every call keeps the blobs and their owners in step. -/
theorem take (hs : s.Sound) (e : Event) : (s.take e).2.Sound := by
  have heffect := s.take_effect e
  generalize e.call = call, (s.take e).1 = reply, (s.take e).2 = t at heffect ⊢
  cases heffect with
  | refused => exact hs
  | committed repository data => exact hs.own repository data
  | begun => exact hs.of_eq rfl rfl
  | extended => exact hs.of_eq rfl rfl
  | finalized repository id bytes trailing found =>
    have hdropped : (s.dropSession id).Sound := hs.of_eq rfl rfl
    exact hdropped.own repository (bytes ++ trailing)
  | told => exact hs
  | cancelled => exact hs.of_eq rfl rfl
  | removed repository => exact hs.remove repository
  | swept => exact hs.of_eq rfl rfl

end Sound

theorem sound_run (events : List Event) : ((∅ : Store).run events).Sound :=
  run_induction sound_empty (fun _ e hs ↦ hs.take e) events

/-- What is left of a store when the layers of a repository are forgotten: the blobs that it alone
owned are gone, `count` of them, and everything else is as it was. -/
structure Removal (s : Store) (repository : String) (count : Nat) (t : Store) : Prop where
  dropped : ∀ digest, s.content.contains digest = true ∧ t.content.contains digest = false ↔
    s.SolelyOwned repository digest
  kept : ∀ digest, ¬ s.SolelyOwned repository digest → t.get? digest = s.get? digest
  forgotten : t.layers.get? repository = none
  others : ∀ other, other ≠ repository → t.layers.get? other = s.layers.get? other
  sessions : t.sessions = s.sessions
  counted : count = (s.content.keys.filter fun digest ↦ !t.content.contains digest).length

/-- In a sound store, `remove` drops the blobs of the repository that no other repository has, each
of which is there to be dropped. -/
theorem Sound.removal (hs : s.Sound) (repository : String) :
    Removal s repository (s.remove repository).1 (s.remove repository).2 := by
  have hgone {digest : String} (h : s.SolelyOwned repository digest) :
      (s.remove repository).2.get? digest = none := by
    rw [get?_remove, if_pos (solelyOwned_iff.1 h)]
  have hkept {digest : String} (h : ¬ s.SolelyOwned repository digest) :
      (s.remove repository).2.get? digest = s.get? digest := by
    rw [get?_remove, if_neg (fun hsole ↦ h (solelyOwned_iff.2 hsole))]
  -- Nothing comes in, so that the keys that are gone make up the difference in size.
  have hsub (digest : String) (h : (s.remove repository).2.content.contains digest = true) :
      s.content.contains digest = true := by
    by_cases hsole : s.SolelyOwned repository digest
    · rw [Table.contains_eq_false_iff.2 (hgone hsole)] at h
      cases h
    · obtain ⟨found, hget⟩ := Table.contains_eq_true_iff.1 h
      exact Table.contains_eq_true_iff.2 ⟨found, (hkept hsole).symm.trans hget⟩
  refine ⟨fun digest ↦ ⟨?_, fun hsole ↦ ⟨?_, ?_⟩⟩, fun _ ↦ hkept, ?_, fun other hne ↦ ?_,
    sessions_remove s repository, ?_⟩
  · rintro ⟨hthere, hnot⟩
    by_contra hsole
    have hsame := hkept hsole
    rw [show (s.remove repository).2.get? digest = none from Table.contains_eq_false_iff.1 hnot]
      at hsame
    rw [Table.contains_eq_false_iff.2 hsame.symm] at hthere
    cases hthere
  · exact (hs.owned digest).2 ⟨repository, hsole.1⟩
  · exact Table.contains_eq_false_iff.2 (hgone hsole)
  · rw [layers_remove, Table.get?_erase_self]
  · rw [layers_remove, Table.get?_erase_of_ne _ (Ne.symm hne)]
  · have hcount := count_remove s repository
    have hdropped := Table.length_dropped hsub
    omega

/-- Whatever is called, each blob has the digest of its bytes; the digests with a blob are exactly
the layers of the repositories; and forgetting a repository would drop exactly the blobs that it
alone owns, and count them. -/
theorem integrity_of_run (events : List Event) :
    let s := (∅ : Store).run events
    (∀ digest data, s.get? digest = some data →
      digest = "sha256:" ++ Digest.hashHex data ∧ (Digest.hashHex data).toList.length = 64 ∧
        ∀ c ∈ (Digest.hashHex data).toList, c ∈ "0123456789abcdef".toList) ∧
    (∀ digest, (∃ data, s.get? digest = some data) ↔
      ∃ repository, digest ∈ s.layersOf repository) ∧
    ∀ repository, Removal s repository (s.remove repository).1 (s.remove repository).2 := by
  intro s
  have hs : s.Sound := sound_run events
  refine ⟨fun digest data hget ↦ ⟨hs.named hget, ?_, fun c hc ↦ ?_⟩, fun digest ↦ ?_, hs.removal⟩
  · exact Digest.length_hashHex data
  · exact Digest.mem_hashHex hc
  · rw [← hs.owned digest, Table.contains_eq_true_iff]
    rfl

end ImageRegistry.Blob.Store
