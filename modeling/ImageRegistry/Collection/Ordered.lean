/-!
# Lists in strictly increasing order

A set of texts, or a table keyed by texts, that is shown to the outside in order is kept as a list
whose keys strictly increase (`Ordered.Increasing`). Texts compare by code points, which is also the
order of their encoded bytes. `Ordered.insert` keeps the order and replaces an element of the same
key; `Ordered.ofList` sorts any list, a later element of a key winning over an earlier one.
-/

namespace ImageRegistry.Ordered

universe u

variable {α : Type u}

/-- The keys of the list strictly increase. -/
def Increasing (key : α → String) (l : List α) : Prop := l.Pairwise fun a b ↦ key a < key b

/-- The list with `x` at its place; an element with the key of `x` gives way to it. -/
def insert (key : α → String) (x : α) : List α → List α
  | [] => [x]
  | y :: rest =>
    if key x < key y then x :: y :: rest
    else if key x = key y then x :: rest
    else y :: insert key x rest

/-- The elements in increasing order of their keys, the last one of each key. -/
def ofList (key : α → String) (l : List α) : List α := l.foldl (fun acc x ↦ insert key x acc) []

/-- Two texts are equal, or one of them comes first. -/
theorem lt_or_eq_or_gt (a b : String) : a < b ∨ a = b ∨ b < a := by
  rcases String.le_total a b with h | h
  · by_cases hab : a = b
    · exact Or.inr (Or.inl hab)
    · left
      exact Decidable.byContradiction fun hlt ↦
        hab (String.le_antisymm h (String.not_lt.1 hlt))
  · by_cases hab : a = b
    · exact Or.inr (Or.inl hab)
    · right; right
      exact Decidable.byContradiction fun hlt ↦
        hab (String.le_antisymm (String.not_lt.1 hlt) h)

theorem mem_insert_imp {key : α → String} {x y : α} {l : List α} (h : y ∈ insert key x l) :
    y = x ∨ y ∈ l := by
  induction l with
  | nil => simpa [insert] using h
  | cons z rest ih =>
    rw [insert] at h
    split at h
    · simpa using h
    · split at h
      · rcases List.mem_cons.1 h with h | h
        · exact Or.inl h
        · exact Or.inr (List.mem_cons_of_mem _ h)
      · rcases List.mem_cons.1 h with h | h
        · exact Or.inr (h ▸ List.mem_cons_self)
        · exact (ih h).imp id (List.mem_cons_of_mem _)

theorem mem_insert_self (key : α → String) (x : α) (l : List α) : x ∈ insert key x l := by
  induction l with
  | nil => simp [insert]
  | cons z rest ih =>
    rw [insert]
    split
    · simp
    · split
      · simp
      · exact List.mem_cons_of_mem _ ih

theorem mem_insert_of_mem {key : α → String} {x y : α} {l : List α} (hy : y ∈ l)
    (h : key y ≠ key x) : y ∈ insert key x l := by
  induction l with
  | nil => exact absurd hy List.not_mem_nil
  | cons z rest ih =>
    rw [insert]
    split
    · exact List.mem_cons_of_mem _ hy
    · split
      · next hkey =>
        rcases List.mem_cons.1 hy with rfl | hy
        · exact absurd hkey.symm h
        · exact List.mem_cons_of_mem _ hy
      · rcases List.mem_cons.1 hy with rfl | hy
        · exact List.mem_cons_self
        · exact List.mem_cons_of_mem _ (ih hy)

/-- Insertion keeps the order. -/
theorem increasing_insert {key : α → String} (x : α) {l : List α} (h : Increasing key l) :
    Increasing key (insert key x l) := by
  induction l with
  | nil => exact List.pairwise_singleton _ _
  | cons y rest ih =>
    obtain ⟨hy, hrest⟩ := List.pairwise_cons.1 h
    rw [insert]
    split
    · next hlt =>
      refine List.pairwise_cons.2 ⟨fun z hz ↦ ?_, h⟩
      rcases List.mem_cons.1 hz with rfl | hz
      · exact hlt
      · exact String.lt_trans hlt (hy z hz)
    · next hnlt =>
      split
      · next heq => exact List.pairwise_cons.2 ⟨fun z hz ↦ heq ▸ hy z hz, hrest⟩
      · next hne =>
        refine List.pairwise_cons.2 ⟨fun z hz ↦ ?_, ih hrest⟩
        rcases mem_insert_imp hz with rfl | hz
        · rcases lt_or_eq_or_gt (key z) (key y) with h' | h' | h'
          · exact absurd h' hnlt
          · exact absurd h' hne
          · exact h'
        · exact hy z hz

/-- The sorted list is in order. -/
theorem increasing_ofList (key : α → String) (l : List α) : Increasing key (ofList key l) := by
  unfold ofList
  suffices h : ∀ acc, Increasing key acc →
      Increasing key (l.foldl (fun acc x ↦ insert key x acc) acc) from h [] List.Pairwise.nil
  induction l with
  | nil => exact fun _ h ↦ h
  | cons x rest ih => exact fun acc h ↦ ih _ (increasing_insert x h)

/-- An element behind all others is put there. -/
theorem insert_of_forall_lt {key : α → String} {x : α} {l : List α}
    (h : ∀ y ∈ l, key y < key x) : insert key x l = l ++ [x] := by
  induction l with
  | nil => rfl
  | cons y rest ih =>
    have hlt := h y List.mem_cons_self
    have hne : key x ≠ key y := by
      intro hsame
      rw [hsame] at hlt
      exact String.lt_irrefl _ hlt
    rw [insert, if_neg (String.lt_asymm hlt), if_neg hne,
      ih fun z hz ↦ h z (List.mem_cons_of_mem y hz), List.cons_append]

/-- A list that is in order is sorted already. -/
theorem ofList_of_increasing {key : α → String} {l : List α} (h : Increasing key l) :
    ofList key l = l := by
  unfold ofList
  suffices hacc : ∀ acc, Increasing key (acc ++ l) →
      l.foldl (fun acc x ↦ insert key x acc) acc = acc ++ l from hacc [] h
  induction l with
  | nil => exact fun acc _ ↦ (List.append_nil acc).symm
  | cons x rest ih =>
    intro acc hacc
    have hlt : ∀ y ∈ acc, key y < key x := fun y hy ↦
      (List.pairwise_append.1 hacc).2.2 y hy x List.mem_cons_self
    have hcons : acc ++ x :: rest = acc ++ [x] ++ rest := by
      rw [List.append_assoc, List.singleton_append]
    rw [hcons] at hacc ⊢
    rw [List.foldl_cons, insert_of_forall_lt hlt]
    exact ih (List.Pairwise.of_cons h) _ hacc

/-- A list of texts as a set: inserting a text adds that text and nothing else. -/
theorem mem_insert_id {x y : String} {l : List String} :
    y ∈ insert id x l ↔ y = x ∨ y ∈ l := by
  refine ⟨mem_insert_imp, ?_⟩
  rintro (rfl | h)
  · exact mem_insert_self ..
  · by_cases hxy : y = x
    · exact hxy ▸ mem_insert_self ..
    · exact mem_insert_of_mem h hxy

/-- Sorting a list of texts keeps exactly its members. -/
theorem mem_ofList_id {y : String} {l : List String} : y ∈ ofList id l ↔ y ∈ l := by
  unfold ofList
  suffices h : ∀ acc, y ∈ l.foldl (fun acc x ↦ insert id x acc) acc ↔ y ∈ acc ∨ y ∈ l by
    simpa using h []
  induction l with
  | nil => simp
  | cons x rest ih =>
    intro acc
    rw [List.foldl_cons, ih, mem_insert_id, List.mem_cons]
    constructor
    · rintro ((h | h) | h)
      · exact Or.inr (Or.inl h)
      · exact Or.inl h
      · exact Or.inr (Or.inr h)
    · rintro (h | h | h)
      · exact Or.inl (Or.inr h)
      · exact Or.inl (Or.inl h)
      · exact Or.inr h

end ImageRegistry.Ordered
