/-!
# Finite tables

A `Table κ ν` binds finitely many keys to values. The bindings are kept in the order in which their
keys first came in; a key is bound at most once, which the type guarantees. A table is known by its
lookup: `get?_insert`, `get?_erase` and `get?_filter` say what each operation does to it, and the
other laws follow from these.
-/

namespace ImageRegistry

universe u v w

/-- Finitely many bindings of keys to values, each key bound at most once. -/
structure Table (κ : Type u) (ν : Type v) where
  entries : List (κ × ν)
  nodup : (entries.map Prod.fst).Nodup

namespace Table

variable {κ : Type u} {ν : Type v}

/-! ### Bindings as a plain list -/

section Bindings

variable [DecidableEq κ]

/-- The value that a list of bindings gives to `key`. -/
def find? (key : κ) : List (κ × ν) → Option ν
  | [] => none
  | (k, v) :: rest => if k = key then some v else find? key rest

/-- The bindings with `key` bound to `value`: in its old place if it had one, else at the end. -/
def put (key : κ) (value : ν) : List (κ × ν) → List (κ × ν)
  | [] => [(key, value)]
  | (k, v) :: rest => if k = key then (key, value) :: rest else (k, v) :: put key value rest

theorem find?_put (key k : κ) (value : ν) (l : List (κ × ν)) :
    find? k (put key value l) = if key = k then some value else find? k l := by
  induction l with
  | nil => simp [put, find?]
  | cons e rest ih =>
    obtain ⟨a, b⟩ := e
    by_cases h : a = key
    · subst h; by_cases hk : a = k <;> simp [put, find?, hk]
    · by_cases hk : a = k
      · subst hk; simp [put, find?, h, Ne.symm h]
      · simp [put, find?, h, hk, ih]

theorem mem_keys_put (key k : κ) (value : ν) (l : List (κ × ν)) :
    k ∈ (put key value l).map Prod.fst ↔ k = key ∨ k ∈ l.map Prod.fst := by
  induction l with
  | nil => simp [put]
  | cons e rest ih =>
    obtain ⟨a, b⟩ := e
    by_cases h : a = key
    · subst h; simp [put]
    · rw [put, if_neg h, List.map_cons, List.mem_cons, List.map_cons, List.mem_cons, ih]
      constructor
      · rintro (h' | h' | h')
        · exact Or.inr (Or.inl h')
        · exact Or.inl h'
        · exact Or.inr (Or.inr h')
      · rintro (h' | h' | h')
        · exact Or.inr (Or.inl h')
        · exact Or.inl h'
        · exact Or.inr (Or.inr h')

theorem nodup_put (key : κ) (value : ν) {l : List (κ × ν)} (h : (l.map Prod.fst).Nodup) :
    ((put key value l).map Prod.fst).Nodup := by
  induction l with
  | nil => simp [put]
  | cons e rest ih =>
    obtain ⟨a, b⟩ := e
    rw [List.map_cons, List.nodup_cons] at h
    by_cases hk : a = key
    · subst hk; simpa [put] using h
    · rw [put, if_neg hk, List.map_cons, List.nodup_cons, mem_keys_put]
      refine ⟨?_, ih h.2⟩
      rintro (h' | h')
      · exact hk h'
      · exact h.1 h'

theorem find?_eq_none_iff (key : κ) (l : List (κ × ν)) :
    find? key l = none ↔ key ∉ l.map Prod.fst := by
  induction l with
  | nil => simp [find?]
  | cons e rest ih =>
    obtain ⟨a, b⟩ := e
    by_cases h : a = key
    · simp [find?, h]
    · simp only [find?, if_neg h, ih, List.map_cons, List.mem_cons, not_or]
      exact ⟨fun h' ↦ ⟨Ne.symm h, h'⟩, fun h' ↦ h'.2⟩

theorem find?_eq_some_iff {l : List (κ × ν)} (h : (l.map Prod.fst).Nodup) (key : κ) (value : ν) :
    find? key l = some value ↔ (key, value) ∈ l := by
  induction l with
  | nil => simp [find?]
  | cons e rest ih =>
    obtain ⟨a, b⟩ := e
    rw [List.map_cons, List.nodup_cons] at h
    by_cases hk : a = key
    · subst hk
      have : (a, value) ∉ rest := fun hm ↦ h.1 (List.mem_map.2 ⟨_, hm, rfl⟩)
      simp [find?, this, eq_comm]
    · simp [find?, hk, ih h.2, Ne.symm hk]

end Bindings

/-! ### Tables -/

/-- The table without a binding. -/
def empty : Table κ ν := ⟨[], List.nodup_nil⟩

instance : EmptyCollection (Table κ ν) := ⟨empty⟩

instance : Inhabited (Table κ ν) := ⟨empty⟩

/-- The bound keys, in the order in which they came in. -/
def keys (t : Table κ ν) : List κ := t.entries.map Prod.fst

/-- The bound values, in the order of their keys. -/
def values (t : Table κ ν) : List ν := t.entries.map Prod.snd

/-- The number of bindings. -/
def size (t : Table κ ν) : Nat := t.entries.length

/-- The bindings that satisfy `p`. -/
def filter (p : κ → ν → Bool) (t : Table κ ν) : Table κ ν where
  entries := t.entries.filter fun e ↦ p e.1 e.2
  nodup := t.nodup.sublist (List.filter_sublist.map _)

/-- Two tables with the same bindings in the same order are one table. -/
theorem ext_entries {s t : Table κ ν} (h : s.entries = t.entries) : s = t := by
  cases s; cases t; cases h; rfl

variable [DecidableEq κ]

/-- The value bound to `key`. -/
def get? (t : Table κ ν) (key : κ) : Option ν := find? key t.entries

/-- Whether `key` is bound. -/
def contains (t : Table κ ν) (key : κ) : Bool := (t.get? key).isSome

/-- The table with `key` bound to `value`, whatever it was bound to before. -/
def insert (t : Table κ ν) (key : κ) (value : ν) : Table κ ν where
  entries := put key value t.entries
  nodup := nodup_put key value t.nodup

/-- The table without a binding of `key`. -/
def erase (t : Table κ ν) (key : κ) : Table κ ν := t.filter fun k _ ↦ decide (k ≠ key)

instance [DecidableEq ν] : DecidableEq (Table κ ν) := fun s t ↦
  if h : s.entries = t.entries then isTrue (ext_entries h)
  else isFalse fun h' ↦ h (h' ▸ rfl)

/-! ### The laws of lookup -/

@[simp] theorem get?_empty (key : κ) : (∅ : Table κ ν).get? key = none := rfl

theorem get?_insert (t : Table κ ν) (key k : κ) (value : ν) :
    (t.insert key value).get? k = if key = k then some value else t.get? k :=
  find?_put key k value t.entries

@[simp] theorem get?_insert_self (t : Table κ ν) (key : κ) (value : ν) :
    (t.insert key value).get? key = some value := by simp [get?_insert]

theorem get?_insert_of_ne (t : Table κ ν) {key k : κ} (value : ν) (h : key ≠ k) :
    (t.insert key value).get? k = t.get? k := by simp [get?_insert, h]

theorem get?_eq_some_iff (t : Table κ ν) (key : κ) (value : ν) :
    t.get? key = some value ↔ (key, value) ∈ t.entries :=
  find?_eq_some_iff t.nodup key value

theorem get?_eq_none_iff (t : Table κ ν) (key : κ) : t.get? key = none ↔ key ∉ t.keys :=
  find?_eq_none_iff key t.entries

/-- A key is bound exactly when it is one of the keys. -/
theorem mem_keys_iff (t : Table κ ν) (key : κ) : key ∈ t.keys ↔ (t.get? key).isSome := by
  rw [Option.isSome_iff_ne_none, Ne, get?_eq_none_iff, Classical.not_not]

theorem get?_filter (t : Table κ ν) (p : κ → ν → Bool) (key : κ) :
    (t.filter p).get? key = (t.get? key).filter (p key) := by
  cases h : t.get? key with
  | none =>
    rw [Option.filter_none, get?_eq_none_iff]
    rw [get?_eq_none_iff] at h
    intro hm
    obtain ⟨e, he, rfl⟩ := List.mem_map.1 hm
    exact h (List.mem_map.2 ⟨e, (List.mem_filter.1 he).1, rfl⟩)
  | some v =>
    rw [get?_eq_some_iff] at h
    by_cases hp : p key v = true
    · rw [Option.filter_some, if_pos hp, get?_eq_some_iff]
      exact List.mem_filter.2 ⟨h, hp⟩
    · rw [Option.filter_some, if_neg hp, get?_eq_none_iff]
      intro hm
      obtain ⟨e, he, rfl⟩ := List.mem_map.1 hm
      obtain ⟨hm', hp'⟩ := List.mem_filter.1 he
      have : e.2 = v := by
        have h1 := (t.get?_eq_some_iff e.1 e.2).2 hm'
        have h2 := (t.get?_eq_some_iff e.1 v).2 h
        rw [h1] at h2
        exact Option.some.inj h2
      exact hp (this ▸ hp')

theorem get?_erase (t : Table κ ν) (key k : κ) :
    (t.erase key).get? k = if key = k then none else t.get? k := by
  rw [erase, get?_filter]
  by_cases h : key = k
  · subst h; cases t.get? key <;> simp
  · have : k ≠ key := fun h' ↦ h h'.symm
    cases t.get? k <;> simp [h, this]

@[simp] theorem get?_erase_self (t : Table κ ν) (key : κ) : (t.erase key).get? key = none := by
  simp [get?_erase]

end Table

end ImageRegistry
