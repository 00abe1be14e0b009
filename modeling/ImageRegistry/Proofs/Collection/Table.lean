import ImageRegistry.Collection.Table
import Mathlib.Data.List.Nodup

/-!
# Counting the bindings of a table

Keys that are bound, and how many there are. A table is compared with one that binds fewer keys
(`length_dropped`): the keys that were dropped make up the difference in size, because no table
binds a key twice. A binding that came in last and is taken out again leaves the same table, in the
same order (`erase_insert_of_get?_eq_none`).
-/

namespace ImageRegistry.Table

universe u v

variable {κ : Type u} {ν : Type v}

theorem nodup_keys (t : Table κ ν) : t.keys.Nodup := t.nodup

theorem length_keys (t : Table κ ν) : t.keys.length = t.size := List.length_map _

variable [DecidableEq κ]

/-! ### Bound keys -/

theorem contains_eq_true_iff {t : Table κ ν} {key : κ} :
    t.contains key = true ↔ ∃ value, t.get? key = some value := by
  rw [contains, Option.isSome_iff_exists]

theorem contains_eq_false_iff {t : Table κ ν} {key : κ} :
    t.contains key = false ↔ t.get? key = none := by
  rw [contains, Option.isSome_eq_false_iff, Option.isNone_iff_eq_none]

theorem contains_insert (t : Table κ ν) (key k : κ) (value : ν) :
    (t.insert key value).contains k = (decide (k = key) || t.contains k) := by
  rw [contains, get?_insert]
  by_cases h : key = k
  · simp [h]
  · simp [h, Ne.symm h, contains]

theorem contains_erase (t : Table κ ν) (key k : κ) :
    (t.erase key).contains k = (decide (k ≠ key) && t.contains k) := by
  rw [contains, get?_erase]
  by_cases h : key = k
  · simp [h]
  · simp [h, Ne.symm h, contains]

theorem get?_erase_of_ne (t : Table κ ν) {key k : κ} (h : key ≠ k) :
    (t.erase key).get? k = t.get? k := by
  rw [get?_erase, if_neg h]

theorem mem_keys_iff_contains {t : Table κ ν} {key : κ} :
    key ∈ t.keys ↔ t.contains key = true := by
  rw [mem_keys_iff, contains]

/-! ### The last binding -/

theorem put_of_not_mem {key : κ} (value : ν) {l : List (κ × ν)} (h : key ∉ l.map Prod.fst) :
    put key value l = l ++ [(key, value)] := by
  induction l with
  | nil => rfl
  | cons e rest ih =>
    obtain ⟨k, v⟩ := e
    rw [List.map_cons, List.mem_cons, not_or] at h
    rw [put, if_neg (Ne.symm h.1), ih h.2, List.cons_append]

/-- Without a key that it does not bind, a table is the same. -/
theorem erase_of_get?_eq_none {t : Table κ ν} {key : κ} (h : t.get? key = none) :
    t.erase key = t := by
  apply ext_entries
  refine List.filter_eq_self.2 fun e he ↦ ?_
  have hne : e.1 ≠ key := by
    rintro rfl
    exact (t.get?_eq_none_iff e.1).1 h (List.mem_map.2 ⟨e, he, rfl⟩)
  simpa using hne

/-- A key that comes in and goes out again leaves no trace. -/
theorem erase_insert_of_get?_eq_none {t : Table κ ν} {key : κ} (value : ν)
    (h : t.get? key = none) : (t.insert key value).erase key = t := by
  have hentries : (t.insert key value).entries = t.entries ++ [(key, value)] :=
    put_of_not_mem value ((t.get?_eq_none_iff key).1 h)
  have hsame : (t.erase key).entries = t.entries := by rw [erase_of_get?_eq_none h]
  apply ext_entries
  show (t.insert key value).entries.filter _ = t.entries
  rw [hentries, List.filter_append]
  show (t.erase key).entries ++ _ = t.entries
  rw [hsame]
  simp

/-- A key that is bound twice is bound as at the second time. -/
theorem insert_insert (t : Table κ ν) (key : κ) (first second : ν) :
    (t.insert key first).insert key second = t.insert key second := by
  apply ext_entries
  show put key second (put key first t.entries) = put key second t.entries
  induction t.entries with
  | nil => simp [put]
  | cons e rest ih =>
    obtain ⟨k, v⟩ := e
    by_cases h : k = key
    · simp [put, h]
    · simp [put, h, ih]

/-! ### Sizes -/

/-- The keys that a smaller table does not bind make up the difference in size. -/
theorem length_dropped {t kept : Table κ ν}
    (h : ∀ key, kept.contains key = true → t.contains key = true) :
    (t.keys.filter fun key ↦ !kept.contains key).length + kept.size = t.size := by
  -- Neither list names a key twice, so the same members make them the same up to order.
  have hperm : (t.keys.filter fun key ↦ kept.contains key).Perm kept.keys := by
    refine (List.perm_ext_iff_of_nodup (t.nodup_keys.filter _) kept.nodup_keys).2 fun key ↦ ?_
    rw [List.mem_filter, mem_keys_iff_contains, mem_keys_iff_contains]
    exact ⟨fun hk ↦ hk.2, fun hk ↦ ⟨h key hk, hk⟩⟩
  have hsplit : t.keys.length = (t.keys.filter fun key ↦ kept.contains key).length +
      (t.keys.filter fun key ↦ !kept.contains key).length := List.length_eq_length_filter_add _
  rw [hperm.length_eq, length_keys, length_keys] at hsplit
  omega

/-- A bound key that is taken out makes a table smaller by one. -/
theorem size_erase_of_contains {t : Table κ ν} {key : κ} (h : t.contains key = true) :
    (t.erase key).size + 1 = t.size := by
  have hsub (k : κ) (hk : (t.erase key).contains k = true) : t.contains k = true := by
    rw [contains_erase, Bool.and_eq_true] at hk
    exact hk.2
  have hdropped := length_dropped hsub
  have hone : (t.keys.filter fun k ↦ !(t.erase key).contains k).Perm [key] := by
    refine (List.perm_ext_iff_of_nodup (t.nodup_keys.filter _)
      (List.nodup_singleton key)).2 fun k ↦ ?_
    rw [List.mem_filter, mem_keys_iff_contains, contains_erase, List.mem_singleton]
    constructor
    · rintro ⟨hk, hgone⟩
      simpa [hk] using hgone
    · rintro rfl
      simp [h]
  rw [hone.length_eq, List.length_singleton] at hdropped
  omega

end ImageRegistry.Table
