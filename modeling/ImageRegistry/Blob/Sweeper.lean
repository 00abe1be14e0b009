import ImageRegistry.Blob.Store
import ImageRegistry.Text.Duration

/-!
# The sweeper

Uploads that no one goes on with are dropped again and again, first at once and then after each
period. A period shorter than a millisecond is taken for a millisecond. The sweeper never ends by
itself.
-/

namespace ImageRegistry.Blob.Sweeper

/-- The time from one sweep to the next one. -/
def interval (period : Nat) : Nat := max period Text.millisecond

theorem interval_pos (period : Nat) : 0 < interval period :=
  Nat.lt_of_lt_of_le (by decide : 0 < Text.millisecond) (Nat.le_max_right period _)

/-- The times of the sweeps before the sweeper is stopped, counted from its beginning. -/
def ticks (period duration : Nat) : List Nat :=
  (List.range ((duration + interval period - 1) / interval period)).map (· * interval period)

/-- The store when the sweeper is stopped. The clock tells the time of a sweep. -/
def run (clock : Nat → Nat) (period maxIdle duration : Nat) (s : Store) : Store :=
  (ticks period duration).foldl (fun s tick ↦ (s.sweep (clock tick) maxIdle).2) s

/-- A sweep falls on each multiple of the period before the stop, and at no other time. -/
theorem mem_ticks {period duration tick : Nat} :
    tick ∈ ticks period duration ↔ tick < duration ∧ interval period ∣ tick := by
  have h := interval_pos period
  unfold ticks
  rw [List.mem_map]
  constructor
  · rintro ⟨k, hk, rfl⟩
    rw [List.mem_range, Nat.lt_iff_add_one_le, Nat.le_div_iff_mul_le h, Nat.add_mul] at hk
    exact ⟨by omega, Nat.dvd_mul_left _ _⟩
  · rintro ⟨hlt, k, rfl⟩
    refine ⟨k, ?_, Nat.mul_comm _ _⟩
    rw [List.mem_range, Nat.lt_iff_add_one_le, Nat.le_div_iff_mul_le h, Nat.add_mul,
      Nat.mul_comm k]
    omega

end ImageRegistry.Blob.Sweeper
