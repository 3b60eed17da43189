import Mathlib.Data.Int.Basic
import Mathlib.Tactic.Linarith

/-! # Recurring slots

Time is an integer cut into periods of equal length `D` (days, say).  A slot starts at
offset `a` of every period that `P` selects and lasts `n`.  `slotWrapped` is the test
that looks at the period and the offset of one instant only, with the end of the slot
reduced modulo `D`, as a time-of-day type computes it.

`slotWrapped_iff` says exactly when that test is right at every instant: the slot ends
strictly before its period does, or no period is selected at all.
-/

namespace PatchManager.Calendar

variable {D a n : Int} {P : Int → Prop}

/-- Some selected occurrence of the slot covers `t`. -/
def InSlot (D a n : Int) (P : Int → Prop) (t : Int) : Prop :=
  ∃ s, s % D = a ∧ P (s / D) ∧ s ≤ t ∧ t < s + n

/-- The test by offsets: the period of `t` is selected, and its offset lies between the
    start of the slot and its end, both taken modulo `D`. -/
def SlotWrapped (D a n : Int) (P : Int → Prop) (t : Int) : Prop :=
  P (t / D) ∧ a ≤ t % D ∧ t % D < (a + n) % D

theorem emod_add_mul_period (hD : 0 < D) (k x : Int) (lo : 0 ≤ x) (hi : x < D) :
    (k * D + x) % D = x ∧ (k * D + x) / D = k := by
  constructor
  · rw [Int.add_comm, Int.add_mul_emod_self_right, Int.emod_eq_of_lt lo hi]
  · rw [Int.add_comm, Int.add_mul_ediv_right _ _ (by omega), Int.ediv_eq_zero_of_lt lo hi,
      Int.zero_add]

theorem period_decomposition (hD : 0 < D) (t : Int) :
    t = t / D * D + t % D ∧ 0 ≤ t % D ∧ t % D < D := by
  refine ⟨?_, Int.emod_nonneg t (by omega), Int.emod_lt_of_pos t hD⟩
  have := Int.mul_ediv_add_emod t D
  rw [Int.mul_comm] at this
  exact this.symm

/-- A slot that ends before its period does: both views agree at every instant. -/
theorem slotWrapped_of_fits (hD : 0 < D) (ha : 0 ≤ a) (fits : a + n < D) (hn : 0 ≤ n) (t : Int) :
    SlotWrapped D a n P t ↔ InSlot D a n P t := by
  have wrap : (a + n) % D = a + n := Int.emod_eq_of_lt (by omega) fits
  obtain ⟨split, lo, hi⟩ := period_decomposition hD t
  constructor
  · rintro ⟨selected, after, before⟩
    rw [wrap] at before
    obtain ⟨offset, period⟩ := emod_add_mul_period hD (t / D) a ha (by omega)
    exact ⟨t / D * D + a, offset, by rwa [period], by omega, by omega⟩
  · rintro ⟨s, offset, selected, after, before⟩
    obtain ⟨splitS, -, -⟩ := period_decomposition hD s
    rw [offset] at splitS
    -- the occurrence and `t` lie in one period, as the slot does not leave its own
    have same : t / D = s / D := by
      have bounds : 0 ≤ t - s / D * D ∧ t - s / D * D < D := by omega
      have period := (emod_add_mul_period hD (s / D) (t - s / D * D) bounds.1 bounds.2).2
      rwa [show s / D * D + (t - s / D * D) = t by omega] at period
    refine ⟨same ▸ selected, ?_, ?_⟩
    · rw [same] at split; omega
    · rw [wrap]; rw [same] at split; omega

/-- A slot that reaches the end of its period is missed there: the last instant of a
    selected period is in the slot, and the test says no. -/
theorem slotWrapped_misses (hD : 0 < D) (ha : 0 ≤ a) (hi : a < D) (reaches : D ≤ a + n) {k : Int}
    (selected : P k) :
    InSlot D a n P (k * D + (D - 1)) ∧ ¬ SlotWrapped D a n P (k * D + (D - 1)) := by
  obtain ⟨offset, period⟩ := emod_add_mul_period hD k a ha hi
  constructor
  · exact ⟨k * D + a, offset, by rwa [period], by omega, by omega⟩
  · rintro ⟨-, -, before⟩
    have last := (emod_add_mul_period hD k (D - 1) (by omega) (by omega)).1
    have := Int.emod_lt_of_pos (a + n) hD
    omega

/-- The offset test is right at every instant exactly when the slot ends strictly
    before its period does, or no period is selected. -/
theorem slotWrapped_iff (hD : 0 < D) (ha : 0 ≤ a) (hi : a < D) (hn : 0 ≤ n) :
    (∀ t, SlotWrapped D a n P t ↔ InSlot D a n P t) ↔ a + n < D ∨ ∀ k, ¬ P k := by
  constructor
  · intro agree
    by_contra neither
    rw [not_or] at neither
    obtain ⟨reaches, some_selected⟩ := neither
    rw [not_forall] at some_selected
    obtain ⟨k, selected⟩ := some_selected
    obtain ⟨inside, missed⟩ := slotWrapped_misses (n := n) hD ha hi (by omega) (not_not.mp selected)
    exact missed ((agree _).mpr inside)
  · rintro (fits | unselected) t
    · exact slotWrapped_of_fits hD ha fits hn t
    · constructor
      · rintro ⟨selected, -, -⟩; exact absurd selected (unselected _)
      · rintro ⟨s, -, selected, -, -⟩; exact absurd selected (unselected _)

end PatchManager.Calendar
