import Mathlib.Data.Int.Basic
import Mathlib.Logic.Function.Iterate
import Mathlib.Tactic.Ring

/-! # Loops that advance a cursor

A cursor over the integers that every round moves forward.  `advance` and `visited` are the two
loops, and their lemmas say where the cursor stands in terms of its iterates.
-/

namespace PatchManager.Calendar

/-- `while (cursor < start) cursor = next(cursor)`. -/
def advance (next : Int → Int) (rises : ∀ c, c < next c) (start cursor : Int) : Int :=
  if cursor < start then advance next rises start (next cursor) else cursor
termination_by (start - cursor).toNat
decreasing_by have := rises cursor; omega

/-- The cursors of `while (cursor <= stop) { ..; cursor = next(cursor) }`. -/
def visited (next : Int → Int) (rises : ∀ c, c < next c) (stop cursor : Int) : List Int :=
  if cursor ≤ stop then cursor :: visited next rises stop (next cursor) else []
termination_by (stop + 1 - cursor).toNat
decreasing_by have := rises cursor; omega

variable {next : Int → Int} {rises : ∀ c, c < next c} {start stop cursor x : Int}

/-- The cursor stops at the first of its iterates that is not below the start. -/
theorem advance_spec : ∃ n, advance next rises start cursor = next^[n] cursor ∧
    start ≤ next^[n] cursor ∧ ∀ m < n, next^[m] cursor < start := by
  induction cursor using advance.induct next rises start with
  | case1 cursor below ih =>
    obtain ⟨n, eq, reached, before⟩ := ih
    refine ⟨n + 1, by rw [advance, if_pos below, eq]; rfl, reached, fun m less => ?_⟩
    cases m with
    | zero => exact below
    | succ m => exact before m (by omega)
  | case2 cursor reached =>
    exact ⟨0, by rw [advance, if_neg reached]; rfl, by simpa using reached, by simp⟩

include rises in
theorem iterate_ge (n : Nat) : cursor ≤ next^[n] cursor := by
  induction n with
  | zero => exact le_refl cursor
  | succ n ih =>
    rw [Function.iterate_succ_apply']
    have := rises (next^[n] cursor)
    omega

/-- The loop visits the iterates of the cursor up to the stop. -/
theorem mem_visited :
    x ∈ visited next rises stop cursor ↔ (∃ n : Nat, x = next^[n] cursor) ∧ x ≤ stop := by
  induction cursor using visited.induct next rises stop with
  | case1 cursor below ih =>
    rw [visited, if_pos below, List.mem_cons, ih]
    constructor
    · rintro (rfl | ⟨⟨n, rfl⟩, inside⟩)
      · exact ⟨⟨0, rfl⟩, below⟩
      · exact ⟨⟨n + 1, rfl⟩, inside⟩
    · rintro ⟨⟨n, rfl⟩, inside⟩
      cases n with
      | zero => exact .inl rfl
      | succ n => exact .inr ⟨⟨n, rfl⟩, inside⟩
  | case2 cursor above =>
    rw [visited, if_neg above]
    refine ⟨by simp, ?_⟩
    rintro ⟨⟨n, rfl⟩, inside⟩
    have := @iterate_ge next rises cursor n
    omega

/-- A cursor that moves by a fixed length. -/
theorem iterate_add (length : Int) (n : Nat) : (· + length)^[n] cursor = cursor + n * length := by
  induction n with
  | zero => simp
  | succ n ih =>
    rw [Function.iterate_succ_apply', ih]
    push_cast
    ring

end PatchManager.Calendar
