import Mathlib.Data.Nat.Basic

/-! # Calls that can end in a panic

What a call comes to in a language with checked arithmetic and checked indices: a value, an error
that the caller gets to see, or a panic.  Loops run for at most a given number of rounds, and one
that would go on is `stuck`, so that termination can be stated and proved.

`Outcome.Ends refuses post` is the weakest precondition: the call ends with a value in `post` or
with an error in `refuses`, and in no other way.

Main results: `ends_bind`, the rule of sequencing, and `ends_loop`, the rule for loops.
-/

namespace PatchManager.Bytes

inductive Outcome (α : Type) where
  | ok (value : α)
  | fails (message : String)
  | panics
  /-- the rounds of a loop are used up -/
  | stuck
deriving DecidableEq

namespace Outcome

variable {α β σ : Type}

def bind : Outcome α → (α → Outcome β) → Outcome β
  | ok value, rest => rest value
  | fails message, _ => fails message
  | panics, _ => panics
  | stuck, _ => stuck

instance : Monad Outcome where
  pure := ok
  bind := bind

@[simp] theorem pure_eq (value : α) : (pure value : Outcome α) = ok value := rfl
@[simp] theorem bind_eq (x : Outcome α) (rest : α → Outcome β) : x >>= rest = x.bind rest := rfl
@[simp] theorem ok_bind (value : α) (rest : α → Outcome β) : (ok value).bind rest = rest value := rfl
@[simp] theorem fails_bind (message : String) (rest : α → Outcome β) :
    (fails message).bind rest = fails message := rfl

/-- A sequence that ends with a value has gone through both calls. -/
theorem bind_eq_ok {x : Outcome α} {rest : α → Outcome β} {value : β} (run : x.bind rest = ok value) :
    ∃ between, x = ok between ∧ rest between = ok value := by
  cases x with
  | ok between => exact ⟨between, rfl, run⟩
  | fails message => cases run
  | panics => cases run
  | stuck => cases run

/-- Goes on while `body` gives a new state, for at most `fuel` rounds. -/
def loop (body : σ → Outcome (σ ⊕ β)) : Nat → σ → Outcome β
  | 0, _ => stuck
  | fuel + 1, s => (body s).bind (Sum.elim (loop body fuel) ok)

/-! ## Preconditions -/

/-- The call ends with a value in `post` or an error in `refuses`. -/
def Ends (refuses : String → Prop) (post : α → Prop) : Outcome α → Prop
  | ok value => post value
  | fails message => refuses message
  | _ => False

variable {refuses : String → Prop} {post : α → Prop}

@[simp] theorem ends_ok (value : α) : (ok value).Ends refuses post ↔ post value := Iff.rfl
@[simp] theorem ends_fails (message : String) :
    (fails message : Outcome α).Ends refuses post ↔ refuses message := Iff.rfl

/-- A check that panics. -/
@[simp] theorem ends_guard {p : Prop} [Decidable p] {x : Outcome α} :
    (if p then x else panics).Ends refuses post ↔ p ∧ x.Ends refuses post := by
  by_cases holds : p
  · rw [if_pos holds, and_iff_right holds]
  · rw [if_neg holds]
    exact ⟨False.elim, fun both => holds both.1⟩

/-- The rule of sequencing. -/
@[simp] theorem ends_bind {q : β → Prop} (x : Outcome α) (rest : α → Outcome β) :
    (x.bind rest).Ends refuses q ↔ x.Ends refuses fun value => (rest value).Ends refuses q := by
  cases x <;> rfl

/-- The rule of consequence. -/
theorem Ends.mono {x : Outcome α} {refuses' : String → Prop} {post' : α → Prop}
    (ends : x.Ends refuses post) (errors : ∀ message, refuses message → refuses' message)
    (values : ∀ value, post value → post' value) : x.Ends refuses' post' := by
  cases x with
  | ok value => exact values value ends
  | fails message => exact errors message ends
  | panics => exact ends
  | stuck => exact ends

/-- A call that reports no error ends with a value. -/
theorem Ends.value {x : Outcome α} (ends : x.Ends (fun _ => False) post) :
    ∃ value, x = ok value ∧ post value := by
  cases x with
  | ok value => exact ⟨value, rfl, ends⟩
  | fails message => exact ends.elim
  | panics => exact ends.elim
  | stuck => exact ends.elim

/-- The rule for loops: every round keeps the invariant and makes `size` smaller, or ends. -/
theorem ends_loop {body : σ → Outcome (σ ⊕ β)} {q : β → Prop} (inv : σ → Prop) (size : σ → Nat)
    (round : ∀ s, inv s →
      (body s).Ends refuses (Sum.elim (fun s' => inv s' ∧ size s' < size s) q))
    {fuel : Nat} {s : σ} (start : inv s) (enough : size s < fuel) :
    (loop body fuel s).Ends refuses q := by
  induction fuel generalizing s with
  | zero => omega
  | succ fuel ih =>
    refine (ends_bind _ _).mpr ((round s start).mono (fun _ error => error) fun next goes => ?_)
    cases next with
    | inl s' => exact ih goes.1 (by have := goes.2; omega)
    | inr result => exact goes

end Outcome

end PatchManager.Bytes
