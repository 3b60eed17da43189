import PatchManager.Conc.Exchange
import Mathlib.Logic.Function.Iterate

/-! # One task on its own

Whether a task comes to an end depends on its program and on what it is told, whoever else
is running.  `Answers` fixes the answer to every operation the task may perform, by the
number of operations before it, so a statement for all `Answers` covers every interleaving.
`Course` is how far the task has come: what it was told, the functions it has called and
what it has left to do.

Main results: `Course.along`, that the task keeps the contract its functions keep, and
`Prog.Within.finishes`, that a program without tail calls always comes to its end.
-/

namespace PatchManager.Conc

variable {Op : Type} {Resp : Op → Type} {Fn : Type} {α : Type}

/-- The answer to the operation that follows `n` others. -/
abbrev Answers (Op : Type) (Resp : Op → Type) := Nat → (o : Op) → Resp o

/-- How far a task has come. -/
structure Course (Op : Type) (Resp : Op → Type) (Fn : Type) (α : Type) where
  heard : List (Exchange Op Resp)
  called : List Fn
  rest : Prog Op Resp Fn α

namespace Course

section next

variable (body : Fn → Prog Op Resp Fn α) (answers : Answers Op Resp)

/-- One step of the task.  A task it starts runs elsewhere. -/
def next : Course Op Resp Fn α → Course Op Resp Fn α
  | ⟨heard, called, .ret value⟩ => ⟨heard, called, .ret value⟩
  | ⟨heard, called, .op o rest⟩ =>
    ⟨heard ++ [⟨o, answers heard.length o⟩], called, rest (answers heard.length o)⟩
  | ⟨heard, called, .spawn _ rest⟩ => ⟨heard, called, rest⟩
  | ⟨heard, called, .jump f⟩ => ⟨heard, called ++ [f], body f⟩

/-- The task `n` steps later. -/
def after (n : Nat) (c : Course Op Resp Fn α) : Course Op Resp Fn α := (next body answers)^[n] c

end next

variable {body : Fn → Prog Op Resp Fn α} {answers : Answers Op Resp} {c : Course Op Resp Fn α}
  {heard : List (Exchange Op Resp)} {called : List Fn}

@[simp] theorem next_ret (value : α) :
    next body answers ⟨heard, called, .ret value⟩ = ⟨heard, called, .ret value⟩ := rfl
@[simp] theorem next_op (o : Op) (rest : Resp o → Prog Op Resp Fn α) :
    next body answers ⟨heard, called, .op o rest⟩ =
      ⟨heard ++ [⟨o, answers heard.length o⟩], called, rest (answers heard.length o)⟩ := rfl
@[simp] theorem next_spawn (f : Fn) (rest : Prog Op Resp Fn α) :
    next body answers ⟨heard, called, .spawn f rest⟩ = ⟨heard, called, rest⟩ := rfl
@[simp] theorem next_jump (f : Fn) :
    next body answers ⟨heard, called, .jump f⟩ = ⟨heard, called ++ [f], body f⟩ := rfl

@[simp] theorem after_zero : c.after body answers 0 = c := rfl

theorem after_succ (n : Nat) :
    c.after body answers (n + 1) = (next body answers c).after body answers n :=
  Function.iterate_succ_apply _ _ _

theorem after_succ' (n : Nat) :
    c.after body answers (n + 1) = next body answers (c.after body answers n) :=
  Function.iterate_succ_apply' _ _ _

theorem after_add (m n : Nat) :
    c.after body answers (m + n) = (c.after body answers m).after body answers n := by
  rw [Nat.add_comm]
  exact Function.iterate_add_apply _ _ _ _

/-- A property each step keeps. -/
theorem after_invariant {I : Course Op Resp Fn α → Prop}
    (step : ∀ c, I c → I (next body answers c)) (holds : I c) (n : Nat) :
    I (c.after body answers n) := by
  induction n with
  | zero => exact holds
  | succ n ih =>
    rw [after_succ']
    exact step _ ih

/-- A task that is over stays as it is. -/
theorem after_ret {value : α} (ended : c.rest = .ret value) (n : Nat) :
    c.after body answers n = c := by
  obtain ⟨heard, called, rest⟩ := c
  obtain rfl : rest = .ret value := ended
  induction n with
  | zero => rfl
  | succ n ih => rw [after_succ', ih, next_ret]

/-- Once over, the task has come to its last state. -/
theorem after_of_over {m n : Nat} {value : α} (ended : (c.after body answers m).rest = .ret value)
    (le : m ≤ n) : c.after body answers n = c.after body answers m := by
  obtain ⟨k, rfl⟩ := Nat.exists_eq_add_of_le le
  rw [after_add, after_ret ended]

theorem next_called (c : Course Op Resp Fn α) : c.called <+: (next body answers c).called := by
  obtain ⟨heard, called, rest⟩ := c
  cases rest <;> simp

/-- What a task has called stays called. -/
theorem called_prefix (n : Nat) : c.called <+: (c.after body answers n).called :=
  after_invariant (I := fun d => c.called <+: d.called)
    (fun d known => known.trans (next_called d)) (List.prefix_refl _) n

/-- A task is told what `answers` says. -/
theorem told (n : Nat) : ∀ x ∈ (c.after body answers n).heard, x ∈ c.heard ∨ ∃ k, x.2 = answers k x.1 := by
  apply after_invariant (I := fun d => ∀ x ∈ d.heard, x ∈ c.heard ∨ ∃ k, x.2 = answers k x.1)
  · intro d known x mem
    obtain ⟨heard, called, rest⟩ := d
    cases rest with
    | op o next =>
      rcases List.mem_append.mp mem with old | new
      · exact known x old
      · obtain rfl := List.mem_singleton.mp new
        exact .inr ⟨_, rfl⟩
    | _ => exact known x mem
  · exact fun x mem => .inl mem

end Course

/-! ## Under a contract -/

/-- The ghost state of a task by what it was told. -/
def Contract.heard (C : Contract Op Resp Fn) (σ : C.State) (l : List (Exchange Op Resp)) : C.State :=
  l.foldl (fun σ x => C.next σ x.1 x.2) σ

/-- A task keeps the contract its functions keep, whatever it is told. -/
theorem Course.along (body : Fn → Prog Op Resp Fn α) (answers : Answers Op Resp)
    {c : Course Op Resp Fn α} {C : Contract Op Resp Fn} {σ : C.State} {post : C.State → α → Prop}
    (calls : ∀ σ f, C.tail σ f → (body f).Along C post σ) (relies : ∀ n o, C.rely o (answers n o))
    (along : c.rest.Along C post (C.heard σ c.heard)) (n : Nat) :
    (c.after body answers n).rest.Along C post (C.heard σ (c.after body answers n).heard) := by
  apply Course.after_invariant (I := fun d => d.rest.Along C post (C.heard σ d.heard)) _ along
  intro d kept
  obtain ⟨heard, called, rest⟩ := d
  cases rest with
  | ret value => exact kept
  | op o next =>
    have told := kept.2 _ (relies heard.length o)
    rw [Course.next_op]
    simpa only [Contract.heard, List.foldl_append, List.foldl_cons, List.foldl_nil] using told
  | spawn f next => exact kept.2
  | jump f => exact calls _ f kept

theorem Prog.bind_ret (p : Prog Op Resp Fn α) : p.bind .ret = p := by
  induction p with
  | ret value => rfl
  | op o next ih => exact congrArg (Prog.op o) (funext ih)
  | spawn f next ih => exact congrArg (Prog.spawn f) ih
  | jump f => rfl

/-- A program without tail calls comes to its end, staying within its footprint. -/
theorem Prog.Within.finishes {β : Type} (body : Fn → Prog Op Resp Fn β) (answers : Answers Op Resp)
    {ops : Op → Prop} {fns : Fn → Prop} {p : Prog Op Resp Fn α}
    (within : p.Within ops fns fun _ => False) (rest : α → Prog Op Resp Fn β)
    (heard : List (Exchange Op Resp)) (called : List Fn) :
    ∃ n told value, (Course.mk heard called (p.bind rest)).after body answers n =
        ⟨heard ++ told, called, rest value⟩ ∧ ∀ x ∈ told, ops x.1 := by
  induction p generalizing heard with
  | ret value => exact ⟨0, [], value, by simp, by simp⟩
  | op o next ih =>
    obtain ⟨n, told, value, there, kept⟩ :=
      ih (answers heard.length o) (within.2 _) (heard ++ [⟨o, answers heard.length o⟩])
    refine ⟨n + 1, ⟨o, answers heard.length o⟩ :: told, value, ?_, ?_⟩
    · rw [Course.after_succ, op_bind, Course.next_op, there]
      simp
    · simp only [List.mem_cons, forall_eq_or_imp]
      exact ⟨within.1, kept⟩
  | spawn f next ih =>
    obtain ⟨n, told, value, there, kept⟩ := ih within.2 heard
    exact ⟨n + 1, told, value, by rw [Course.after_succ, spawn_bind, Course.next_spawn, there], kept⟩
  | jump f => exact within.elim

end PatchManager.Conc
