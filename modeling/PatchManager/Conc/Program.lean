import Mathlib.Logic.Basic

/-! # Sequential programs over atomic operations

A task of a concurrent service is a *program*: it performs operations one at a
time, each answered by the world, and may start further tasks.  `Prog` is the
tree of everything such a task can do.  A node offers one operation and continues
with whatever answer it gets, so a program fixes nothing about scheduling or about
the answers.  Loops that wait for input end in `jump`, a tail call to a named
function.

`Prog.Along` is the path predicate every proof about programs goes through: along
all answers a `Contract` allows, each operation is one the contract permits at that
point, each function started is one it admits, and the result satisfies a
postcondition.  `along_bind` makes it compositional.
-/

namespace PatchManager.Conc

/-- What one sequential task can do: finish, perform an operation and continue
    with its answer, start another task, or tail-call a named function. -/
inductive Prog (Op : Type) (Resp : Op → Type) (Fn : Type) (α : Type) : Type where
  | ret (value : α)
  | op (o : Op) (next : Resp o → Prog Op Resp Fn α)
  | spawn (f : Fn) (next : Prog Op Resp Fn α)
  | jump (f : Fn)

variable {Op : Type} {Resp : Op → Type} {Fn : Type} {α β : Type}

namespace Prog

/-- Sequencing.  A tail call never returns, so nothing follows it. -/
def bind : Prog Op Resp Fn α → (α → Prog Op Resp Fn β) → Prog Op Resp Fn β
  | .ret value, rest => rest value
  | .op o next, rest => .op o fun r => (next r).bind rest
  | .spawn f next, rest => .spawn f (next.bind rest)
  | .jump f, _ => .jump f

instance : Monad (Prog Op Resp Fn) where
  pure := .ret
  bind := bind

/-- The program that performs `o` and returns its answer. -/
def perform (o : Op) : Prog Op Resp Fn (Resp o) := .op o .ret

/-- The program that starts `f` as a task of its own. -/
def fork (f : Fn) : Prog Op Resp Fn Unit := .spawn f (.ret ())

@[simp] theorem pure_eq (value : α) : (pure value : Prog Op Resp Fn α) = .ret value := rfl
@[simp] theorem bind_eq (p : Prog Op Resp Fn α) (rest : α → Prog Op Resp Fn β) :
    p >>= rest = p.bind rest := rfl
@[simp] theorem ret_bind (value : α) (rest : α → Prog Op Resp Fn β) :
    (Prog.ret value).bind rest = rest value := rfl
@[simp] theorem op_bind (o : Op) (next : Resp o → Prog Op Resp Fn α)
    (rest : α → Prog Op Resp Fn β) :
    (Prog.op o next).bind rest = .op o fun r => (next r).bind rest := rfl
@[simp] theorem spawn_bind (f : Fn) (next : Prog Op Resp Fn α) (rest : α → Prog Op Resp Fn β) :
    (Prog.spawn f next).bind rest = .spawn f (next.bind rest) := rfl
@[simp] theorem jump_bind (f : Fn) (rest : α → Prog Op Resp Fn β) :
    (Prog.jump f : Prog Op Resp Fn α).bind rest = .jump f := rfl
@[simp] theorem perform_bind (o : Op) (rest : Resp o → Prog Op Resp Fn β) :
    (perform o : Prog Op Resp Fn (Resp o)).bind rest = .op o rest := rfl
@[simp] theorem fork_bind (f : Fn) (rest : Unit → Prog Op Resp Fn β) :
    (fork f : Prog Op Resp Fn Unit).bind rest = .spawn f (rest ()) := rfl

theorem bind_assoc {γ : Type} (p : Prog Op Resp Fn α) (rest : α → Prog Op Resp Fn β)
    (last : β → Prog Op Resp Fn γ) : (p.bind rest).bind last = p.bind fun a => (rest a).bind last := by
  induction p with
  | ret value => rfl
  | op o next ih => exact congrArg (Prog.op o) (funext ih)
  | spawn f next ih => exact congrArg (Prog.spawn f) ih
  | jump f => rfl

end Prog

/-- An agreement between a program and its surroundings: which answers it may `rely`
    on, which operations it guarantees to stay within, which functions it may start or
    tail-call, and where it may end.  What is permitted can depend on a ghost state that
    follows the operations performed so far. -/
structure Contract (Op : Type) (Resp : Op → Type) (Fn : Type) where
  State : Type
  /-- the ghost state where there is no task, or no longer one -/
  idle : State
  /-- the ghost state of a task that has just been started -/
  init : Fn → State
  next : State → (o : Op) → Resp o → State
  rely : (o : Op) → Resp o → Prop
  guar : State → Op → Prop
  start : State → Fn → Prop
  tail : State → Fn → Prop
  exit : State → Prop

namespace Prog

variable {C : Contract Op Resp Fn} {post : C.State → α → Prop} {σ : C.State}

/-- On every path from ghost state `σ` whose answers satisfy `C.rely`, every operation is
    one `C.guar` permits there, every function started or called one `C.start` or `C.tail`
    permits, and the last ghost state and the result satisfy `post`. -/
def Along (C : Contract Op Resp Fn) (post : C.State → α → Prop) :
    C.State → Prog Op Resp Fn α → Prop
  | σ, .ret value => post σ value
  | σ, .op o next => C.guar σ o ∧ ∀ r, C.rely o r → (next r).Along C post (C.next σ o r)
  | σ, .spawn f next => C.start σ f ∧ next.Along C post σ
  | σ, .jump f => C.tail σ f

@[simp] theorem along_ret (value : α) : (Prog.ret value).Along C post σ ↔ post σ value := Iff.rfl
@[simp] theorem along_op (o : Op) (next : Resp o → Prog Op Resp Fn α) :
    (Prog.op o next).Along C post σ ↔
      C.guar σ o ∧ ∀ r, C.rely o r → (next r).Along C post (C.next σ o r) := Iff.rfl
@[simp] theorem along_spawn (f : Fn) (next : Prog Op Resp Fn α) :
    (Prog.spawn f next).Along C post σ ↔ C.start σ f ∧ next.Along C post σ := Iff.rfl
@[simp] theorem along_jump (f : Fn) :
    (Prog.jump f : Prog Op Resp Fn α).Along C post σ ↔ C.tail σ f := Iff.rfl

/-- The rule of consequence. -/
theorem Along.weaken {p : Prog Op Resp Fn α} {post' : C.State → α → Prop}
    (along : p.Along C post σ) (weaken : ∀ σ a, post σ a → post' σ a) : p.Along C post' σ := by
  induction p generalizing σ with
  | ret value => exact weaken σ value along
  | op o next ih => exact ⟨along.1, fun r relied => ih r (along.2 r relied)⟩
  | spawn f next ih => exact ⟨along.1, ih along.2⟩
  | jump f => exact along

/-- The rule of sequencing: the first part has to establish what the rest needs. -/
theorem along_bind {q : C.State → β → Prop} (p : Prog Op Resp Fn α)
    (rest : α → Prog Op Resp Fn β) :
    (p.bind rest).Along C q σ ↔ p.Along C (fun σ a => (rest a).Along C q σ) σ := by
  induction p generalizing σ with
  | ret value => exact Iff.rfl
  | op o next ih => simp only [op_bind, along_op, ih]
  | spawn f next ih => simp only [spawn_bind, along_spawn, ih]
  | jump f => exact Iff.rfl

/-- Sequencing with an intermediate condition given by a lemma about the first part. -/
theorem Along.bind {q : C.State → β → Prop} {p : Prog Op Resp Fn α}
    {rest : α → Prog Op Resp Fn β} (first : p.Along C post σ)
    (second : ∀ σ a, post σ a → (rest a).Along C q σ) : (p.bind rest).Along C q σ :=
  (along_bind p rest).mpr (first.weaken second)

end Prog

end PatchManager.Conc

/-! ## Footprints

The simplest thing to know about a program: which operations it performs and which
functions it starts or tail-calls, in whatever order.  A program that stays within
operations a contract does not care about keeps that contract and leaves its ghost state
alone (`Within.along`).
-/

namespace PatchManager.Conc

variable {Op : Type} {Resp : Op → Type} {Fn : Type} {α β : Type}

namespace Prog

variable {ops ops' : Op → Prop} {fns fns' tails tails' : Fn → Prop}

/-- Every operation satisfies `ops`, every function started `fns`, every function
    tail-called `tails`. -/
def Within (ops : Op → Prop) (fns tails : Fn → Prop) : Prog Op Resp Fn α → Prop
  | .ret _ => True
  | .op o next => ops o ∧ ∀ r, (next r).Within ops fns tails
  | .spawn f next => fns f ∧ next.Within ops fns tails
  | .jump f => tails f

namespace Within

theorem ret (value : α) : (Prog.ret value : Prog Op Resp Fn α).Within ops fns tails := trivial

theorem op {o : Op} {next : Resp o → Prog Op Resp Fn α} (permitted : ops o)
    (rest : ∀ r, (next r).Within ops fns tails) : (Prog.op o next).Within ops fns tails :=
  ⟨permitted, rest⟩

theorem spawn {f : Fn} {next : Prog Op Resp Fn α} (permitted : fns f)
    (rest : next.Within ops fns tails) : (Prog.spawn f next).Within ops fns tails :=
  ⟨permitted, rest⟩

theorem jump {f : Fn} (permitted : tails f) :
    (Prog.jump f : Prog Op Resp Fn α).Within ops fns tails := permitted

theorem ite {c : Prop} [Decidable c] {p q : Prog Op Resp Fn α} (yes : p.Within ops fns tails)
    (no : q.Within ops fns tails) : (if c then p else q).Within ops fns tails := by
  split
  · exact yes
  · exact no

theorem bind {p : Prog Op Resp Fn α} {rest : α → Prog Op Resp Fn β}
    (first : p.Within ops fns tails) (second : ∀ a, (rest a).Within ops fns tails) :
    (p.bind rest).Within ops fns tails := by
  induction p with
  | ret value => exact second value
  | op o next ih => exact ⟨first.1, fun r => ih r (first.2 r)⟩
  | spawn f next ih => exact ⟨first.1, ih first.2⟩
  | jump f => exact first

theorem mono {p : Prog Op Resp Fn α} (within : p.Within ops fns tails)
    (moreOps : ∀ o, ops o → ops' o) (moreFns : ∀ f, fns f → fns' f)
    (moreTails : ∀ f, tails f → tails' f) : p.Within ops' fns' tails' := by
  induction p with
  | ret value => trivial
  | op o next ih => exact ⟨moreOps o within.1, fun r => ih r (within.2 r)⟩
  | spawn f next ih => exact ⟨moreFns f within.1, ih within.2⟩
  | jump f => exact moreTails f within

/-- A program keeps a contract that permits every operation of its footprint and whose
    ghost state they do not move. -/
theorem along {C : Contract Op Resp Fn} {σ : C.State} {p : Prog Op Resp Fn α}
    (within : p.Within ops fns tails)
    (permits : ∀ o, ops o → C.guar σ o ∧ ∀ r, C.next σ o r = σ)
    (starts : ∀ f, fns f → C.start σ f) (calls : ∀ f, tails f → C.tail σ f) :
    p.Along C (fun τ _ => τ = σ) σ := by
  induction p with
  | ret value => rfl
  | op o next ih =>
    obtain ⟨permitted, still⟩ := permits o within.1
    refine ⟨permitted, fun r _ => ?_⟩
    rw [still r]
    exact ih r (within.2 r)
  | spawn f next ih => exact ⟨starts f within.1, ih within.2⟩
  | jump f => exact calls f within

end Within

end Prog

end PatchManager.Conc

/-! ## What a program does in a given environment

An environment that answers every operation turns a program into one sequence of
operations.  Two runs of different programs, or of one program on different data, are
compared by their sequences in the same environment.

Main results: `trace_bind`, the trace of a sequence, and `Within.trace`, which bounds a
trace by a footprint.
-/

namespace PatchManager.Conc

variable {Op : Type} {Resp : Op → Type} {Fn : Type} {α β : Type}

namespace Prog

variable (env : (o : Op) → Resp o)

/-- The operations `p` performs when each is answered by `env`; functions it starts are
    left aside. -/
def trace : Prog Op Resp Fn α → List Op
  | .ret _ => []
  | .op o next => o :: (next (env o)).trace
  | .spawn _ next => next.trace
  | .jump _ => []

/-- The value `p` returns when each operation is answered by `env`. -/
def result : Prog Op Resp Fn α → Option α
  | .ret value => some value
  | .op o next => (next (env o)).result
  | .spawn _ next => next.result
  | .jump _ => none

@[simp] theorem trace_ret (value : α) : (Prog.ret value : Prog Op Resp Fn α).trace env = [] := rfl
@[simp] theorem trace_op (o : Op) (next : Resp o → Prog Op Resp Fn α) :
    (Prog.op o next).trace env = o :: (next (env o)).trace env := rfl
@[simp] theorem result_ret (value : α) :
    (Prog.ret value : Prog Op Resp Fn α).result env = some value := rfl
@[simp] theorem result_op (o : Op) (next : Resp o → Prog Op Resp Fn α) :
    (Prog.op o next).result env = (next (env o)).result env := rfl

/-- What a sequence does: its first part, and the rest with the value returned. -/
theorem trace_bind {value : α} (p : Prog Op Resp Fn α) (rest : α → Prog Op Resp Fn β)
    (returns : p.result env = some value) :
    (p.bind rest).trace env = p.trace env ++ (rest value).trace env := by
  induction p with
  | ret other => cases returns; rfl
  | op o next ih => exact congrArg (o :: ·) (ih (env o) returns)
  | spawn f next ih => exact ih returns
  | jump f => cases returns

variable {env} {ops : Op → Prop} {fns tails : Fn → Prop}

theorem Within.trace {p : Prog Op Resp Fn α} (within : p.Within ops fns tails) :
    ∀ o ∈ p.trace env, ops o := by
  induction p with
  | ret value =>
    intro o mem
    cases mem
  | op o next ih =>
    intro o' mem
    cases mem with
    | head => exact within.1
    | tail _ later => exact ih (env o) (within.2 _) o' later
  | spawn f next ih => exact ih within.2
  | jump f =>
    intro o mem
    cases mem

end Prog

end PatchManager.Conc
