import PatchManager.Conc.Program
import Mathlib.Data.List.Induction
import Mathlib.Logic.Function.Basic

/-! # Interleaved tasks over a shared world

A `Machine` says what the operations of a service do to the shared world, what each
named function runs, and what can happen from outside: entry points are called, other
components change the world, the process restarts, a single request is abandoned.
`Step` interleaves the tasks one operation at a time; `Run` records the whole history
as a list of events, each with the state before and after it.

Main results:

* `Run.preserves`: a property of states kept by every event of a run holds at its end.
* `Run.guarantees`: the rely-guarantee rule.  If every function the contract admits
  keeps the contract, and the answers recorded in the history satisfy what the contract
  relies on, then every operation in the history is one the contract permits in the
  ghost state its task had.  `Machine.ghost` computes that state from the history.
-/

namespace PatchManager.Conc

variable {World Op : Type} {Resp : Op → Type} {Fn : Type}

/-- A task: the function it was started as, and what it has left to do. -/
structure Task (Op : Type) (Resp : Op → Type) (Fn : Type) where
  root : Fn
  prog : Prog Op Resp Fn Unit

/-- A state: the shared world and every task ever started, by position.  A task that
    is over stays in the list with the program `ret ()`. -/
structure Sys (World Op : Type) (Resp : Op → Type) (Fn : Type) where
  world : World
  tasks : List (Task Op Resp Fn)

/-- The fixed part of a service. -/
structure Machine (World Op : Type) (Resp : Op → Type) (Fn : Type) where
  /-- the program of each named function -/
  body : Fn → Prog Op Resp Fn Unit
  /-- the answers an operation can get, and the world after it -/
  exec : World → (o : Op) → Resp o → World → Prop
  /-- the functions that can be called from outside, and the world after the call -/
  enter : Sys World Op Resp Fn → Fn → World → Prop
  /-- what other components do to the world -/
  drift : World → World → Prop
  /-- the world after a restart of the process that runs the perishable tasks -/
  restart : World → World
  /-- the tasks that a restart ends -/
  perishes : Fn → Bool
  /-- the tasks that can end on their own at any point -/
  abandons : Fn → Bool

inductive Label (Op : Type) (Resp : Op → Type) (Fn : Type) where
  | op (tid : Nat) (o : Op) (r : Resp o)
  | spawn (tid : Nat) (f : Fn)
  | jump (tid : Nat) (f : Fn)
  | enter (f : Fn)
  | drift
  | restart
  | abandon (tid : Nat)

def Task.finished (root : Fn) : Task Op Resp Fn := ⟨root, .ret ()⟩

/-- The tasks after a restart. -/
def Machine.survivors (M : Machine World Op Resp Fn) (tasks : List (Task Op Resp Fn)) :
    List (Task Op Resp Fn) :=
  tasks.map fun t => if M.perishes t.root then .finished t.root else t

inductive Step (M : Machine World Op Resp Fn) :
    Sys World Op Resp Fn → Label Op Resp Fn → Sys World Op Resp Fn → Prop
  | op {s : Sys World Op Resp Fn} {tid : Nat} {root : Fn} {o : Op}
      {next : Resp o → Prog Op Resp Fn Unit} {r : Resp o} {w : World}
      (at_ : s.tasks[tid]? = some ⟨root, .op o next⟩) (exec : M.exec s.world o r w) :
      Step M s (.op tid o r) ⟨w, s.tasks.set tid ⟨root, next r⟩⟩
  | spawn {s : Sys World Op Resp Fn} {tid : Nat} {root f : Fn} {next : Prog Op Resp Fn Unit}
      (at_ : s.tasks[tid]? = some ⟨root, .spawn f next⟩) :
      Step M s (.spawn tid f) ⟨s.world, s.tasks.set tid ⟨root, next⟩ ++ [⟨f, M.body f⟩]⟩
  | jump {s : Sys World Op Resp Fn} {tid : Nat} {root f : Fn}
      (at_ : s.tasks[tid]? = some ⟨root, .jump f⟩) :
      Step M s (.jump tid f) ⟨s.world, s.tasks.set tid ⟨root, M.body f⟩⟩
  | enter {s : Sys World Op Resp Fn} {f : Fn} {w : World} (enter : M.enter s f w) :
      Step M s (.enter f) ⟨w, s.tasks ++ [⟨f, M.body f⟩]⟩
  | drift {s : Sys World Op Resp Fn} {w : World} (drift : M.drift s.world w) :
      Step M s .drift ⟨w, s.tasks⟩
  | restart {s : Sys World Op Resp Fn} :
      Step M s .restart ⟨M.restart s.world, M.survivors s.tasks⟩
  | abandon {s : Sys World Op Resp Fn} {tid : Nat} {t : Task Op Resp Fn}
      (at_ : s.tasks[tid]? = some t) (abandons : M.abandons t.root = true) :
      Step M s (.abandon tid) ⟨s.world, s.tasks.set tid (.finished t.root)⟩

section inversion

variable {M : Machine World Op Resp Fn} {s t : Sys World Op Resp Fn}

theorem Step.op_inv {tid : Nat} {o : Op} {r : Resp o} (step : Step M s (.op tid o r) t) :
    ∃ root next w, s.tasks[tid]? = some ⟨root, .op o next⟩ ∧ M.exec s.world o r w ∧
      t = ⟨w, s.tasks.set tid ⟨root, next r⟩⟩ := by
  cases step with
  | op at_ exec => exact ⟨_, _, _, at_, exec, rfl⟩

theorem Step.enter_inv {f : Fn} (step : Step M s (.enter f) t) :
    ∃ w, M.enter s f w ∧ t = ⟨w, s.tasks ++ [⟨f, M.body f⟩]⟩ := by
  cases step with
  | enter enter => exact ⟨_, enter, rfl⟩

end inversion

theorem getElem?_survivors {M : Machine World Op Resp Fn} {tasks : List (Task Op Resp Fn)}
    {tid : Nat} {t : Task Op Resp Fn} (at_ : (M.survivors tasks)[tid]? = some t) :
    ∃ t₀, tasks[tid]? = some t₀ ∧
      t = if M.perishes t₀.root then .finished t₀.root else t₀ := by
  obtain ⟨t₀, old, eq⟩ := Option.map_eq_some_iff.mp (List.getElem?_map .. ▸ at_)
  exact ⟨t₀, old, eq.symm⟩

/-- One step of a run, with the states it leads between. -/
structure Event (World Op : Type) (Resp : Op → Type) (Fn : Type) where
  pre : Sys World Op Resp Fn
  label : Label Op Resp Fn
  post : Sys World Op Resp Fn

/-- The event starts task `tid` with the function `f`. -/
def Event.Starts (e : Event World Op Resp Fn) (tid : Nat) (f : Fn) : Prop :=
  tid = e.pre.tasks.length ∧ ((∃ parent, e.label = .spawn parent f) ∨ e.label = .enter f)

/-- The task goes on as `t`, or is over. -/
def Task.Continues (t₀ t : Task Op Resp Fn) : Prop :=
  t.root = t₀.root ∧ (t₀.prog = .ret () → t.prog = .ret ())

theorem Task.continues_refl (t : Task Op Resp Fn) : t.Continues t := ⟨rfl, id⟩

section tasks

variable {M : Machine World Op Resp Fn} {s u : Sys World Op Resp Fn} {l : Label Op Resp Fn}
  {tid : Nat} {t : Task Op Resp Fn}

/-- A task set at one position: the one asked for is the new one or an old one. -/
theorem getElem?_set_cases {tasks : List (Task Op Resp Fn)} {other : Nat} {t₀ t₁ : Task Op Resp Fn}
    (at_ : (tasks.set other t₁)[tid]? = some t) (old : tasks[other]? = some t₀)
    (continues : t₀.Continues t₁) :
    ∃ t₀, tasks[tid]? = some t₀ ∧ t₀.Continues t := by
  rcases eq_or_ne other tid with rfl | ne
  · rw [List.getElem?_set_self (List.getElem?_eq_some_iff.mp old).1] at at_
    cases at_
    exact ⟨t₀, old, continues⟩
  · rw [List.getElem?_set_ne ne] at at_
    exact ⟨t, at_, t.continues_refl⟩

/-- A task added at the end: the one asked for is the new one or an old one. -/
theorem getElem?_append_cases {tasks : List (Task Op Resp Fn)} {t₁ : Task Op Resp Fn}
    (at_ : (tasks ++ [t₁])[tid]? = some t) :
    tasks[tid]? = some t ∨ tid = tasks.length ∧ t = t₁ := by
  rcases Nat.lt_trichotomy tid tasks.length with inside | rfl | outside
  · exact .inl (by rwa [List.getElem?_append_left inside] at at_)
  · exact .inr ⟨rfl, by simpa using at_.symm⟩
  · rw [List.getElem?_eq_none (by simp; omega)] at at_
    cases at_

/-- A task after a step was there before or has just been started. -/
theorem Step.task_cases (step : Step M s l u) (at_ : u.tasks[tid]? = some t) :
    (∃ t₀, s.tasks[tid]? = some t₀ ∧ t₀.Continues t) ∨
      ∃ f, Event.Starts ⟨s, l, u⟩ tid f ∧ t = ⟨f, M.body f⟩ := by
  cases step with
  | op old => exact .inl (getElem?_set_cases at_ old ⟨rfl, nofun⟩)
  | jump old => exact .inl (getElem?_set_cases at_ old ⟨rfl, nofun⟩)
  | abandon old => exact .inl (getElem?_set_cases at_ old ⟨rfl, fun _ => rfl⟩)
  | drift => exact .inl ⟨t, at_, t.continues_refl⟩
  | @spawn parent root f next old =>
    rcases getElem?_append_cases at_ with before | ⟨last, new⟩
    · exact .inl (getElem?_set_cases before old ⟨rfl, nofun⟩)
    · exact .inr ⟨f, ⟨by simpa using last, .inl ⟨parent, rfl⟩⟩, new⟩
  | @enter f =>
    rcases getElem?_append_cases at_ with before | ⟨last, new⟩
    · exact .inl ⟨t, before, t.continues_refl⟩
    · exact .inr ⟨f, ⟨last, .inr rfl⟩, new⟩
  | restart =>
    obtain ⟨t₀, old, rfl⟩ := getElem?_survivors at_
    refine .inl ⟨t₀, old, ?_⟩
    split
    · exact ⟨rfl, fun _ => rfl⟩
    · exact t₀.continues_refl

end tasks

/-- `Run M s h t`: the events `h`, oldest first, lead from `s` to `t`. -/
inductive Run (M : Machine World Op Resp Fn) (s : Sys World Op Resp Fn) :
    List (Event World Op Resp Fn) → Sys World Op Resp Fn → Prop
  | nil : Run M s [] s
  | snoc {h : List (Event World Op Resp Fn)} {t u : Sys World Op Resp Fn} {l : Label Op Resp Fn}
      (run : Run M s h t) (step : Step M t l u) : Run M s (h ++ [⟨t, l, u⟩]) u

variable {M : Machine World Op Resp Fn} {s t u : Sys World Op Resp Fn}
  {h h' : List (Event World Op Resp Fn)}

namespace Run

theorem append (first : Run M s h t) (second : Run M t h' u) : Run M s (h ++ h') u := by
  induction second with
  | nil => simpa using first
  | snoc _ step ih => rw [← List.append_assoc]; exact ih.snoc step

theorem cons {l : Label Op Resp Fn} (step : Step M s l t) (run : Run M t h u) :
    Run M s (⟨s, l, t⟩ :: h) u := by
  have first : Run M s ([] ++ [⟨s, l, t⟩]) t := Run.nil.snoc step
  exact first.append run

theorem nil_inv (run : Run M s [] u) : u = s := by
  generalize eq : ([] : List (Event World Op Resp Fn)) = none at run
  cases run with
  | nil => rfl
  | snoc => simp at eq

/-- A run whose last event is known. -/
theorem snoc_inv {e : Event World Op Resp Fn} (run : Run M s (h ++ [e]) u) :
    Run M s h e.pre ∧ Step M e.pre e.label e.post ∧ e.post = u := by
  generalize eq : h ++ [e] = whole at run
  cases run with
  | nil => simp at eq
  | snoc run step =>
    obtain ⟨rfl, last⟩ := List.append_inj' eq rfl
    obtain rfl := List.singleton_inj.mp last
    exact ⟨run, step, rfl⟩

/-- Splitting a run at a point of its history. -/
theorem split (run : Run M s (h ++ h') u) : ∃ t, Run M s h t ∧ Run M t h' u := by
  induction h' using List.reverseRecOn generalizing u with
  | nil => exact ⟨u, by simpa using run, .nil⟩
  | append_singleton h' e ih =>
    rw [← List.append_assoc] at run
    obtain ⟨before, step, rfl⟩ := run.snoc_inv
    obtain ⟨t, first, second⟩ := ih before
    exact ⟨t, first, second.snoc step⟩

/-- Splitting a run around one of its events. -/
theorem split_event {e : Event World Op Resp Fn} (run : Run M s (h ++ e :: h') u) :
    Run M s h e.pre ∧ Step M e.pre e.label e.post ∧ Run M e.post h' u := by
  rw [List.append_cons] at run
  obtain ⟨t, first, second⟩ := run.split
  obtain ⟨before, step, rfl⟩ := first.snoc_inv
  exact ⟨before, step, second⟩

theorem step_of_mem {e : Event World Op Resp Fn} (run : Run M s h u) (mem : e ∈ h) :
    Step M e.pre e.label e.post := by
  obtain ⟨h₁, h₂, rfl⟩ := List.append_of_mem mem
  exact run.split_event.2.1

/-- The invariant rule: what every event of the run keeps holds at its end. -/
theorem preserves {I : Sys World Op Resp Fn → Prop} (run : Run M s h t)
    (keeps : ∀ e ∈ h, Step M e.pre e.label e.post → I e.pre → I e.post) (start : I s) : I t := by
  induction run with
  | nil => exact start
  | @snoc h t u l _ step ih =>
    exact keeps ⟨t, l, u⟩ (by simp) step (ih fun e mem => keeps e (by simp [mem]))

/-- The invariant rule for properties of the history as well as the state. -/
theorem preserves_history {I : List (Event World Op Resp Fn) → Sys World Op Resp Fn → Prop}
    (run : Run M s h t) (start : I [] s)
    (keeps : ∀ h₁ e, (∃ h₂, h = h₁ ++ e :: h₂) → Step M e.pre e.label e.post →
      I h₁ e.pre → I (h₁ ++ [e]) e.post) : I h t := by
  induction run with
  | nil => exact start
  | @snoc h t u l _ step ih =>
    refine keeps h ⟨t, l, u⟩ ⟨[], rfl⟩ step (ih fun h₁ e ⟨h₂, eq⟩ => ?_)
    exact keeps h₁ e ⟨h₂ ++ [⟨t, l, u⟩], by simp [eq]⟩

/-- The invariant rule whose hypothesis is about every earlier point of the history. -/
theorem preserves_since {I : List (Event World Op Resp Fn) → Sys World Op Resp Fn → Prop}
    (holds : ∀ h t, Run M s h t → (∀ h₁ e h₂, h = h₁ ++ e :: h₂ → I h₁ e.pre) → I h t)
    (run : Run M s h t) : I h t := by
  -- by the length of the history, as an earlier point has a shorter one
  induction n : h.length using Nat.strongRecOn generalizing h t with
  | _ n ih =>
    refine holds h t run fun h₁ e h₂ eq => ?_
    subst eq
    exact ih h₁.length (by simp at n; omega) run.split_event.1 rfl

/-- What holds after one event and is kept by the later ones holds at the end. -/
theorem kept_after {P : Sys World Op Resp Fn → Prop} {e : Event World Op Resp Fn}
    (run : Run M s (h ++ e :: h') t) (held : P e.post)
    (keeps : ∀ l₁ a l₂, h ++ e :: h' = l₁ ++ a :: l₂ → P a.pre → P a.post) : P t := by
  obtain ⟨-, -, rest⟩ := run.split_event
  refine rest.preserves (fun a mem _ before => ?_) held
  obtain ⟨l₁, l₂, rfl⟩ := List.append_of_mem mem
  exact keeps (h ++ e :: l₁) a l₂ (by simp) before

/-- What holds at the end of a run and not at its start comes about at one of its events. -/
theorem exists_change {P : Sys World Op Resp Fn → Prop} (run : Run M s h t) (start : ¬ P s) (last : P t) :
    ∃ h₁ e h₂, h = h₁ ++ e :: h₂ ∧ ¬ P e.pre ∧ P e.post := by
  by_contra none
  push Not at none
  refine run.preserves (I := fun s => ¬ P s) (fun e mem _ before => ?_) start last
  obtain ⟨h₁, h₂, eq⟩ := List.append_of_mem mem
  exact none h₁ e h₂ eq before

/-- What comes about once and then ends does not come back. -/
theorem not_again {P : Sys World Op Resp Fn → Prop} {h₁ h₂ h₃ : List (Event World Op Resp Fn)}
    {t₁ t₂ t₃ : Sys World Op Resp Fn} (first : Run M s h₁ t₁) (third : Run M t₂ h₃ t₃)
    (start : ¬ P s) (held : P t₁) (ended : ¬ P t₂)
    (once : ∀ l₁ e l₂ e' l₃, h₁ ++ h₂ ++ h₃ = l₁ ++ e :: (l₂ ++ e' :: l₃) → ¬ P e.pre → P e.post →
      ¬ P e'.pre → ¬ P e'.post) : ¬ P t₃ := by
  intro again
  obtain ⟨l₁, e, l₂, rfl, before, after⟩ := first.exists_change start held
  obtain ⟨l₃, e', l₄, rfl, before', after'⟩ := third.exists_change ended again
  exact once l₁ e (l₂ ++ h₂ ++ l₃) e' l₄ (by simp) before after before' after'

/-- What is brought once is taken once: after the event that takes it, it is gone. -/
theorem taken_once {P : Sys World Op Resp Fn → Prop} {Q : Label Op Resp Fn → Prop}
    {h₁ h₂ h₃ : List (Event World Op Resp Fn)} {e e' : Event World Op Resp Fn}
    (run : Run M s (h₁ ++ e :: (h₂ ++ e' :: h₃)) t) (start : ¬ P s)
    (brought : ∀ a ∈ h₁ ++ e :: (h₂ ++ e' :: h₃), ¬ P a.pre → P a.post → Q a.label)
    (once : ∀ l₁ a l₂ b l₃, h₁ ++ e :: (h₂ ++ e' :: h₃) = l₁ ++ a :: (l₂ ++ b :: l₃) →
      Q a.label → ¬ Q b.label)
    (held : P e.pre) (taken : ¬ P e.post) : ¬ P e'.pre := by
  obtain ⟨before, -, rest⟩ := run.split_event
  obtain ⟨between, -, -⟩ := rest.split_event
  refine @not_again _ _ _ _ _ _ P h₁ [e] h₂ _ _ _ before between start held taken ?_
  intro l₁ a l₂ b l₃ eq absent came absent' came'
  have whole : h₁ ++ e :: (h₂ ++ e' :: h₃) = l₁ ++ a :: (l₂ ++ b :: (l₃ ++ e' :: h₃)) := by
    calc h₁ ++ e :: (h₂ ++ e' :: h₃) = h₁ ++ [e] ++ h₂ ++ e' :: h₃ := by simp
      _ = _ := by rw [eq]; simp
  exact once l₁ a l₂ b _ whole (brought a (by simp [whole]) absent came)
    (brought b (by simp [whole]) absent' came')

end Run

/-! ## Points of a history -/

/-- At some point of the list `P` holds of what came before and the element there. -/
def Occurs {A : Type} (P : List A → A → Prop) (l : List A) : Prop :=
  ∃ l₁ a l₂, l = l₁ ++ a :: l₂ ∧ P l₁ a

section occurs

variable {A : Type} {P Q : List A → A → Prop} {l l' : List A} {a : A}

theorem Occurs.last (holds : P l a) : Occurs P (l ++ [a]) := ⟨l, a, [], rfl, holds⟩

theorem Occurs.append (occurs : Occurs P l) : Occurs P (l ++ l') := by
  obtain ⟨l₁, a, l₂, rfl, holds⟩ := occurs
  exact ⟨l₁, a, l₂ ++ l', by simp, holds⟩

theorem Occurs.mem (occurs : Occurs P l) : ∃ l₁, ∃ a ∈ l, P l₁ a := by
  obtain ⟨l₁, a, l₂, rfl, holds⟩ := occurs
  exact ⟨l₁, a, by simp, holds⟩

/-- A point of a longer list is a point of the shorter one or the last. -/
theorem split_snoc {l₁ l₂ : List A} {b : A} (eq : l ++ [a] = l₁ ++ b :: l₂) :
    (l₁ = l ∧ b = a ∧ l₂ = []) ∨ ∃ l₃, l = l₁ ++ b :: l₃ ∧ l₂ = l₃ ++ [a] := by
  rcases List.eq_nil_or_concat l₂ with rfl | ⟨l₃, c, rfl⟩
  · obtain ⟨rfl, single⟩ := List.append_inj' eq rfl
    exact .inl ⟨rfl, (List.singleton_inj.mp single).symm, rfl⟩
  · rw [List.concat_eq_append, ← List.cons_append, ← List.append_assoc] at eq
    obtain ⟨front, last⟩ := List.append_inj' eq rfl
    obtain rfl := List.singleton_inj.mp last
    exact .inr ⟨l₃, front, List.concat_eq_append⟩

/-- Two points of a list are the same or one comes before the other. -/
theorem split_cases {l₁ l₂ l₁' l₂' : List A} {b : A} (eq : l₁ ++ a :: l₂ = l₁' ++ b :: l₂') :
    (l₁ = l₁' ∧ a = b ∧ l₂ = l₂') ∨ (∃ m, l₂ = m ++ b :: l₂' ∧ l₁' = l₁ ++ a :: m) ∨
      ∃ m, l₂' = m ++ a :: l₂ ∧ l₁ = l₁' ++ b :: m := by
  rcases List.append_eq_append_iff.mp eq with ⟨m, rfl, rest⟩ | ⟨m, rfl, rest⟩
  · cases m with
    | nil =>
      obtain ⟨rfl, rfl⟩ := List.cons.inj rest
      exact .inl ⟨by simp, rfl, rfl⟩
    | cons c m =>
      obtain ⟨rfl, rfl⟩ := List.cons.inj rest
      exact .inr (.inl ⟨m, rfl, rfl⟩)
  · cases m with
    | nil =>
      obtain ⟨rfl, rfl⟩ := List.cons.inj rest
      exact .inl ⟨by simp, rfl, rfl⟩
    | cons c m =>
      obtain ⟨rfl, rfl⟩ := List.cons.inj rest
      exact .inr (.inr ⟨m, rfl, rfl⟩)

/-- Elements of a kind of which no second one follows a first are the same. -/
theorem eq_of_once {P : A → Prop} {b : A} (once : ∀ l₁ x l₂ y l₃, l = l₁ ++ x :: (l₂ ++ y :: l₃) → P x → ¬ P y)
    (mem : a ∈ l) (mem' : b ∈ l) (first : P a) (second : P b) : a = b := by
  obtain ⟨l₁, l₂, eq⟩ := List.append_of_mem mem
  obtain ⟨l₁', l₂', eq'⟩ := List.append_of_mem mem'
  rcases split_cases (eq.symm.trans eq') with ⟨-, same, -⟩ | ⟨m, later, -⟩ | ⟨m, later, -⟩
  · exact same
  · exact absurd second (once l₁ a m b l₂' (by rw [eq, later]) first)
  · exact absurd first (once l₁' b m a l₂ (by rw [eq', later]) second)

theorem Occurs.snoc_inv (occurs : Occurs P (l ++ [a])) : Occurs P l ∨ P l a := by
  obtain ⟨l₁, b, l₂, eq, holds⟩ := occurs
  rcases split_snoc eq with ⟨rfl, rfl, -⟩ | ⟨l₃, rfl, -⟩
  · exact .inr holds
  · exact .inl ⟨l₁, b, l₃, rfl, holds⟩

end occurs

/-! ## Tasks under a contract -/

variable {C : Contract Op Resp Fn}

/-- Every function the contract admits keeps it. -/
structure Machine.Keeps (M : Machine World Op Resp Fn) (C : Contract Op Resp Fn) : Prop where
  starts : ∀ σ f, C.start σ f → (M.body f).Along C (fun σ _ => C.exit σ) (C.init f)
  tails : ∀ σ f, C.tail σ f → (M.body f).Along C (fun σ _ => C.exit σ) σ
  idle : C.exit C.idle

/-- What a step gives the contract to rely on: the answer of an operation, and the
    function called from outside. -/
def Contract.Relies (C : Contract Op Resp Fn) : Label Op Resp Fn → Prop
  | .op _ o r => C.rely o r
  | .enter f => C.start C.idle f
  | _ => True

/-- What the contract guarantees of a step, when `ghost` gives the tasks' ghost states. -/
def Contract.Guarantees (C : Contract Op Resp Fn) (ghost : Nat → C.State) :
    Label Op Resp Fn → Prop
  | .op tid o _ => C.guar (ghost tid) o
  | .spawn tid f => C.start (ghost tid) f
  | .jump tid f => C.tail (ghost tid) f
  | _ => True

/-- The ghost states of the tasks after one event.  A tail call keeps the ghost state. -/
def Machine.ghostStep (M : Machine World Op Resp Fn) (C : Contract Op Resp Fn)
    (ghost : Nat → C.State) (e : Event World Op Resp Fn) : Nat → C.State :=
  match e.label with
  | .op tid o r => Function.update ghost tid (C.next (ghost tid) o r)
  | .spawn _ f | .enter f => Function.update ghost e.pre.tasks.length (C.init f)
  | .abandon tid => Function.update ghost tid C.idle
  | .jump _ _ | .drift => ghost
  | .restart => fun tid =>
    if (e.pre.tasks[tid]?).any fun t => M.perishes t.root then C.idle else ghost tid

/-- The ghost states of the tasks after a history, one for each position. -/
def Machine.ghost (M : Machine World Op Resp Fn) (C : Contract Op Resp Fn)
    (h : List (Event World Op Resp Fn)) : Nat → C.State :=
  h.foldl (M.ghostStep C) fun _ => C.idle

@[simp] theorem Machine.ghost_snoc (h : List (Event World Op Resp Fn))
    (e : Event World Op Resp Fn) : M.ghost C (h ++ [e]) = M.ghostStep C (M.ghost C h) e := by
  simp [Machine.ghost]

/-- How one event can move the ghost state of a task. -/
inductive GhostMove (C : Contract Op Resp Fn) (e : Event World Op Resp Fn) (tid : Nat)
    (σ σ' : C.State) : Prop
  | own (o : Op) (r : Resp o) (label : e.label = .op tid o r) (next : σ' = C.next σ o r)
  | start (f : Fn) (starts : e.Starts tid f) (init : σ' = C.init f)
  | stop (ends : e.label = .restart ∨ e.label = .abandon tid) (idle : σ' = C.idle)
  | keep (others : ∀ o r, e.label ≠ .op tid o r) (same : σ' = σ)

theorem Machine.ghost_move (M : Machine World Op Resp Fn) (C : Contract Op Resp Fn)
    (h : List (Event World Op Resp Fn)) (e : Event World Op Resp Fn) (tid : Nat) :
    GhostMove C e tid (M.ghost C h tid) (M.ghost C (h ++ [e]) tid) := by
  rw [Machine.ghost_snoc]
  obtain ⟨pre, label, post⟩ := e
  cases label with
  | op other o r =>
    rcases eq_or_ne tid other with rfl | ne
    · exact .own o r rfl (Function.update_self ..)
    · refine .keep ?_ (Function.update_of_ne ne ..)
      rintro _ _ ⟨⟩
      exact ne rfl
  | spawn parent f =>
    rcases eq_or_ne tid pre.tasks.length with rfl | ne
    · exact .start f ⟨rfl, .inl ⟨parent, rfl⟩⟩ (Function.update_self ..)
    · exact .keep (fun _ _ => nofun) (Function.update_of_ne ne ..)
  | enter f =>
    rcases eq_or_ne tid pre.tasks.length with rfl | ne
    · exact .start f ⟨rfl, .inr rfl⟩ (Function.update_self ..)
    · exact .keep (fun _ _ => nofun) (Function.update_of_ne ne ..)
  | abandon other =>
    rcases eq_or_ne tid other with rfl | ne
    · exact .stop (.inr rfl) (Function.update_self ..)
    · exact .keep (fun _ _ => nofun) (Function.update_of_ne ne ..)
  | jump => exact .keep (fun _ _ => nofun) rfl
  | drift => exact .keep (fun _ _ => nofun) rfl
  | restart =>
    by_cases perishes : ((pre.tasks[tid]?).any fun t => M.perishes t.root) = true
    · exact .stop (.inl rfl) (if_pos perishes)
    · exact .keep (fun _ _ => nofun) (if_neg perishes)

/-- A task that has just been started has the initial ghost state. -/
theorem Machine.ghost_of_starts (h : List (Event World Op Resp Fn)) {e : Event World Op Resp Fn}
    {tid : Nat} {f : Fn} (starts : e.Starts tid f) : M.ghost C (h ++ [e]) tid = C.init f := by
  rw [Machine.ghost_snoc]
  obtain ⟨rfl, ⟨parent, label⟩ | label⟩ := starts <;> simp [Machine.ghostStep, label]

theorem Step.length_le {l : Label Op Resp Fn} (step : Step M s l t) :
    s.tasks.length ≤ t.tasks.length := by
  cases step <;> simp [Machine.survivors]

/-- A task goes on, if only as one that is over. -/
theorem Run.task_kept (run : Run M s h t) {tid : Nat} {t₀ : Task Op Resp Fn}
    (at_ : s.tasks[tid]? = some t₀) : ∃ t₁, t.tasks[tid]? = some t₁ ∧ t₀.Continues t₁ := by
  induction run with
  | nil => exact ⟨t₀, at_, t₀.continues_refl⟩
  | @snoc h u v l _ step ih =>
    obtain ⟨t₁, before, root, ended⟩ := ih
    have inside := (List.getElem?_eq_some_iff.mp before).1
    have there := List.getElem?_eq_getElem (Nat.lt_of_lt_of_le inside step.length_le)
    refine ⟨_, there, ?_⟩
    rcases step.task_cases there with ⟨old, same, root', ended'⟩ | ⟨f, starts, -⟩
    · obtain rfl : t₁ = old := Option.some.inj (before.symm.trans same)
      exact ⟨root'.trans root, fun done => ended' (ended done)⟩
    · exact absurd inside (by simp [starts.1])

/-- Where there is no task there is no ghost state. -/
theorem Run.ghost_idle (run : Run M s h t) {tid : Nat} (beyond : t.tasks.length ≤ tid) :
    M.ghost C h tid = C.idle := by
  induction run with
  | nil => rfl
  | @snoc h u v l _ step ih =>
    cases M.ghost_move C h ⟨u, l, v⟩ tid with
    | own o r label =>
      obtain rfl : l = .op tid o r := label
      obtain ⟨root, next, w, at_, -⟩ := step.op_inv
      exact absurd (List.getElem?_eq_some_iff.mp at_).1
        (Nat.not_lt.mpr (Nat.le_trans step.length_le beyond))
    | start f starts init =>
      obtain ⟨position, ⟨parent, label⟩ | label⟩ := starts
      · obtain rfl : l = .spawn parent f := label
        cases step
        simp at beyond position
        omega
      · obtain rfl : l = .enter f := label
        cases step
        simp at beyond position
        omega
    | stop ends idle => exact idle
    | keep others same => exact same.trans (ih (Nat.le_trans step.length_le beyond))

/-- A relation between a task's function and its ghost state that holds at the start and is
    kept by operations holds for every task. -/
theorem Run.ghost_root {P : Fn → C.State → Prop} (run : Run M s h t) (start : s.tasks = [])
    (init : ∀ f, P f (C.init f)) (idle : ∀ f, P f C.idle)
    (next : ∀ f σ o r, P f σ → P f (C.next σ o r)) {tid : Nat} {task : Task Op Resp Fn}
    (at_ : t.tasks[tid]? = some task) : P task.root (M.ghost C h tid) := by
  induction run generalizing task with
  | nil => rw [start] at at_; cases at_
  | @snoc h u v l _ step ih =>
    rcases step.task_cases at_ with ⟨old, at_old, root, -⟩ | ⟨f, ⟨position, origin⟩, rfl⟩
    · rw [root]
      have before := ih at_old
      cases M.ghost_move C h ⟨u, l, v⟩ tid with
      | own o r label moved => rw [moved]; exact next _ _ o r before
      | start f starts moved =>
        exact absurd (List.getElem?_eq_some_iff.mp at_old).1 (by simp [starts.1])
      | stop ends moved => rw [moved]; exact idle _
      | keep others same => rw [same]; exact before
    · rw [Machine.ghost_of_starts h ⟨position, origin⟩]
      exact init f

/-- Every task keeps the contract from its ghost state on. -/
def Sys.Along (C : Contract Op Resp Fn) (ghost : Nat → C.State) (s : Sys World Op Resp Fn) : Prop :=
  ∀ (tid : Nat) (t : Task Op Resp Fn), s.tasks[tid]? = some t →
    t.prog.Along C (fun σ _ => C.exit σ) (ghost tid)

/-- Before anything is called there is nothing to keep. -/
theorem Sys.along_of_empty {ghost : Nat → C.State} (start : s.tasks = []) : s.Along C ghost := by
  intro tid task at_
  rw [start] at at_
  cases at_

theorem Sys.Along.set {ghost : Nat → C.State} {w : World} {tid : Nat} {task : Task Op Resp Fn}
    {σ : C.State} (along : s.Along C ghost) (new : task.prog.Along C (fun σ _ => C.exit σ) σ) :
    Sys.Along C (Function.update ghost tid σ) ⟨w, s.tasks.set tid task⟩ := by
  intro tid' t at_
  rcases eq_or_ne tid' tid with rfl | other
  · rw [List.getElem?_set] at at_
    split at at_
    · split at at_
      · cases at_
        simpa using new
      · cases at_
    · contradiction
  · rw [Function.update_of_ne other]
    rw [List.getElem?_set_ne other.symm] at at_
    exact along tid' t at_

/-- A task replaced by one that goes on from the same ghost state. -/
theorem Sys.Along.replace {ghost : Nat → C.State} {w : World} {tid : Nat} {task : Task Op Resp Fn}
    (along : s.Along C ghost) (new : task.prog.Along C (fun σ _ => C.exit σ) (ghost tid)) :
    Sys.Along C ghost ⟨w, s.tasks.set tid task⟩ := by
  have kept : Sys.Along C (Function.update ghost tid (ghost tid)) ⟨w, s.tasks.set tid task⟩ :=
    along.set new
  rwa [Function.update_eq_self] at kept

theorem Sys.Along.append {ghost : Nat → C.State} {w : World} {f : Fn} (along : s.Along C ghost)
    (new : (M.body f).Along C (fun σ _ => C.exit σ) (C.init f)) :
    Sys.Along C (Function.update ghost s.tasks.length (C.init f))
      ⟨w, s.tasks ++ [⟨f, M.body f⟩]⟩ := by
  intro tid t at_
  rcases getElem?_append_cases at_ with old | ⟨rfl, rfl⟩
  · have inside := (List.getElem?_eq_some_iff.mp old).1
    rw [Function.update_of_ne (Nat.ne_of_lt inside)]
    exact along tid t old
  · rwa [Function.update_self]

/-- One step under a contract: the tasks keep it, and the step is one it permits. -/
theorem Step.along {l : Label Op Resp Fn} {ghost : Nat → C.State} (step : Step M s l t)
    (keeps : M.Keeps C) (relies : C.Relies l) (along : s.Along C ghost) :
    t.Along C (M.ghostStep C ghost ⟨s, l, t⟩) ∧ C.Guarantees ghost l := by
  cases step with
  | op at_ exec =>
    have node := along _ _ at_
    exact ⟨along.set (node.2 _ relies), node.1⟩
  | @spawn tid root f next at_ =>
    have node := along _ _ at_
    refine ⟨?_, node.1⟩
    have kept : Sys.Along C ghost ⟨s.world, s.tasks.set tid ⟨root, next⟩⟩ := along.replace node.2
    simpa [Machine.ghostStep] using kept.append (keeps.starts _ f node.1)
  | jump at_ =>
    have node := along _ _ at_
    exact ⟨along.replace (keeps.tails _ _ node), node⟩
  | enter enter => exact ⟨along.append (keeps.starts _ _ relies), trivial⟩
  | drift => exact ⟨along, trivial⟩
  | restart =>
    refine ⟨fun tid t at_ => ?_, trivial⟩
    obtain ⟨t₀, old, rfl⟩ := getElem?_survivors at_
    by_cases ends : M.perishes t₀.root = true
    · simpa [Machine.ghostStep, old, ends, Task.finished] using keeps.idle
    · simpa [Machine.ghostStep, old, ends] using along tid t₀ old
  | abandon at_ =>
    exact ⟨along.set (by simpa [Task.finished] using keeps.idle), trivial⟩

/-- The rely-guarantee rule. -/
theorem Run.guarantees (run : Run M s h t) (keeps : M.Keeps C)
    (relies : ∀ e ∈ h, C.Relies e.label) (along : s.Along C fun _ => C.idle) :
    t.Along C (M.ghost C h) ∧
      ∀ h₁ e h₂, h = h₁ ++ e :: h₂ → C.Guarantees (M.ghost C h₁) e.label := by
  induction run with
  | nil => exact ⟨along, by simp⟩
  | @snoc h t u l _ step ih =>
    obtain ⟨kept, permitted⟩ := ih fun e mem => relies e (by simp [mem])
    obtain ⟨last, allowed⟩ := step.along keeps (relies ⟨t, l, u⟩ (by simp)) kept
    refine ⟨by simpa using last, fun h₁ e h₂ eq => ?_⟩
    rcases split_snoc eq with ⟨rfl, rfl, -⟩ | ⟨h₃, split, -⟩
    · exact allowed
    · exact permitted h₁ e h₃ split

end PatchManager.Conc
