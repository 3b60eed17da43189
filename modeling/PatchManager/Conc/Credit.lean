import PatchManager.Conc.Closed
import PatchManager.Conc.System
import Mathlib.Algebra.BigOperators.Group.Finset.Piecewise
import Mathlib.Algebra.GroupWithZero.Nat
import Mathlib.Algebra.Order.BigOperators.Group.Finset
import Mathlib.Data.List.Induction

/-! # Credits

A count of what tasks owe each other.  An operation earns credits by its answer and costs
some; a function starts with the credits it is granted, taken from the task that starts it.
`Prog.Balanced A n` says that a program holding `n` credits never runs short and ends with
none.

Main result: `Run.account`.  When every function is balanced, the credits spent in a run and
those its tasks still hold are the credits earned.  A restart may come only when nothing is
held.
-/

namespace PatchManager.Conc

variable {World Op : Type} {Resp : Op → Type} {Fn : Type} {α β : Type}

structure Credits (Op : Type) (Resp : Op → Type) (Fn : Type) where
  earns : (o : Op) → Resp o → Nat
  costs : Op → Nat
  grant : Fn → Nat

/-- Operations that neither earn nor cost anything. -/
def Credits.Free (A : Credits Op Resp Fn) (o : Op) : Prop := A.costs o = 0 ∧ ∀ r, A.earns o r = 0

namespace Prog

/-- With `n` credits at hand the program never runs short and ends with none. -/
def Balanced (A : Credits Op Resp Fn) : Nat → Prog Op Resp Fn α → Prop
  | n, .ret _ => n = 0
  | n, .op o next => A.costs o ≤ n ∧ ∀ r, (next r).Balanced A (n - A.costs o + A.earns o r)
  | n, .spawn f next => A.grant f ≤ n ∧ next.Balanced A (n - A.grant f)
  | n, .jump f => n = A.grant f

variable {A : Credits Op Resp Fn} {n : Nat}

theorem Balanced.bind {p : Prog Op Resp Fn α} {rest : α → Prog Op Resp Fn β}
    (first : p.Balanced A n) (second : ∀ a, (rest a).Balanced A 0) :
    (p.bind rest).Balanced A n := by
  induction p generalizing n with
  | ret value =>
    obtain rfl : n = 0 := first
    exact second value
  | op o next ih => exact ⟨first.1, fun r => ih r (first.2 r)⟩
  | spawn f next ih => exact ⟨first.1, ih first.2⟩
  | jump f => exact first

theorem Balanced.free {o : Op} {next : Resp o → Prog Op Resp Fn α} (free : A.Free o)
    (rest : ∀ r, (next r).Balanced A n) : (Prog.op o next).Balanced A n :=
  ⟨by rw [free.1]; exact Nat.zero_le n, fun r => by rw [free.1, free.2 r]; exact rest r⟩

theorem Balanced.earn {o : Op} {next : Resp o → Prog Op Resp Fn α} (costs : A.costs o = 0)
    (rest : ∀ r, (next r).Balanced A (n + A.earns o r)) : (Prog.op o next).Balanced A n :=
  ⟨by rw [costs]; exact Nat.zero_le n, fun r => by rw [costs]; exact rest r⟩

theorem Balanced.pay {o : Op} {next : Resp o → Prog Op Resp Fn α} (costs : A.costs o = n)
    (earns : ∀ r, A.earns o r = 0) (rest : ∀ r, (next r).Balanced A 0) :
    (Prog.op o next).Balanced A n :=
  ⟨Nat.le_of_eq costs, fun r => by rw [costs, earns r, Nat.sub_self]; exact rest r⟩

/-- All credits go to the task that is started. -/
theorem Balanced.pass {f : Fn} {next : Prog Op Resp Fn α} (grant : A.grant f = n)
    (rest : next.Balanced A 0) : (Prog.spawn f next).Balanced A n :=
  ⟨Nat.le_of_eq grant, by rw [grant, Nat.sub_self]; exact rest⟩

/-- A program that only does what is free holds what it held before. -/
theorem Balanced.frame {p : Prog Op Resp Fn α} {rest : α → Prog Op Resp Fn β}
    (free : p.Within A.Free (fun f => A.grant f = 0) fun _ => False)
    (second : ∀ a, (rest a).Balanced A n) : (p.bind rest).Balanced A n := by
  induction p with
  | ret value => exact second value
  | op o next ih => exact .free free.1 fun r => ih r (free.2 r)
  | spawn f next ih =>
    refine ⟨by rw [free.1]; exact Nat.zero_le n, ?_⟩
    rw [free.1]
    exact ih free.2
  | jump f => exact free.elim

/-- What a program held before it does what is free is held after it, if that can come to an end. -/
theorem Balanced.unframe {p : Prog Op Resp Fn α} {rest : α → Prog Op Resp Fn β}
    (answers : (o : Op) → Resp o) (free : p.Within A.Free (fun f => A.grant f = 0) fun _ => False)
    (balanced : (p.bind rest).Balanced A n) : ∃ a, (rest a).Balanced A n := by
  induction p with
  | ret value => exact ⟨value, balanced⟩
  | op o next ih =>
    obtain ⟨⟨costs, earns⟩, within⟩ := free
    have later := balanced.2 (answers o)
    rw [costs, earns (answers o)] at later
    exact ih (answers o) (within (answers o)) later
  | spawn f next ih =>
    have later := balanced.2
    rw [free.1] at later
    exact ih free.2 later
  | jump f => exact free.elim

/-- Programs that hold nothing are closed under what is free. -/
theorem closed_balanced (A : Credits Op Resp Fn) :
    Closed (fun {_} (p : Prog Op Resp Fn _) => p.Balanced A 0) A.Free (fun f => A.grant f = 0)
      fun f => A.grant f = 0 where
  ret _ := rfl
  op := Balanced.free
  spawn := Balanced.pass
  jump free := free.symm
  bind := Balanced.bind

end Prog

/-! ## Runs -/

variable (A : Credits Op Resp Fn) {M : Machine World Op Resp Fn} {s t : Sys World Op Resp Fn}
  {h : List (Event World Op Resp Fn)} {l : Label Op Resp Fn}

def Label.earned : Label Op Resp Fn → Nat
  | .op _ o r => A.earns o r
  | _ => 0

def Label.spent : Label Op Resp Fn → Nat
  | .op _ o _ => A.costs o
  | _ => 0

/-- The credits earned in a history. -/
def earned (h : List (Event World Op Resp Fn)) : Nat := (h.map fun e => e.label.earned A).sum

/-- The credits spent in a history. -/
def spent (h : List (Event World Op Resp Fn)) : Nat := (h.map fun e => e.label.spent A).sum

@[simp] theorem earned_snoc (e : Event World Op Resp Fn) :
    earned A (h ++ [e]) = earned A h + e.label.earned A := by
  simp [earned]

@[simp] theorem spent_snoc (e : Event World Op Resp Fn) :
    spent A (h ++ [e]) = spent A h + e.label.spent A := by
  simp [spent]

/-- What the first `bound` tasks hold. -/
def held (balance : Nat → Nat) (bound : Nat) : Nat := ∑ tid ∈ Finset.range bound, balance tid

theorem held_update (balance : Nat → Nat) {bound tid n : Nat} (inside : tid < bound) :
    held (Function.update balance tid n) bound + balance tid = held balance bound + n := by
  have mem : tid ∈ Finset.range bound := Finset.mem_range.mpr inside
  unfold held
  rw [Finset.sum_update_of_mem mem, ← Finset.sum_sdiff (Finset.singleton_subset_iff.mpr mem),
    Finset.sum_singleton]
  omega

theorem held_extend {balance : Nat → Nat} {bound n : Nat} :
    held (Function.update balance bound n) (bound + 1) = held balance bound + n := by
  unfold held
  rw [Finset.sum_range_succ, Function.update_self]
  congr 1
  refine Finset.sum_congr rfl fun tid mem => Function.update_of_ne ?_ _ _
  exact Nat.ne_of_lt (Finset.mem_range.mp mem)

/-- Two tasks hold no more than all. -/
theorem add_le_held {balance : Nat → Nat} {bound tid tid' : Nat} (inside : tid < bound) (inside' : tid' < bound)
    (other : tid ≠ tid') : balance tid + balance tid' ≤ held balance bound := by
  rw [held, ← Finset.sum_pair other]
  refine Finset.sum_le_sum_of_subset fun k mem => ?_
  rcases Finset.mem_insert.mp mem with rfl | last
  · exact Finset.mem_range.mpr inside
  · rw [Finset.mem_singleton.mp last]
    exact Finset.mem_range.mpr inside'

/-- Tasks that hold something are no more than the credits held. -/
theorem countP_le_held {balance : Nat → Nat} (tasks : List (Task Op Resp Fn))
    {p : Task Op Resp Fn → Bool}
    (holds : ∀ (tid : Nat) (task : Task Op Resp Fn), tasks[tid]? = some task → p task = true →
      0 < balance tid) : tasks.countP p ≤ held balance tasks.length := by
  induction tasks using List.reverseRecOn with
  | nil => exact Nat.zero_le _
  | append_singleton tasks task ih =>
    have earlier := ih fun tid old at_ => holds tid old
      (by rw [List.getElem?_append_left (List.getElem?_eq_some_iff.mp at_).1]; exact at_)
    have last := holds tasks.length task (by simp)
    unfold held at earlier ⊢
    rw [List.countP_append, List.length_append, List.length_singleton, Finset.sum_range_succ,
      List.countP_singleton]
    split
    · have := last ‹_›
      omega
    · omega

/-- Every function is balanced, what is called from outside is granted nothing, and what can
    be abandoned never holds anything. -/
structure Machine.Solvent (M : Machine World Op Resp Fn) (A : Credits Op Resp Fn) : Prop where
  balanced : ∀ f, (M.body f).Balanced A (A.grant f)
  called : ∀ s f w, M.enter s f w → A.grant f = 0
  abandoned : ∀ f, M.abandons f = true →
    A.grant f = 0 ∧ (M.body f).Within A.Free (fun f => A.grant f = 0) fun _ => False

/-- The event is an operation of task `tid` that earns something. -/
def Label.EarnsBy (A : Credits Op Resp Fn) (tid : Nat) (l : Label Op Resp Fn) : Prop :=
  ∃ o r, l = .op tid o r ∧ 0 < A.earns o r

/-- The task holds `n` credits: none if it can be abandoned, and otherwise those it has earned,
    if it has `earned` any, or been granted. -/
structure Task.Funded (M : Machine World Op Resp Fn) (A : Credits Op Resp Fn) (earned : Prop)
    (n : Nat) (task : Task Op Resp Fn) : Prop where
  balanced : task.prog.Balanced A n
  source : 0 < n → 0 < A.grant task.root ∨ earned
  abandoned : M.abandons task.root = true →
    n = 0 ∧ task.prog.Within A.Free (fun f => A.grant f = 0) fun _ => False

/-- Every task holds its credits; `earned` says which tasks have earned any. -/
def Sys.Funded (M : Machine World Op Resp Fn) (A : Credits Op Resp Fn) (earned : Nat → Prop)
    (balance : Nat → Nat) (s : Sys World Op Resp Fn) : Prop :=
  ∀ (tid : Nat) (task : Task Op Resp Fn), s.tasks[tid]? = some task →
    task.Funded M A (earned tid) (balance tid)

variable {A} {balance : Nat → Nat} {w : World} {tid n : Nat} {task : Task Op Resp Fn}
  {done done' : Nat → Prop} {E : Prop}

theorem Task.funded_finished {root : Fn} : (Task.finished root : Task Op Resp Fn).Funded M A E 0 :=
  ⟨rfl, nofun, fun _ => ⟨rfl, trivial⟩⟩

theorem Machine.Solvent.funded (solvent : M.Solvent A) (f : Fn) :
    Task.Funded M A E (A.grant f) ⟨f, M.body f⟩ :=
  ⟨solvent.balanced f, .inl, solvent.abandoned f⟩

theorem Task.Funded.mono {E' : Prop} (funded : task.Funded M A E n) (more : E → E') :
    task.Funded M A E' n :=
  ⟨funded.balanced, fun positive => (funded.source positive).imp_right more, funded.abandoned⟩

theorem Sys.Funded.mono (funded : s.Funded M A done balance) (more : ∀ tid, done tid → done' tid) :
    s.Funded M A done' balance :=
  fun tid task at_ => (funded tid task at_).mono (more tid)

theorem Sys.Funded.set (funded : s.Funded M A done balance) (new : task.Funded M A (done tid) n) :
    Sys.Funded M A done (Function.update balance tid n) ⟨w, s.tasks.set tid task⟩ := by
  intro other t at_
  rcases eq_or_ne other tid with rfl | ne
  · rw [List.getElem?_set] at at_
    split at at_
    · split at at_
      · cases at_
        rwa [Function.update_self]
      · cases at_
    · contradiction
  · rw [Function.update_of_ne ne]
    rw [List.getElem?_set_ne ne.symm] at at_
    exact funded other t at_

theorem Sys.Funded.append (funded : s.Funded M A done balance)
    (new : task.Funded M A (done s.tasks.length) n) :
    Sys.Funded M A done (Function.update balance s.tasks.length n) ⟨w, s.tasks ++ [task]⟩ := by
  intro tid t at_
  rcases getElem?_append_cases at_ with old | ⟨rfl, rfl⟩
  · rw [Function.update_of_ne (Nat.ne_of_lt (List.getElem?_eq_some_iff.mp old).1)]
    exact funded tid t old
  · rwa [Function.update_self]

/-- One step: what it earns is spent or held. -/
theorem Step.account (step : Step M s l t) (solvent : M.Solvent A)
    (funded : s.Funded M A done balance)
    (restarts : l = .restart → held balance s.tasks.length = 0) :
    ∃ balance', t.Funded M A (fun tid => done tid ∨ l.EarnsBy A tid) balance' ∧
      l.spent A + held balance' t.tasks.length = l.earned A + held balance s.tasks.length := by
  have kept : s.Funded M A (fun tid => done tid ∨ l.EarnsBy A tid) balance :=
    funded.mono fun _ => .inl
  cases step with
  | @op tid root o next r w at_ exec =>
    have inside := (List.getElem?_eq_some_iff.mp at_).1
    obtain ⟨⟨affordable, rest⟩, source, abandoned⟩ := funded tid _ at_
    refine ⟨_, kept.set ⟨rest r, fun positive => ?_, fun abandons => ?_⟩, ?_⟩
    · rcases Nat.eq_zero_or_pos (A.earns o r) with none | earns
      · exact (source (by omega)).imp_right .inl
      · exact .inr (.inr ⟨o, r, rfl, earns⟩)
    · obtain ⟨zero, free, within⟩ := abandoned abandons
      exact ⟨by rw [zero, free.2 r, Nat.zero_sub], within r⟩
    · have moved := held_update balance (n := balance tid - A.costs o + A.earns o r) inside
      simp only [Label.spent, Label.earned, List.length_set]
      omega
  | @spawn tid root f next at_ =>
    have inside := (List.getElem?_eq_some_iff.mp at_).1
    obtain ⟨⟨affordable, rest⟩, source, abandoned⟩ := funded tid _ at_
    have parent : Sys.Funded M A (fun other => done other ∨ (Label.spawn tid f).EarnsBy A other)
        (Function.update balance tid (balance tid - A.grant f))
        ⟨s.world, s.tasks.set tid ⟨root, next⟩⟩ := by
      refine kept.set ⟨rest, fun positive => ?_, fun abandons => ?_⟩
      · exact (source (by omega)).imp_right .inl
      · obtain ⟨zero, -, within⟩ := abandoned abandons
        exact ⟨by rw [zero, Nat.zero_sub], within⟩
    refine ⟨_, parent.append (solvent.funded f), ?_⟩
    have paid := held_update balance (n := balance tid - A.grant f) inside
    simp only [Label.spent, Label.earned, List.length_append, List.length_set, List.length_singleton,
      held_extend]
    omega
  | @jump tid root f at_ =>
    obtain ⟨exact_, source, abandoned⟩ := funded tid _ at_
    have same : balance tid = A.grant f := exact_
    refine ⟨Function.update balance tid (A.grant f), kept.set ⟨solvent.balanced f, fun positive => ?_,
      fun abandons => (abandoned abandons).2.elim⟩, ?_⟩
    · exact (source (by omega)).imp_right .inl
    · rw [← same, Function.update_eq_self]
      simp [Label.spent, Label.earned]
  | enter called =>
    refine ⟨_, kept.append (solvent.funded _), ?_⟩
    simp [Label.spent, Label.earned, held_extend, solvent.called _ _ _ called]
  | drift => exact ⟨balance, kept, rfl⟩
  | restart =>
    have nothing := restarts rfl
    refine ⟨balance, fun tid task at_ => ?_, by simp [Label.spent, Label.earned, Machine.survivors]⟩
    obtain ⟨old, at_old, rfl⟩ := getElem?_survivors at_
    split
    · have inside := (List.getElem?_eq_some_iff.mp at_old).1
      have zero : balance tid = 0 := Finset.sum_eq_zero_iff.mp nothing tid (Finset.mem_range.mpr inside)
      rw [zero]
      exact Task.funded_finished
    · exact kept tid old at_old
  | @abandon tid task at_ abandons =>
    have inside := (List.getElem?_eq_some_iff.mp at_).1
    have ended : Sys.Funded M A (fun other => done other ∨ (Label.abandon tid).EarnsBy A other)
        (Function.update balance tid 0) ⟨s.world, s.tasks.set tid (.finished task.root)⟩ :=
      kept.set Task.funded_finished
    refine ⟨_, ended, ?_⟩
    have zero := ((funded tid _ at_).abandoned abandons).1
    have moved := held_update balance (n := 0) inside
    simp only [Label.spent, Label.earned, List.length_set]
    omega

/-- After a restart nothing is held, when every task is lost or never holds anything. -/
theorem Step.account_restart (step : Step M s .restart t)
    (lost : ∀ f, M.perishes f = true ∨ M.abandons f = true) (funded : s.Funded M A done balance) :
    t.Funded M A done fun _ => 0 := by
  cases step
  intro tid task at_
  obtain ⟨old, at_old, rfl⟩ := getElem?_survivors at_
  split
  · exact Task.funded_finished
  · rename_i stays
    have abandons := (lost old.root).resolve_left stays
    have zero := ((funded tid old at_old).abandoned abandons).1
    exact zero ▸ funded tid old at_old

/-- Task `tid` has earned something in the history. -/
def HasEarned (A : Credits Op Resp Fn) (h : List (Event World Op Resp Fn)) (tid : Nat) : Prop :=
  ∃ e ∈ h, e.label.EarnsBy A tid

/-- The account of a run: what was earned is spent or still held. -/
theorem Run.account (run : Run M s h t) (solvent : M.Solvent A) (start : s.tasks = [])
    (restarts : ∀ h₁ e h₂, h = h₁ ++ e :: h₂ → e.label = .restart → earned A h₁ = spent A h₁) :
    ∃ balance, t.Funded M A (HasEarned A h) balance ∧
      spent A h + held balance t.tasks.length = earned A h := by
  induction run with
  | nil =>
    refine ⟨fun _ => 0, fun tid task at_ => ?_, by simp [held, earned, spent]⟩
    rw [start] at at_
    cases at_
  | @snoc h t u l _ step ih =>
    obtain ⟨balance, funded, total⟩ := ih fun h₁ e h₂ eq =>
      restarts h₁ e (h₂ ++ [⟨t, l, u⟩]) (by simp [eq])
    obtain ⟨balance', funded', moved⟩ := step.account solvent funded fun restart => by
      have even := restarts h ⟨t, l, u⟩ [] rfl restart
      omega
    refine ⟨balance', funded'.mono ?_, ?_⟩
    · rintro tid (⟨e, mem, earns⟩ | earns)
      · exact ⟨e, List.mem_append_left _ mem, earns⟩
      · exact ⟨⟨t, l, u⟩, by simp, earns⟩
    · rw [spent_snoc, earned_snoc]
      simp only
      omega

/-- When the tasks that were granted or have earned something are over, all is spent. -/
theorem Run.account_settled (run : Run M s h t) (solvent : M.Solvent A) (start : s.tasks = [])
    (restarts : ∀ h₁ e h₂, h = h₁ ++ e :: h₂ → e.label = .restart → earned A h₁ = spent A h₁)
    (settled : ∀ (tid : Nat) (task : Task Op Resp Fn), t.tasks[tid]? = some task →
      0 < A.grant task.root ∨ HasEarned A h tid → task.prog = .ret ()) : spent A h = earned A h := by
  obtain ⟨balance, funded, total⟩ := run.account solvent start restarts
  have nothing : held balance t.tasks.length = 0 := by
    refine Finset.sum_eq_zero fun tid mem => ?_
    have at_ := List.getElem?_eq_getElem (Finset.mem_range.mp mem)
    obtain ⟨balanced, source, -⟩ := funded tid _ at_
    rcases Nat.eq_zero_or_pos (balance tid) with zero | positive
    · exact zero
    · rw [settled tid _ at_ (source positive)] at balanced
      exact balanced
  omega

end PatchManager.Conc
