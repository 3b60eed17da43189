import PatchManager.Conc.Program
import PatchManager.Conc.System

/-! # What a task was answered

The operations of one task in a history, each with its answer, are the task's exchanges.
They determine what a program has returned: `Prog.Returns p answers value` says that `p`,
given these answers one after the other, has come to its end with `value`.

A contract can be stated over exchanges: `Traced` is the ghost state that records them, and
`Run.traced` says that it does so for every task that is not over.
-/

namespace PatchManager.Conc

variable {World Op : Type} {Resp : Op → Type} {Fn : Type} {α β : Type}

/-- An operation with its answer. -/
abbrev Exchange (Op : Type) (Resp : Op → Type) := (o : Op) × Resp o

def Label.exchange? (tid : Nat) : Label Op Resp Fn → Option (Exchange Op Resp)
  | .op other o r => if other = tid then some ⟨o, r⟩ else none
  | _ => none

/-- The exchanges of task `tid` in a history. -/
def exchanges (tid : Nat) (h : List (Event World Op Resp Fn)) : List (Exchange Op Resp) :=
  h.filterMap fun e => e.label.exchange? tid

theorem label_of_exchange {l : Label Op Resp Fn} {tid : Nat} {o : Op} {r : Resp o}
    (exchange : l.exchange? tid = some ⟨o, r⟩) : l = .op tid o r := by
  cases l with
  | op other o' r' =>
    simp only [Label.exchange?, Option.ite_none_right_eq_some, Option.some.injEq] at exchange
    obtain ⟨rfl, eq⟩ := exchange
    cases eq
    rfl
  | _ => cases exchange

/-- An exchange of a task comes from an event of the history, which parts the other exchanges. -/
theorem exchanges_part {tid : Nat} {h : List (Event World Op Resp Fn)}
    {l₁ l₂ : List (Exchange Op Resp)} {o : Op} {r : Resp o}
    (split : exchanges tid h = l₁ ++ ⟨o, r⟩ :: l₂) :
    ∃ h₁ e h₂, h = h₁ ++ e :: h₂ ∧ exchanges tid h₁ = l₁ ∧ e.label = .op tid o r ∧
      exchanges tid h₂ = l₂ := by
  obtain ⟨h₁, rest, rfl, first, others⟩ := List.filterMap_eq_append_iff.mp split
  obtain ⟨silent, e, h₂, rfl, none, some_, last⟩ := List.filterMap_eq_cons_iff.mp others
  refine ⟨h₁ ++ silent, e, h₂, by simp, ?_, label_of_exchange some_, last⟩
  simp only [exchanges, List.filterMap_append, first, List.filterMap_eq_nil_iff.mpr none,
    List.append_nil]

theorem exchanges_split {tid : Nat} {h : List (Event World Op Resp Fn)}
    {l₁ l₂ : List (Exchange Op Resp)} {o : Op} {r : Resp o}
    (split : exchanges tid h = l₁ ++ ⟨o, r⟩ :: l₂) :
    ∃ h₁ e h₂, h = h₁ ++ e :: h₂ ∧ exchanges tid h₁ = l₁ ∧ e.label = .op tid o r := by
  obtain ⟨h₁, e, h₂, eq, first, label, -⟩ := exchanges_part split
  exact ⟨h₁, e, h₂, eq, first, label⟩

theorem exchanges_snoc (tid : Nat) (h : List (Event World Op Resp Fn)) (e : Event World Op Resp Fn) :
    exchanges tid (h ++ [e]) = exchanges tid h ++ (e.label.exchange? tid).toList := by
  rw [exchanges, List.filterMap_append]
  cases exchange : e.label.exchange? tid <;> simp [exchange, exchanges]

/-- An exchange of a task that was made at some event. -/
theorem exists_event_of_mem {tid : Nat} {h : List (Event World Op Resp Fn)} {x : Exchange Op Resp}
    (mem : x ∈ exchanges tid h) : ∃ h₁ e h₂, h = h₁ ++ e :: h₂ ∧ e.label = .op tid x.1 x.2 := by
  obtain ⟨l₁, l₂, eq⟩ := List.append_of_mem mem
  obtain ⟨h₁, e, h₂, split, -, label⟩ := exchanges_split eq
  exact ⟨h₁, e, h₂, split, label⟩

theorem mem_exchanges {tid : Nat} {h : List (Event World Op Resp Fn)} {e : Event World Op Resp Fn}
    {o : Op} {r : Resp o} (mem : e ∈ h) (label : e.label = .op tid o r) : ⟨o, r⟩ ∈ exchanges tid h :=
  List.mem_filterMap.mpr ⟨e, mem, by simp [Label.exchange?, label]⟩

theorem mem_exchanges_append {tid : Nat} {h h' : List (Event World Op Resp Fn)} {x : Exchange Op Resp}
    (mem : x ∈ exchanges tid h) : x ∈ exchanges tid (h ++ h') := by
  rw [exchanges, List.filterMap_append]
  exact List.mem_append_left _ mem

/-- A task is started before it performs any operation. -/
theorem Run.starts_before {M : Machine World Op Resp Fn} {s t : Sys World Op Resp Fn}
    {h : List (Event World Op Resp Fn)} (run : Run M s h t) {e e' : Event World Op Resp Fn} {tid : Nat}
    {f : Fn} {o : Op} {r : Resp o} (mem : e ∈ h) (starts : e.Starts tid f) (mem' : e' ∈ h)
    (label : e'.label = .op tid o r) : ∃ h₁ h₂ h₃, h = h₁ ++ e :: (h₂ ++ e' :: h₃) := by
  obtain ⟨h₁, h₂, eq⟩ := List.append_of_mem mem
  obtain ⟨h₁', h₂', eq'⟩ := List.append_of_mem mem'
  rcases split_cases (eq.symm.trans eq') with ⟨-, rfl, -⟩ | ⟨m, later, -⟩ | ⟨m, later, -⟩
  · obtain ⟨-, ⟨_, other⟩ | other⟩ := starts <;> rw [label] at other <;> cases other
  · exact ⟨h₁, m, h₂', by rw [eq, later]⟩
  · -- the task is in the list when it performs an operation, and the list only grows
    subst eq' later
    obtain ⟨-, step, rest⟩ := run.split_event
    obtain ⟨between, -⟩ := rest.split_event
    have grown := (between.cons step).preserves
      (I := fun s => e'.pre.tasks.length ≤ s.tasks.length)
      (fun _ _ step before => Nat.le_trans before step.length_le) (Nat.le_refl _)
    rw [label] at step
    obtain ⟨_, _, _, at_, -⟩ := step.op_inv
    have inside := (List.getElem?_eq_some_iff.mp at_).1
    have := starts.1
    omega

/-- A task that performs an operation has the function it was started with. -/
theorem Run.root_at {M : Machine World Op Resp Fn} {s t : Sys World Op Resp Fn}
    {h : List (Event World Op Resp Fn)} (run : Run M s h t) {e e' : Event World Op Resp Fn} {tid : Nat}
    {f : Fn} {o : Op} {r : Resp o} {task : Task Op Resp Fn} (mem : e ∈ h) (starts : e.Starts tid f)
    (mem' : e' ∈ h) (label : e'.label = .op tid o r) (at_ : e'.pre.tasks[tid]? = some task) :
    task.root = f := by
  obtain ⟨h₁, h₂, h₃, rfl⟩ := run.starts_before mem starts mem' label
  obtain ⟨-, step, rest⟩ := run.split_event
  obtain ⟨between, -, -⟩ := rest.split_event
  have begun : e.post.tasks[tid]? = some ⟨f, M.body f⟩ := by
    obtain ⟨pre, l, post⟩ := e
    obtain ⟨rfl, ⟨parent, label⟩ | label⟩ := starts
    · obtain rfl : l = .spawn parent f := label
      change Step M pre (.spawn parent f) post at step
      cases step
      simp
    · obtain rfl : l = .enter f := label
      change Step M pre (.enter f) post at step
      cases step
      simp
  obtain ⟨t₁, there, root, -⟩ := between.task_kept begun
  rw [Option.some.inj (at_.symm.trans there), root]

/-! ## Fresh names -/

/-- Names that are given out once are used once, when every task uses only a name it was
    given and uses it once. -/
theorem Run.uses_once {Name : Type} {M : Machine World Op Resp Fn} {s t : Sys World Op Resp Fn}
    {h : List (Event World Op Resp Fn)} (run : Run M s h t) (given : (o : Op) → Resp o → Option Name)
    (uses : Op → Option Name) (taken : World → Name → Prop)
    (fresh : ∀ w o r w' k, M.exec w o r w' → given o r = some k → ¬ taken w k ∧ taken w' k)
    (grows : ∀ s l t k, Step M s l t → taken s.world k → taken t.world k)
    (own : ∀ h₁ e h₂ tid o r k, h = h₁ ++ e :: h₂ → e.label = .op tid o r → uses o = some k →
      (∃ x ∈ exchanges tid h₁, given x.1 x.2 = some k) ∧ ∀ x ∈ exchanges tid h₁, uses x.1 = none)
    {h₁ h₂ h₃ : List (Event World Op Resp Fn)} {e e' : Event World Op Resp Fn} {tid tid' : Nat}
    {o o' : Op} {r : Resp o} {r' : Resp o'} {k : Name} (split : h = h₁ ++ e :: (h₂ ++ e' :: h₃))
    (label : e.label = .op tid o r) (label' : e'.label = .op tid' o' r') (first : uses o = some k) :
    uses o' ≠ some k := by
  intro second
  obtain ⟨⟨x, mem, name⟩, -⟩ := own h₁ e _ tid o r k split label first
  obtain ⟨⟨x', mem', name'⟩, unused⟩ :=
    own (h₁ ++ e :: h₂) e' h₃ tid' o' r' k (by simp [split]) label' second
  -- a name given out twice: it was taken between
  have twice : ∀ l₁ a l₂ b l₃ tid tid' (x x' : Exchange Op Resp), h = l₁ ++ a :: (l₂ ++ b :: l₃) →
      a.label = .op tid x.1 x.2 → b.label = .op tid' x'.1 x'.2 → given x.1 x.2 = some k →
      given x'.1 x'.2 ≠ some k := by
    intro l₁ a l₂ b l₃ tid tid' x x' eq label_a label_b given_a given_b
    subst eq
    obtain ⟨-, step, rest⟩ := run.split_event
    obtain ⟨between, step', -⟩ := rest.split_event
    rw [label_a] at step
    rw [label_b] at step'
    obtain ⟨_, _, w, -, done, post⟩ := step.op_inv
    obtain ⟨_, _, w', -, done', -⟩ := step'.op_inv
    have there : taken a.post.world k := by
      rw [post]
      exact (fresh _ _ _ _ k done given_a).2
    exact (fresh _ _ _ _ k done' given_b).1
      (between.preserves (I := fun s => taken s.world k) (fun e _ step => grows _ _ _ k step) there)
  by_cases same : tid = tid'
  · subst same
    have used := unused ⟨o, r⟩ (mem_exchanges (by simp) label)
    simp [first] at used
  · obtain ⟨a₁, a, a₂, eq, label_a⟩ := exists_event_of_mem mem
    obtain ⟨b₁, b, b₂, eq', label_b⟩ := exists_event_of_mem mem'
    have whole : h = (b₁ ++ b :: b₂) ++ e' :: h₃ := by
      rw [split, ← eq']
      simp
    subst eq
    have order : a₁ ++ a :: (a₂ ++ e :: h₂) = b₁ ++ b :: b₂ := by
      rw [← eq']
      simp
    rcases split_cases order with ⟨-, rfl, -⟩ | ⟨m, later, -⟩ | ⟨m, later, -⟩
    · rw [label_a] at label_b
      simp only [Label.op.injEq] at label_b
      exact same label_b.1
    · exact twice a₁ a m b (b₂ ++ e' :: h₃) tid tid' x x' (by rw [whole, ← order, later]; simp)
        label_a label_b name name'
    · exact twice b₁ b m a (a₂ ++ e :: h₂ ++ e' :: h₃) tid' tid x' x (by rw [whole, later]; simp)
        label_b label_a name' name

/-! ## Recording exchanges -/

/-- The function a task was started as and what it has exchanged since. -/
structure Traced (Op : Type) (Resp : Op → Type) (Fn : Type) where
  root : Option Fn := none
  done : List (Exchange Op Resp) := []

def Traced.init (f : Fn) : Traced Op Resp Fn := { root := some f }

def Traced.next (σ : Traced Op Resp Fn) (o : Op) (r : Resp o) : Traced Op Resp Fn :=
  { σ with done := σ.done ++ [⟨o, r⟩] }

/-- What has been exchanged last is on record, -/
theorem Traced.mem_next {σ : Traced Op Resp Fn} {o : Op} {r : Resp o} : ⟨o, r⟩ ∈ (σ.next o r).done := by
  simp [Traced.next]

/-- and so is what was before. -/
theorem Traced.mem_earlier {σ : Traced Op Resp Fn} {o : Op} {r : Resp o} {x : Exchange Op Resp}
    (mem : x ∈ σ.done) : x ∈ (σ.next o r).done := List.mem_append_left _ mem

section traced

variable {M : Machine World Op Resp Fn} {s t : Sys World Op Resp Fn}
  {h : List (Event World Op Resp Fn)} {tid : Nat} {task : Task Op Resp Fn}

/-- Where there is no task nothing has been exchanged. -/
theorem Run.exchanges_beyond (run : Run M s h t) (beyond : t.tasks.length ≤ tid) :
    exchanges tid h = [] := by
  induction run with
  | nil => rfl
  | @snoc h u v l _ step ih =>
    rw [exchanges_snoc, ih (Nat.le_trans step.length_le beyond)]
    cases exchange : l.exchange? tid with
    | none => rfl
    | some x =>
      obtain ⟨o, r⟩ := x
      obtain rfl := label_of_exchange exchange
      obtain ⟨root, next, w, at_, -⟩ := step.op_inv
      exact absurd (List.getElem?_eq_some_iff.mp at_).1
        (Nat.not_lt.mpr (Nat.le_trans step.length_le beyond))

/-- One step records what a task that goes on has exchanged. -/
theorem Step.traced {C : Contract Op Resp Fn} {ghost : Nat → C.State} {l : Label Op Resp Fn}
    {old : Task Op Resp Fn} (step : Step M s l t) (before : s.tasks[tid]? = some old)
    (at_ : t.tasks[tid]? = some task) (alive : task.prog ≠ .ret ()) :
    M.ghostStep C ghost ⟨s, l, t⟩ tid =
      (l.exchange? tid).toList.foldl (fun σ x => C.next σ x.1 x.2) (ghost tid) := by
  have inside : tid ≠ s.tasks.length := Nat.ne_of_lt (List.getElem?_eq_some_iff.mp before).1
  cases step with
  | @op other root o next r w old' done =>
    rcases eq_or_ne tid other with rfl | ne
    · simp [Machine.ghostStep, Label.exchange?]
    · simp [Machine.ghostStep, Label.exchange?, ne, ne.symm]
  | spawn | enter => simp [Machine.ghostStep, Label.exchange?, inside]
  | jump | drift => rfl
  | restart =>
    obtain ⟨t₀, same, eq⟩ := getElem?_survivors at_
    obtain rfl : old = t₀ := Option.some.inj (before.symm.trans same)
    by_cases ends : M.perishes old.root = true
    · rw [if_pos ends] at eq
      exact absurd (congrArg Task.prog eq) alive
    · simp [Machine.ghostStep, Label.exchange?, before, ends]
  | @abandon other ended at_other =>
    rcases eq_or_ne tid other with rfl | ne
    · rw [List.getElem?_set_self (List.getElem?_eq_some_iff.mp before).1] at at_
      exact absurd (congrArg Task.prog (Option.some.inj at_).symm) alive
    · simp [Machine.ghostStep, Label.exchange?, ne]

/-- The ghost state of a task that is not over is what its exchanges make of the initial one. -/
theorem Run.ghost_exchanges {C : Contract Op Resp Fn} (run : Run M s h t) (start : s.tasks = [])
    (at_ : t.tasks[tid]? = some task) (alive : task.prog ≠ .ret ()) :
    M.ghost C h tid = (exchanges tid h).foldl (fun σ x => C.next σ x.1 x.2) (C.init task.root) := by
  induction run generalizing task with
  | nil => rw [start] at at_; cases at_
  | @snoc h u v l before step ih =>
    rw [exchanges_snoc, List.foldl_append]
    rcases step.task_cases at_ with ⟨old, there, root, ended⟩ | ⟨f, starts, rfl⟩
    · rw [Machine.ghost_snoc, step.traced there at_ alive, root,
        ih there fun done => alive (ended done)]
    · -- a task that has just been started has exchanged nothing
      have silent : l.exchange? tid = none := by
        obtain ⟨-, ⟨parent, label⟩ | label⟩ := starts <;> rw [show l = _ from label] <;> rfl
      rw [Machine.ghost_of_starts h starts, before.exchanges_beyond (Nat.le_of_eq starts.1.symm), silent]
      rfl

/-- A contract whose conditions are on what a task has exchanged. -/
def tracing (rely : (o : Op) → Resp o → Prop) (guar : Traced Op Resp Fn → Op → Prop)
    (start tail : Traced Op Resp Fn → Fn → Prop) : Contract Op Resp Fn where
  State := Traced Op Resp Fn
  idle := {}
  init := .init
  next := .next
  rely := rely
  guar := guar
  start := start
  tail := tail
  exit _ := True

/-- The state such a contract gives to a task that is not over. -/
theorem Run.traced {rely : (o : Op) → Resp o → Prop} {guar : Traced Op Resp Fn → Op → Prop}
    {starts tails : Traced Op Resp Fn → Fn → Prop} (run : Run M s h t) (start : s.tasks = [])
    (at_ : t.tasks[tid]? = some task) (alive : task.prog ≠ .ret ()) :
    M.ghost (tracing rely guar starts tails) h tid = ⟨some task.root, exchanges tid h⟩ := by
  rw [run.ghost_exchanges start at_ alive]
  have records : ∀ (l : List (Exchange Op Resp)) (σ : Traced Op Resp Fn),
      l.foldl (fun σ x => σ.next x.1 x.2) σ = ⟨σ.root, σ.done ++ l⟩ := by
    intro l
    induction l with
    | nil => intro σ; simp
    | cons x l ih =>
      intro σ
      rw [List.foldl_cons, ih]
      simp [Traced.next]
  exact records _ _

/-- The contract of functions whose operations are told by what has been exchanged before them. -/
def shaped (shape : Fn → List (Exchange Op Resp) → Op → Prop) : Contract Op Resp Fn :=
  tracing (fun _ _ => True) (fun σ o => ∀ f, σ.root = some f → shape f σ.done o) (fun _ _ => True)
    fun _ _ => False

/-- Every operation of a run has the shape its function gives it. -/
theorem Run.shaped {shape : Fn → List (Exchange Op Resp) → Op → Prop} {h₁ h₂ : List (Event World Op Resp Fn)}
    {e : Event World Op Resp Fn} {o : Op} {r : Resp o} (run : Run M s (h₁ ++ e :: h₂) t)
    (start : s.tasks = []) (keeps : ∀ f, (M.body f).Along (shaped shape) (fun _ _ => True) (.init f))
    (label : e.label = .op tid o r) :
    ∃ task, e.pre.tasks[tid]? = some task ∧ shape task.root (exchanges tid h₁) o := by
  obtain ⟨before, step, -⟩ := run.split_event
  have kept : M.Keeps (Conc.shaped shape) := ⟨fun _ f _ => keeps f, fun _ _ none => none.elim, trivial⟩
  have relies : ∀ e' ∈ h₁ ++ e :: h₂, (Conc.shaped shape).Relies e'.label := fun e' _ => by
    cases e'.label <;> trivial
  have permitted := (run.guarantees kept relies (Sys.along_of_empty start)).2 h₁ e h₂ rfl
  rw [label] at permitted step
  obtain ⟨root, next, w, at_, -⟩ := step.op_inv
  refine ⟨⟨root, .op o next⟩, at_, ?_⟩
  have ghost : M.ghost (Conc.shaped shape) h₁ tid = ⟨some root, exchanges tid h₁⟩ :=
    before.traced start at_ (by simp)
  have shape_of := show (Conc.shaped shape).guar (M.ghost (Conc.shaped shape) h₁ tid) o from permitted
  rw [ghost] at shape_of
  exact shape_of root rfl

section guaranteed

variable {rely : (o : Op) → Resp o → Prop} {guar : Traced Op Resp Fn → Op → Prop}
  {starts tails : Traced Op Resp Fn → Fn → Prop} {h₁ h₂ : List (Event World Op Resp Fn)}
  {e : Event World Op Resp Fn} (run : Run M s (h₁ ++ e :: h₂) t) (start : s.tasks = [])
  (keeps : M.Keeps (tracing rely guar starts tails))
  (relies : ∀ e' ∈ h₁ ++ e :: h₂, (tracing rely guar starts tails).Relies e'.label)

include run start keeps relies

/-- Every operation of a run is guaranteed by what its task has exchanged. -/
theorem Run.op_guaranteed {o : Op} {r : Resp o} (label : e.label = .op tid o r) :
    ∃ task, e.pre.tasks[tid]? = some task ∧ guar ⟨some task.root, exchanges tid h₁⟩ o := by
  obtain ⟨before, step, -⟩ := run.split_event
  have allowed := (run.guarantees keeps relies (Sys.along_of_empty start)).2 h₁ e h₂ rfl
  rw [label] at allowed step
  obtain ⟨root, next, w, at_, -⟩ := step.op_inv
  refine ⟨⟨root, .op o next⟩, at_, ?_⟩
  have ghost : M.ghost (tracing rely guar starts tails) h₁ tid = ⟨some root, exchanges tid h₁⟩ :=
    before.traced start at_ (by simp)
  rw [← ghost]
  exact allowed

/-- So is every task that is started. -/
theorem Run.spawn_guaranteed {f : Fn} (label : e.label = .spawn tid f) :
    ∃ task, e.pre.tasks[tid]? = some task ∧ starts ⟨some task.root, exchanges tid h₁⟩ f := by
  obtain ⟨before, step, -⟩ := run.split_event
  have allowed := (run.guarantees keeps relies (Sys.along_of_empty start)).2 h₁ e h₂ rfl
  rw [label] at allowed step
  obtain ⟨root, next, at_⟩ : ∃ root next, e.pre.tasks[tid]? = some ⟨root, .spawn f next⟩ := by
    generalize e.post = u at step
    cases step with
    | spawn at_ => exact ⟨_, _, at_⟩
  refine ⟨⟨root, .spawn f next⟩, at_, ?_⟩
  have ghost : M.ghost (tracing rely guar starts tails) h₁ tid = ⟨some root, exchanges tid h₁⟩ :=
    before.traced start at_ (by simp)
  rw [← ghost]
  exact allowed

end guaranteed

/-- A task that is there has been started. -/
theorem Run.exists_start (run : Run M s h t) (start : s.tasks = []) (at_ : t.tasks[tid]? = some task) :
    ∃ h₁ e h₂, h = h₁ ++ e :: h₂ ∧ e.Starts tid task.root := by
  induction run generalizing task with
  | nil =>
    rw [start] at at_
    cases at_
  | @snoc h u v l before step ih =>
    rcases step.task_cases at_ with ⟨old, there, root, -⟩ | ⟨f, starts, rfl⟩
    · obtain ⟨h₁, e, h₂, rfl, starts⟩ := ih there
      exact ⟨h₁, e, h₂ ++ [⟨u, l, v⟩], by simp, root ▸ starts⟩
    · exact ⟨h, ⟨u, l, v⟩, [], rfl, starts⟩

/-- The contract of the functions called from outside, whose operations are told by what has been
    exchanged before them alone. -/
def permitting (permits : List (Exchange Op Resp) → Op → Prop) (entry : Fn → Prop) : Contract Op Resp Fn :=
  tracing (fun _ _ => True) (fun σ o => permits σ.done o) (fun _ f => entry f) fun _ _ => False

/-- Every operation of a run is permitted after what its task has exchanged. -/
theorem Run.permitted {permits : List (Exchange Op Resp) → Op → Prop} {entry : Fn → Prop}
    {h₁ h₂ : List (Event World Op Resp Fn)} {e : Event World Op Resp Fn} {o : Op} {r : Resp o}
    (run : Run M s (h₁ ++ e :: h₂) t) (start : s.tasks = [])
    (entered : ∀ s f w, M.enter s f w → entry f)
    (keeps : ∀ f, entry f → (M.body f).Along (permitting permits entry) (fun _ _ => True) (.init f))
    (label : e.label = .op tid o r) : permits (exchanges tid h₁) o := by
  have kept : M.Keeps (permitting permits entry) := ⟨fun _ f => keeps f, fun _ _ none => none.elim, trivial⟩
  have relies : ∀ e' ∈ h₁ ++ e :: h₂, (permitting permits entry).Relies e'.label := by
    intro e' mem
    have own := run.step_of_mem mem
    cases label : e'.label with
    | enter f =>
      rw [label] at own
      obtain ⟨w, called, -⟩ := own.enter_inv
      exact entered _ f w called
    | _ => trivial
  obtain ⟨_, _, allowed⟩ := run.op_guaranteed start kept relies label
  exact allowed

/-- The contract of functions of which some are started by others only, after what `starts` says. -/
def parented (shape : Fn → List (Exchange Op Resp) → Op → Prop) (starts : List (Exchange Op Resp) → Fn → Prop) :
    Contract Op Resp Fn :=
  tracing (fun _ _ => True) (fun σ o => ∀ f, σ.root = some f → shape f σ.done o) (fun σ f => starts σ.done f)
    fun _ _ => False

section parented

variable {shape : Fn → List (Exchange Op Resp) → Op → Prop} {starts : List (Exchange Op Resp) → Fn → Prop}
  (start : s.tasks = []) (entered : ∀ s f w, M.enter s f w → starts [] f)
  (keeps : ∀ f, (M.body f).Along (parented shape starts) (fun _ _ => True) (.init f))

include entered keeps

theorem Run.keeps_parented (run : Run M s h t) : M.Keeps (parented shape starts) ∧
    ∀ e ∈ h, (parented shape starts).Relies e.label := by
  refine ⟨⟨fun _ f _ => keeps f, fun _ _ none => none.elim, trivial⟩, fun e mem => ?_⟩
  have own := run.step_of_mem mem
  cases label : e.label with
  | enter f =>
    rw [label] at own
    obtain ⟨w, called, -⟩ := own.enter_inv
    exact entered _ f w called
  | _ => trivial

include start

/-- Every operation has the shape its function gives it. -/
theorem Run.parented_op {h₁ h₂ : List (Event World Op Resp Fn)} {e : Event World Op Resp Fn} {o : Op} {r : Resp o}
    (run : Run M s (h₁ ++ e :: h₂) t) (label : e.label = .op tid o r) :
    ∃ task, e.pre.tasks[tid]? = some task ∧ shape task.root (exchanges tid h₁) o := by
  obtain ⟨kept, relies⟩ := run.keeps_parented entered keeps
  obtain ⟨task, at_, shape_of⟩ := run.op_guaranteed start kept relies label
  exact ⟨task, at_, shape_of task.root rfl⟩

/-- A task that is there has been called from outside, or started after what `starts` says. -/
theorem Run.parent (run : Run M s h t) (at_ : t.tasks[tid]? = some task) :
    (∃ e ∈ h, e.label = .enter task.root) ∨
      ∃ h₁ e h₂ parent, h = h₁ ++ e :: h₂ ∧ e.label = .spawn parent task.root ∧
        starts (exchanges parent h₁) task.root := by
  obtain ⟨h₁, e, h₂, rfl, -, ⟨parent, label⟩ | label⟩ := run.exists_start start at_
  · obtain ⟨kept, relies⟩ := run.keeps_parented entered keeps
    obtain ⟨_, _, allowed⟩ := run.spawn_guaranteed start kept relies label
    exact .inr ⟨h₁, e, h₂, parent, rfl, label, allowed⟩
  · exact .inl ⟨e, by simp, label⟩

end parented

end traced

namespace Prog

/-- A program adds to what has been exchanged before it. -/
theorem Along.adds {shape : Fn → List (Exchange Op Resp) → Op → Prop} {p : Prog Op Resp Fn α}
    {σ : Traced Op Resp Fn} {post : Traced Op Resp Fn → α → Prop}
    (along : p.Along (shaped shape) post σ) :
    p.Along (shaped shape)
      (fun σ' a => post σ' a ∧ σ'.root = σ.root ∧ ∃ more, σ'.done = σ.done ++ more) σ := by
  induction p generalizing σ with
  | ret a => exact ⟨along, rfl, [], by simp⟩
  | op o next ih =>
    refine ⟨along.1, fun r _ => (ih r (along.2 r trivial)).weaken ?_⟩
    rintro σ' a ⟨holds, root, more, done⟩
    exact ⟨holds, root, ⟨o, r⟩ :: more, by rw [done]; simp [shaped, tracing, Traced.next]⟩
  | spawn f next ih => exact ⟨along.1, ih along.2⟩
  | jump f => exact along

/-- A program that stays within operations permitted anywhere adds these only. -/
theorem Within.adds {rely : (o : Op) → Resp o → Prop} {guar : Traced Op Resp Fn → Op → Prop}
    {starts tails : Traced Op Resp Fn → Fn → Prop} {p : Prog Op Resp Fn α} {ops : Op → Prop}
    (within : p.Within ops (fun _ => False) fun _ => False) (permits : ∀ σ o, ops o → guar σ o)
    (σ : Traced Op Resp Fn) :
    p.Along (tracing rely guar starts tails)
      (fun σ' _ => σ'.root = σ.root ∧ ∃ more, σ'.done = σ.done ++ more ∧ ∀ x ∈ more, ops x.1) σ := by
  induction p generalizing σ with
  | ret a => exact ⟨rfl, [], by simp⟩
  | op o next ih =>
    refine ⟨permits σ o within.1, fun r _ => (ih r (within.2 r) (σ.next o r)).weaken ?_⟩
    rintro σ' a ⟨root, more, done, all⟩
    refine ⟨root, ⟨o, r⟩ :: more, by rw [done]; simp [Traced.next], ?_⟩
    exact List.forall_mem_cons.mpr ⟨within.1, all⟩
  | spawn f next ih => exact within.1.elim
  | jump f => exact within.elim

/-- Given the answers, the program has come to its end and returned `value`. -/
inductive Returns : Prog Op Resp Fn α → List (Exchange Op Resp) → α → Prop
  | ret {value : α} : Returns (.ret value) [] value
  | op {o : Op} {next : Resp o → Prog Op Resp Fn α} {r : Resp o} {rest : List (Exchange Op Resp)}
      {value : α} (returns : Returns (next r) rest value) : Returns (.op o next) (⟨o, r⟩ :: rest) value
  | spawn {f : Fn} {next : Prog Op Resp Fn α} {answers : List (Exchange Op Resp)} {value : α}
      (returns : Returns next answers value) : Returns (.spawn f next) answers value

variable {answers : List (Exchange Op Resp)}

theorem Returns.ret_inv {a value : α} (returns : (Prog.ret a : Prog Op Resp Fn α).Returns answers value) :
    answers = [] ∧ value = a := by
  cases returns
  exact ⟨rfl, rfl⟩

theorem Returns.op_inv {o : Op} {next : Resp o → Prog Op Resp Fn α} {value : α}
    (returns : (Prog.op o next).Returns answers value) :
    ∃ r rest, answers = ⟨o, r⟩ :: rest ∧ (next r).Returns rest value := by
  cases returns with
  | op returns => exact ⟨_, _, rfl, returns⟩

theorem Returns.bind {p : Prog Op Resp Fn α} {rest : α → Prog Op Resp Fn β} {a : α} {value : β}
    {l₁ l₂ : List (Exchange Op Resp)} (first : p.Returns l₁ a) (second : (rest a).Returns l₂ value) :
    (p.bind rest).Returns (l₁ ++ l₂) value := by
  induction first with
  | ret => exact second
  | op _ ih => exact .op (ih second)
  | spawn _ ih => exact .spawn (ih second)

/-- A sequence returns what its second part returns after the first. -/
theorem Returns.bind_inv {p : Prog Op Resp Fn α} {rest : α → Prog Op Resp Fn β} {value : β}
    (returns : (p.bind rest).Returns answers value) :
    ∃ a l₁ l₂, answers = l₁ ++ l₂ ∧ p.Returns l₁ a ∧ (rest a).Returns l₂ value := by
  induction p generalizing answers with
  | ret a => exact ⟨a, [], answers, rfl, .ret, returns⟩
  | op o next ih =>
    obtain ⟨r, more, rfl, later⟩ := returns.op_inv
    obtain ⟨a, l₁, l₂, rfl, first, second⟩ := ih r later
    exact ⟨a, ⟨o, r⟩ :: l₁, l₂, rfl, .op first, second⟩
  | spawn f next ih =>
    cases returns with
    | spawn returns =>
      obtain ⟨a, l₁, l₂, rfl, first, second⟩ := ih returns
      exact ⟨a, l₁, l₂, rfl, .spawn first, second⟩
  | jump f => cases returns

theorem Within.mem_returned {p : Prog Op Resp Fn α} {ops : Op → Prop} {fns tails : Fn → Prop}
    {value : α} (within : p.Within ops fns tails) (returns : p.Returns answers value) :
    ∀ x ∈ answers, ops x.1 := by
  induction returns with
  | ret => simp
  | op _ ih => exact List.forall_mem_cons.mpr ⟨within.1, ih (within.2 _)⟩
  | spawn _ ih => exact ih within.2

/-- A program permitted whatever has been exchanged before has exchanged what its result was
    returned for. -/
theorem Within.returned {shape : Fn → List (Exchange Op Resp) → Op → Prop} {p : Prog Op Resp Fn α}
    {ops : Op → Prop} (within : p.Within ops (fun _ => False) fun _ => False) {σ : Traced Op Resp Fn}
    (permits : ∀ f, σ.root = some f → ∀ l o, ops o → shape f l o) :
    p.Along (shaped shape) (fun σ' a => σ'.root = σ.root ∧ ∃ l, σ'.done = σ.done ++ l ∧ p.Returns l a) σ := by
  induction p generalizing σ with
  | ret a => exact ⟨rfl, [], by simp, .ret⟩
  | op o next ih =>
    refine ⟨fun f root => permits f root _ o within.1, fun r _ => (ih r (σ := σ.next o r) (within.2 r) permits).weaken ?_⟩
    rintro σ' a ⟨root, l, done, returns⟩
    exact ⟨root, ⟨o, r⟩ :: l, by rw [done]; simp [Traced.next], .op returns⟩
  | spawn f next ih => exact within.1.elim
  | jump f => exact within.elim

end Prog

end PatchManager.Conc
