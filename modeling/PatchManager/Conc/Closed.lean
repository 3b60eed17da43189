import PatchManager.Conc.Program
import PatchManager.Conc.System

/-! # Properties kept by sequencing

A property of programs that holds of harmless operations and is kept by sequencing holds
of every program put together from parts that have it.  `Closed` says what that takes, so
that a service's functions are walked through once, whatever the property is.

`closed_within`, `closed_along` and `closed_along_while` give those that are used most: footprints,
and contracts that can be kept from any ghost state, or from those of one kind.
-/

namespace PatchManager.Conc

variable {Op : Type} {Resp : Op → Type} {Fn : Type}

/-- `P` holds of what is put together from programs that have it, operations in `ops`, and
    starts and tail calls of functions in `fns` and `tails`. -/
structure Closed (P : ∀ {α : Type}, Prog Op Resp Fn α → Prop) (ops : Op → Prop)
    (fns tails : Fn → Prop) : Prop where
  ret : ∀ {α : Type} (value : α), P (Prog.ret value)
  op : ∀ {α : Type} {o : Op} {next : Resp o → Prog Op Resp Fn α}, ops o → (∀ r, P (next r)) →
    P (Prog.op o next)
  spawn : ∀ {α : Type} {f : Fn} {next : Prog Op Resp Fn α}, fns f → P next → P (Prog.spawn f next)
  jump : ∀ {α : Type} {f : Fn}, tails f → P (Prog.jump f : Prog Op Resp Fn α)
  bind : ∀ {α β : Type} {p : Prog Op Resp Fn α} {rest : α → Prog Op Resp Fn β}, P p →
    (∀ a, P (rest a)) → P (p.bind rest)

theorem Closed.mono {P : ∀ {α : Type}, Prog Op Resp Fn α → Prop} {ops ops' : Op → Prop}
    {fns fns' tails tails' : Fn → Prop} (closed : Closed @P ops fns tails)
    (fewerOps : ∀ o, ops' o → ops o) (fewerFns : ∀ f, fns' f → fns f)
    (fewerTails : ∀ f, tails' f → tails f) : Closed @P ops' fns' tails' where
  ret := closed.ret
  op permitted := closed.op (fewerOps _ permitted)
  spawn permitted := closed.spawn (fewerFns _ permitted)
  jump permitted := closed.jump (fewerTails _ permitted)
  bind := closed.bind

/-- What stays within a footprint has every property closed under it. -/
theorem Closed.of_within {P : ∀ {α : Type}, Prog Op Resp Fn α → Prop} {ops : Op → Prop} {fns tails : Fn → Prop}
    (closed : Closed @P ops fns tails) {α : Type} {p : Prog Op Resp Fn α} (within : p.Within ops fns tails) : P p := by
  induction p with
  | ret value => exact closed.ret value
  | op o next ih => exact closed.op within.1 fun r => ih r (within.2 r)
  | spawn f next ih => exact closed.spawn within.1 (ih within.2)
  | jump f => exact closed.jump within

theorem closed_within (ops : Op → Prop) (fns tails : Fn → Prop) :
    Closed (fun {_} (p : Prog Op Resp Fn _) => p.Within ops fns tails) ops fns tails where
  ret := Prog.Within.ret
  op := Prog.Within.op
  spawn := Prog.Within.spawn
  jump := Prog.Within.jump
  bind := Prog.Within.bind

/-- A contract that permits `ops`, `fns` and `tails` in every ghost state can be kept from any. -/
theorem closed_along {C : Contract Op Resp Fn} {ops : Op → Prop} {fns tails : Fn → Prop}
    (permits : ∀ σ o, ops o → C.guar σ o) (starts : ∀ σ f, fns f → C.start σ f)
    (calls : ∀ σ f, tails f → C.tail σ f) :
    Closed (fun {_} (p : Prog Op Resp Fn _) => ∀ σ, p.Along C (fun _ _ => True) σ) ops fns tails where
  ret _ _ := trivial
  op permitted rest σ := ⟨permits σ _ permitted, fun r _ => rest r _⟩
  spawn permitted rest σ := ⟨starts σ _ permitted, rest σ⟩
  jump permitted σ := calls σ _ permitted
  bind first second σ := (first σ).bind fun σ a _ => second a σ

/-- A contract that permits `ops`, `fns` and `tails` while `Q` holds of the ghost state, which these
    operations keep, can be kept from any state of `Q`. -/
theorem closed_along_while {C : Contract Op Resp Fn} {Q : C.State → Prop} {ops : Op → Prop}
    {fns tails : Fn → Prop} (permits : ∀ σ o, Q σ → ops o → C.guar σ o)
    (stays : ∀ σ o r, Q σ → ops o → Q (C.next σ o r)) (starts : ∀ σ f, Q σ → fns f → C.start σ f)
    (calls : ∀ σ f, Q σ → tails f → C.tail σ f) :
    Closed (fun {_} (p : Prog Op Resp Fn _) => ∀ σ, Q σ → p.Along C (fun τ _ => Q τ) σ) ops fns
      tails where
  ret _ _ holds := holds
  op permitted rest σ holds :=
    ⟨permits σ _ holds permitted, fun r _ => rest r _ (stays σ _ r holds permitted)⟩
  spawn permitted rest σ holds := ⟨starts σ _ holds permitted, rest σ holds⟩
  jump permitted σ holds := calls σ _ holds permitted
  bind first second σ holds := (first σ holds).bind fun τ a kept => second a τ kept

section within

variable {World : Type} {M : Machine World Op Resp Fn} {s t : Sys World Op Resp Fn}
  {h : List (Event World Op Resp Fn)} {ops : Op → Prop} {fns tails : Fn → Prop}

/-- What holds of every function and its program, and of what is left of the program after each of
    its steps. -/
structure Machine.Leaves (M : Machine World Op Resp Fn) (I : Fn → Prog Op Resp Fn Unit → Prop) :
    Prop where
  body : ∀ f, I f (M.body f)
  ended : ∀ f, I f (.ret ())
  op : ∀ {f : Fn} {o : Op} {next : Resp o → Prog Op Resp Fn Unit}, I f (.op o next) →
    ∀ r, I f (next r)
  spawn : ∀ {f g : Fn} {next : Prog Op Resp Fn Unit}, I f (.spawn g next) → I f next
  jump : ∀ {f g : Fn}, I f (.jump g) → I f (M.body g)

theorem Step.leaves {I : Fn → Prog Op Resp Fn Unit → Prop} {l : Label Op Resp Fn}
    (step : Step M s l t) (leaves : M.Leaves I) (before : ∀ task ∈ s.tasks, I task.root task.prog) :
    ∀ task ∈ t.tasks, I task.root task.prog := by
  intro task mem
  cases step with
  | op at_ =>
    rcases List.mem_or_eq_of_mem_set mem with old | rfl
    · exact before task old
    · exact leaves.op (before _ (List.mem_of_getElem? at_)) _
  | spawn at_ =>
    rcases List.mem_append.mp mem with old | new
    · rcases List.mem_or_eq_of_mem_set old with old | rfl
      · exact before task old
      · exact leaves.spawn (before _ (List.mem_of_getElem? at_))
    · obtain rfl := List.mem_singleton.mp new
      exact leaves.body _
  | jump at_ =>
    rcases List.mem_or_eq_of_mem_set mem with old | rfl
    · exact before task old
    · exact leaves.jump (before _ (List.mem_of_getElem? at_))
  | enter =>
    rcases List.mem_append.mp mem with old | new
    · exact before task old
    · obtain rfl := List.mem_singleton.mp new
      exact leaves.body _
  | drift => exact before task mem
  | restart =>
    obtain ⟨old, there, rfl⟩ := List.mem_map.mp mem
    split
    · exact leaves.ended old.root
    · exact before old there
  | abandon at_ =>
    rcases List.mem_or_eq_of_mem_set mem with old | rfl
    · exact before task old
    · exact leaves.ended _

theorem Run.leaves {I : Fn → Prog Op Resp Fn Unit → Prop} (run : Run M s h t) (start : s.tasks = [])
    (leaves : M.Leaves I) : ∀ task ∈ t.tasks, I task.root task.prog :=
  run.preserves (I := fun s => ∀ task ∈ s.tasks, I task.root task.prog)
    (fun _ _ step before => step.leaves leaves before) (by simp [start])

/-- Tasks stay within a footprint of all functions. -/
theorem Run.tasks_within (run : Run M s h t) (start : s.tasks = [])
    (within : ∀ f, (M.body f).Within ops fns tails) :
    ∀ task ∈ t.tasks, task.prog.Within ops fns tails :=
  run.leaves start
    { body := within, ended := fun _ => trivial, op := fun inside => inside.2,
      spawn := fun inside => inside.2, jump := fun _ => within _ }

/-- Operations all functions stay within are the only ones in a run. -/
theorem Run.within (run : Run M s h t) (start : s.tasks = [])
    (within : ∀ f, (M.body f).Within ops (fun _ => True) fun _ => True)
    {e : Event World Op Resp Fn} (mem : e ∈ h) {tid : Nat} {o : Op} {r : Resp o}
    (label : e.label = .op tid o r) : ops o := by
  obtain ⟨h₁, h₂, rfl⟩ := List.append_of_mem mem
  obtain ⟨first, step, -⟩ := run.split_event
  rw [label] at step
  obtain ⟨root, next, w, at_, -⟩ := step.op_inv
  exact (first.tasks_within start within _ (List.mem_of_getElem? at_)).1

end within

end PatchManager.Conc

/-! ## Functions that take turns

A loop calls its function again when the last call has returned.  Of the tasks of such a
class of functions at most one is not over, and the operations of one task all come before
those of the next.

Main results: `Run.takes_turns` and `Run.op_between`.
-/

namespace PatchManager.Conc

variable {World Op : Type} {Resp : Op → Type} {Fn : Type} {M : Machine World Op Resp Fn}
  {s t : Sys World Op Resp Fn} {h : List (Event World Op Resp Fn)} {turn : Fn → Bool}

/-- The functions of the class are called from outside alone, when earlier tasks of the class are
    over. -/
structure Machine.Turns (M : Machine World Op Resp Fn) (turn : Fn → Bool) : Prop where
  enter : ∀ s f w, M.enter s f w → turn f = true → ∀ task ∈ s.tasks, turn task.root = true →
    task.prog = .ret ()
  spawn : ∀ f, (M.body f).Within (fun _ => True) (fun g => turn g = false) fun _ => True

/-- Of two tasks of the class the earlier is over. -/
def Sys.InTurn (turn : Fn → Bool) (s : Sys World Op Resp Fn) : Prop :=
  ∀ (i j : Nat) (a b : Task Op Resp Fn), i < j → s.tasks[i]? = some a → s.tasks[j]? = some b →
    turn a.root = true → turn b.root = true → a.prog = .ret ()

theorem Step.inTurn {l : Label Op Resp Fn} (step : Step M s l t) (turns : M.Turns turn)
    (within : ∀ task ∈ s.tasks, task.prog.Within (fun _ => True) (fun g => turn g = false) fun _ => True)
    (before : s.InTurn turn) : t.InTurn turn := by
  intro i j a b order at_a at_b turn_a turn_b
  have inside : ∀ (k : Nat) (task : Task Op Resp Fn), s.tasks[k]? = some task → k < s.tasks.length :=
    fun k task there => (List.getElem?_eq_some_iff.mp there).1
  rcases step.task_cases at_a with ⟨a₀, old_a, root_a, ended⟩ | ⟨f, starts, -⟩
  · rcases step.task_cases at_b with ⟨b₀, old_b, root_b, -⟩ | ⟨f, ⟨-, origin⟩, rfl⟩
    · exact ended (before i j a₀ b₀ order old_a old_b (root_a ▸ turn_a) (root_b ▸ turn_b))
    · -- the later task has just been started, and not by another task
      rcases origin with ⟨parent, label⟩ | label
      · obtain rfl : l = .spawn parent f := label
        cases step with
        | spawn there =>
          have other : turn f = false := (within _ (List.mem_of_getElem? there)).1
          rw [turn_b] at other
          cases other
      · obtain rfl : l = .enter f := label
        obtain ⟨w, called, -⟩ := step.enter_inv
        exact ended (turns.enter _ _ _ called turn_b a₀ (List.mem_of_getElem? old_a) (root_a ▸ turn_a))
  · have last : i = s.tasks.length := starts.1
    rcases step.task_cases at_b with ⟨b₀, old_b, -⟩ | ⟨g, later, -⟩
    · have := inside j b₀ old_b
      omega
    · have : j = s.tasks.length := later.1
      omega

theorem Run.takes_turns (run : Run M s h t) (start : s.tasks = []) (turns : M.Turns turn) :
    t.InTurn turn := by
  induction run with
  | nil =>
    intro i j a b _ at_a
    rw [start] at at_a
    cases at_a
  | snoc before step ih => exact step.inTurn turns (before.tasks_within start turns.spawn) ih

/-- A task that performs an operation later is not over yet. -/
theorem Run.alive_before (run : Run M s h t) {e : Event World Op Resp Fn} {tid : Nat} {o : Op}
    {r : Resp o} {task : Task Op Resp Fn} (at_ : s.tasks[tid]? = some task) (mem : e ∈ h)
    (label : e.label = .op tid o r) : task.prog ≠ .ret () := by
  intro done
  obtain ⟨h₁, h₂, rfl⟩ := List.append_of_mem mem
  obtain ⟨before, step, -⟩ := run.split_event
  obtain ⟨later, there, -, ended⟩ := before.task_kept at_
  rw [label] at step
  obtain ⟨root, next, w, now, -⟩ := step.op_inv
  obtain rfl : later = ⟨root, .op o next⟩ := Option.some.inj (there.symm.trans now)
  cases ended done

/-- Between two operations of one task of the class no other task of the class performs one. -/
theorem Run.op_between {h₁ h₂ : List (Event World Op Resp Fn)} {x e y : Event World Op Resp Fn}
    {tid tid' : Nat} {o o₁ o₂ : Op} {r : Resp o} {r₁ : Resp o₁} {r₂ : Resp o₂}
    {task task' : Task Op Resp Fn} (run : Run M s (h₁ ++ e :: h₂) t) (start : s.tasks = [])
    (turns : M.Turns turn) (label : e.label = .op tid o r) (at_ : e.pre.tasks[tid]? = some task)
    (turn_ : turn task.root = true) (earlier : x ∈ h₁) (label₁ : x.label = .op tid' o₁ r₁)
    (later : y ∈ h₂) (label₂ : y.label = .op tid' o₂ r₂) (at_' : y.pre.tasks[tid']? = some task')
    (turn' : turn task'.root = true) : tid = tid' := by
  obtain ⟨before, step, rest⟩ := run.split_event
  -- the other task is there at the operation between, and goes on after it
  obtain ⟨b, there⟩ : ∃ b, e.pre.tasks[tid']? = some b := by
    obtain ⟨l₁, l₂, rfl⟩ := List.append_of_mem earlier
    obtain ⟨-, first, onward⟩ := before.split_event
    have since := Run.cons first onward
    rw [label₁] at first
    obtain ⟨root, next, w, now, -⟩ := first.op_inv
    obtain ⟨c, kept, -⟩ := since.task_kept now
    exact ⟨c, kept⟩
  obtain ⟨l₁, l₂, rfl⟩ := List.append_of_mem later
  obtain ⟨between, -, -⟩ := (Run.cons step rest).split_event (h := e :: l₁)
  obtain ⟨c, kept, root, -⟩ := between.task_kept there
  have turn_b : turn b.root = true := by
    rw [← root, show c = task' from Option.some.inj (kept.symm.trans at_')]
    exact turn'
  have whole : Run M e.pre (e :: (l₁ ++ y :: l₂)) t := Run.cons step rest
  have alive := whole.alive_before at_ (by simp) label
  have alive' := whole.alive_before there (by simp) label₂
  have inTurn := before.takes_turns start turns
  rcases Nat.lt_trichotomy tid tid' with less | same | more
  · exact absurd (inTurn tid tid' task b less at_ there turn_ turn_b) alive
  · exact same
  · exact absurd (inTurn tid' tid b task more there at_ turn_b turn_) alive'

end PatchManager.Conc

/-! ## One task at a time

Where a function is called when every earlier task is over, and nothing else moves the world, a run is
the programs one after the other, each cut off at some point.  So it is enough to look at each program
by itself.

Main results: `Prog.Alone.bind` and `Run.serial`.
-/

namespace PatchManager.Conc

variable {World Op : Type} {Resp : Op → Type} {Fn : Type} {α β : Type}
  {exec : World → (o : Op) → Resp o → World → Prop} {I : World → Prop} {R : World → World → Prop}

/-- By itself from `w`, the program is at every point in a world with `I`, moves by `R`, and ends with `post`. -/
def Prog.Alone (exec : World → (o : Op) → Resp o → World → Prop) (I : World → Prop) (R : World → World → Prop)
    (post : World → α → Prop) : World → Prog Op Resp Fn α → Prop
  | w, .ret value => I w ∧ post w value
  | w, .op o next => I w ∧ ∀ r w', exec w o r w' → R w w' ∧ (next r).Alone exec I R post w'
  | _, .spawn _ _ | _, .jump _ => False

namespace Prog.Alone

variable {p : Prog Op Resp Fn α} {w : World} {post : World → α → Prop} {post' : World → β → Prop}

theorem here (alone : p.Alone exec I R post w) : I w := by
  cases p with
  | ret value => exact alone.1
  | op o next => exact alone.1
  | spawn f next => exact alone.elim
  | jump f => exact alone.elim

theorem bind {rest : α → Prog Op Resp Fn β} (first : p.Alone exec I R post w)
    (second : ∀ w' a, I w' → post w' a → (rest a).Alone exec I R post' w') :
    (p.bind rest).Alone exec I R post' w := by
  induction p generalizing w with
  | ret value => exact second w value first.1 first.2
  | op o next ih => exact ⟨first.1, fun r w' done => ⟨(first.2 r w' done).1, ih r (first.2 r w' done).2⟩⟩
  | spawn f next => exact first.elim
  | jump f => exact first.elim

end Prog.Alone

/-- `exec` is what can be relied on of the operations. -/
structure Machine.Serial (M : Machine World Op Resp Fn) (exec : World → (o : Op) → Resp o → World → Prop)
    (I : World → Prop) (R : World → World → Prop) : Prop where
  enter : ∀ s f w, M.enter s f w → w = s.world ∧ ∀ task ∈ s.tasks, task.prog = .ret ()
  body : ∀ s f w, M.enter s f w → I w → (M.body f).Alone exec I R (fun _ _ => True) w
  drift : ∀ w w', ¬ M.drift w w'
  restart : ∀ w, M.restart w = w

/-- Every task goes on by itself, and one of them at most is not over. -/
structure Sys.Serial (exec : World → (o : Op) → Resp o → World → Prop) (I : World → Prop) (R : World → World → Prop)
    (s : Sys World Op Resp Fn) : Prop where
  holds : I s.world
  alone : ∀ task ∈ s.tasks, task.prog.Alone exec I R (fun _ _ => True) s.world
  one : ∀ (i j : Nat) (a b : Task Op Resp Fn), s.tasks[i]? = some a → s.tasks[j]? = some b → i ≠ j →
    a.prog = .ret () ∨ b.prog = .ret ()

variable {M : Machine World Op Resp Fn} {s t : Sys World Op Resp Fn} {h : List (Event World Op Resp Fn)}

theorem alone_over {w : World} (holds : I w) :
    (Prog.ret () : Prog Op Resp Fn Unit).Alone exec I R (fun _ _ => True) w := ⟨holds, trivial⟩

theorem Step.serial {l : Label Op Resp Fn} (step : Step M s l t) (serial : M.Serial exec I R) (refl : ∀ w, R w w)
    (told : ∀ tid o r, l = .op tid o r → exec s.world o r t.world) (before : s.Serial exec I R) :
    t.Serial exec I R ∧ R s.world t.world := by
  obtain ⟨holds, alone, one⟩ := before
  -- a task that has just been called comes after tasks that are over
  have one' : ∀ (i j : Nat) (a b : Task Op Resp Fn), t.tasks[i]? = some a → t.tasks[j]? = some b → i ≠ j →
      a.prog = .ret () ∨ b.prog = .ret () := by
    have single : ∀ {i j : Nat} {b : Task Op Resp Fn} {f : Fn}, (⟨s, l, t⟩ : Event World Op Resp Fn).Starts i f →
        t.tasks[j]? = some b → i ≠ j → b.prog = .ret () := by
      rintro i j b f ⟨last, origin⟩ at_b other
      rcases origin with ⟨parent, label⟩ | label
      · obtain rfl : l = .spawn parent f := label
        cases step with
        | spawn at_ => exact (alone _ (List.mem_of_getElem? at_)).elim
      · obtain rfl : l = .enter f := label
        rcases step.task_cases at_b with ⟨b₀, old, -, ended⟩ | ⟨g, ⟨last', -⟩, -⟩
        · obtain ⟨w, called, -⟩ := step.enter_inv
          exact ended ((serial.enter _ _ _ called).2 b₀ (List.mem_of_getElem? old))
        · exact absurd (last.trans last'.symm) other
    intro i j a b at_a at_b other
    rcases step.task_cases at_a with ⟨a₀, old_a, -, ended_a⟩ | ⟨f, starts, -⟩
    · rcases step.task_cases at_b with ⟨b₀, old_b, -, ended_b⟩ | ⟨f, starts, -⟩
      · exact (one i j a₀ b₀ old_a old_b other).imp ended_a ended_b
      · exact .inl (single starts at_a (Ne.symm other))
    · exact .inr (single starts at_b other)
  cases step with
  | @op tid root o next r w at_ _ =>
    obtain ⟨moved, later⟩ := (alone _ (List.mem_of_getElem? at_)).2 r w (told tid o r rfl)
    refine ⟨⟨later.here, fun task mem => ?_, one'⟩, moved⟩
    obtain ⟨j, there⟩ := List.mem_iff_getElem?.mp mem
    by_cases same : tid = j
    · subst same
      obtain rfl : (⟨root, next r⟩ : Task Op Resp Fn) = task := by
        simpa [(List.getElem?_eq_some_iff.mp at_).1] using there
      exact later
    · rw [List.getElem?_set_ne same] at there
      rw [(one tid j _ task at_ there same).resolve_left nofun]
      exact alone_over later.here
  | spawn at_ => exact (alone _ (List.mem_of_getElem? at_)).elim
  | jump at_ => exact (alone _ (List.mem_of_getElem? at_)).elim
  | @enter f w called =>
    obtain ⟨rfl, -⟩ := serial.enter _ _ _ called
    refine ⟨⟨holds, fun task mem => ?_, one'⟩, refl _⟩
    rcases List.mem_append.mp mem with old | new
    · exact alone task old
    · obtain rfl := List.mem_singleton.mp new
      exact serial.body _ _ _ called holds
  | drift moved => exact absurd moved (serial.drift _ _)
  | restart =>
    have same := serial.restart s.world
    refine ⟨⟨same.symm ▸ holds, fun task mem => ?_, one'⟩, same.symm ▸ refl _⟩
    obtain ⟨task₀, old, rfl⟩ := List.mem_map.mp mem
    change Prog.Alone exec I R _ (M.restart s.world) _
    rw [same]
    split
    · exact alone_over holds
    · exact alone task₀ old
  | abandon at_ _ =>
    refine ⟨⟨holds, fun task mem => ?_, one'⟩, refl _⟩
    rcases List.mem_or_eq_of_mem_set mem with old | rfl
    · exact alone task old
    · exact alone_over holds

theorem Run.serial (run : Run M s h t) (start : s.tasks = []) (serial : M.Serial exec I R) (refl : ∀ w, R w w)
    (told : ∀ e ∈ h, ∀ tid o r, e.label = .op tid o r → exec e.pre.world o r e.post.world) (holds : I s.world) :
    t.Serial exec I R ∧ ∀ e ∈ h, R e.pre.world e.post.world := by
  induction run with
  | nil => exact ⟨⟨holds, by simp [start], by simp [start]⟩, by simp⟩
  | @snoc h u v l before step ih =>
    obtain ⟨state, moved⟩ := ih fun e mem => told e (List.mem_append_left _ mem)
    obtain ⟨state', moves⟩ := step.serial serial refl (told ⟨u, l, v⟩ (by simp)) state
    refine ⟨state', fun e mem => ?_⟩
    rcases List.mem_append.mp mem with old | new
    · exact moved e old
    · obtain rfl := List.mem_singleton.mp new
      exact moves

end PatchManager.Conc
