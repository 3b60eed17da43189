import PatchManager.Conc.Exchange
import PatchManager.Conc.System

/-! # Playing a schedule

`Step` leaves open which task moves and what the world answers.  A `Player` resolves
both by a list of moves, so that a concrete interleaving can be computed and then
checked: `Player.run_of_play` turns a schedule that plays through into a `Run`.

`Player.alone` runs one program from start to end with nothing else moving, the
sequential meaning of a function.
-/

namespace PatchManager.Conc

variable {World Op : Type} {Resp : Op → Type} {Fn : Type}

/-- How the choices a machine leaves open are made. -/
structure Player (M : Machine World Op Resp Fn) where
  /-- what the surroundings say to an operation -/
  Answer : Type
  /-- what other components can do to the world -/
  Change : Type
  execute : World → (o : Op) → Answer → Option (Resp o × World)
  call : Sys World Op Resp Fn → Fn → Option World
  change : World → Change → World
  execute_sound : ∀ {w : World} {o : Op} {a : Answer} {r : Resp o} {w' : World},
    execute w o a = some (r, w') → M.exec w o r w'
  call_sound : ∀ {s : Sys World Op Resp Fn} {f : Fn} {w : World}, call s f = some w → M.enter s f w
  change_sound : ∀ (w : World) (d : Change), M.drift w (change w d)

variable {M : Machine World Op Resp Fn}

inductive Move (P : Player M) where
  | run (tid : Nat) (a : P.Answer)
  | call (f : Fn)
  | change (d : P.Change)
  | restart

namespace Player

variable (P : Player M)

/-- The event of one move, if the move is possible. -/
def event (s : Sys World Op Resp Fn) : Move P → Option (Event World Op Resp Fn)
  | .run tid a =>
    match s.tasks[tid]? with
    | some ⟨root, .op o next⟩ =>
      (P.execute s.world o a).map fun (r, w) =>
        ⟨s, .op tid o r, w, s.tasks.set tid ⟨root, next r⟩⟩
    | some ⟨root, .spawn f next⟩ =>
      some ⟨s, .spawn tid f, s.world, s.tasks.set tid ⟨root, next⟩ ++ [⟨f, M.body f⟩]⟩
    | some ⟨root, .jump f⟩ => some ⟨s, .jump tid f, s.world, s.tasks.set tid ⟨root, M.body f⟩⟩
    | _ => none
  | .call f => (P.call s f).map fun w => ⟨s, .enter f, w, s.tasks ++ [⟨f, M.body f⟩]⟩
  | .change d => some ⟨s, .drift, P.change s.world d, s.tasks⟩
  | .restart => some ⟨s, .restart, M.restart s.world, M.survivors s.tasks⟩

theorem event_step {s : Sys World Op Resp Fn} {m : Move P} {e : Event World Op Resp Fn}
    (played : P.event s m = some e) : e.pre = s ∧ Step M e.pre e.label e.post := by
  cases m with
  | run tid a =>
    simp only [event] at played
    split at played
    · rename_i at_
      obtain ⟨⟨r, w⟩, executed, rfl⟩ := Option.map_eq_some_iff.mp played
      exact ⟨rfl, .op at_ (P.execute_sound executed)⟩
    · rename_i at_
      cases played
      exact ⟨rfl, .spawn at_⟩
    · rename_i at_
      cases played
      exact ⟨rfl, .jump at_⟩
    · cases played
  | call f =>
    obtain ⟨w, called, rfl⟩ := Option.map_eq_some_iff.mp played
    exact ⟨rfl, .enter (P.call_sound called)⟩
  | change d => cases played; exact ⟨rfl, .drift (P.change_sound _ d)⟩
  | restart => cases played; exact ⟨rfl, .restart⟩

/-- The history of a whole schedule, if every move is possible. -/
def play (s : Sys World Op Resp Fn) : List (Move P) → Option (List (Event World Op Resp Fn))
  | [] => some []
  | m :: moves => do
    let e ← P.event s m
    let rest ← play e.post moves
    return e :: rest

/-- The state a history ends in. -/
def last (s : Sys World Op Resp Fn) : List (Event World Op Resp Fn) → Sys World Op Resp Fn
  | [] => s
  | e :: rest => last e.post rest

theorem play_run {s : Sys World Op Resp Fn} {moves : List (Move P)}
    {h : List (Event World Op Resp Fn)} (played : P.play s moves = some h) :
    Run M s h (last s h) := by
  induction moves generalizing s h with
  | nil => cases played; exact .nil
  | cons m moves ih =>
    simp only [play, bind, Option.bind_eq_some_iff, pure, Option.some.injEq] at played
    obtain ⟨e, first, rest, others, rfl⟩ := played
    obtain ⟨rfl, step⟩ := P.event_step first
    exact Run.cons step (ih others)

/-- The history of a schedule, empty when the schedule does not play through. -/
def history (s : Sys World Op Resp Fn) (moves : List (Move P)) : List (Event World Op Resp Fn) :=
  (P.play s moves).getD []

theorem run_of_play {s : Sys World Op Resp Fn} {moves : List (Move P)}
    (plays : (P.play s moves).isSome = true) :
    Run M s (P.history s moves) (last s (P.history s moves)) := by
  obtain ⟨h, played⟩ := Option.isSome_iff_exists.mp plays
  simpa [history, played] using P.play_run played

/-- An event of a played schedule that passes a test, with the run around it. -/
theorem exists_event {s : Sys World Op Resp Fn} {moves : List (Move P)}
    {test : Event World Op Resp Fn → Bool}
    (plays : ((P.play s moves).getD []).any test = true) :
    ∃ h₁ e h₂ t, test e = true ∧ Run M s (h₁ ++ e :: h₂) t := by
  obtain ⟨e, mem, passes⟩ := List.any_eq_true.mp plays
  cases played : P.play s moves with
  | none => rw [played] at mem; cases mem
  | some h =>
    rw [played] at mem
    obtain ⟨h₁, h₂, eq⟩ := List.append_of_mem mem
    exact ⟨h₁, e, h₂, last s h, passes, eq ▸ P.play_run played⟩

/-- Runs `p` from start to end, every operation answered by `a`, with no other task
    moving.  Tasks it starts are left aside; `none` when an operation has no such answer. -/
def alone {α : Type} (a : P.Answer) : World → Prog Op Resp Fn α → Option (α × World)
  | w, .ret value => some (value, w)
  | w, .op o next =>
    match P.execute w o a with
    | some (r, w') => alone a w' (next r)
    | none => none
  | w, .spawn _ next => alone a w next
  | _, .jump _ => none

/-- Runs `p` from start to end like `alone`, every operation answered as `answers` says. -/
def aloneBy {α : Type} (answers : Op → P.Answer) : World → Prog Op Resp Fn α → Option (α × World)
  | w, .ret value => some (value, w)
  | w, .op o next =>
    match P.execute w o (answers o) with
    | some (r, w') => aloneBy answers w' (next r)
    | none => none
  | w, .spawn _ next => aloneBy answers w next
  | _, .jump _ => none

theorem aloneBy_op {α : Type} {answers : Op → P.Answer} {w w' : World} {o : Op} {r : Resp o}
    {next : Resp o → Prog Op Resp Fn α} (executed : P.execute w o (answers o) = some (r, w')) :
    P.aloneBy answers w (.op o next) = P.aloneBy answers w' (next r) := by
  simp only [aloneBy, executed]

theorem aloneBy_bind {α β : Type} {answers : Op → P.Answer} {w : World} (p : Prog Op Resp Fn α)
    (rest : α → Prog Op Resp Fn β) :
    P.aloneBy answers w (p.bind rest) =
      (P.aloneBy answers w p).bind fun (a, w') => P.aloneBy answers w' (rest a) := by
  induction p generalizing w with
  | ret value => rfl
  | op o next ih =>
    simp only [Prog.op_bind, aloneBy]
    split
    · exact ih _
    · rfl
  | spawn f next ih => exact ih
  | jump f => rfl

end Player

/-- A test of every event of a history together with what came before it. -/
def checksAll {A : Type} (test : List A → A → Bool) (l : List A) : Bool :=
  l.zipIdx.all fun x => test (l.take x.2) x.1

theorem test_of_checksAll {A : Type} {test : List A → A → Bool} {l l₁ l₂ : List A} {a : A}
    (checks : checksAll test l = true) (split : l = l₁ ++ a :: l₂) : test l₁ a = true := by
  subst split
  have mem : (a, l₁.length) ∈ (l₁ ++ a :: l₂).zipIdx := by
    rw [List.mem_zipIdx_iff_getElem?]
    simp
  simpa using List.all_eq_true.mp checks _ mem

theorem checksAll_of_forall {A : Type} {test : List A → A → Bool} {l : List A}
    (holds : ∀ l₁ a l₂, l = l₁ ++ a :: l₂ → test l₁ a = true) : checksAll test l = true := by
  refine List.all_eq_true.mpr fun ⟨a, i⟩ mem => ?_
  obtain ⟨bound, value⟩ := List.getElem?_eq_some_iff.mp (List.mem_zipIdx_iff_getElem?.mp mem)
  refine holds (l.take i) a (l.drop (i + 1)) ?_
  calc l = l.take i ++ l.drop i := (List.take_append_drop i l).symm
    _ = l.take i ++ a :: l.drop (i + 1) := by rw [List.drop_eq_getElem_cons bound, value]

/-- The beginning of a history, around one of its events. -/
theorem take_of_getElem? {A : Type} {l : List A} {i j : Nat} {a : A} (first : l[i]? = some a)
    (before : i < j) : l.take j = l.take i ++ a :: (l.take j).drop (i + 1) := by
  have at_ : (l.take j)[i]? = some a := by rw [List.getElem?_take_of_lt before, first]
  obtain ⟨bound, value⟩ := List.getElem?_eq_some_iff.mp at_
  have split := (List.take_append_drop i (l.take j)).symm
  rw [List.drop_eq_getElem_cons bound, value, List.take_take, Nat.min_eq_left (Nat.le_of_lt before)] at split
  exact split

/-- Two events of a history, by position. -/
theorem exists_split_of_getElem? {A : Type} {l : List A} {i j : Nat} {a b : A}
    (first : l[i]? = some a) (second : l[j]? = some b) (before : i < j) :
    l = l.take i ++ a :: ((l.take j).drop (i + 1) ++ b :: l.drop (j + 1)) := by
  have take_eq := take_of_getElem? first before
  obtain ⟨bound, value⟩ := List.getElem?_eq_some_iff.mp second
  calc l = l.take j ++ l.drop j := (List.take_append_drop j l).symm
    _ = l.take j ++ b :: l.drop (j + 1) := by rw [List.drop_eq_getElem_cons bound, value]
    _ = (l.take i ++ a :: (l.take j).drop (i + 1)) ++ b :: l.drop (j + 1) := by rw [← take_eq]
    _ = _ := by simp

end PatchManager.Conc

/-! ## Services whose operations are functions

A `Service` gives the effect of every operation as a function of the world and of what the
surroundings say to it.  It is a machine, and the same functions play schedules of it.

Main results:

* `Service.exec_iff`: an operation of the machine is one the function carries out.
* `Service.world_cases`: the world changes by an operation, by its surroundings, or by a restart.
-/

namespace PatchManager.Conc

variable {World Op : Type} {Resp : Op → Type} {Fn : Type}

structure Service (World Op : Type) (Resp : Op → Type) (Fn : Type) where
  /-- the program of each named function -/
  body : Fn → Prog Op Resp Fn Unit
  /-- what the surroundings say to an operation -/
  Answer : Type
  /-- what other components can do to the world -/
  Change : Type
  execute : World → (o : Op) → Answer → Option (Resp o × World)
  change : World → Change → World
  /-- the functions that can be called from outside -/
  isEntry : Fn → Bool
  restart : World → World
  /-- the tasks that a restart ends -/
  perishes : Fn → Bool

namespace Service

variable (S : Service World Op Resp Fn)

/-- Every task can end on its own at any point: a client that goes away ends its request. -/
def machine : Machine World Op Resp Fn where
  body := S.body
  exec w o r w' := ∃ a, S.execute w o a = some (r, w')
  enter s f w := S.isEntry f = true ∧ w = s.world
  drift w w' := ∃ d, w' = S.change w d
  restart := S.restart
  perishes := S.perishes
  abandons _ := true

def player : Player S.machine where
  Answer := S.Answer
  Change := S.Change
  execute := S.execute
  call s f := if S.isEntry f then some s.world else none
  change := S.change
  execute_sound {_ _ a _ _} executed := ⟨a, executed⟩
  call_sound {_ f _} called := by
    by_cases entry : S.isEntry f = true
    · simp only [entry, if_true, Option.some.injEq] at called
      exact ⟨entry, called.symm⟩
    · simp [entry] at called
  change_sound w d := ⟨d, rfl⟩

variable {S}

@[simp] theorem exec_iff {w w' : World} {o : Op} {r : Resp o} :
    S.machine.exec w o r w' ↔ ∃ a, S.execute w o a = some (r, w') := Iff.rfl

/-- How one step can change the world. -/
theorem world_cases {s t : Sys World Op Resp Fn} {l : Label Op Resp Fn} (step : Step S.machine s l t) :
    (∃ tid o r a, l = .op tid o r ∧ S.execute s.world o a = some (r, t.world)) ∨
      (∃ d, l = .drift ∧ t.world = S.change s.world d) ∨
      (l = .restart ∧ t.world = S.restart s.world) ∨
      ((∀ tid o r, l ≠ .op tid o r) ∧ t.world = s.world) := by
  cases step with
  | @op tid _ o _ r _ _ done =>
    obtain ⟨a, executed⟩ := done
    exact .inl ⟨tid, o, r, a, rfl, executed⟩
  | enter called => exact .inr (.inr (.inr ⟨by simp, called.2⟩))
  | drift moved =>
    obtain ⟨d, rfl⟩ := moved
    exact .inr (.inl ⟨d, rfl, rfl⟩)
  | restart => exact .inr (.inr (.inl ⟨rfl, rfl⟩))
  | spawn | jump | abandon => exact .inr (.inr (.inr ⟨by simp, rfl⟩))

end Service

end PatchManager.Conc
