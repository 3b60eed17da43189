import PatchManager.Conc.Exchange
import PatchManager.Conc.Schedule

/-! # Requests served one at a time

`Serves S w p l result w'`: the program `p` of a service runs from the world `w` with nothing
else moving and comes to `w'`, having made the exchanges `l`.  It may end at any point without
a result, when its client goes away or the process stops.

`Prog.attempt` is the operator `?`: what follows a step that may fail.  `Prog.steps` runs such
steps one after the other.

Main results:

* `Serves.bind_inv`, `Serves.attempt_inv`: what a sequence has done, part by part.
* `Serves.isOk`: no error is returned where no answer was bad.
* `Serves.within`: what the operations of a footprint keep, a program within it keeps.
-/

namespace PatchManager.Conc

variable {World Op : Type} {Resp : Op → Type} {Fn : Type} {α β ε : Type}

inductive Serves (S : Service World Op Resp Fn) {α : Type} :
    World → Prog Op Resp Fn α → List (Exchange Op Resp) → Option α → World → Prop
  | ret {w : World} {value : α} : Serves S w (.ret value) [] (some value) w
  | cut {w : World} {p : Prog Op Resp Fn α} : Serves S w p [] none w
  | op {w w' w'' : World} {o : Op} {next : Resp o → Prog Op Resp Fn α} {a : S.Answer} {r : Resp o}
      {l : List (Exchange Op Resp)} {result : Option α} (executed : S.execute w o a = some (r, w'))
      (rest : Serves S w' (next r) l result w'') : Serves S w (.op o next) (⟨o, r⟩ :: l) result w''
  | spawn {w w' : World} {f : Fn} {next : Prog Op Resp Fn α} {l : List (Exchange Op Resp)}
      {result : Option α} (rest : Serves S w next l result w') : Serves S w (.spawn f next) l result w'

/-- Goes on with the value of a step that succeeds, and returns the error of one that fails. -/
def Prog.attempt (p : Prog Op Resp Fn (Except ε α)) (rest : α → Prog Op Resp Fn (Except ε β)) :
    Prog Op Resp Fn (Except ε β) :=
  p.bind fun
    | .ok value => rest value
    | .error e => .ret (.error e)

/-- Steps that may fail, up to the first that does. -/
def Prog.steps : List (Prog Op Resp Fn (Except ε Unit)) → Prog Op Resp Fn (Except ε Unit)
  | [] => .ret (.ok ())
  | p :: rest => p.attempt fun _ => Prog.steps rest

/-- Only where an answer is bad does the program return an error. -/
def Prog.FailsOnly (bad : (o : Op) → Resp o → Prop) : Prog Op Resp Fn (Except ε α) → Prop
  | .ret value => value.isOk = true
  | .op o next => ∀ r, ¬ bad o r → (next r).FailsOnly bad
  | .spawn _ next => next.FailsOnly bad
  | .jump _ => True

variable {ops : Op → Prop} {fns tails : Fn → Prop} {bad : (o : Op) → Resp o → Prop}

theorem Prog.FailsOnly.bind {ε' : Type} {p : Prog Op Resp Fn (Except ε α)}
    {rest : Except ε α → Prog Op Resp Fn (Except ε' β)} (first : p.FailsOnly bad)
    (second : ∀ value, (rest (.ok value)).FailsOnly bad) : (p.bind rest).FailsOnly bad := by
  induction p with
  | ret value =>
    cases value with
    | ok value => exact second value
    | error e => cases first
  | op o next ih => exact fun r good => ih r (first r good)
  | spawn f next ih => exact ih first
  | jump f => trivial

theorem Prog.FailsOnly.steps {l : List (Prog Op Resp Fn (Except ε Unit))}
    (each : ∀ p ∈ l, p.FailsOnly bad) : (Prog.steps l).FailsOnly bad := by
  induction l with
  | nil => exact rfl
  | cons p rest ih =>
    exact (each p (by simp)).bind fun _ => ih fun q mem => each q (by simp [mem])

theorem Prog.Within.attempt {p : Prog Op Resp Fn (Except ε α)} {rest : α → Prog Op Resp Fn (Except ε β)}
    (first : p.Within ops fns tails) (second : ∀ a, (rest a).Within ops fns tails) :
    (p.attempt rest).Within ops fns tails :=
  first.bind fun r => by
    cases r with
    | ok value => exact second value
    | error e => exact .ret _

theorem Prog.Within.steps {l : List (Prog Op Resp Fn (Except ε Unit))}
    (within : ∀ p ∈ l, p.Within ops fns tails) : (Prog.steps l).Within ops fns tails := by
  induction l with
  | nil => exact .ret _
  | cons p rest ih =>
    exact (within p (by simp)).attempt fun _ => ih fun q mem => within q (by simp [mem])

/-- What has returned a value has come through its first step. -/
theorem Prog.Returns.attempt_inv {p : Prog Op Resp Fn (Except ε α)}
    {rest : α → Prog Op Resp Fn (Except ε β)} {l : List (Exchange Op Resp)} {value : β}
    (returns : (p.attempt rest).Returns l (.ok value)) :
    ∃ a l₁ l₂, l = l₁ ++ l₂ ∧ p.Returns l₁ (.ok a) ∧ (rest a).Returns l₂ (.ok value) := by
  obtain ⟨r, l₁, l₂, rfl, first, second⟩ := Returns.bind_inv returns
  cases r with
  | ok a => exact ⟨a, l₁, l₂, rfl, first, second⟩
  | error e =>
    obtain ⟨-, eq⟩ := second.ret_inv
    cases eq

namespace Serves

variable {S : Service World Op Resp Fn} {w w' : World} {l : List (Exchange Op Resp)}

theorem ret_inv {value : α} {result : Option α}
    (serves : Serves S w (.ret value : Prog Op Resp Fn α) l result w') :
    l = [] ∧ w' = w ∧ (result = none ∨ result = some value) := by
  cases serves with
  | ret => exact ⟨rfl, rfl, .inr rfl⟩
  | cut => exact ⟨rfl, rfl, .inl rfl⟩

theorem op_inv {o : Op} {next : Resp o → Prog Op Resp Fn α} {result : Option α}
    (serves : Serves S w (.op o next) l result w') :
    (l = [] ∧ w' = w ∧ result = none) ∨
      ∃ a r w₁ rest, S.execute w o a = some (r, w₁) ∧ Serves S w₁ (next r) rest result w' ∧
        l = ⟨o, r⟩ :: rest := by
  cases serves with
  | cut => exact .inl ⟨rfl, rfl, rfl⟩
  | op executed rest => exact .inr ⟨_, _, _, _, executed, rest, rfl⟩

/-- A sequence has come through its first part, or not. -/
theorem bind_inv {p : Prog Op Resp Fn α} {rest : α → Prog Op Resp Fn β} {result : Option β}
    (serves : Serves S w (p.bind rest) l result w') :
    (∃ l₁ value w₁ l₂, Serves S w p l₁ (some value) w₁ ∧ Serves S w₁ (rest value) l₂ result w' ∧
      l = l₁ ++ l₂) ∨ (result = none ∧ Serves S w p l none w') := by
  induction p generalizing w l with
  | ret value => exact .inl ⟨[], value, w, l, .ret, serves, rfl⟩
  | op o next ih =>
    rcases serves.op_inv with ⟨rfl, rfl, rfl⟩ | ⟨a, r, w₁, l', executed, later, rfl⟩
    · exact .inr ⟨rfl, .cut⟩
    · rcases ih r later with ⟨l₁, value, w₂, l₂, first, second, rfl⟩ | ⟨rfl, first⟩
      · exact .inl ⟨_, value, w₂, l₂, .op executed first, second, rfl⟩
      · exact .inr ⟨rfl, .op executed first⟩
  | spawn f next ih =>
    cases serves with
    | cut => exact .inr ⟨rfl, .cut⟩
    | spawn later =>
      rcases ih later with ⟨l₁, value, w₂, l₂, first, second, rfl⟩ | ⟨rfl, first⟩
      · exact .inl ⟨l₁, value, w₂, l₂, .spawn first, second, rfl⟩
      · exact .inr ⟨rfl, .spawn first⟩
  | jump f =>
    cases serves with
    | cut => exact .inr ⟨rfl, .cut⟩

/-! What has returned has not been interrupted. -/

theorem ret_returned {value r : α} (serves : Serves S w (.ret value : Prog Op Resp Fn α) l (some r) w') :
    l = [] ∧ w' = w ∧ r = value := by
  obtain ⟨rfl, rfl, eq⟩ := serves.ret_inv
  exact ⟨rfl, rfl, by simpa using eq⟩

theorem op_returned {o : Op} {next : Resp o → Prog Op Resp Fn α} {r : α}
    (serves : Serves S w (.op o next) l (some r) w') :
    ∃ a x w₁ rest, S.execute w o a = some (x, w₁) ∧ Serves S w₁ (next x) rest (some r) w' ∧ l = ⟨o, x⟩ :: rest := by
  obtain ⟨-, -, none⟩ | more := serves.op_inv
  · cases none
  · exact more

theorem bind_returned {p : Prog Op Resp Fn α} {rest : α → Prog Op Resp Fn β} {r : β}
    (serves : Serves S w (p.bind rest) l (some r) w') :
    ∃ l₁ value w₁ l₂, Serves S w p l₁ (some value) w₁ ∧ Serves S w₁ (rest value) l₂ (some r) w' ∧ l = l₁ ++ l₂ := by
  obtain more | ⟨none, -⟩ := serves.bind_inv
  · exact more
  · cases none

/-- A step that may fail has succeeded, or its failure or end is that of the whole. -/
theorem attempt_inv {p : Prog Op Resp Fn (Except ε α)} {rest : α → Prog Op Resp Fn (Except ε β)}
    {result : Option (Except ε β)} (serves : Serves S w (p.attempt rest) l result w') :
    (∃ l₁ value w₁ l₂, Serves S w p l₁ (some (.ok value)) w₁ ∧
      Serves S w₁ (rest value) l₂ result w' ∧ l = l₁ ++ l₂) ∨
    ((∀ value, result ≠ some (.ok value)) ∧ ∃ first, Serves S w p l first w') := by
  rcases serves.bind_inv with ⟨l₁, r, w₁, l₂, first, second, rfl⟩ | ⟨rfl, first⟩
  · cases r with
    | ok value => exact .inl ⟨l₁, value, w₁, l₂, first, second, rfl⟩
    | error e =>
      obtain ⟨rfl, rfl, result⟩ := second.ret_inv
      refine .inr ⟨fun value eq => ?_, _, by simpa using first⟩
      rcases result with rfl | rfl <;> cases eq
  · exact .inr ⟨nofun, none, first⟩

/-- A program whose value is converted. -/
theorem map_inv {p : Prog Op Resp Fn α} {f : α → β} {result : Option β}
    (serves : Serves S w (p.bind fun a => .ret (f a)) l result w') :
    ∃ first, Serves S w p l first w' ∧ (result = none ∨ result = first.map f) := by
  obtain ⟨l₁, a, w₁, l₂, first, second, rfl⟩ | ⟨rfl, first⟩ := serves.bind_inv
  · obtain ⟨rfl, rfl, ended⟩ := second.ret_inv
    exact ⟨some a, by simpa using first, ended⟩
  · exact ⟨none, first, .inl rfl⟩

/-- How far a step that may fail has come, and what that means for the whole. -/
theorem attempt_cases {p : Prog Op Resp Fn (Except ε α)} {rest : α → Prog Op Resp Fn (Except ε β)}
    {result : Option (Except ε β)} (serves : Serves S w (p.attempt rest) l result w') :
    (∃ l₁ value w₁ l₂, Serves S w p l₁ (some (.ok value)) w₁ ∧
      Serves S w₁ (rest value) l₂ result w' ∧ l = l₁ ++ l₂) ∨
    (∃ e, Serves S w p l (some (.error e)) w' ∧ (result = none ∨ result = some (.error e))) ∨
    (result = none ∧ Serves S w p l none w') := by
  rcases serves.bind_inv with ⟨l₁, r, w₁, l₂, first, second, rfl⟩ | ⟨rfl, first⟩
  · cases r with
    | ok value => exact .inl ⟨l₁, value, w₁, l₂, first, second, rfl⟩
    | error e =>
      obtain ⟨rfl, rfl, broken⟩ := second.ret_inv
      exact .inr (.inl ⟨e, by simpa using first, broken⟩)
  · exact .inr (.inr ⟨rfl, first⟩)

/-- One operation whose answer is converted, and what follows it: a request that is interrupted
    between the two has not begun the second. -/
theorem ask_cases {o : Op} {f : Resp o → Except ε α} {rest : α → Prog Op Resp Fn (Except ε β)}
    {result : Option (Except ε β)}
    (serves : Serves S w (((Prog.perform o).bind fun r => .ret (f r)).attempt rest) l result w') :
    (l = [] ∧ w' = w ∧ result = none) ∨
      ∃ a r w₁ l', S.execute w o a = some (r, w₁) ∧ l = ⟨o, r⟩ :: l' ∧
        ((∃ value, f r = .ok value ∧ Serves S w₁ (rest value) l' result w') ∨
          ∃ e, f r = .error e ∧ l' = [] ∧ w' = w₁ ∧ (result = none ∨ result = some (.error e))) := by
  obtain same | ⟨a, r, w₁, l', executed, later, rfl⟩ := serves.op_inv
  · exact .inl same
  refine .inr ⟨a, r, w₁, l', executed, rfl, ?_⟩
  cases converted : f r with
  | ok value =>
    simp only [Prog.ret_bind, converted] at later
    exact .inl ⟨value, rfl, later⟩
  | error e =>
    simp only [Prog.ret_bind, converted] at later
    obtain ⟨rfl, rfl, ended⟩ := later.ret_inv
    exact .inr ⟨e, rfl, rfl, rfl, ended⟩

/-- Steps that have all succeeded have done so one after the other. -/
theorem steps_inv {p : Prog Op Resp Fn (Except ε Unit)} {rest : List (Prog Op Resp Fn (Except ε Unit))}
    (serves : Serves S w (Prog.steps (p :: rest)) l (some (.ok ())) w') :
    ∃ l₁ w₁ l₂, Serves S w p l₁ (some (.ok ())) w₁ ∧ Serves S w₁ (Prog.steps rest) l₂ (some (.ok ())) w' := by
  rcases serves.attempt_inv with ⟨l₁, u, w₁, l₂, first, later, -⟩ | ⟨other, -⟩
  · exact ⟨l₁, w₁, l₂, first, later⟩
  · exact absurd rfl (other ())

/-- Where no answer is bad, what a program returns is no error. -/
theorem isOk {p : Prog Op Resp Fn (Except ε α)} {r : Except ε α} (serves : Serves S w p l (some r) w')
    (only : p.FailsOnly bad) (good : ∀ x ∈ l, ¬ bad x.1 x.2) : r.isOk = true := by
  induction p generalizing w l with
  | ret value =>
    obtain ⟨rfl, rfl, eq | eq⟩ := serves.ret_inv
    · cases eq
    · cases eq
      exact only
  | op o next ih =>
    rcases serves.op_inv with ⟨-, -, eq⟩ | ⟨a, answer, w₁, rest, -, later, rfl⟩
    · cases eq
    · exact ih answer later (only answer (good ⟨o, answer⟩ (by simp))) fun x mem =>
        good x (by simp [mem])
  | spawn f next ih =>
    cases serves with
    | spawn later => exact ih later only good
  | jump f => cases serves

/-- What the operations of a footprint keep, a program within it keeps. -/
theorem within {p : Prog Op Resp Fn α} {result : Option α} {I : World → Prop}
    (serves : Serves S w p l result w') (within : p.Within ops fns tails)
    (keeps : ∀ {w o a r w'}, ops o → S.execute w o a = some (r, w') → I w → I w') (start : I w) :
    I w' := by
  induction serves with
  | ret | cut => exact start
  | op executed _ ih => exact ih (within.2 _) (keeps within.1 executed start)
  | spawn _ ih => exact ih within.2 start

/-- The exchanges of a program are within its footprint. -/
theorem mem_within {p : Prog Op Resp Fn α} {result : Option α} (serves : Serves S w p l result w')
    (within : p.Within ops fns tails) : ∀ x ∈ l, ops x.1 := by
  induction serves with
  | ret | cut => simp
  | op _ _ ih =>
    intro x mem
    rcases List.mem_cons.mp mem with rfl | later
    · exact within.1
    · exact ih (within.2 _) x later
  | spawn _ ih => exact ih within.2

end Serves

end PatchManager.Conc
