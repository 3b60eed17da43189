import PatchManager.Conc.Program

/-! # One task among others

What a program does to the world when others move between any two of its operations.
`Prog.Among exec others w p w' a` says that `p`, begun in `w`, has come to its end in `w'`
with the value `a`; after each operation the world changes as `others` allows.  A property of
all such executions holds under every interleaving whose steps by others are within `others`.

Main results: `Among.bind_inv`, which takes a sequence apart, and `Among.keeps`, the rule for
invariants.
-/

namespace PatchManager.Conc.Prog

variable {World Op : Type} {Resp : Op → Type} {Fn : Type} {α β : Type}

/-- An execution from start to end among others.  Functions it starts are left aside. -/
inductive Among (exec : World → (o : Op) → Resp o → World → Prop) (others : World → World → Prop) :
    World → Prog Op Resp Fn α → World → α → Prop
  | ret {w : World} {value : α} : Among exec others w (.ret value) w value
  | op {w w₁ w₂ w' : World} {o : Op} {next : Resp o → Prog Op Resp Fn α} {r : Resp o} {value : α}
      (done : exec w o r w₁) (moved : others w₁ w₂) (rest : Among exec others w₂ (next r) w' value) :
      Among exec others w (.op o next) w' value
  | spawn {w w' : World} {f : Fn} {next : Prog Op Resp Fn α} {value : α}
      (rest : Among exec others w next w' value) : Among exec others w (.spawn f next) w' value

namespace Among

variable {exec : World → (o : Op) → Resp o → World → Prop} {others : World → World → Prop}
  {w w' : World}

theorem ret_inv {a value : α} (among : Among exec others w (.ret a : Prog Op Resp Fn α) w' value) :
    w' = w ∧ value = a := by
  cases among
  exact ⟨rfl, rfl⟩

theorem op_inv {o : Op} {next : Resp o → Prog Op Resp Fn α} {value : α}
    (among : Among exec others w (.op o next) w' value) :
    ∃ r w₁ w₂, exec w o r w₁ ∧ others w₁ w₂ ∧ Among exec others w₂ (next r) w' value := by
  cases among with
  | op done moved rest => exact ⟨_, _, _, done, moved, rest⟩

/-- An operation after which the world is as it was. -/
theorem stay {o : Op} {next : Resp o → Prog Op Resp Fn α} {r : Resp o} {value : α} (done : exec w o r w)
    (rest : Among exec Eq w (next r) w' value) : Among exec Eq w (.op o next) w' value :=
  .op done rfl rest

/-- A sequence runs its first part and then, from where that has left the world, the second. -/
theorem bind_inv {p : Prog Op Resp Fn α} {rest : α → Prog Op Resp Fn β} {value : β}
    (among : Among exec others w (p.bind rest) w' value) :
    ∃ a w₁, Among exec others w p w₁ a ∧ Among exec others w₁ (rest a) w' value := by
  induction p generalizing w with
  | ret a => exact ⟨a, w, .ret, among⟩
  | op o next ih =>
    obtain ⟨r, w₁, w₂, done, moved, later⟩ := among.op_inv
    obtain ⟨a, w₃, first, second⟩ := ih r later
    exact ⟨a, w₃, .op done moved first, second⟩
  | spawn f next ih =>
    cases among with
    | spawn later =>
      obtain ⟨a, w₁, first, second⟩ := ih later
      exact ⟨a, w₁, .spawn first, second⟩
  | jump f => cases among

theorem bind {p : Prog Op Resp Fn α} {rest : α → Prog Op Resp Fn β} {a : α} {w₁ : World} {value : β}
    (first : Among exec others w p w₁ a) (second : Among exec others w₁ (rest a) w' value) :
    Among exec others w (p.bind rest) w' value := by
  induction first with
  | ret => exact second
  | op done moved _ ih => exact .op done moved (ih second)
  | spawn _ ih => exact .spawn (ih second)

/-- What the operations of the footprint and the others keep, the program keeps. -/
theorem keeps {p : Prog Op Resp Fn α} {value : α} {ops : Op → Prop} {fns tails : Fn → Prop}
    {I : World → Prop} (among : Among exec others w p w' value) (within : p.Within ops fns tails)
    (own : ∀ w o r w', ops o → exec w o r w' → I w → I w')
    (aside : ∀ w w', others w w' → I w → I w') (holds : I w) : I w' := by
  induction among with
  | ret => exact holds
  | op done moved _ ih => exact ih (within.2 _) (aside _ _ moved (own _ _ _ _ within.1 done holds))
  | spawn _ ih => exact ih within.2 holds

end Among

end PatchManager.Conc.Prog

/-! ## Programs with further operations

A program over some operations is also one over more of them, in a world that has more parts.
`Prog.extend` is that program and `alongside` the execution of both kinds of operations: those
of the smaller interface leave the other part of the world alone.

Main results: `Among.of_extend` and `Among.extend`, by which the program does in the larger world
what it does in the smaller one, and `Along.embed`, by which it keeps there what it keeps here.
-/

namespace PatchManager.Conc

variable {World Data Op Op' : Type} {Resp : Op → Type} {Resp' : Op' → Type} {Fn : Type} {α : Type}

/-- The program, with more operations at hand. -/
def Prog.extend : Prog Op Resp Fn α → Prog (Op ⊕ Op') (Sum.elim Resp Resp') Fn α
  | .ret value => .ret value
  | .op o next => .op (.inl o) fun r => (next r).extend
  | .spawn f next => .spawn f next.extend
  | .jump f => .jump f

/-- The program, with more operations at hand and under other functions. -/
def Prog.embed {Fn' : Type} (lift : Fn → Fn') : Prog Op Resp Fn α → Prog (Op ⊕ Op') (Sum.elim Resp Resp') Fn' α
  | .ret value => .ret value
  | .op o next => .op (.inl o) fun r => (next r).embed lift
  | .spawn f next => .spawn (lift f) (next.embed lift)
  | .jump f => .jump (lift f)

/-- The operations of the first kind act on the first part of the world alone. -/
def alongside (exec : World → (o : Op) → Resp o → World → Prop)
    (exec' : World × Data → (o : Op') → Resp' o → World × Data → Prop) :
    World × Data → (o : Op ⊕ Op') → Sum.elim Resp Resp' o → World × Data → Prop
  | w, .inl o, r, w' => exec w.1 o r w'.1 ∧ w'.2 = w.2
  | w, .inr o, r, w' => exec' w o r w'

section embed

variable {Fn' : Type} {lift : Fn → Fn'} {C : Contract Op Resp Fn}
  {C' : Contract (Op ⊕ Op') (Sum.elim Resp Resp') Fn'}

/-- A ghost state of the smaller interface and one of the larger that allows as much. -/
structure Contract.Within (C : Contract Op Resp Fn) (C' : Contract (Op ⊕ Op') (Sum.elim Resp Resp') Fn')
    (lift : Fn → Fn') (R : C.State → C'.State → Prop) : Prop where
  guar : ∀ σ τ o, R σ τ → C.guar σ o → C'.guar τ (.inl o)
  rely : ∀ (o : Op) (r : Resp o), C'.rely (.inl o) r → C.rely o r
  next : ∀ σ τ (o : Op) (r : Resp o), R σ τ → R (C.next σ o r) (C'.next τ (.inl o) r)
  start : ∀ σ τ f, R σ τ → C.start σ f → C'.start τ (lift f)
  tail : ∀ σ τ f, R σ τ → C.tail σ f → C'.tail τ (lift f)

theorem Prog.Along.embed {R : C.State → C'.State → Prop} {p : Prog Op Resp Fn α}
    {post : C.State → α → Prop} {σ : C.State} {τ : C'.State} (along : p.Along C post σ)
    (inside : C.Within C' lift R) (related : R σ τ) :
    (p.embed lift).Along C' (fun τ a => ∃ σ, R σ τ ∧ post σ a) τ := by
  induction p generalizing σ τ with
  | ret value => exact ⟨σ, related, along⟩
  | op o next ih =>
    refine ⟨inside.guar _ _ o related along.1, fun r relied => ?_⟩
    exact ih r (along.2 r (inside.rely o r relied)) (inside.next _ _ o r related)
  | spawn f next ih => exact ⟨inside.start _ _ f related along.1, ih along.2 related⟩
  | jump f => exact inside.tail _ _ f related along

end embed

namespace Prog.Among

variable {exec : World → (o : Op) → Resp o → World → Prop}
  {exec' : World × Data → (o : Op') → Resp' o → World × Data → Prop} {p : Prog Op Resp Fn α}
  {value : α}

/-- Nothing happens to the rest of the world while the program is alone. -/
theorem of_extend {w w' : World × Data} (among : Among (alongside exec exec') Eq w p.extend w' value) :
    Among exec Eq w.1 p w'.1 value ∧ w'.2 = w.2 := by
  induction p generalizing w with
  | ret a =>
    obtain ⟨rfl, rfl⟩ := among.ret_inv
    exact ⟨.ret, rfl⟩
  | op o next ih =>
    obtain ⟨r, w₁, w₂, ⟨done, aside⟩, rfl, later⟩ := among.op_inv
    obtain ⟨rest, same⟩ := ih r later
    exact ⟨.op done rfl rest, same.trans aside⟩
  | spawn f next ih =>
    cases among with
    | spawn later =>
      obtain ⟨rest, same⟩ := ih later
      exact ⟨.spawn rest, same⟩
  | jump f => cases among

theorem extend {w w' : World} (data : Data) (among : Among exec Eq w p w' value) :
    Among (alongside exec exec') Eq (w, data) p.extend (w', data) value := by
  induction among with
  | ret => exact .ret
  | @op w w₁ w₂ w' o next r value done moved rest ih =>
    have here : alongside exec exec' (w, data) (.inl o) r (w₁, data) := ⟨done, rfl⟩
    exact .op here (by rw [moved]) ih
  | spawn rest ih => exact .spawn ih

end Prog.Among

end PatchManager.Conc
