import PatchManager.Conc.Schedule

/-! # Proof outlines

An outline annotates the ghost states of a contract with what a task in that state may assume
of the world.  It is sound when an operation establishes what its own task assumes next, and
leaves intact what every other task assumes.  What two tasks assume may exclude each other, as
when both are to hold one lock: `apart` says which ghost states two tasks can be in together.

Main result:

* `Run.fits`: in a run of tasks that keep the contract, every task finds what it assumes.
-/

namespace PatchManager.Conc

variable {World Op : Type} {Resp : Op → Type} {Fn : Type}

structure Outline (World : Type) (C : Contract Op Resp Fn) where
  /-- what always holds -/
  inv : World → Prop
  /-- what a task in the ghost state may assume -/
  holds : World → C.State → Prop
  apart : C.State → C.State → Prop

variable {C : Contract Op Resp Fn} {S : Service World Op Resp Fn}

/-- A change of the world from outside breaks no assumption. -/
def Outline.Stable (A : Outline World C) (w w' : World) : Prop :=
  A.inv w → A.inv w' ∧ ∀ σ, A.holds w σ → A.holds w' σ

structure Outline.Sound (A : Outline World C) (S : Service World Op Resp Fn) : Prop where
  symm : ∀ {σ σ'}, A.apart σ σ' → A.apart σ' σ
  idle : ∀ w σ, A.holds w C.idle ∧ A.apart C.idle σ
  init : ∀ f w σ, A.holds w (C.init f) ∧ A.apart (C.init f) σ
  op : ∀ {w w' o a r σ}, A.inv w → A.holds w σ → C.guar σ o → S.execute w o a = some (r, w') →
    A.inv w' ∧ A.holds w' (C.next σ o r) ∧
      ∀ σ', A.apart σ σ' → A.holds w σ' → A.holds w' σ' ∧ A.apart (C.next σ o r) σ'
  change : ∀ w d, A.Stable w (S.change w d)
  restart : ∀ w, A.Stable w (S.restart w)

/-- The tasks find what they assume. -/
structure Outline.Fits (A : Outline World C) (ghost : Nat → C.State) (w : World) : Prop where
  inv : A.inv w
  holds : ∀ tid, A.holds w (ghost tid)
  apart : ∀ tid tid', tid ≠ tid' → A.apart (ghost tid) (ghost tid')

namespace Outline.Fits

variable {A : Outline World C} {ghost : Nat → C.State} {w w' : World} {tid : Nat} {σ : C.State}

theorem stable (fits : A.Fits ghost w) (stable : A.Stable w w') : A.Fits ghost w' where
  inv := (stable fits.inv).1
  holds tid := (stable fits.inv).2 _ (fits.holds tid)
  apart := fits.apart

/-- One task moves to another ghost state. -/
theorem update (symm : ∀ {σ σ'}, A.apart σ σ' → A.apart σ' σ) (fits : A.Fits ghost w) (inv : A.inv w')
    (own : A.holds w' σ) (others : ∀ other, other ≠ tid →
      A.holds w' (ghost other) ∧ A.apart σ (ghost other)) :
    A.Fits (Function.update ghost tid σ) w' where
  inv := inv
  holds other := by
    rcases eq_or_ne other tid with rfl | ne
    · rwa [Function.update_self]
    · rw [Function.update_of_ne ne]
      exact (others other ne).1
  apart first second ne := by
    rcases eq_or_ne first tid with rfl | apart
    · rw [Function.update_self, Function.update_of_ne ne.symm]
      exact (others second ne.symm).2
    · rw [Function.update_of_ne apart]
      rcases eq_or_ne second tid with rfl | apart'
      · rw [Function.update_self]
        exact symm (others first apart).2
      · rw [Function.update_of_ne apart']
        exact fits.apart first second ne

/-- A task that starts, or is over, in a ghost state that assumes nothing. -/
theorem reset (symm : ∀ {σ σ'}, A.apart σ σ' → A.apart σ' σ) (fits : A.Fits ghost w)
    (free : ∀ σ', A.holds w σ ∧ A.apart σ σ') : A.Fits (Function.update ghost tid σ) w :=
  fits.update symm fits.inv (free σ).1 fun other _ => ⟨fits.holds other, (free (ghost other)).2⟩

/-- Some tasks are over. -/
theorem some_idle {ghost' : Nat → C.State} (sound : A.Sound S) (fits : A.Fits ghost w)
    (idle : ∀ tid, ghost' tid = C.idle ∨ ghost' tid = ghost tid) : A.Fits ghost' w where
  inv := fits.inv
  holds tid := by
    rcases idle tid with eq | eq
    · rw [eq]
      exact (sound.idle w C.idle).1
    · rw [eq]
      exact fits.holds tid
  apart first second ne := by
    rcases idle first with eq | eq
    · rw [eq]
      exact (sound.idle w _).2
    · rcases idle second with eq' | eq'
      · rw [eq']
        exact sound.symm (sound.idle w _).2
      · rw [eq, eq']
        exact fits.apart first second ne

end Outline.Fits

variable {A : Outline World C} {s t : Sys World Op Resp Fn}

/-- One step of tasks that keep the contract. -/
theorem Step.fits {l : Label Op Resp Fn} {ghost : Nat → C.State} (step : Step S.machine s l t)
    (sound : A.Sound S) (permitted : C.Guarantees ghost l) (fits : A.Fits ghost s.world) :
    A.Fits (S.machine.ghostStep C ghost ⟨s, l, t⟩) t.world := by
  cases step with
  | @op tid root o next r w at_ done =>
    obtain ⟨a, executed⟩ := done
    obtain ⟨inv, own, others⟩ := sound.op fits.inv (fits.holds tid) permitted executed
    exact fits.update sound.symm inv own fun other ne =>
      others _ (fits.apart tid other ne.symm) (fits.holds other)
  | spawn at_ => exact fits.reset sound.symm (sound.init _ _)
  | enter called =>
    obtain ⟨-, rfl⟩ := called
    exact fits.reset sound.symm (sound.init _ _)
  | jump at_ => exact fits
  | drift moved =>
    obtain ⟨d, rfl⟩ := moved
    exact fits.stable (sound.change _ d)
  | abandon at_ => exact fits.reset sound.symm (sound.idle _)
  | restart =>
    refine (fits.stable (sound.restart s.world)).some_idle sound fun tid => ?_
    simp only [Machine.ghostStep]
    split
    · exact .inl rfl
    · exact .inr rfl

/-- In a run of tasks that keep the contract, every task finds what it assumes. -/
theorem Run.fits {h : List (Event World Op Resp Fn)} (run : Run S.machine s h t)
    (keeps : S.machine.Keeps C) (sound : A.Sound S) (relies : ∀ e ∈ h, C.Relies e.label)
    (along : s.Along C fun _ => C.idle) (start : A.inv s.world) :
    A.Fits (S.machine.ghost C h) t.world := by
  induction run with
  | nil => exact ⟨start, fun _ => (sound.idle _ C.idle).1, fun _ _ _ => (sound.idle s.world _).2⟩
  | @snoc h t u l run step ih =>
    have whole := (run.snoc step).guarantees keeps relies along
    rw [Machine.ghost_snoc]
    exact step.fits sound (whole.2 h ⟨t, l, u⟩ [] rfl) (ih fun e mem => relies e (by simp [mem]))

end PatchManager.Conc
