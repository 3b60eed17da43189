import Mathlib.Data.List.Basic

/-! # Systems that handle one event at a time

Where one thread runs every handler to its end before the next event, a run is a list of
events and the handler is a function of the state and the event.  `handling` keeps each
event with the states before and after it.

Main results:

* `handling_preserves`: what each event of a run keeps holds in all of its states.
* `handling_until`: what holds after one event and is kept by the events between still holds
  before a later one.
-/

namespace PatchManager.Conc

variable {S E : Type}

/-- One event of a run. -/
structure Handled (S E : Type) where
  pre : S
  event : E
  post : S
deriving DecidableEq

variable (handle : S → E → S)

/-- The events of a run from `s`, oldest first. -/
def handling (s : S) : List E → List (Handled S E)
  | [] => []
  | e :: es => ⟨s, e, handle s e⟩ :: handling (handle s e) es

variable {handle} {s : S} {es : List E}

@[simp] theorem handling_nil : handling handle s [] = [] := rfl

@[simp] theorem handling_cons {e : E} :
    handling handle s (e :: es) = ⟨s, e, handle s e⟩ :: handling handle (handle s e) es := rfl

/-- The run around one of its events. -/
theorem handling_split {h₁ h₂ : List (Handled S E)} {a : Handled S E}
    (eq : handling handle s es = h₁ ++ a :: h₂) :
    a.post = handle a.pre a.event ∧ ∃ later, h₂ = handling handle a.post later := by
  induction es generalizing s h₁ with
  | nil => simp at eq
  | cons e es ih =>
    cases h₁ with
    | nil =>
      obtain ⟨rfl, rfl⟩ := List.cons.inj eq
      exact ⟨rfl, es, rfl⟩
    | cons b h₁ => exact ih (List.cons.inj eq).2

theorem handling_post {a : Handled S E} (mem : a ∈ handling handle s es) :
    a.post = handle a.pre a.event := by
  obtain ⟨h₁, h₂, eq⟩ := List.append_of_mem mem
  exact (handling_split eq).1

/-- The invariant rule. -/
theorem handling_preserves {I : S → Prop} (start : I s)
    (keeps : ∀ a ∈ handling handle s es, I a.pre → I (handle a.pre a.event)) :
    ∀ a ∈ handling handle s es, I a.pre ∧ I a.post := by
  induction es generalizing s with
  | nil => simp
  | cons e es ih =>
    have next : I (handle s e) := keeps _ (List.mem_cons_self ..) start
    intro a mem
    rcases List.mem_cons.mp mem with rfl | later
    · exact ⟨start, next⟩
    · exact ih next (fun a mem => keeps a (List.mem_cons_of_mem _ mem)) a later

/-- What holds after an event lasts as long as the events that follow keep it. -/
theorem handling_until {I : S → Prop} {h₁ h₂ h₃ : List (Handled S E)} {a b : Handled S E}
    (eq : handling handle s es = h₁ ++ a :: (h₂ ++ b :: h₃)) (holds : I a.post)
    (keeps : ∀ c ∈ h₂, I c.pre → I (handle c.pre c.event)) : I b.pre := by
  obtain ⟨-, later, rest⟩ := handling_split eq
  clear eq
  -- the run from the state after `a`, one event of `h₂` at a time
  induction h₂ generalizing later a with
  | nil =>
    cases later with
    | nil => simp at rest
    | cons e later => rwa [(List.cons.inj rest).1]
  | cons c h₂ ih =>
    cases later with
    | nil => simp at rest
    | cons e later =>
      obtain ⟨rfl, tail⟩ := List.cons.inj rest
      exact ih (a := ⟨a.post, e, handle a.post e⟩) (keeps _ (List.mem_cons_self ..) holds)
        (fun c mem => keeps c (List.mem_cons_of_mem _ mem)) later tail

end PatchManager.Conc
