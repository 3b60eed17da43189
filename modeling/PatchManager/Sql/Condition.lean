import Mathlib.Data.List.Basic

/-! # Conditions put together as text

The text of a `WHERE` clause is read with `AND` binding tighter than `OR`, so what is appended with
`AND` to an alternative belongs to its last part alone.

Main results:

* `eval_allAnd`: what is appended to a condition without alternatives holds together with it.
* `eval_or_allAnd`: what is appended to an alternative holds together with its last part.
-/

namespace PatchManager.Sql

variable {A : Type}

/-- A condition as it is read; `group` is what stands in parentheses. -/
inductive Cond (A : Type) where
  | atom (a : A)
  | not (c : Cond A)
  | and (left right : Cond A)
  | or (left right : Cond A)
  | group (c : Cond A)
deriving DecidableEq

namespace Cond

def eval (holds : A → Bool) : Cond A → Bool
  | atom a => holds a
  | not c => !c.eval holds
  | and left right => left.eval holds && right.eval holds
  | or left right => left.eval holds || right.eval holds
  | group c => c.eval holds

def all (test : A → Bool) : Cond A → Bool
  | atom a => test a
  | not c | group c => c.all test
  | and left right | or left right => left.all test && right.all test

/-- The text of `c`, then `AND`, then that of `d`, which has no alternative outside parentheses. -/
def thenAnd : Cond A → Cond A → Cond A
  | or left right, d => or left (right.thenAnd d)
  | c, d => and c d

/-- The text of `c` with ` AND ..` for each of the others. -/
def allAnd (c : Cond A) (others : List (Cond A)) : Cond A := others.foldl thenAnd c

/-- There is no alternative outside parentheses. -/
def Tight : Cond A → Prop
  | or _ _ => False
  | _ => True

@[simp] theorem tight_atom (a : A) : (atom a).Tight := trivial
@[simp] theorem tight_not (c : Cond A) : (not c).Tight := trivial
@[simp] theorem tight_group (c : Cond A) : (group c).Tight := trivial

variable {holds test : A → Bool} {c d left right : Cond A}

theorem thenAnd_of_tight (tight : c.Tight) : c.thenAnd d = and c d := by
  cases c with
  | or => exact tight.elim
  | _ => rfl

theorem eval_allAnd (tight : c.Tight) (others : List (Cond A)) :
    (c.allAnd others).eval holds = (c.eval holds && others.all (·.eval holds)) := by
  induction others generalizing c with
  | nil => simp [allAnd]
  | cons d others ih =>
    have step := ih (c := c.thenAnd d) (by rw [thenAnd_of_tight tight]; trivial)
    calc (c.allAnd (d :: others)).eval holds
      _ = ((c.thenAnd d).eval holds && others.all (·.eval holds)) := step
      _ = _ := by simp [thenAnd_of_tight tight, eval, Bool.and_assoc]

theorem or_allAnd (others : List (Cond A)) :
    (or left right).allAnd others = or left (right.allAnd others) := by
  induction others generalizing right with
  | nil => rfl
  | cons d others ih => exact ih

theorem eval_or_allAnd (tight : right.Tight) (others : List (Cond A)) :
    ((or left right).allAnd others).eval holds =
      (left.eval holds || (right.eval holds && others.all (·.eval holds))) := by
  rw [or_allAnd, eval, eval_allAnd tight]

@[simp] theorem all_thenAnd : (c.thenAnd d).all test = (c.all test && d.all test) := by
  induction c with
  | or left right _ ih => simp [thenAnd, all, ih, Bool.and_assoc]
  | _ => rfl

@[simp] theorem all_allAnd (others : List (Cond A)) :
    (c.allAnd others).all test = (c.all test && others.all (·.all test)) := by
  induction others generalizing c with
  | nil => simp [allAnd]
  | cons d others ih =>
    calc (c.allAnd (d :: others)).all test
      _ = ((c.thenAnd d).all test && others.all (·.all test)) := ih
      _ = _ := by simp [Bool.and_assoc]

end Cond

end PatchManager.Sql
