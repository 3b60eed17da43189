import Mathlib.Data.List.Induction
import Mathlib.Data.List.Perm.Basic
import Mathlib.Order.Compare

/-! # The best of a list in one pass

Going through a list and holding on to the best element so far finds a greatest one, when the
comparison is an order.  When it may go in a circle, what is found depends on the order the elements
come in.

Main result: `pass_greatest_iff`, exactly when a greatest element is found whatever that order is.
-/

namespace PatchManager.Order

variable {α : Type*} {cmp : α → α → Ordering}

/-- The first element, or one that is better than what has been held. -/
def better (cmp : α → α → Ordering) (held : Option α) (a : α) : Option α :=
  match held with
  | some b => if cmp a b = .gt then some a else some b
  | none => some a

theorem better_of_gt {a b : α} (gt : cmp a b = .gt) : better cmp (some b) a = some a := if_pos gt

theorem better_of_not_gt {a b : α} (gt : cmp a b ≠ .gt) : better cmp (some b) a = some b := if_neg gt

def pass (cmp : α → α → Ordering) (l : List α) : Option α := l.foldl (better cmp) none

/-- Nothing in the list is better. -/
def Greatest (cmp : α → α → Ordering) (l : List α) (a : α) : Prop := ∀ b ∈ l, cmp b a ≠ .gt

/-- Some element is greatest, and so is every one that compares equal to it. -/
def Settled (cmp : α → α → Ordering) (l : List α) : Prop :=
  ∃ a ∈ l, ∀ b ∈ l, cmp b a = .eq → Greatest cmp l b

theorem pass_append (l more : List α) : pass cmp (l ++ more) = more.foldl (better cmp) (pass cmp l) :=
  List.foldl_append

theorem pass_map {β : Type*} (f : β → α) (l : List β) :
    pass cmp (l.map f) = (pass (fun a b => cmp (f a) (f b)) l).map f := by
  induction l using List.reverseRecOn with
  | nil => rfl
  | append_singleton before a ih =>
    rw [List.map_append, pass_append, pass_append, ih]
    cases pass (fun a b => cmp (f a) (f b)) before with
    | none => rfl
    | some held => by_cases gt : cmp (f a) (f held) = .gt <;> simp [better, gt]

theorem pass_isSome {l : List α} (nonempty : l ≠ []) : ∃ a, pass cmp l = some a := by
  induction l using List.reverseRecOn with
  | nil => exact absurd rfl nonempty
  | append_singleton before a _ =>
    rw [pass_append]
    cases pass cmp before with
    | none => exact ⟨a, rfl⟩
    | some held =>
      by_cases gt : cmp a held = .gt
      · exact ⟨a, by simp [better, gt]⟩
      · exact ⟨held, by simp [better, gt]⟩

theorem mem_of_pass {l : List α} {a : α} (found : pass cmp l = some a) : a ∈ l := by
  induction l using List.reverseRecOn generalizing a with
  | nil => cases found
  | append_singleton before b ih =>
    rw [pass_append] at found
    cases held : pass cmp before with
    | none =>
      rw [held] at found
      cases found
      simp
    | some c =>
      rw [held] at found
      simp only [List.foldl_cons, List.foldl_nil, better] at found
      split at found <;> cases found
      · simp
      · simp [ih held]

/-- Nothing replaces a greatest element. -/
theorem foldl_of_greatest {all l : List α} {a : α} (greatest : Greatest cmp all a) (sub : l ⊆ all) :
    l.foldl (better cmp) (some a) = some a := by
  induction l with
  | nil => rfl
  | cons b rest ih =>
    obtain ⟨mem, others⟩ := List.cons_subset.mp sub
    rw [List.foldl_cons, better_of_not_gt (greatest b mem)]
    exact ih others

/-- What is held stays as good as `x` while only elements like it come. -/
theorem foldl_of_alike {l : List α} {x : α} (alike : ∀ b ∈ l, cmp b x = .eq) :
    l.foldl (better cmp) (some x) = some x := by
  induction l with
  | nil => rfl
  | cons b rest ih =>
    obtain ⟨same, others⟩ := List.forall_mem_cons.mp alike
    rw [List.foldl_cons, better_of_not_gt (by simp [same])]
    exact ih others

theorem foldl_not_greatest {all l : List α} {x : α} (start : ¬ Greatest cmp all x)
    (others : ∀ b ∈ l, ¬ Greatest cmp all b) :
    ∃ found, l.foldl (better cmp) (some x) = some found ∧ ¬ Greatest cmp all found := by
  induction l generalizing x with
  | nil => exact ⟨x, rfl, start⟩
  | cons b rest ih =>
    obtain ⟨first, later⟩ := List.forall_mem_cons.mp others
    rw [List.foldl_cons, better]
    split
    · exact ih first later
    · exact ih start later

/-- An order of what is chosen is one in which the elements can come. -/
theorem exists_perm_filterMap {β : Type*} {f : β → Option α} {l : List β} {l' : List α}
    (perm : l'.Perm (l.filterMap f)) : ∃ m : List β, m.Perm l ∧ m.filterMap f = l' := by
  induction l generalizing l' with
  | nil =>
    obtain rfl := List.Perm.eq_nil perm
    exact ⟨[], .refl _, rfl⟩
  | cons b rest ih =>
    cases chosen : f b with
    | none =>
      rw [List.filterMap_cons_none chosen] at perm
      obtain ⟨m, same, rfl⟩ := ih perm
      exact ⟨b :: m, same.cons b, List.filterMap_cons_none chosen⟩
    | some a =>
      rw [List.filterMap_cons_some chosen] at perm
      obtain ⟨before, after, rfl⟩ := List.append_of_mem (perm.mem_iff.mpr List.mem_cons_self)
      obtain ⟨m, same, split⟩ := ih (List.perm_middle.symm.trans perm).cons_inv
      obtain ⟨m₁, m₂, rfl, first, second⟩ := List.filterMap_eq_append_iff.mp split
      refine ⟨m₁ ++ b :: m₂, List.perm_middle.trans (same.cons b), ?_⟩
      rw [List.filterMap_append, List.filterMap_cons_some chosen, first, second]

section

variable [Std.OrientedCmp cmp]

theorem cmp_self (a : α) : cmp a a = .eq := by
  have swap : cmp a a = (cmp a a).swap := Std.OrientedCmp.eq_swap
  revert swap
  cases cmp a a <;> simp

/-- The pass finds a greatest element, in whatever order the list comes. -/
theorem greatest_of_pass {l : List α} (settled : Settled cmp l) {found : α} (eq : pass cmp l = some found) :
    Greatest cmp l found := by
  obtain ⟨a, mem, alike⟩ := settled
  obtain ⟨before, after, split⟩ := List.append_of_mem mem
  -- once the pass has come to `a`, it holds a greatest element
  have holds : ∃ b ∈ l, Greatest cmp l b ∧ pass cmp (before ++ [a]) = some b := by
    rw [pass_append]
    cases held : pass cmp before with
    | none => exact ⟨a, mem, alike a mem (cmp_self a), rfl⟩
    | some b =>
      have memB : b ∈ l := by
        rw [split]
        simp [mem_of_pass held]
      by_cases gt : cmp a b = .gt
      · exact ⟨a, mem, alike a mem (cmp_self a), by simp [better, gt]⟩
      · refine ⟨b, memB, alike b memB ?_, by simp [better, gt]⟩
        have le := alike a mem (cmp_self a) b memB
        have swap : cmp a b = (cmp b a).swap := Std.OrientedCmp.eq_swap
        rw [swap] at gt
        revert le gt
        cases cmp b a <;> simp
  obtain ⟨b, memB, greatest, held⟩ := holds
  have whole : l = (before ++ [a]) ++ after := by rw [split]; simp
  have kept := foldl_of_greatest greatest (l := after) fun c mem => by rw [split]; simp [mem]
  have last : pass cmp l = some b := by
    rw [whole, pass_append, held]
    exact kept
  rw [last] at eq
  cases eq
  exact greatest

theorem eq_of_greatest {l : List α} {a b : α} (memA : a ∈ l) (memB : b ∈ l) (greatestA : Greatest cmp l a)
    (greatestB : Greatest cmp l b) : cmp b a = .eq := by
  have notLess := greatestB a memA
  have notMore := greatestA b memB
  have swap : cmp a b = (cmp b a).swap := Std.OrientedCmp.eq_swap
  rw [swap] at notLess
  revert notLess notMore
  cases cmp b a <;> simp

/-- An order in which the pass goes wrong: first what is only as good as the greatest elements, then
    those, then the others. -/
theorem exists_pass_not_greatest (transEq : ∀ a b c, cmp a b = .eq → cmp b c = .eq → cmp a c = .eq)
    {l : List α} (nonempty : l ≠ []) (unsettled : ¬ Settled cmp l) :
    ∃ l' found, l'.Perm l ∧ pass cmp l' = some found ∧ ¬ Greatest cmp l found := by
  classical
  by_cases none : ∀ a ∈ l, ¬ Greatest cmp l a
  · obtain ⟨found, eq⟩ := pass_isSome nonempty
    exact ⟨l, found, .refl l, eq, none found (mem_of_pass eq)⟩
  · obtain ⟨a, mem, greatest⟩ : ∃ a ∈ l, Greatest cmp l a := by simpa using none
    obtain ⟨x, memX, alike, worse⟩ : ∃ x ∈ l, cmp x a = .eq ∧ ¬ Greatest cmp l x := by
      by_contra all
      refine unsettled ⟨a, mem, fun b memB same => ?_⟩
      by_contra worse
      exact all ⟨b, memB, same, worse⟩
    obtain ⟨before, after, split⟩ := List.append_of_mem memX
    let rest := before ++ after
    have sub : rest ⊆ l := by
      intro b memB
      rw [split]
      rcases List.mem_append.mp memB with old | new
      · simp [old]
      · simp [new]
    have best : (rest.filter fun b => Greatest cmp l b).foldl (better cmp) (some x) = some x := by
      refine foldl_of_alike fun b memB => ?_
      obtain ⟨there, greatestB⟩ := List.mem_filter.mp memB
      have sameA := eq_of_greatest mem (sub there) greatest (by simpa using greatestB)
      exact transEq b a x sameA (Std.OrientedCmp.eq_comm.mp alike)
    obtain ⟨found, last, notGreatest⟩ := foldl_not_greatest (l := rest.filter fun b => !decide (Greatest cmp l b))
      worse fun b memB => by simpa using (List.mem_filter.mp memB).2
    refine ⟨x :: (rest.filter (fun b => Greatest cmp l b) ++ rest.filter fun b => !decide (Greatest cmp l b)),
      found, ?_, ?_, notGreatest⟩
    · rw [split]
      exact ((List.filter_append_perm _ rest).cons x).trans List.perm_middle.symm
    · rw [pass, List.foldl_cons, List.foldl_append, better, best]
      exact last

theorem pass_greatest_iff (transEq : ∀ a b c, cmp a b = .eq → cmp b c = .eq → cmp a c = .eq) {l : List α}
    (nonempty : l ≠ []) :
    (∀ l' found, l'.Perm l → pass cmp l' = some found → Greatest cmp l found) ↔ Settled cmp l := by
  constructor
  · intro all
    by_contra unsettled
    obtain ⟨l', found, perm, eq, worse⟩ := exists_pass_not_greatest transEq nonempty unsettled
    exact worse (all l' found perm eq)
  · intro settled l' found perm eq b mem
    obtain ⟨a, memA, alike⟩ := settled
    have settled' : Settled cmp l' :=
      ⟨a, perm.mem_iff.mpr memA, fun c memC same d memD =>
        alike c (perm.mem_iff.mp memC) same d (perm.mem_iff.mp memD)⟩
    exact greatest_of_pass settled' eq b (perm.mem_iff.mpr mem)

end

end PatchManager.Order
