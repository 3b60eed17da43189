import Mathlib.Data.List.Nodup
import Mathlib.Data.List.Sublists

/-! # The head of a stable sort

A stable sort puts first what was the first of the least elements.

Main result: `mem_drop_mergeSort`, which elements are not the head.
-/

namespace PatchManager.Order

variable {α : Type*} {le : α → α → Bool} {l : List α}

/-- Nothing is less, and what is equally small comes after it. -/
structure FirstLeast (le : α → α → Bool) (l : List α) (a : α) : Prop where
  mem : a ∈ l
  least : ∀ b ∈ l, le a b = true
  first : ∀ b ∈ l, b ≠ a → le b a = true → [a, b].Sublist l

theorem pair_sublist_or {a b : α} (memA : a ∈ l) (memB : b ∈ l) (other : b ≠ a) :
    [a, b].Sublist l ∨ [b, a].Sublist l := by
  obtain ⟨before, after, rfl⟩ := List.append_of_mem memA
  have split : b ∈ before ∨ b ∈ after := by simpa [other] using memB
  cases split with
  | inl earlier =>
    exact .inr ((List.singleton_sublist.mpr earlier).append (List.singleton_sublist.mpr List.mem_cons_self))
  | inr later =>
    exact .inl (((List.singleton_sublist.mpr later).cons_cons a).trans (List.sublist_append_right before _))

theorem not_pair_sublist_swap {a b : α} (nodup : l.Nodup) (forth : [a, b].Sublist l) : ¬ [b, a].Sublist l := by
  induction l with
  | nil => cases forth
  | cons c rest ih =>
    obtain ⟨fresh, nodup'⟩ := List.nodup_cons.mp nodup
    intro back
    cases forth with
    | cons _ forth =>
      cases back with
      | cons _ back => exact ih nodup' forth back
      | cons_cons _ _ => exact fresh (forth.subset (by simp))
    | cons_cons _ later =>
      cases back with
      | cons _ back => exact fresh (back.subset (by simp))
      | cons_cons _ _ => exact fresh (later.subset (by simp))

theorem FirstLeast.unique {a b : α} (nodup : l.Nodup) (firstA : FirstLeast le l a) (firstB : FirstLeast le l b) :
    a = b := by
  by_contra other
  have forth := firstA.first b firstB.mem (Ne.symm other) (firstB.least a firstA.mem)
  have back := firstB.first a firstA.mem other (firstA.least b firstB.mem)
  exact not_pair_sublist_swap nodup forth back

theorem firstLeast_map {β : Type*} {f : β → α} {l : List β} (inj : ∀ a ∈ l, ∀ b ∈ l, f a = f b → a = b) {b : β}
    (mem : b ∈ l) : FirstLeast le (l.map f) (f b) ↔ FirstLeast (fun x y => le (f x) (f y)) l b := by
  constructor
  · intro head
    refine ⟨mem, fun x memX => head.least _ (List.mem_map_of_mem memX), fun x memX other same => ?_⟩
    have pair := head.first (f x) (List.mem_map_of_mem memX) (fun eq => other (inj x memX b mem eq)) same
    obtain ⟨m, sub, eq⟩ := List.sublist_map_iff.mp pair
    obtain ⟨c, _, rfl, here, rest⟩ := List.map_eq_cons_iff.mp eq.symm
    obtain ⟨d, _, rfl, next, last⟩ := List.map_eq_cons_iff.mp rest
    obtain rfl := List.map_eq_nil_iff.mp last
    have memC : c ∈ l := sub.subset (by simp)
    have memD : d ∈ l := sub.subset (by simp)
    rwa [inj c memC b mem here, inj d memD x memX next] at sub
  · intro head
    refine ⟨List.mem_map_of_mem mem, ?_, ?_⟩
    · rintro _ there
      obtain ⟨x, memX, rfl⟩ := List.mem_map.mp there
      exact head.least x memX
    · intro _ there other same
      obtain ⟨x, memX, rfl⟩ := List.mem_map.mp there
      exact (head.first x memX (fun eq => other (congrArg f eq)) same).map f

section

variable (trans : ∀ a b c, le a b = true → le b c = true → le a c = true)
  (total : ∀ a b, (le a b || le b a) = true)

include trans total

theorem firstLeast_head (nodup : l.Nodup) {head : α} {rest : List α} (sorted : l.mergeSort le = head :: rest) :
    FirstLeast le l head := by
  have perm := List.mergeSort_perm l le
  have pairwise := List.pairwise_mergeSort trans total l
  rw [sorted] at perm pairwise
  obtain ⟨least, -⟩ := List.pairwise_cons.mp pairwise
  obtain ⟨fresh, -⟩ := List.nodup_cons.mp (perm.nodup_iff.mpr nodup)
  have memHead : head ∈ l := perm.mem_iff.mp List.mem_cons_self
  refine ⟨memHead, fun b mem => ?_, fun b mem other same => ?_⟩
  · obtain rfl | there := List.mem_cons.mp (perm.mem_iff.mpr mem)
    · simpa using total b b
    · exact least b there
  · refine (pair_sublist_or memHead mem other).resolve_right fun earlier => ?_
    -- what is equally small and came before the head would still stand before it
    have kept := List.pair_sublist_mergeSort trans total same earlier
    rw [sorted] at kept
    cases kept with
    | cons _ later => exact fresh (later.subset (by simp))
    | cons_cons _ _ => exact other rfl

theorem exists_firstLeast (nodup : l.Nodup) (nonempty : l ≠ []) : ∃ a, FirstLeast le l a := by
  cases sorted : l.mergeSort le with
  | nil =>
    have perm := List.mergeSort_perm l le
    rw [sorted] at perm
    exact absurd perm.nil_eq.symm nonempty
  | cons head rest => exact ⟨head, firstLeast_head trans total nodup sorted⟩

/-- All but the first of the least elements stand behind the head. -/
theorem mem_drop_mergeSort (nodup : l.Nodup) {a : α} :
    a ∈ (l.mergeSort le).drop 1 ↔ a ∈ l ∧ ¬ FirstLeast le l a := by
  have perm := List.mergeSort_perm l le
  cases sorted : l.mergeSort le with
  | nil =>
    rw [sorted] at perm
    obtain rfl := List.Perm.nil_eq perm
    simp
  | cons head rest =>
    have first := firstLeast_head trans total nodup sorted
    rw [sorted] at perm
    obtain ⟨fresh, -⟩ := List.nodup_cons.mp (perm.nodup_iff.mpr nodup)
    rw [← perm.mem_iff, List.drop_succ_cons, List.drop_zero, List.mem_cons]
    constructor
    · intro mem
      exact ⟨.inr mem, fun least => fresh (first.unique nodup least ▸ mem)⟩
    · rintro ⟨rfl | mem, notFirst⟩
      · exact absurd first notFirst
      · exact mem

end

end PatchManager.Order
