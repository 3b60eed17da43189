import Mathlib.Algebra.GroupWithZero.Nat
import Mathlib.Data.List.Dedup
import Mathlib.Data.List.Induction
import Mathlib.Data.List.Perm.Lattice
import Mathlib.Order.Compare

/-! # Grouping by a key

An ordered map from keys to the values that were entered under them, as the list of its entries.

Main results: `perm_ungroup`, nothing is lost and nothing entered twice, `perm_dedup`, the groups
without their repetitions are the entries without theirs, and `group_eq`, a group holds its values in the
order they were entered.
-/

namespace PatchManager.Order

variable {K V : Type*} [Ord K]

/-- Enters a value under its key, behind those that are there. -/
def push (key : K) (value : V) : List (K × List V) → List (K × List V)
  | [] => [(key, [value])]
  | (k, values) :: rest =>
    match compare key k with
    | .lt => (key, [value]) :: (k, values) :: rest
    | .eq => (k, values ++ [value]) :: rest
    | .gt => (k, values) :: push key value rest

/-- The groups of a list, in the order of the keys. -/
def groupByKey (entries : List (V × K)) : List (K × List V) :=
  entries.foldl (fun groups entry => push entry.2 entry.1 groups) []

/-- The entries that the groups were made of. -/
def ungroup (groups : List (K × List V)) : List (V × K) :=
  groups.flatMap fun group => group.2.map fun value => (value, group.1)

/-- The keys increase. -/
def Increasing (groups : List (K × List V)) : Prop :=
  groups.Pairwise fun a b => compare a.1 b.1 = .lt

theorem mem_keys_push {key : K} {value : V} {groups : List (K × List V)} {group : K × List V}
    (mem : group ∈ push key value groups) : group.1 = key ∨ ∃ old ∈ groups, old.1 = group.1 := by
  induction groups with
  | nil =>
    obtain rfl := List.mem_singleton.mp mem
    exact .inl rfl
  | cons old rest ih =>
    obtain ⟨k, values⟩ := old
    unfold push at mem
    cases order : compare key k with
    | lt =>
      simp only [order, List.mem_cons] at mem
      obtain rfl | rfl | there := mem
      · exact .inl rfl
      · exact .inr ⟨(k, values), by simp⟩
      · exact .inr ⟨group, by simp [there]⟩
    | eq =>
      simp only [order, List.mem_cons] at mem
      obtain rfl | there := mem
      · exact .inr ⟨(k, values), by simp⟩
      · exact .inr ⟨group, by simp [there]⟩
    | gt =>
      simp only [order, List.mem_cons] at mem
      obtain rfl | there := mem
      · exact .inr ⟨(k, values), by simp⟩
      · exact (ih there).imp_right fun ⟨old, mem, same⟩ => ⟨old, by simp [mem], same⟩

section

variable [Std.LawfulEqCmp (compare : K → K → Ordering)]

theorem perm_push (key : K) (value : V) (groups : List (K × List V)) :
    (ungroup (push key value groups)).Perm (ungroup groups ++ [(value, key)]) := by
  induction groups with
  | nil => simp [push, ungroup]
  | cons group rest ih =>
    obtain ⟨k, values⟩ := group
    unfold push
    cases order : compare key k with
    | lt =>
      simp only [ungroup, List.flatMap_cons, List.map_cons, List.map_nil]
      exact List.perm_append_comm
    | eq =>
      obtain rfl := Std.LawfulEqCmp.eq_of_compare order
      simp only [ungroup, List.flatMap_cons, List.map_append, List.map_cons, List.map_nil, List.append_assoc]
      exact List.Perm.append_left _ List.perm_append_comm
    | gt =>
      simp only [ungroup, List.flatMap_cons, List.append_assoc]
      exact List.Perm.append_left _ ih

/-- The groups hold what was entered. -/
theorem perm_ungroup (entries : List (V × K)) : (ungroup (groupByKey entries)).Perm entries := by
  have all (groups : List (K × List V)) : (ungroup (entries.foldl
      (fun groups entry => push entry.2 entry.1 groups) groups)).Perm (ungroup groups ++ entries) := by
    induction entries generalizing groups with
    | nil => simp
    | cons entry rest ih =>
      refine (ih _).trans ?_
      refine ((perm_push entry.2 entry.1 groups).append_right rest).trans ?_
      simp
  exact all []

theorem exists_group {entries : List (V × K)} {entry : V × K}
    (mem : entry ∈ entries) : ∃ group ∈ groupByKey entries, group.1 = entry.2 := by
  obtain ⟨group, there, value⟩ := List.mem_flatMap.mp ((perm_ungroup entries).mem_iff.mpr mem)
  obtain ⟨_, -, rfl⟩ := List.mem_map.mp value
  exact ⟨group, there, rfl⟩

theorem length_groups (entries : List (V × K)) :
    ((groupByKey entries).map fun group => group.2.length).sum = entries.length := by
  rw [← (perm_ungroup entries).length_eq, ungroup, List.length_flatMap]
  simp

end

section

variable [Std.TransCmp (compare : K → K → Ordering)]

theorem increasing_push {key : K} {value : V} {groups : List (K × List V)}
    (increasing : Increasing groups) : Increasing (push key value groups) := by
  induction groups with
  | nil => exact List.pairwise_singleton _ _
  | cons old rest ih =>
    obtain ⟨k, values⟩ := old
    obtain ⟨least, sorted⟩ := List.pairwise_cons.mp increasing
    unfold push
    cases order : compare key k with
    | lt =>
      refine List.pairwise_cons.mpr ⟨fun group mem => ?_, increasing⟩
      obtain rfl | there := List.mem_cons.mp mem
      · exact order
      · exact Std.TransCmp.lt_trans order (least group there)
    | eq => exact List.pairwise_cons.mpr ⟨least, sorted⟩
    | gt =>
      refine List.pairwise_cons.mpr ⟨fun group mem => ?_, ih sorted⟩
      obtain same | ⟨old, there, same⟩ := mem_keys_push mem
      · exact same ▸ Std.OrientedCmp.lt_of_gt order
      · exact same ▸ least old there

theorem increasing_groupByKey (entries : List (V × K)) : Increasing (groupByKey entries) := by
  unfold groupByKey
  refine List.foldlRecOn entries _ (motive := Increasing) List.Pairwise.nil ?_
  intro groups increasing entry _
  exact increasing_push increasing

theorem nodup_keys (entries : List (V × K)) : ((groupByKey entries).map Prod.fst).Nodup := by
  refine List.pairwise_map.mpr ((increasing_groupByKey entries).imp ?_)
  intro a b less same
  rw [same, Std.ReflOrd.compare_self] at less
  cases less

/-- What a group holds once a value has been entered. -/
theorem push_values [Std.LawfulEqCmp (compare : K → K → Ordering)] [DecidableEq K] {key : K} {value : V}
    {groups : List (K × List V)} (values : K → List V) (increasing : Increasing groups)
    (all : ∀ group ∈ groups, group.2 = values group.1)
    (fresh : (∀ group ∈ groups, group.1 ≠ key) → values key = []) {group : K × List V}
    (mem : group ∈ push key value groups) :
    group.2 = if group.1 = key then values key ++ [value] else values group.1 := by
  induction groups with
  | nil =>
    obtain rfl := List.mem_singleton.mp mem
    simp [fresh nofun]
  | cons old rest ih =>
    obtain ⟨k, held⟩ := old
    obtain ⟨least, sorted⟩ := List.pairwise_cons.mp increasing
    obtain ⟨here, others⟩ := List.forall_mem_cons.mp all
    unfold push at mem
    cases order : compare key k with
    | lt =>
      -- the key is smaller than all that are there
      have smaller : ∀ group ∈ (k, held) :: rest, compare key group.1 = .lt := by
        intro group mem
        obtain rfl | there := List.mem_cons.mp mem
        · exact order
        · exact Std.TransCmp.lt_trans order (least group there)
      have other : ∀ group ∈ (k, held) :: rest, group.1 ≠ key := by
        intro group mem same
        have less := smaller group mem
        rw [same, Std.ReflOrd.compare_self] at less
        cases less
      simp only [order] at mem
      obtain rfl | there := List.mem_cons.mp mem
      · simp [fresh other]
      · rw [if_neg (other group there), all group there]
    | eq =>
      obtain rfl := Std.LawfulEqCmp.eq_of_compare order
      simp only [order] at mem
      obtain rfl | there := List.mem_cons.mp mem
      · exact (if_pos rfl).symm ▸ congrArg (· ++ [value]) here
      · have other : group.1 ≠ key := by
          intro same
          have less := least group there
          rw [same, Std.ReflOrd.compare_self] at less
          cases less
        rw [if_neg other, others group there]
    | gt =>
      have other : k ≠ key := by
        intro same
        rw [same, Std.ReflOrd.compare_self] at order
        cases order
      simp only [order] at mem
      obtain rfl | there := List.mem_cons.mp mem
      · rw [if_neg other, here]
      · exact ih sorted others (fun none => fresh (List.forall_mem_cons.mpr ⟨other, none⟩)) there

/-- A group holds the values entered under its key, in that order. -/
theorem group_eq [Std.LawfulEqCmp (compare : K → K → Ordering)] [DecidableEq K] {entries : List (V × K)}
    {group : K × List V} (mem : group ∈ groupByKey entries) :
    group.2 = (entries.filter fun entry => entry.2 = group.1).map Prod.fst := by
  induction entries using List.reverseRecOn generalizing group with
  | nil => cases mem
  | append_singleton before entry ih =>
    have grown : groupByKey (before ++ [entry]) = push entry.2 entry.1 (groupByKey before) := List.foldl_append
    rw [grown] at mem
    have fresh (none : ∀ group ∈ groupByKey before, group.1 ≠ entry.2) :
        (before.filter fun e => e.2 = entry.2).map Prod.fst = [] := by
      rw [List.map_eq_nil_iff, List.filter_eq_nil_iff]
      intro e memE same
      obtain ⟨group, there, value⟩ := List.mem_flatMap.mp ((perm_ungroup before).mem_iff.mpr memE)
      obtain ⟨_, -, rfl⟩ := List.mem_map.mp value
      exact none group there (by simpa using same)
    have now := push_values (fun key => (before.filter fun e => e.2 = key).map Prod.fst)
      (increasing_groupByKey before) (fun group there => ih there) fresh mem
    by_cases same : group.1 = entry.2
    · simpa [same] using now
    · simpa [same, Ne.symm same] using now

theorem perm_dedup [Std.LawfulEqCmp (compare : K → K → Ordering)] [DecidableEq K] [DecidableEq V]
    (entries : List (V × K)) :
    ((groupByKey entries).flatMap fun group => group.2.dedup.map fun value => (value, group.1)).Perm
      entries.dedup := by
  have once : ((groupByKey entries).flatMap fun group =>
      group.2.dedup.map fun value => (value, group.1)).Nodup := by
    refine List.nodup_flatMap.mpr ⟨fun group _ => ?_, ?_⟩
    · exact (List.nodup_dedup _).map fun a b same => (Prod.mk.inj same).1
    · refine (List.pairwise_map.mp (nodup_keys entries)).imp fun other => ?_
      intro entry first second
      obtain ⟨_, -, rfl⟩ := List.mem_map.mp first
      obtain ⟨_, -, same⟩ := List.mem_map.mp second
      exact other (Prod.mk.inj same).2.symm
  refine (List.perm_ext_iff_of_nodup once (List.nodup_dedup _)).mpr fun entry => ?_
  rw [List.mem_dedup, ← (perm_ungroup entries).mem_iff, ungroup]
  simp

end

end PatchManager.Order
