import Mathlib.Data.List.Nodup
import Mathlib.Order.Compare

/-! # Ordered maps

A map from ordered keys as the list of its entries: putting a value replaces what stands under its key.

Main results: `get_put_self` and `get_put_of_ne`, what is found after a value has been put, and
`mem_iff_get`, the entries are what can be found.
-/

namespace PatchManager.Order

variable {K V : Type*} [Ord K]

/-- The entries of a map. -/
abbrev OrderedMap (K V : Type*) := List (K × V)

namespace OrderedMap

def put (key : K) (value : V) : OrderedMap K V → OrderedMap K V
  | [] => [(key, value)]
  | (k, v) :: rest =>
    match compare key k with
    | .lt => (key, value) :: (k, v) :: rest
    | .eq => (key, value) :: rest
    | .gt => (k, v) :: put key value rest

def get (key : K) : OrderedMap K V → Option V
  | [] => none
  | (k, v) :: rest => if compare key k = .eq then some v else get key rest

/-- The keys increase. -/
def Increasing (entries : OrderedMap K V) : Prop := entries.Pairwise fun a b => compare a.1 b.1 = .lt

theorem mem_put {key : K} {value : V} {entries : OrderedMap K V} {entry : K × V}
    (mem : entry ∈ put key value entries) : entry = (key, value) ∨ entry ∈ entries := by
  induction entries with
  | nil => exact .inl (List.mem_singleton.mp mem)
  | cons old rest ih =>
    obtain ⟨k, v⟩ := old
    unfold put at mem
    cases order : compare key k with
    | lt =>
      simp only [order, List.mem_cons] at mem ⊢
      exact mem
    | eq =>
      simp only [order, List.mem_cons] at mem ⊢
      exact mem.imp_right .inr
    | gt =>
      simp only [order, List.mem_cons] at mem ⊢
      obtain rfl | mem := mem
      · exact .inr (.inl rfl)
      · exact (ih mem).imp_right .inr

section

variable [Std.LawfulEqCmp (compare : K → K → Ordering)]

theorem get_put_self (key : K) (value : V) (entries : OrderedMap K V) :
    get key (put key value entries) = some value := by
  induction entries with
  | nil => simp [put, get, Std.ReflCmp.compare_self]
  | cons old rest ih =>
    obtain ⟨k, v⟩ := old
    unfold put
    cases order : compare key k with
    | lt => simp [get, Std.ReflCmp.compare_self]
    | eq => simp [get, Std.ReflCmp.compare_self]
    | gt => simpa [get, order] using ih

theorem get_put_of_ne {key other : K} (ne : other ≠ key) (value : V) (entries : OrderedMap K V) :
    get other (put key value entries) = get other entries := by
  have apart : compare other key ≠ .eq := fun same => ne (Std.LawfulEqCmp.eq_of_compare same)
  induction entries with
  | nil => simp [put, get, apart]
  | cons old rest ih =>
    obtain ⟨k, v⟩ := old
    unfold put
    cases order : compare key k with
    | lt => simp [get, apart]
    | eq =>
      obtain rfl := Std.LawfulEqCmp.eq_of_compare order
      simp [get, apart]
    | gt => simp [get, ih]

theorem mem_of_get {key : K} {value : V} {entries : OrderedMap K V} (found : get key entries = some value) :
    (key, value) ∈ entries := by
  induction entries with
  | nil => cases found
  | cons old rest ih =>
    obtain ⟨k, v⟩ := old
    unfold get at found
    split at found
    · rename_i same
      obtain rfl := Std.LawfulEqCmp.eq_of_compare same
      cases found
      exact List.mem_cons_self
    · exact List.mem_cons_of_mem _ (ih found)

end

section

variable [Std.TransCmp (compare : K → K → Ordering)]

theorem Increasing.put {key : K} {value : V} {entries : OrderedMap K V} (increasing : Increasing entries) :
    Increasing (OrderedMap.put key value entries) := by
  induction entries with
  | nil => exact List.pairwise_singleton _ _
  | cons old rest ih =>
    obtain ⟨k, v⟩ := old
    obtain ⟨least, sorted⟩ := List.pairwise_cons.mp increasing
    unfold OrderedMap.put
    cases order : compare key k with
    | lt =>
      refine List.pairwise_cons.mpr ⟨fun entry mem => ?_, increasing⟩
      obtain rfl | there := List.mem_cons.mp mem
      · exact order
      · exact Std.TransCmp.lt_trans order (least entry there)
    | eq =>
      refine List.pairwise_cons.mpr ⟨fun entry mem => ?_, sorted⟩
      exact Std.TransCmp.lt_of_eq_of_lt order (least entry mem)
    | gt =>
      refine List.pairwise_cons.mpr ⟨fun entry mem => ?_, ih sorted⟩
      obtain rfl | there := mem_put mem
      · exact Std.OrientedCmp.lt_of_gt order
      · exact least entry there

/-- A key behind all others is put at the end. -/
theorem put_last {key : K} {value : V} {entries : OrderedMap K V} (greatest : ∀ e ∈ entries, compare e.1 key = .lt) :
    OrderedMap.put key value entries = entries ++ [(key, value)] := by
  induction entries with
  | nil => rfl
  | cons old rest ih =>
    obtain ⟨k, v⟩ := old
    obtain ⟨first, others⟩ := List.forall_mem_cons.mp greatest
    have after : compare key k = .gt := Std.OrientedCmp.gt_of_lt first
    simp only [OrderedMap.put, after, ih others, List.cons_append]

/-- Increasing entries are put in one after the other. -/
theorem foldl_put {before entries : OrderedMap K V} (increasing : Increasing (before ++ entries)) :
    entries.foldl (fun map e => OrderedMap.put e.1 e.2 map) before = before ++ entries := by
  induction entries generalizing before with
  | nil => exact (List.append_nil before).symm
  | cons e rest ih =>
    have greatest : ∀ x ∈ before, compare x.1 e.1 = .lt := fun x mem =>
      (List.pairwise_append.mp increasing).2.2 x mem e List.mem_cons_self
    rw [List.foldl_cons, put_last greatest, ih (by simpa using increasing), List.append_assoc, List.singleton_append]

theorem Increasing.nodup {entries : OrderedMap K V} (increasing : Increasing entries) :
    (entries.map Prod.fst).Nodup := by
  refine List.pairwise_map.mpr (increasing.imp ?_)
  intro a b less same
  rw [same, Std.ReflOrd.compare_self] at less
  cases less

theorem Increasing.mem_iff_get [Std.LawfulEqCmp (compare : K → K → Ordering)] {key : K} {value : V}
    {entries : OrderedMap K V} (increasing : Increasing entries) :
    (key, value) ∈ entries ↔ get key entries = some value := by
  refine ⟨fun mem => ?_, mem_of_get⟩
  induction entries with
  | nil => cases mem
  | cons old rest ih =>
    obtain ⟨k, v⟩ := old
    obtain ⟨least, sorted⟩ := List.pairwise_cons.mp increasing
    obtain eq | there := List.mem_cons.mp mem
    · cases eq
      simp [get, Std.ReflOrd.compare_self]
    · have after : compare key k = .gt := Std.OrientedCmp.gt_of_lt (least _ there)
      simpa [get, after] using ih sorted there

end

end OrderedMap

end PatchManager.Order
