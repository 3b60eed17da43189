import Mathlib.Order.Compare
import Mathlib.Data.List.Sort

/-! # Comparing by keys or as texts

Some texts have a key, as the numbers among the parts of a version have their value.  Two that both
have one are compared by their keys, any others as texts, and sequences by the first place where
they differ.  Keys and texts may order two elements differently, and then a text without a key that
is between the two makes the comparison go in a circle.

Main results:

* `Coherent.head_sortDesc`: what is sorted by a comparison that keeps the laws starts with a greatest.
* `coherent_iff`: the laws hold exactly if no text without a key is between two that have one and
  that are in the other order.
-/

namespace PatchManager.Order

/-! ## The laws of a comparison -/

section laws

variable {α : Type*} {cmp : α → α → Ordering}

structure Lawful (cmp : α → α → Ordering) (a b c : α) : Prop where
  swap : cmp a b = (cmp b a).swap
  trans : cmp a b ≠ .gt → cmp b c ≠ .gt → cmp a c ≠ .gt
  alike : cmp a b = .eq → cmp a c = cmp b c

/-- The laws hold among the elements of a list. -/
def Coherent (cmp : α → α → Ordering) (l : List α) : Prop :=
  ∀ a ∈ l, ∀ b ∈ l, ∀ c ∈ l, Lawful cmp a b c

/-- Of a comparison that can be turned around, transitivity is all that is needed. -/
theorem Coherent.of_trans [Std.OrientedCmp cmp] {l : List α}
    (trans : ∀ a ∈ l, ∀ b ∈ l, ∀ c ∈ l, cmp a b ≠ .gt → cmp b c ≠ .gt → cmp a c ≠ .gt) :
    Coherent cmp l := by
  intro a memA b memB c memC
  refine ⟨Std.OrientedCmp.eq_swap, trans a memA b memB c memC, fun same => ?_⟩
  have ab : cmp a b ≠ .gt := by simp [same]
  have ba : cmp b a ≠ .gt := by simp [Std.OrientedCmp.eq_comm.mp same]
  have acb : cmp a c ≠ .gt ↔ cmp b c ≠ .gt :=
    ⟨trans b memB a memA c memC ba, trans a memA b memB c memC ab⟩
  have cab : cmp c a ≠ .gt ↔ cmp c b ≠ .gt :=
    ⟨fun ca => trans c memC a memA b memB ca ab, fun cb => trans c memC b memB a memA cb ba⟩
  have ca : cmp c a = (cmp a c).swap := Std.OrientedCmp.eq_swap
  have cb : cmp c b = (cmp b c).swap := Std.OrientedCmp.eq_swap
  rw [ca, cb] at cab
  revert acb cab
  cases cmp a c <;> cases cmp b c <;> simp

theorem Coherent.subset {l more : List α} (coherent : Coherent cmp more) (sub : l ⊆ more) : Coherent cmp l :=
  fun a memA b memB c memC => coherent a (sub memA) b (sub memB) c (sub memC)

theorem Coherent.self {l : List α} (coherent : Coherent cmp l) {a : α} (mem : a ∈ l) : cmp a a ≠ .gt := by
  have swap := (coherent a mem a mem a mem).swap
  revert swap
  cases cmp a a <;> simp

theorem Coherent.of_gt {l : List α} (coherent : Coherent cmp l) {a b : α} (memA : a ∈ l) (memB : b ∈ l)
    (gt : cmp a b = .gt) : cmp b a ≠ .gt := by
  rw [(coherent b memB a memA a memA).swap, gt]
  simp

/-- Elements are compared by a part of theirs. -/
theorem Coherent.comap {β : Type*} {f : β → α} {l : List β} (coherent : Coherent cmp (l.map f)) :
    Coherent (fun a b => cmp (f a) (f b)) l := by
  intro a memA b memB c memC
  have laws := coherent (f a) (List.mem_map_of_mem memA) (f b) (List.mem_map_of_mem memB) (f c)
    (List.mem_map_of_mem memC)
  exact ⟨laws.swap, laws.trans, laws.alike⟩

/-- Sorted so that the greatest come first. -/
def sortDesc (cmp : α → α → Ordering) (l : List α) : List α := l.mergeSort fun a b => cmp b a != .gt

/-- The elements of a list, of which the laws are known. -/
def descOn (cmp : α → α → Ordering) (l : List α) (a b : {x // x ∈ l}) : Bool := cmp b.1 a.1 != .gt

theorem map_mergeSort_descOn (l : List α) : (l.attach.mergeSort (descOn cmp l)).map (·.1) = sortDesc cmp l := by
  have sorted := List.map_mergeSort (r := descOn cmp l) (s := fun a b => cmp b a != .gt) (f := (·.1)) (l := l.attach)
    fun _ _ _ _ => rfl
  rw [sorted, List.attach_map_subtype_val, sortDesc]

section coherent

variable {l : List α} (coherent : Coherent cmp l)
include coherent

theorem Coherent.descOn_trans (a b c : {x // x ∈ l}) (ab : descOn cmp l a b = true) (bc : descOn cmp l b c = true) :
    descOn cmp l a c = true := by
  simp only [descOn, bne_iff_ne] at ab bc ⊢
  exact (coherent c c.2 b b.2 a a.2).trans bc ab

theorem Coherent.descOn_total (a b : {x // x ∈ l}) : (descOn cmp l a b || descOn cmp l b a) = true := by
  simp only [descOn, Bool.or_eq_true, bne_iff_ne]
  rw [(coherent b b.2 a a.2 a a.2).swap]
  cases cmp a.1 b.1 <;> simp

theorem Coherent.pairwise_sortDesc : (sortDesc cmp l).Pairwise fun a b => cmp b a ≠ .gt := by
  rw [← map_mergeSort_descOn, List.pairwise_map]
  exact (List.pairwise_mergeSort coherent.descOn_trans coherent.descOn_total _).imp fun before => by
    simpa [descOn] using before

/-- Two that are in order already stay in this order. -/
theorem Coherent.pair_sortDesc {a b : α} (pair : [a, b].Sublist l) (le : cmp b a ≠ .gt) :
    [a, b].Sublist (sortDesc cmp l) := by
  have attached : [a, b].Sublist (l.attach.map (·.1)) := by rwa [List.attach_map_subtype_val]
  obtain ⟨on, sub, eq⟩ := List.sublist_map_iff.mp attached
  have inOrder : on.Pairwise fun x y => descOn cmp l x y = true := by
    have ordered : [a, b].Pairwise fun a b => cmp b a ≠ .gt := List.pairwise_pair.mpr le
    rw [eq, List.pairwise_map] at ordered
    exact ordered.imp fun le => by simpa [descOn] using le
  rw [eq, ← map_mergeSort_descOn]
  exact (List.sublist_mergeSort coherent.descOn_trans coherent.descOn_total inOrder sub).map _

/-- The first of a sorted list is greatest. -/
theorem Coherent.head_sortDesc {first : α} (head : (sortDesc cmp l).head? = some first) {a : α} (mem : a ∈ l) : cmp a first ≠ .gt := by
  have pairwise := coherent.pairwise_sortDesc
  have listed : a ∈ sortDesc cmp l := List.mem_mergeSort.mpr mem
  have self : first ∈ l := List.mem_mergeSort.mp (List.mem_of_head? head)
  cases sorted : sortDesc cmp l with
  | nil => simp [sorted] at head
  | cons b rest =>
    rw [sorted] at pairwise listed head
    obtain rfl : b = first := by simpa using head
    rcases List.mem_cons.mp listed with rfl | later
    · exact coherent.self self
    · exact (List.pairwise_cons.mp pairwise).1 a later

end coherent

/-- `sort_by` from the greatest on: those that are alike stay in order, where the comparison keeps
    its laws, and otherwise the order is not specified. -/
structure SortedDesc (cmp : α → α → Ordering) (l sorted : List α) : Prop where
  perm : sorted.Perm l
  stable : Coherent cmp l → sorted = sortDesc cmp l

theorem sortedDesc_sortDesc (l : List α) : SortedDesc cmp l (sortDesc cmp l) :=
  ⟨List.mergeSort_perm l _, fun _ => rfl⟩

theorem not_pair_of_head {l : List α} (nodup : l.Nodup) {a b : α} (head : l.head? = some a) :
    ¬ [b, a].Sublist l := by
  intro pair
  cases l with
  | nil => simp at head
  | cons c rest =>
    obtain rfl : c = a := by simpa using head
    have later : c ∈ rest := by
      cases pair with
      | cons _ within => exact within.subset (by simp)
      | cons_cons _ within => exact within.subset (by simp)
    exact (List.nodup_cons.mp nodup).1 later

theorem pair_or_pair {l : List α} {a b : α} (memA : a ∈ l) (memB : b ∈ l) (differ : a ≠ b) :
    [a, b].Sublist l ∨ [b, a].Sublist l := by
  obtain ⟨before, after, rfl⟩ := List.append_of_mem memA
  rcases List.mem_append.mp memB with mem | mem
  · exact .inr ((List.singleton_sublist.mpr mem).append (List.singleton_sublist.mpr (by simp)))
  · have later : b ∈ after := (List.mem_cons.mp mem).resolve_left differ.symm
    exact .inl (((List.singleton_sublist.mpr later).cons_cons a).trans (List.sublist_append_right ..))

/-- What may come first: a greatest element, none of those alike being before it. -/
theorem sortedDesc_head_iff {l : List α} (nodup : l.Nodup) {a : α} :
    (∃ sorted, SortedDesc cmp l sorted ∧ sorted.head? = some a) ↔
      a ∈ l ∧ (Coherent cmp l → ∀ b ∈ l, cmp b a ≠ .gt ∧ (cmp b a = .eq → ¬ [b, a].Sublist l)) := by
  have nodupSorted : (sortDesc cmp l).Nodup := (List.mergeSort_perm l _).nodup_iff.mpr nodup
  constructor
  · rintro ⟨sorted, sorts, head⟩
    refine ⟨sorts.perm.subset (List.mem_of_head? head), fun coherent b mem => ?_⟩
    rw [sorts.stable coherent] at head
    have memA : a ∈ l := List.mem_mergeSort.mp (List.mem_of_head? head)
    refine ⟨coherent.head_sortDesc head mem, fun alike pair => ?_⟩
    have le : cmp a b ≠ .gt := by simp [(coherent a memA b mem b mem).swap, alike]
    exact not_pair_of_head nodupSorted head (coherent.pair_sortDesc pair le)
  · rintro ⟨mem, first⟩
    by_cases coherent : Coherent cmp l
    · refine ⟨sortDesc cmp l, sortedDesc_sortDesc l, ?_⟩
      cases head : (sortDesc cmp l).head? with
      | none =>
        have listed : a ∈ sortDesc cmp l := List.mem_mergeSort.mpr mem
        simp [List.head?_eq_none_iff.mp head] at listed
      | some b =>
        have memB : b ∈ l := List.mem_mergeSort.mp (List.mem_of_head? head)
        obtain ⟨le, apart⟩ := first coherent b memB
        by_contra differ
        have alike : cmp b a = .eq := by
          have ge := coherent.head_sortDesc head mem
          rw [(coherent a mem b memB b memB).swap] at ge
          revert le ge
          cases cmp b a <;> simp
        have pair : [a, b].Sublist l :=
          (pair_or_pair mem memB fun same => differ (by rw [same])).resolve_right (apart alike)
        exact not_pair_of_head nodupSorted head (coherent.pair_sortDesc pair le)
    · classical
      exact ⟨a :: l.erase a, ⟨(List.perm_cons_erase mem).symm, fun law => absurd law coherent⟩, rfl⟩

end laws

/-! ## Keys and texts -/

section mixed

variable {τ κ : Type*} [LinearOrder τ] [LinearOrder κ] {key : τ → Option κ}

def mixed (key : τ → Option κ) (a b : τ) : Ordering :=
  match key a, key b with
  | some m, some n => compare m n
  | _, _ => compare a b

theorem mixed_keys {a b : τ} {m n : κ} (keyA : key a = some m) (keyB : key b = some n) :
    mixed key a b = compare m n := by
  simp [mixed, keyA, keyB]

theorem mixed_text {a b : τ} (text : key a = none ∨ key b = none) : mixed key a b = compare a b := by
  rcases text with none | none
  · simp [mixed, none]
  · cases keyA : key a <;> simp [mixed, none, keyA]

instance : Std.OrientedCmp (mixed key) where
  eq_swap {a b} := by
    cases keyA : key a with
    | none => rw [mixed_text (.inl keyA), mixed_text (.inr keyA), Std.OrientedOrd.eq_swap]
    | some m =>
      cases keyB : key b with
      | none => rw [mixed_text (.inr keyB), mixed_text (.inl keyB), Std.OrientedOrd.eq_swap]
      | some n => rw [mixed_keys keyA keyB, mixed_keys keyB keyA, Std.OrientedOrd.eq_swap]

/-- What is alike is the same text, or has the same key. -/
theorem mixed_eq_iff {a b : τ} : mixed key a b = .eq ↔ a = b ∨ key a = key b ∧ (key a).isSome := by
  cases keyA : key a with
  | none => simp [mixed_text (.inl keyA)]
  | some m =>
    cases keyB : key b with
    | none => simp [mixed_text (.inr keyB)]
    | some n =>
      have same : a = b → m = n := by
        rintro rfl
        exact Option.some_inj.mp (keyA.symm.trans keyB)
      simpa [mixed_keys keyA keyB, compare_eq_iff_eq] using same

theorem mixed_eq_trans {a b c : τ} (ab : mixed key a b = .eq) (bc : mixed key b c = .eq) :
    mixed key a c = .eq := by
  rw [mixed_eq_iff] at ab bc ⊢
  rcases ab with rfl | ⟨sameAB, some⟩
  · exact bc
  · rcases bc with rfl | ⟨sameBC, -⟩
    · exact .inr ⟨sameAB, some⟩
    · exact .inr ⟨sameAB.trans sameBC, some⟩

/-- A text without a key is between two that have one. -/
structure Between (key : τ → Option κ) (a b c : τ) : Prop where
  keyA : (key a).isSome
  keyB : (key b).isSome
  text : key c = none
  after : b < c
  before : c < a

theorem Between.lt {a b c : τ} (between : Between key a b c) : mixed key b c = .lt ∧ mixed key c a = .lt := by
  rw [mixed_text (.inr between.text), mixed_text (.inl between.text), compare_lt_iff_lt, compare_lt_iff_lt]
  exact ⟨between.after, between.before⟩

/-- One of three that follow one another in a circle is a text between the others. -/
theorem between_of_circle {a b c : τ} (ab : mixed key a b ≠ .gt) (bc : mixed key b c ≠ .gt)
    (ca : mixed key c a ≠ .gt) (differ : ¬ (mixed key a b = .eq ∧ mixed key b c = .eq)) :
    Between key a b c ∨ Between key b c a ∨ Between key c a b := by
  -- with at most one key all are compared as texts
  have texts (textAB : mixed key a b = compare a b) (textBC : mixed key b c = compare b c)
      (textCA : mixed key c a = compare c a) : False := by
    simp only [textAB, textBC, textCA, ne_eq, compare_gt_iff_gt, not_lt] at ab bc ca
    refine differ ⟨?_, ?_⟩
    · rw [textAB, compare_eq_iff_eq]
      exact le_antisymm ab (bc.trans ca)
    · rw [textBC, compare_eq_iff_eq]
      exact le_antisymm bc (ca.trans ab)
  -- with one text alone, it is compared with both of the others
  have one {p q r : τ} {m n : κ} (keyP : key p = some m) (keyQ : key q = some n) (text : key r = none)
      (qr : mixed key q r ≠ .gt) (rp : mixed key r p ≠ .gt) : Between key p q r := by
    rw [mixed_text (.inr text), ne_eq, compare_gt_iff_gt, not_lt] at qr
    rw [mixed_text (.inl text), ne_eq, compare_gt_iff_gt, not_lt] at rp
    refine ⟨by simp [keyP], by simp [keyQ], text, lt_of_le_of_ne qr ?_, lt_of_le_of_ne rp ?_⟩
    · rintro rfl
      simp [keyQ] at text
    · rintro rfl
      simp [keyP] at text
  cases keyA : key a with
  | none =>
    cases keyB : key b with
    | none => exact (texts (mixed_text (.inl keyA)) (mixed_text (.inl keyB)) (mixed_text (.inr keyA))).elim
    | some n =>
      cases keyC : key c with
      | none => exact (texts (mixed_text (.inl keyA)) (mixed_text (.inr keyC)) (mixed_text (.inr keyA))).elim
      | some k => exact .inr (.inl (one keyB keyC keyA ca ab))
  | some m =>
    cases keyB : key b with
    | none =>
      cases keyC : key c with
      | none => exact (texts (mixed_text (.inr keyB)) (mixed_text (.inl keyB)) (mixed_text (.inl keyC))).elim
      | some k => exact .inr (.inr (one keyC keyA keyB ab bc))
    | some n =>
      cases keyC : key c with
      | none => exact .inl (one keyA keyB keyC bc ca)
      | some k =>
        rw [mixed_keys keyA keyB] at ab differ
        rw [mixed_keys keyB keyC] at bc differ
        rw [mixed_keys keyC keyA] at ca
        simp only [ne_eq, compare_gt_iff_gt, not_lt, compare_eq_iff_eq] at ab bc ca differ
        exact absurd ⟨le_antisymm ab (bc.trans ca), le_antisymm bc (ca.trans ab)⟩ differ

end mixed

/-! ## Sequences -/

section sequences

variable {τ : Type*} {cmp : τ → τ → Ordering} {f g : ℕ → τ}

/-- The first parts that are not alike stand in this order. -/
def FirstDiffer (cmp : τ → τ → Ordering) (order : Ordering) (f g : ℕ → τ) : Prop :=
  ∃ i, (∀ j < i, cmp (f j) (g j) = .eq) ∧ cmp (f i) (g i) = order

/-- The loop over the first `n` parts. -/
def byParts (cmp : τ → τ → Ordering) (n : ℕ) (f g : ℕ → τ) : Ordering :=
  (List.range n).foldr (fun i rest => (cmp (f i) (g i)).then rest) .eq

theorem byParts_succ (n : ℕ) :
    byParts cmp (n + 1) f g = (cmp (f 0) (g 0)).then (byParts cmp n (fun i => f (i + 1)) fun i => g (i + 1)) := by
  simp [byParts, List.range_succ_eq_map, List.foldr_map]

theorem byParts_eq_iff {order : Ordering} (differ : order ≠ .eq) {n : ℕ} :
    byParts cmp n f g = order ↔ ∃ i < n, (∀ j < i, cmp (f j) (g j) = .eq) ∧ cmp (f i) (g i) = order := by
  induction n generalizing f g with
  | zero => simpa [byParts] using differ.symm
  | succ n ih =>
    rw [byParts_succ]
    by_cases same : cmp (f 0) (g 0) = .eq
    · rw [same, Ordering.then, ih]
      constructor
      · rintro ⟨i, lt, before, at_⟩
        refine ⟨i + 1, by omega, fun j ltJ => ?_, at_⟩
        cases j with
        | zero => exact same
        | succ j => exact before j (by omega)
      · rintro ⟨i, lt, before, at_⟩
        cases i with
        | zero => exact absurd (at_.symm.trans same) differ
        | succ i => exact ⟨i, by omega, fun j ltJ => before (j + 1) (by omega), at_⟩
    · have first : (cmp (f 0) (g 0)).then (byParts cmp n (fun i => f (i + 1)) fun i => g (i + 1)) =
          cmp (f 0) (g 0) := by
        cases answer : cmp (f 0) (g 0) <;> simp_all
      rw [first]
      constructor
      · exact fun answer => ⟨0, by omega, by simp, answer⟩
      · rintro ⟨i, -, before, at_⟩
        cases i with
        | zero => exact at_
        | succ i => exact absurd (before 0 (by omega)) same

/-- Parts from where on all are alike need not be looked at. -/
theorem byParts_iff {order : Ordering} (differ : order ≠ .eq) {n : ℕ}
    (alike : ∀ i, n ≤ i → cmp (f i) (g i) = .eq) :
    byParts cmp n f g = order ↔ FirstDiffer cmp order f g := by
  rw [byParts_eq_iff differ]
  constructor
  · exact fun ⟨i, _, first⟩ => ⟨i, first⟩
  · rintro ⟨i, first⟩
    have lt : i < n := by
      by_contra ge
      exact differ (first.2.symm.trans (alike i (by omega)))
    exact ⟨i, lt, first⟩

theorem FirstDiffer.swap [Std.OrientedCmp cmp] {order : Ordering} (first : FirstDiffer cmp order f g) :
    FirstDiffer cmp order.swap g f := by
  obtain ⟨i, before, at_⟩ := first
  have swapped : cmp (g i) (f i) = (cmp (f i) (g i)).swap := Std.OrientedCmp.eq_swap
  exact ⟨i, fun j lt => Std.OrientedCmp.eq_comm.mp (before j lt), by rw [swapped, at_]⟩

end sequences

/-! ## Sequences of texts, some with keys -/

section tangled

variable {τ κ : Type*} [LinearOrder τ] [LinearOrder κ] {key : τ → Option κ} {f g h : ℕ → τ} {i : ℕ}

/-- Where three sequences first differ, one has a text between what two others have keys for, and
    the one with the greater text is not the greater. -/
structure Tangled (key : τ → Option κ) (f g h : ℕ → τ) (i : ℕ) : Prop where
  alike : ∀ j < i, mixed key (f j) (g j) = .eq ∧ mixed key (g j) (h j) = .eq
  between : Between key (f i) (g i) (h i)
  ordered : ¬ FirstDiffer (mixed key) .gt f g

theorem Tangled.lt (tangled : Tangled key f g h i) :
    FirstDiffer (mixed key) .lt g h ∧ FirstDiffer (mixed key) .lt h f := by
  refine ⟨⟨i, fun j lt => (tangled.alike j lt).2, tangled.between.lt.1⟩, i, fun j lt => ?_, tangled.between.lt.2⟩
  have fg := (tangled.alike j lt).1
  exact Std.OrientedCmp.eq_comm.mp (mixed_eq_trans fg (tangled.alike j lt).2)

/-- Three sequences that follow one another in a circle are tangled. -/
theorem tangled_of_circle (fg : ¬ FirstDiffer (mixed key) .gt f g) (gh : ¬ FirstDiffer (mixed key) .gt g h)
    (hf : ¬ FirstDiffer (mixed key) .gt h f) (differ : FirstDiffer (mixed key) .lt h f) :
    ∃ i, Tangled key f g h i ∨ Tangled key g h f i ∨ Tangled key h f g i := by
  have some : ∃ i, ¬ (mixed key (f i) (g i) = .eq ∧ mixed key (g i) (h i) = .eq) := by
    obtain ⟨i, -, lt⟩ := differ
    refine ⟨i, fun ⟨fg, gh⟩ => ?_⟩
    rw [Std.OrientedCmp.eq_comm.mp (mixed_eq_trans fg gh)] at lt
    cases lt
  classical
  -- the first place at which not all three are alike
  have alike : ∀ j < Nat.find some, mixed key (f j) (g j) = .eq ∧ mixed key (g j) (h j) = .eq :=
    fun j lt => not_not.mp (Nat.find_min some lt)
  have circle (j : ℕ) (lt : j < Nat.find some) : mixed key (h j) (f j) = .eq :=
    Std.OrientedCmp.eq_comm.mp (mixed_eq_trans (alike j lt).1 (alike j lt).2)
  refine ⟨Nat.find some, ?_⟩
  rcases between_of_circle (fun gt => fg ⟨_, fun j lt => (alike j lt).1, gt⟩)
    (fun gt => gh ⟨_, fun j lt => (alike j lt).2, gt⟩) (fun gt => hf ⟨_, circle, gt⟩)
    (Nat.find_spec some) with between | between | between
  · exact .inl ⟨alike, between, fg⟩
  · exact .inr (.inl ⟨fun j lt => ⟨(alike j lt).2, circle j lt⟩, between, gh⟩)
  · exact .inr (.inr ⟨fun j lt => ⟨circle j lt, (alike j lt).1⟩, between, hf⟩)

variable {α : Type*} {cmp : α → α → Ordering} {parts : α → ℕ → τ}

section parts

variable (means : ∀ a b order, order ≠ .eq →
  (cmp a b = order ↔ FirstDiffer (mixed key) order (parts a) (parts b)))
include means

theorem gt_iff_lt_of_parts (a b : α) : cmp a b = .gt ↔ cmp b a = .lt := by
  rw [means a b .gt (by simp), means b a .lt (by simp)]
  exact ⟨FirstDiffer.swap, FirstDiffer.swap⟩

theorem orientedCmp_of_parts : Std.OrientedCmp cmp := by
  constructor
  intro a b
  have ab := gt_iff_lt_of_parts means a b
  have ba := gt_iff_lt_of_parts means b a
  revert ab ba
  cases cmp a b <;> cases cmp b a <;> simp

/-- What compares equal is alike in all parts. -/
theorem alike_of_parts {a b : α} (same : cmp a b = .eq) (i : ℕ) : mixed key (parts a i) (parts b i) = .eq := by
  classical
  by_contra differ
  have some : ∃ i, mixed key (parts a i) (parts b i) ≠ .eq := ⟨i, differ⟩
  have first := (means a b _ (Nat.find_spec some)).mpr ⟨_, fun j lt => not_not.mp (Nat.find_min some lt), rfl⟩
  exact Nat.find_spec some (first.symm.trans same)

theorem eq_trans_of_parts (a b c : α) (ab : cmp a b = .eq) (bc : cmp b c = .eq) : cmp a c = .eq := by
  by_contra differ
  obtain ⟨i, -, at_⟩ := (means a c _ differ).mp rfl
  exact differ (at_.symm.trans (mixed_eq_trans (alike_of_parts means ab i) (alike_of_parts means bc i)))

end parts

/-- A comparison of parts keeps the laws on a list exactly if no three of its elements are tangled. -/
theorem coherent_iff (means : ∀ a b order, order ≠ .eq →
      (cmp a b = order ↔ FirstDiffer (mixed key) order (parts a) (parts b))) (l : List α) :
    Coherent cmp l ↔ ∀ a ∈ l, ∀ b ∈ l, ∀ c ∈ l, ∀ i, ¬ Tangled key (parts a) (parts b) (parts c) i := by
  have notGt (a b : α) : cmp a b ≠ .gt ↔ ¬ FirstDiffer (mixed key) .gt (parts a) (parts b) :=
    not_congr (means a b .gt (by simp))
  have turned := gt_iff_lt_of_parts means
  constructor
  · intro coherent a memA b memB c memC i tangled
    obtain ⟨bc, ca⟩ := tangled.lt
    have lt : cmp b c = .lt := (means b c .lt (by simp)).mpr bc
    have gt : cmp a c = .gt := (turned a c).mpr ((means c a .lt (by simp)).mpr ca)
    exact (coherent a memA b memB c memC).trans ((notGt a b).mpr tangled.ordered) (by simp [lt]) gt
  · intro untangled
    have := orientedCmp_of_parts means
    refine .of_trans fun a memA b memB c memC ab bc gt => ?_
    have lt : cmp c a = .lt := (turned a c).mp gt
    obtain ⟨i, tangled⟩ := tangled_of_circle ((notGt a b).mp ab) ((notGt b c).mp bc)
      ((notGt c a).mp (by simp [lt])) ((means c a .lt (by simp)).mp lt)
    rcases tangled with tangled | tangled | tangled
    · exact untangled a memA b memB c memC i tangled
    · exact untangled b memB c memC a memA i tangled
    · exact untangled c memC a memA b memB i tangled

end tangled

end PatchManager.Order
