import Mathlib.Data.List.Nodup
import Mathlib.Data.List.Perm.Subperm

/-! # Reading a query's rows page by page

An `ORDER BY` leaves open how rows that tie are ordered, and a query for the next page may order
them otherwise than the query for the page before.

Main results:

* `pages_perm`: where no rows tie across the end of a page, the pages are the rows, each once.
* `separates_of_nodup`: where the pages never repeat a row, no rows tie across the end of a page.
-/

namespace PatchManager.Sql

variable {α : Type}

structure SortOrder (α : Type) where
  le : α → α → Bool
  total : ∀ a b, le a b = true ∨ le b a = true
  trans : ∀ a b c, le a b = true → le b c = true → le a c = true

/-- `DESC` of what is `ASC`. -/
def SortOrder.reverse (o : SortOrder α) : SortOrder α where
  le a b := o.le b a
  total a b := o.total b a
  trans _ _ _ first second := o.trans _ _ _ second first

/-- An order by what is read off the rows. -/
def SortOrder.by {β : Type} (o : SortOrder β) (key : α → β) : SortOrder α where
  le a b := o.le (key a) (key b)
  total _ _ := o.total ..
  trans _ _ _ := o.trans _ _ _

/-- `ORDER BY` with a second expression. -/
def SortOrder.andThen (o o' : SortOrder α) : SortOrder α where
  le a b := o.le a b && (!o.le b a || o'.le a b)
  total a b := by
    rcases o.total a b with le | le <;> rcases o'.total a b with le' | le' <;>
      cases other : o.le b a <;> cases there : o.le a b <;> simp_all
  trans a b c first second := by
    simp only [Bool.and_eq_true, Bool.or_eq_true, Bool.not_eq_eq_eq_not, Bool.not_true] at first second ⊢
    refine ⟨o.trans a b c first.1 second.1, ?_⟩
    cases back : o.le c a with
    | false => exact .inl rfl
    | true =>
      have ba := o.trans b c a second.1 back
      have cb := o.trans c a b back first.1
      simp only [ba, cb, Bool.true_eq_false, false_or] at first second
      exact .inr (o'.trans a b c first.2 second.2)

/-- The rows in one of the orders the database may choose. -/
structure SortOrder.Sorts (o : SortOrder α) (rows l : List α) : Prop where
  perm : l.Perm rows
  sorted : l.Pairwise fun a b => o.le a b = true

theorem SortOrder.sorts_mergeSort (o : SortOrder α) (rows : List α) :
    o.Sorts rows (rows.mergeSort o.le) where
  perm := List.mergeSort_perm rows o.le
  sorted := List.pairwise_mergeSort o.trans (by simpa using o.total) rows

/-- What `LIMIT 1` may give. -/
theorem SortOrder.head_iff (o : SortOrder α) {rows : List α} {a : α} :
    (∃ l, o.Sorts rows l ∧ l.head? = some a) ↔ a ∈ rows ∧ ∀ b ∈ rows, o.le a b = true := by
  constructor
  · rintro ⟨l, sorts, head⟩
    cases l with
    | nil => simp at head
    | cons first rest =>
      obtain rfl : first = a := by simpa using head
      refine ⟨sorts.perm.subset (by simp), fun b mem => ?_⟩
      rcases List.mem_cons.mp (sorts.perm.symm.subset mem) with rfl | later
      · exact (o.total b b).elim id id
      · exact (List.pairwise_cons.mp sorts.sorted).1 b later
  · rintro ⟨mem, least⟩
    classical
    have rest := o.sorts_mergeSort (rows.erase a)
    refine ⟨a :: (rows.erase a).mergeSort o.le, ⟨?_, ?_⟩, rfl⟩
    · exact (rest.perm.cons a).trans (List.perm_cons_erase mem).symm
    · exact List.pairwise_cons.mpr ⟨fun b later => least b (List.mem_of_mem_erase (rest.perm.subset later)), rest.sorted⟩

/-- Page `k`, `LIMIT size OFFSET size * k`. -/
def page (size k : Nat) (l : List α) : List α := (l.drop (size * k)).take size

/-- The first `count` pages, page `k` of the rows in the order chosen for it. -/
def pages (size : Nat) (chosen : Nat → List α) (count : Nat) : List α :=
  (List.range count).flatMap fun k => page size k (chosen k)

theorem pages_succ (size : Nat) (chosen : Nat → List α) (count : Nat) :
    pages size chosen (count + 1) = pages size chosen count ++ page size count (chosen count) := by
  simp [pages, List.range_succ]

theorem pages_prefix (size : Nat) (chosen : Nat → List α) (count more : Nat) :
    pages size chosen count <+: pages size chosen (count + more) := by
  induction more with
  | zero => exact List.prefix_rfl
  | succ more ih =>
    rw [← Nat.add_assoc, pages_succ]
    exact ih.trans (List.prefix_append ..)

theorem take_append_page (size k : Nat) (l : List α) :
    l.take (size * k) ++ page size k l = l.take (size * (k + 1)) := by
  rw [page, Nat.mul_succ, List.take_add]

/-- With one order for all of them, the pages are the rows up to there. -/
theorem pages_same (size : Nat) (l : List α) (count : Nat) :
    pages size (fun _ => l) count = l.take (size * count) := by
  induction count with
  | zero => simp [pages]
  | succ count ih => rw [pages_succ, ih, take_append_page]

/-- Rows on different pages do not tie, whatever order the database chooses. -/
def SortOrder.Separates (o : SortOrder α) (size : Nat) (rows : List α) : Prop :=
  ∀ l, o.Sorts rows l → ∀ k, ∀ a ∈ l.take (size * k), ∀ b ∈ l.drop (size * k), o.le b a = false

section pages

variable {o : SortOrder α} {rows l l' : List α} {size : Nat}

/-- Where the rows do not tie around a position, the same ones come before it in every order. -/
theorem take_perm (nodup : rows.Nodup) (sorts : o.Sorts rows l) (sorts' : o.Sorts rows l') {n : Nat}
    (apart : ∀ a ∈ l.take n, ∀ b ∈ l.drop n, o.le b a = false)
    (apart' : ∀ a ∈ l'.take n, ∀ b ∈ l'.drop n, o.le b a = false) : (l.take n).Perm (l'.take n) := by
  have length : (l.take n).length = (l'.take n).length := by
    simp [sorts.perm.length_eq, sorts'.perm.length_eq]
  have distinct : (l.take n).Nodup := (sorts.perm.nodup_iff.mpr nodup).sublist (List.take_sublist n l)
  have distinct' : (l'.take n).Nodup := (sorts'.perm.nodup_iff.mpr nodup).sublist (List.take_sublist n l')
  have elsewhere {l₁ l₂ : List α} (perm : l₁.Perm l₂) {x : α} (mem : x ∈ l₁.take n)
      (missing : x ∉ l₂.take n) : x ∈ l₂.drop n := by
    have whole : x ∈ l₂.take n ++ l₂.drop n := by
      rw [List.take_append_drop]
      exact perm.subset (List.mem_of_mem_take mem)
    exact (List.mem_append.mp whole).resolve_left missing
  by_cases inside : l.take n ⊆ l'.take n
  · exact (List.subperm_of_subset distinct inside).perm_of_length_le (Nat.le_of_eq length.symm)
  · -- a row that leaves makes room for one that comes, and each of the two is before the other
    obtain ⟨x, here, missing⟩ : ∃ x ∈ l.take n, x ∉ l'.take n := by
      simpa [List.subset_def] using inside
    obtain ⟨y, there, missing'⟩ : ∃ y ∈ l'.take n, y ∉ l.take n := by
      by_contra none
      have subset : l'.take n ⊆ l.take n := fun y mem => by
        by_contra missing'
        exact none ⟨y, mem, missing'⟩
      have perm := (List.subperm_of_subset distinct' subset).perm_of_length_le (Nat.le_of_eq length)
      exact missing (perm.mem_iff.mpr here)
    have perm := sorts.perm.trans sorts'.perm.symm
    have first := apart x here y (elsewhere perm.symm there missing')
    have second := apart' y there x (elsewhere perm here missing)
    rcases o.total x y with le | le
    · simp [le] at second
    · simp [le] at first

theorem pages_perm (nodup : rows.Nodup) (separates : o.Separates size rows) {chosen : Nat → List α}
    (sorts : ∀ k, o.Sorts rows (chosen k)) (count : Nat) :
    (pages size chosen count).Perm ((chosen 0).take (size * count)) := by
  induction count with
  | zero => simp [pages]
  | succ count ih =>
    rw [pages_succ]
    have here : (pages size chosen count).Perm ((chosen count).take (size * count)) :=
      ih.trans (take_perm nodup (sorts 0) (sorts count) (separates _ (sorts 0) count)
        (separates _ (sorts count) count))
    have longer := here.append_right (page size count (chosen count))
    rw [take_append_page] at longer
    exact longer.trans (take_perm nodup (sorts count) (sorts 0) (separates _ (sorts count) _)
      (separates _ (sorts 0) _))

/-- Two neighbours that tie can change places. -/
theorem SortOrder.Sorts.swap {t d : List α} {a b : α} (sorts : o.Sorts rows (t ++ a :: b :: d))
    (tie : o.le b a = true) : o.Sorts rows (t ++ b :: a :: d) where
  perm := ((List.Perm.swap a b d).append_left t).trans sorts.perm
  sorted := by
    have sorted := sorts.sorted
    simp only [List.pairwise_append, List.pairwise_cons, List.mem_cons] at sorted ⊢
    obtain ⟨front, ⟨afterA, afterB, back⟩, across⟩ := sorted
    refine ⟨front, ⟨?_, fun x mem => afterA x (.inr mem), back⟩, ?_⟩
    · rintro x (rfl | mem)
      · exact tie
      · exact afterB x mem
    · rintro x mem y (rfl | rfl | after)
      · exact across x mem y (.inr (.inl rfl))
      · exact across x mem y (.inl rfl)
      · exact across x mem y (.inr (.inr after))

/-- A list around one of its inner positions. -/
theorem exists_neighbours {n : Nat} {x y : α} (before : x ∈ l.take n) (after : y ∈ l.drop n) :
    ∃ t a b d, l = t ++ a :: b :: d ∧ t.length + 1 = n ∧ l.take n = t ++ [a] ∧ l.drop n = b :: d := by
  obtain ⟨t, a, front⟩ : ∃ t a, l.take n = t ++ [a] := by
    rcases List.eq_nil_or_concat (l.take n) with nil | ⟨t, a, eq⟩
    · simp [nil] at before
    · exact ⟨t, a, by simpa using eq⟩
  obtain ⟨b, d, back⟩ : ∃ b d, l.drop n = b :: d := List.exists_cons_of_ne_nil (List.ne_nil_of_mem after)
  have short : n < l.length := by
    have inside := congrArg List.length back
    simp at inside
    omega
  refine ⟨t, a, b, d, ?_, ?_, front, back⟩
  · calc l = l.take n ++ l.drop n := (List.take_append_drop n l).symm
      _ = t ++ a :: b :: d := by simp [front, back]
  · have length := congrArg List.length front
    simp at length
    omega

theorem separates_of_nodup (positive : 0 < size)
    (nodup : ∀ chosen : Nat → List α, (∀ k, o.Sorts rows (chosen k)) →
      ∀ count, (pages size chosen count).Nodup) : o.Separates size rows := by
  intro l sorts k x before y after
  by_contra tie
  obtain ⟨t, a, b, d, rfl, length, front, back⟩ := exists_neighbours before after
  have le : o.le b a = true := by
    have sorted := sorts.sorted
    simp only [List.pairwise_append, List.pairwise_cons, List.mem_cons] at sorted
    obtain ⟨-, ⟨-, afterB, -⟩, across⟩ := sorted
    -- `b ≤ y ≤ x ≤ a`
    have first : o.le b y = true := by
      rw [back] at after
      rcases List.mem_cons.mp after with rfl | later
      · exact (o.total y y).elim id id
      · exact afterB y later
    have last : o.le x a = true := by
      rw [front] at before
      rcases List.mem_append.mp before with earlier | own
      · exact across x earlier a (.inl rfl)
      · obtain rfl := List.mem_singleton.mp own
        exact (o.total x x).elim id id
    exact o.trans _ _ _ first (o.trans _ _ _ (by simpa using tie) last)
  obtain ⟨j, rfl⟩ : ∃ j, k = j + 1 := Nat.exists_eq_succ_of_ne_zero (by rintro rfl; simp at length)
  -- page `j` ends with `a`, and page `j + 1` of the other order begins with it
  have swapped := sorts.swap le
  have distinct := nodup (fun i => if i = j + 1 then t ++ b :: a :: d else t ++ a :: b :: d)
    (fun i => by split <;> assumption) (j + 2)
  rw [pages_succ, pages_succ] at distinct
  have here : a ∈ page size j (t ++ a :: b :: d) := by
    refine List.mem_of_getElem? (i := size - 1) ?_
    have inside : size - 1 < size := by omega
    have position : size * j + (size - 1) = t.length := by
      rw [Nat.mul_succ] at length
      omega
    rw [page, List.getElem?_take_of_lt inside, List.getElem?_drop, position]
    simp
  have there : a ∈ page size (j + 1) (t ++ b :: a :: d) := by
    refine List.mem_of_getElem? (i := 0) ?_
    rw [page, List.getElem?_take_of_lt positive, List.getElem?_drop, Nat.add_zero, ← length]
    simp
  have apart := (List.nodup_append.mp distinct).2.2 a (by simp [here]) a (by simpa using there)
  exact apart rfl

end pages

end PatchManager.Sql
