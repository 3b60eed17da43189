import Mathlib.Data.List.Nodup

/-! # Tables as lists of rows

A table is the list of its rows.  `Update` is one `UPDATE .. SET .. WHERE ..`
statement: every row that meets the condition is replaced by its assignment, all
others stay.  The lemmas say how lookup by key, row counts and the affected-row count
see an update.
-/

namespace PatchManager.Sql

variable {Row Key Column : Type}

/-- One `UPDATE` statement. -/
structure Update (Row : Type) where
  /-- the `WHERE` clause -/
  cond : Row → Bool
  /-- the `SET` clause -/
  assign : Row → Row

namespace Update

variable (u : Update Row)

def onRow (r : Row) : Row := if u.cond r then u.assign r else r

def apply (rows : List Row) : List Row := rows.map u.onRow

/-- The affected-row count the database reports. -/
def affected (rows : List Row) : Nat := rows.countP u.cond

/-- The statement leaves the column `f` of every row as it is. -/
def Keeps (f : Row → Column) : Prop := ∀ r, u.cond r = true → f (u.assign r) = f r

variable {u}

theorem onRow_eq_assign {r : Row} (met : u.cond r = true) : u.onRow r = u.assign r := if_pos met

theorem onRow_eq_self {r : Row} (unmet : u.cond r = false) : u.onRow r = r := by
  simp [onRow, unmet]

theorem Keeps.onRow {f : Row → Column} (keeps : u.Keeps f) (r : Row) : f (u.onRow r) = f r := by
  unfold Update.onRow
  split
  · exact keeps r (by assumption)
  · rfl

theorem mem_apply {rows : List Row} {r : Row} :
    r ∈ u.apply rows ↔ ∃ r₀ ∈ rows, u.onRow r₀ = r := List.mem_map

theorem affected_eq_zero {rows : List Row} :
    u.affected rows = 0 ↔ ∀ r ∈ rows, u.cond r = false := by
  simp [affected, List.countP_eq_zero]

end Update

/-- An update of the row with one key, where no two rows have it. -/
theorem map_if_key [DecidableEq Key] {key : Row → Key} {f : Row → Row} {before after : List Row}
    {row : Row} (nodup : ((before ++ row :: after).map key).Nodup) :
    (before ++ row :: after).map (fun r => if key r = key row then f r else r) =
      before ++ f row :: after := by
  have others : ∀ rows : List Row, (∀ r ∈ rows, key r ≠ key row) →
      rows.map (fun r => if key r = key row then f r else r) = rows := by
    intro rows ne
    exact (List.map_congr_left fun r mem => if_neg (ne r mem)).trans (List.map_id _)
  rw [List.map_append, List.map_cons, List.nodup_append, List.nodup_cons] at nodup
  obtain ⟨-, ⟨later, -⟩, earlier⟩ := nodup
  have first : ∀ r ∈ before, key r ≠ key row := fun r mem =>
    earlier _ (List.mem_map_of_mem mem) _ List.mem_cons_self
  have last : ∀ r ∈ after, key r ≠ key row := fun r mem same =>
    later (same ▸ List.mem_map_of_mem mem)
  rw [List.map_append, List.map_cons, if_pos rfl, others before first, others after last]

/-- A row decoded from a list of rows comes from one of them. -/
theorem mem_of_mapM {Decoded : Type} {decode : Row → Option Decoded} {rows : List Row}
    {decoded : List Decoded} {d : Decoded} (eq : rows.mapM decode = some decoded)
    (mem : d ∈ decoded) : ∃ r ∈ rows, decode r = some d := by
  induction rows generalizing decoded with
  | nil => cases eq; cases mem
  | cons r rows ih =>
    simp only [List.mapM_cons, bind, Option.bind_eq_some_iff, pure, Option.some.injEq] at eq
    obtain ⟨first, head, rest, tail, rfl⟩ := eq
    rcases List.mem_cons.mp mem with rfl | later
    · exact ⟨r, List.mem_cons_self, head⟩
    · obtain ⟨r', mem', eq'⟩ := ih tail later
      exact ⟨r', List.mem_cons_of_mem _ mem', eq'⟩

/-- The same for a decoder that says what is wrong. -/
theorem mem_of_mapM_ok {Decoded Error : Type} {decode : Row → Except Error Decoded} {rows : List Row}
    {decoded : List Decoded} {d : Decoded} (eq : rows.mapM decode = .ok decoded)
    (mem : d ∈ decoded) : ∃ r ∈ rows, decode r = .ok d := by
  induction rows generalizing decoded with
  | nil => cases eq; cases mem
  | cons r rows ih =>
    rw [List.mapM_cons] at eq
    cases head : decode r with
    | error reason => rw [head] at eq; cases eq
    | ok first =>
      cases tail : rows.mapM decode with
      | error reason => rw [head, tail] at eq; cases eq
      | ok rest =>
        rw [head, tail] at eq
        cases eq
        rcases List.mem_cons.mp mem with rfl | later
        · exact ⟨r, List.mem_cons_self, head⟩
        · obtain ⟨r', mem', eq'⟩ := ih tail later
          exact ⟨r', List.mem_cons_of_mem _ mem', eq'⟩

/-- The row with key `k`. -/
def lookup [BEq Key] (key : Row → Key) (k : Key) (rows : List Row) : Option Row :=
  rows.find? fun r => key r == k

section lookup

variable [BEq Key] {key : Row → Key} {k : Key} {rows : List Row}

theorem lookup_some [LawfulBEq Key] {r : Row} (found : lookup key k rows = some r) :
    r ∈ rows ∧ key r = k :=
  ⟨List.mem_of_find?_eq_some found, by simpa using List.find?_some found⟩

/-- Where no two rows have a key, a row is the one found with its own. -/
theorem lookup_of_mem [LawfulBEq Key] {r : Row} (nodup : (rows.map key).Nodup) (mem : r ∈ rows) :
    lookup key (key r) rows = some r := by
  cases found : lookup key (key r) rows with
  | none => simpa using List.find?_eq_none.mp found r mem
  | some other =>
    obtain ⟨there, same⟩ := lookup_some found
    rw [List.inj_on_of_nodup_map nodup there mem same]

theorem lookup_append {more : List Row} {r : Row} (found : lookup key k rows = some r) :
    lookup key k (rows ++ more) = some r := by
  unfold lookup at *
  rw [List.find?_append, found]
  rfl

/-- What is found in a longer table was found before or is one of the new rows. -/
theorem lookup_append_cases [LawfulBEq Key] {more : List Row} {r : Row}
    (found : lookup key k (rows ++ more) = some r) :
    lookup key k rows = some r ∨ lookup key k rows = none ∧ r ∈ more ∧ key r = k := by
  unfold lookup at *
  rw [List.find?_append] at found
  cases old : rows.find? fun r => key r == k with
  | some r₀ =>
    rw [old] at found
    exact .inl found
  | none =>
    rw [old] at found
    exact .inr ⟨rfl, lookup_some found⟩

/-- A map that leaves the key alone acts on the row found. -/
theorem lookup_map {f : Row → Row} (keeps : ∀ r, key (f r) = key r) :
    lookup key k (rows.map f) = (lookup key k rows).map f := by
  unfold lookup
  rw [List.find?_map]
  congr 1
  exact congrArg (rows.find? ·) (funext fun r => by simp [keeps r])

theorem lookup_apply {u : Update Row} (keeps : u.Keeps key) :
    lookup key k (u.apply rows) = (lookup key k rows).map u.onRow :=
  lookup_map keeps.onRow

end lookup

/-! ## Upserts -/

section upsert

variable [DecidableEq Key] {key : Row → Key} {k : Key} {row : Row}

/-- `INSERT … ON CONFLICT … DO UPDATE` of a whole row. -/
def upsertRow (key : Row → Key) (rows : List Row) (row : Row) : List Row :=
  row :: rows.filter fun r => key r ≠ key row

/-- The last row with key `k`. -/
def lastWith (key : Row → Key) (k : Key) : List Row → Option Row
  | [] => none
  | row :: rows => (lastWith key k rows).or (if key row = k then some row else none)

theorem lastWith_append (rows more : List Row) :
    lastWith key k (rows ++ more) = (lastWith key k more).or (lastWith key k rows) := by
  induction rows with
  | nil => simp [lastWith]
  | cons row rows ih => simp [lastWith, ih, Option.or_assoc]

theorem lastWith_eq_none {rows : List Row} : lastWith key k rows = none ↔ ∀ r ∈ rows, key r ≠ k := by
  induction rows with
  | nil => simp [lastWith]
  | cons row rows ih => simp [lastWith, ih, and_comm]

theorem lastWith_eq_some {rows : List Row} (found : lastWith key k rows = some row) : row ∈ rows ∧ key row = k := by
  induction rows with
  | nil => cases found
  | cons r rows ih =>
    rw [lastWith, Option.or_eq_some_iff] at found
    rcases found with later | ⟨-, own⟩
    · exact ⟨List.mem_cons_of_mem _ (ih later).1, (ih later).2⟩
    · by_cases same : key r = k
      · obtain rfl : r = row := by simpa [same] using own
        exact ⟨List.mem_cons_self, same⟩
      · simp [same] at own

/-- After some upserts a row is the last of its key, or an old one whose key is not among them. -/
theorem mem_foldl_upsertRow {rows news : List Row} :
    row ∈ news.foldl (upsertRow key) rows ↔
      lastWith key (key row) news = some row ∨ lastWith key (key row) news = none ∧ row ∈ rows := by
  induction news generalizing rows with
  | nil => simp [lastWith]
  | cons new news ih =>
    rw [List.foldl_cons, ih, lastWith]
    cases later : lastWith key (key row) news with
    | some other => simp
    | none =>
      by_cases same : key new = key row
      · simp [upsertRow, same, eq_comm]
      · have differ : row ≠ new := fun eq => same (by rw [eq])
        simp [upsertRow, same, differ, Ne.symm same]

end upsert

end PatchManager.Sql
