import PatchManager.Sql.Table

/-! # The table `system_config`

Settings as texts under their keys.
-/

namespace PatchManager.Config

abbrev Rows := List (String × String)

variable {rows : Rows} {key other text : String}

def value (key : String) (rows : Rows) : Option String := (Sql.lookup Prod.fst key rows).map Prod.snd

/-- `UPDATE .. SET value = .. WHERE key = ..`, which does nothing where there is no such row. -/
def update (key text : String) : Sql.Update (String × String) where
  cond row := row.1 == key
  assign row := (row.1, text)

def delete (key : String) (rows : Rows) : Rows := rows.filter (·.1 != key)

def insert (key text : String) (rows : Rows) : Except String Unit × Rows :=
  if (value key rows).isSome then (.error "duplicate key", rows) else (.ok (), rows ++ [(key, text)])

@[simp] theorem value_update : value key ((update other text).apply rows) =
    if key = other then (value key rows).map fun _ => text else value key rows := by
  rw [value, Sql.lookup_apply fun _ _ => rfl, value]
  cases found : Sql.lookup Prod.fst key rows with
  | none => simp
  | some row =>
    obtain ⟨-, rfl⟩ := Sql.lookup_some found
    by_cases same : row.1 = other <;> simp [Sql.Update.onRow, update, same]

@[simp] theorem value_delete :
    value key (delete other rows) = if key = other then none else value key rows := by
  induction rows with
  | nil => simp [value, delete, Sql.lookup]
  | cons row rows ih =>
    simp only [value, delete, Sql.lookup] at ih ⊢
    grind

@[simp] theorem value_append : value key (rows ++ [(other, text)]) =
    (value key rows).or (if key = other then some text else none) := by
  rw [value, Sql.lookup, List.find?_append, value, Sql.lookup]
  by_cases same : key = other
  · subst same
    cases rows.find? (·.1 == key) <;> simp
  · have ne : (other == key) = false := by simpa using Ne.symm same
    cases rows.find? (·.1 == key) <;> simp [ne, same]

theorem insert_absent (absent : value key rows = none) : insert key text rows = (.ok (), rows ++ [(key, text)]) := by
  simp [insert, absent]

end PatchManager.Config
