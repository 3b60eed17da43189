import PatchManager.Repo.PkgInfo
import Mathlib.Data.List.Induction

/-! # Dependencies in the indexes

A `.PKGINFO` has one line for each dependency, all with the same key, and `parse_keyvalue` makes a map
of it.

Main results: `get_parseKeyvalue`, the map has the last line of each key, and
`dependencies_survive`, exactly when the indexes name all dependencies.
-/

namespace PatchManager

open PatchManager.Order

/-! ## The lines of a key -/

/-- What the lines with a key have as their values, in order. -/
def valuesOf (key content : String) : List String :=
  ((lines content.toList).filterMap keyvalueLine).filterMap fun field => if field.1 = key then some field.2 else none

/-- Of the lines with a key, the last one is kept. -/
theorem get_parseKeyvalue (key content : String) :
    OrderedMap.get key (parseKeyvalue content) = (valuesOf key content).getLast? := by
  unfold parseKeyvalue valuesOf
  induction lines content.toList using List.reverseRecOn with
  | nil => rfl
  | append_singleton before line ih =>
    rw [List.foldl_append, List.filterMap_append, List.filterMap_append]
    cases read : keyvalueLine line with
    | none => simpa [read] using ih
    | some field =>
      obtain ⟨k, val⟩ := field
      by_cases same : k = key
      · subst same
        simp [read, OrderedMap.get_put_self]
      · simpa [read, same, OrderedMap.get_put_of_ne (Ne.symm same)] using ih

theorem fieldOf_parseKeyvalue (key content : String) :
    fieldOf (parseKeyvalue content) key = (valuesOf key content).getLast?.getD "" := by
  rw [fieldOf, get_parseKeyvalue]

/-! ## What the indexes name -/

/-- The value stands in a field whose parts are separated by a character. -/
def ListedIn (sep : Char) (value field : String) : Prop :=
  ∃ before after : List Char, field.toList = before ++ value.toList ++ after ∧
    (before = [] ∨ before.getLast? = some sep) ∧ (after = [] ∨ after.head? = some sep)

/-- The fields with a tag name the values of all lines with a key. -/
def Names (sep : Char) (tag : String) (fields : List (String × String)) (key content : String) : Prop :=
  ∀ value ∈ valuesOf key content, value ≠ "" → ∃ field, (tag, field) ∈ fields ∧ ListedIn sep value field

/-- The last line of a key lists what the other lines with it have. -/
def LastListsAll (sep : Char) (key content : String) : Prop :=
  ∀ value ∈ valuesOf key content, value ≠ "" →
    ∃ last, (valuesOf key content).getLast? = some last ∧ ListedIn sep value last

theorem not_listedIn_empty {sep : Char} {value : String} (nonempty : value ≠ "") : ¬ ListedIn sep value "" := by
  rintro ⟨before, after, split, -⟩
  have none : before ++ value.toList ++ after = [] := split.symm
  simp only [List.append_eq_nil_iff, String.toList_eq_nil_iff] at none
  exact nonempty none.1.2

/-- A field that is written unless it is empty, and that no other is taken for. -/
theorem names_iff {sep : Char} {tag key content : String} {fields : List (String × String)}
    (written : ∀ field, field ≠ "" →
      ((tag, field) ∈ fields ↔ field = fieldOf (parseKeyvalue content) key)) :
    Names sep tag fields key content ↔ LastListsAll sep key content := by
  refine forall_congr' fun value => forall_congr' fun mem => forall_congr' fun nonempty => ?_
  have last : ∃ last, (valuesOf key content).getLast? = some last :=
    ⟨_, List.getLast?_eq_some_getLast (List.ne_nil_of_mem mem)⟩
  obtain ⟨last, found⟩ := last
  have field_eq : fieldOf (parseKeyvalue content) key = last := by rw [fieldOf_parseKeyvalue, found]; rfl
  constructor
  · rintro ⟨field, there, listed⟩
    have nonempty' : field ≠ "" := fun none => not_listedIn_empty nonempty (none ▸ listed)
    rw [written field nonempty', field_eq] at there
    exact ⟨last, found, there ▸ listed⟩
  · rintro ⟨last', found', listed⟩
    obtain rfl : last = last' := Option.some.inj (found.symm.trans found')
    have nonempty' : last ≠ "" := fun none => not_listedIn_empty nonempty (none ▸ listed)
    exact ⟨last, (written last nonempty').mpr field_eq.symm, listed⟩

/-- The index of `apk` names what a package depends on and what it provides. -/
def ApkNamesAll (content : String) (archive : Archive) : Prop :=
  ∀ info, parseApk archive = some info →
    Names ' ' "D" (apkFields info) "depend" content ∧ Names ' ' "p" (apkFields info) "provides" content

/-- The database of `pacman`, one dependency on each line, names what a package depends on. -/
def PacmanNamesAll (content : String) (archive : Archive) : Prop :=
  ∀ info, parsePacmanPkg archive = some info →
    Names '\n' "%DEPENDS%" (descSections archive.filename info) "depend" content

theorem mem_unlessEmpty {tag key value field : String} (nonempty : field ≠ "") :
    (tag, field) ∈ unlessEmpty key value ↔ tag = key ∧ field = value := by
  unfold unlessEmpty
  split
  · rename_i none
    simp [none, nonempty]
  · simp

theorem apkNamesAll_iff (filename content sha256 : String) (size : Nat) (control : Option String) :
    ApkNamesAll content ⟨filename, some content, size, sha256, control⟩ ↔
      LastListsAll ' ' "depend" content ∧ LastListsAll ' ' "provides" content := by
  unfold ApkNamesAll
  by_cases none : content = ""
  · subst none
    simp [parseApk, LastListsAll, valuesOf, lines, linesFrom]
  · simp only [parseApk, Option.bind_eq_bind, Option.bind_some, if_neg none, Option.pure_def, Option.some.injEq, forall_eq']
    refine and_congr (names_iff fun field nonempty => ?_) (names_iff fun field nonempty => ?_)
    · simp [apkFields, mem_unlessEmpty nonempty]
    · simp [apkFields, mem_unlessEmpty nonempty]

theorem pacmanNamesAll_iff (filename content sha256 : String) (size : Nat) (control : Option String) :
    PacmanNamesAll content ⟨filename, some content, size, sha256, control⟩ ↔
      LastListsAll '\n' "depend" content := by
  unfold PacmanNamesAll
  by_cases none : content = ""
  · subst none
    simp [parsePacmanPkg, LastListsAll, valuesOf, lines, linesFrom]
  · simp only [parsePacmanPkg, Option.bind_eq_bind, Option.bind_some, if_neg none, Option.pure_def, Option.some.injEq, forall_eq']
    refine names_iff fun field nonempty => ?_
    simp [descSections, mem_unlessEmpty nonempty]

theorem dependencies_survive (filename content sha256 : String) (size : Nat) (control : Option String) :
    (ApkNamesAll content ⟨filename, some content, size, sha256, control⟩ ↔
      LastListsAll ' ' "depend" content ∧ LastListsAll ' ' "provides" content) ∧
    (PacmanNamesAll content ⟨filename, some content, size, sha256, control⟩ ↔
      LastListsAll '\n' "depend" content) :=
  ⟨apkNamesAll_iff filename content sha256 size control, pacmanNamesAll_iff filename content sha256 size control⟩

/-- Of two dependencies the second is left. -/
theorem first_dependency_lost : ¬ ∀ (content : String) (archive : Archive), archive.pkginfo = some content →
    ApkNamesAll content archive ∧ PacmanNamesAll content archive := by
  intro all
  have content : valuesOf "depend" "pkgname = curl\ndepend = musl\ndepend = zlib\n" = ["musl", "zlib"] := by
    decide +kernel
  have names := all "pkgname = curl\ndepend = musl\ndepend = zlib\n" ⟨"curl.apk", _, 1, "", none⟩ rfl
  obtain ⟨last, found, before, after, split, -⟩ :=
    ((apkNamesAll_iff _ _ _ _ _).mp names.1).1 "musl" (by simp [content]) (by decide)
  rw [content] at found
  obtain rfl : "zlib" = last := Option.some.inj found
  -- the only field has no `m`
  have letter : 'm' ∈ "zlib".toList := by
    rw [split]
    simp
  exact absurd letter (by decide)

end PatchManager
