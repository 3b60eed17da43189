import PatchManager.Repo.DebControl
import PatchManager.Text.Lines
import PatchManager.Verified.ArArchive
import PatchManager.Verified.DnfMetadata
import PatchManager.Verified.StoredArchives
import Mathlib.Data.Bool.AllAny

/-! # The stanzas of `Packages`

`generate_apt_metadata` writes the parsed fields of a package and what it has computed about the file.
Read again, the fields are the same but for blanks: where the first line of a value is a folded line,
the blanks at its end are lost.

Main results: `parseControlFields_fields`, what is read in fields that have been written, and
`aptPackages_stanzas`, which puts it together with a run of the generator.
-/

namespace PatchManager

open PatchManager.Bytes PatchManager.Order PatchManager.Str

/-! ## Fields that have been parsed -/

theorem splitOnce_some {c : Char} {line before after : List Char} (found : splitOnce [c] line = some (before, after)) :
    line = before ++ c :: after ∧ c ∉ before := by
  induction line generalizing before with
  | nil => cases found
  | cons d line ih =>
    rw [splitOnce] at found
    by_cases same : c = d
    · subst same
      simp only [List.isPrefixOf_cons_cons_self, List.isPrefixOf_nil_left, if_true, List.length_singleton, List.drop_one,
        List.tail_cons, Option.some.injEq, Prod.mk.injEq] at found
      obtain ⟨rfl, rfl⟩ := found
      exact ⟨rfl, List.not_mem_nil⟩
    · rw [if_neg (by simp [same])] at found
      obtain ⟨⟨before, after⟩, inner, same'⟩ := Option.map_eq_some_iff.mp found
      obtain ⟨rfl, rfl⟩ := Prod.mk.inj same'
      obtain ⟨rfl, clean⟩ := ih inner
      exact ⟨rfl, fun mem => (List.mem_cons.mp mem).elim same clean⟩

theorem splitOnce_append {c : Char} {before : List Char} (clean : c ∉ before) (after : List Char) :
    splitOnce [c] (before ++ c :: after) = some (before, after) := by
  induction before with
  | nil => simp [splitOnce]
  | cons d before ih =>
    have other : c ≠ d := fun eq => clean (eq ▸ List.mem_cons_self)
    rw [List.cons_append, splitOnce, if_neg (by simp [other]), ih fun mem => clean (List.mem_cons_of_mem d mem)]
    rfl

theorem trim_trim (text : List Char) : trim (trim text) = trim text := trim_eq_self (head?_trim text) (getLast?_trim text)

theorem mem_trim {text : List Char} {c : Char} (mem : c ∈ trim text) : c ∈ text := (trim_isInfix text).subset mem

/-- A field as `parse_control_fields` gives it for a text. -/
structure ControlField (content : List Char) (f : String × String) : Prop where
  named : f.1.toList ≠ []
  trimmedKey : trim f.1.toList = f.1.toList
  cleanKey : ':' ∉ f.1.toList ∧ '\n' ∉ f.1.toList
  trimmed : trim f.2.toList = f.2.toList
  folded : Folded f.2.toList
  chars : ∀ c ∈ f.2.toList, c = '\n' ∨ c ∈ content

/-- What is true between two lines. -/
structure ControlState.Shape (content : List Char) (s : ControlState) : Prop where
  fields : ∀ f ∈ s.fields, ControlField content f
  increasing : OrderedMap.Increasing s.fields
  trimmedKey : trim s.currentKey = s.currentKey
  cleanKey : ':' ∉ s.currentKey ∧ '\n' ∉ s.currentKey
  folded : Folded s.currentVal
  chars : ∀ c ∈ s.currentVal, c = '\n' ∨ c ∈ content

theorem ControlState.Shape.insert {content : List Char} {s : ControlState} (shape : s.Shape content) :
    (∀ f ∈ s.insert, ControlField content f) ∧ OrderedMap.Increasing s.insert := by
  rw [ControlState.insert]
  split
  next => exact ⟨shape.fields, shape.increasing⟩
  next named =>
    refine ⟨fun f mem => ?_, shape.increasing.put⟩
    cases OrderedMap.mem_put mem with
    | inl new =>
      subst new
      refine ⟨by simpa using named, by simpa using shape.trimmedKey, by simpa using shape.cleanKey,
        by simpa using trim_trim s.currentVal, by simpa using shape.folded.trim, fun c mem => ?_⟩
      rw [String.toList_ofList] at mem
      exact shape.chars c (mem_trim mem)
    | inr old => exact shape.fields f old

theorem controlLine_shape {content line : List Char} {s : ControlState} (shape : s.Shape content)
    (clean : '\n' ∉ line) (chars : ∀ c ∈ line, c ∈ content) : (controlLine s line).Shape content := by
  unfold controlLine
  split
  next => exact shape
  split
  next starts =>
    refine { shape with folded := shape.folded.append starts clean, chars := fun c mem => ?_ }
    cases List.mem_append.mp mem with
    | inl old => exact shape.chars c old
    | inr new => exact (List.mem_cons.mp new).imp_right (chars c)
  split
  next before after found =>
    obtain ⟨rfl, free⟩ := splitOnce_some found
    obtain ⟨fields, increasing⟩ := shape.insert
    have noBreak : '\n' ∉ after := fun mem => clean (List.mem_append_right _ (List.mem_cons_of_mem _ mem))
    exact {
      fields
      increasing
      trimmedKey := trim_trim before
      cleanKey := ⟨fun mem => free (mem_trim mem), fun mem => clean (List.mem_append_left _ (mem_trim mem))⟩
      folded := folded_of_clean fun mem => noBreak (mem_trim mem)
      chars := fun c mem => .inr (chars c (List.mem_append_right _ (List.mem_cons_of_mem _ (mem_trim mem)))) }
  next => exact shape

/-- The fields of a text, in the order of their keys. -/
theorem parseControlFields_shape (content : List Char) :
    (∀ f ∈ parseControlFields content, ControlField content f) ∧ OrderedMap.Increasing (parseControlFields content) := by
  suffices run : ∀ (ls : List (List Char)) (s : ControlState), s.Shape content → (∀ l ∈ ls, l ∈ lines content) →
      (ls.foldl controlLine s).Shape content by
    refine (run (lines content) ⟨[], [], []⟩ ?_ fun l mem => mem).insert
    exact ⟨fun f mem => absurd mem List.not_mem_nil, List.Pairwise.nil, rfl, by simp, folded_of_clean List.not_mem_nil,
      fun c mem => absurd mem List.not_mem_nil⟩
  intro ls
  induction ls with
  | nil => exact fun s shape _ => shape
  | cons l ls ih =>
    intro s shape all
    obtain ⟨first, others⟩ := List.forall_mem_cons.mp all
    obtain ⟨clean, chars⟩ := mem_lines first
    exact ih _ (controlLine_shape shape clean chars) others

/-! ## Fields that are written and read again -/

/-- A value with the blanks around its first line gone. -/
def rereadValue (value : List Char) : List Char :=
  trim (value.takeWhile (· ≠ '\n')) ++ value.dropWhile (· ≠ '\n')

def reread (f : String × String) : String × String := (f.1, .ofList (rereadValue f.2.toList))

/-- The text of a field. -/
def fieldText (f : String × String) : List Char := f.1.toList ++ (':' :: ' ' :: (f.2.toList ++ ['\n']))

/-- The lines it is written in. -/
def fieldLines (f : String × String) : List (List Char) := breaks (f.1.toList ++ (':' :: ' ' :: f.2.toList))

theorem flatMap_fieldLines (f : String × String) : (fieldLines f).flatMap (· ++ ['\n']) = fieldText f := by
  rw [fieldLines, flatMap_breaks, fieldText]
  simp

theorem flatMap_fieldLines_all (fs : List (String × String)) :
    (fs.flatMap fieldLines).flatMap (· ++ ['\n']) = fs.flatMap fieldText := by
  rw [List.flatMap_assoc]
  exact List.flatMap_congr fun f _ => flatMap_fieldLines f

variable {content : List Char} {f : String × String}

/-- The first line of a value that is not empty begins with a character that is not blank. -/
theorem ControlField.first (field : ControlField content f) (nonempty : f.2.toList ≠ []) :
    trim (f.2.toList.takeWhile (· ≠ '\n')) ≠ [] := by
  cases value : f.2.toList with
  | nil => exact absurd value nonempty
  | cons c rest =>
    have notBlank : isWhitespace c = false := by
      have head := head?_trim f.2.toList
      rw [field.trimmed, value] at head
      exact head c rfl
    have other : c ≠ '\n' := fun eq => by rw [eq] at notBlank; exact absurd notBlank (by decide)
    rw [List.takeWhile_cons_of_pos (by simpa using other), trim_eq, trimStart, List.dropWhile_cons_of_neg (by simp [notBlank])]
    intro empty
    have blank := List.rdropWhile_eq_nil_iff.mp empty c List.mem_cons_self
    rw [notBlank] at blank
    cases blank

/-- What is read again is trimmed. -/
theorem ControlField.trim_reread (field : ControlField content f) :
    trim (rereadValue f.2.toList) = rereadValue f.2.toList := by
  cases rest : f.2.toList.dropWhile (· ≠ '\n') with
  | nil => rw [rereadValue, rest, List.append_nil, trim_trim]
  | cons c others =>
    have nonempty : f.2.toList ≠ [] := fun nil => by rw [nil] at rest; cases rest
    apply trim_eq_self
    · intro d head
      rw [rereadValue] at head
      obtain ⟨first, more, starts⟩ := List.exists_cons_of_ne_nil (field.first nonempty)
      have inner := head?_trim (f.2.toList.takeWhile (· ≠ '\n'))
      rw [starts] at head inner
      exact inner d head
    · intro d last
      rw [rereadValue, rest, List.getLast?_append_of_ne_nil _ (List.cons_ne_nil c others), ← rest] at last
      have whole := getLast?_trim f.2.toList
      rw [field.trimmed] at whole
      refine whole d ?_
      rw [← List.takeWhile_append_dropWhile (p := (· ≠ '\n')) (l := f.2.toList),
        List.getLast?_append_of_ne_nil _ (by rw [rest]; exact List.cons_ne_nil c others)]
      exact last

/-- Continuations are added to the value. -/
theorem foldl_continuations (s : ControlState) (others : List (List Char)) (starts : ∀ l ∈ others, StartsBlank l) :
    others.foldl controlLine s = { s with currentVal := s.currentVal ++ others.flatMap ('\n' :: ·) } := by
  induction others generalizing s with
  | nil => simp
  | cons l others ih =>
    obtain ⟨first, rest⟩ := List.forall_mem_cons.mp starts
    have nonempty : l ≠ [] := fun nil => by rw [nil] at first; cases first <;> contradiction
    have step : controlLine s l = { s with currentVal := s.currentVal ++ '\n' :: l } := by
      rw [controlLine, if_neg nonempty]
      exact if_pos first
    rw [List.foldl_cons, step, ih _ rest]
    simp

/-- The lines of a field are read as the field. -/
theorem foldl_fieldLines (field : ControlField content f) (s : ControlState) :
    (fieldLines f).foldl controlLine s = ⟨s.insert, f.1.toList, rereadValue f.2.toList⟩ := by
  obtain ⟨others, parts, rest⟩ := breaks_eq f.2.toList
  have clean : '\n' ∉ f.1.toList ++ [':', ' '] := by
    intro mem
    cases List.mem_append.mp mem with
    | inl inKey => exact field.cleanKey.2 inKey
    | inr sep => exact absurd sep (by decide)
  have whole : f.1.toList ++ (':' :: ' ' :: f.2.toList) = (f.1.toList ++ [':', ' ']) ++ f.2.toList := by simp
  obtain ⟨c, key, split⟩ := List.exists_cons_of_ne_nil field.named
  have notBlank : isWhitespace c = false := by
    have head := head?_trim f.1.toList
    rw [field.trimmedKey, split] at head
    exact head c rfl
  have header : controlLine s ((f.1.toList ++ [':', ' ']) ++ f.2.toList.takeWhile (· ≠ '\n')) =
      ⟨s.insert, f.1.toList, trim (f.2.toList.takeWhile (· ≠ '\n'))⟩ := by
    have line : (f.1.toList ++ [':', ' ']) ++ f.2.toList.takeWhile (· ≠ '\n') =
        f.1.toList ++ ':' :: (' ' :: f.2.toList.takeWhile (· ≠ '\n')) := by simp
    have noBlank : ¬ ((f.1.toList ++ ':' :: (' ' :: f.2.toList.takeWhile (· ≠ '\n'))).head? = some ' ' ∨
        (f.1.toList ++ ':' :: (' ' :: f.2.toList.takeWhile (· ≠ '\n'))).head? = some '\t') := by
      rw [split]
      rintro (blank | tab)
      · cases blank
        exact absurd notBlank (by decide)
      · cases tab
        exact absurd notBlank (by decide)
    rw [line, controlLine, if_neg (by simp), if_neg noBlank, splitOnce_append field.cleanKey.1]
    dsimp only
    rw [field.trimmedKey, ← List.singleton_append, trim_blank_append (by decide)]
  rw [fieldLines, whole, breaks_append clean, parts, List.modifyHead_cons, List.foldl_cons, header,
    foldl_continuations _ others (field.folded.breaks parts), rereadValue, rest]

theorem insert_reread (field : ControlField content f) (fields : OrderedMap String String) :
    ControlState.insert ⟨fields, f.1.toList, rereadValue f.2.toList⟩ =
      OrderedMap.put (reread f).1 (reread f).2 fields := by
  simp only [ControlState.insert, if_neg field.named, field.trim_reread, String.ofList_toList, reread]

/-- Fields in a row are put into the map, one after the other. -/
theorem foldl_fields {fs : List (String × String)} (all : ∀ f ∈ fs, ∃ content, ControlField content f) (s : ControlState) :
    ((fs.flatMap fieldLines).foldl controlLine s).insert =
      fs.foldl (fun fields f => OrderedMap.put (reread f).1 (reread f).2 fields) s.insert := by
  induction fs generalizing s with
  | nil => rfl
  | cons f fs ih =>
    obtain ⟨⟨content, field⟩, others⟩ := List.forall_mem_cons.mp all
    rw [List.flatMap_cons, List.foldl_append, foldl_fieldLines field, ih others, insert_reread field, List.foldl_cons]

/-- Lines that are read as they are written. -/
def Steady (f : String × String) : Prop := ∀ l ∈ fieldLines f, l.getLast? ≠ some '\r'

theorem map_stripCr {ls : List (List Char)} (steady : ∀ l ∈ ls, l.getLast? ≠ some '\r') : ls.map stripCr = ls := by
  conv_rhs => rw [← List.map_id ls]
  exact List.map_congr_left fun l mem => stripCr_eq_self (steady l mem)

theorem mem_fieldLines {l : List Char} (mem : l ∈ fieldLines f) : '\n' ∉ l := (mem_breaks mem).1

/-- What is read in fields that have been written. -/
theorem parseControlFields_fields {fs : List (String × String)} (all : ∀ f ∈ fs, ∃ content, ControlField content f)
    (steady : ∀ f ∈ fs, Steady f) : parseControlFields (fs.flatMap fieldText) =
      fs.foldl (fun fields f => OrderedMap.put (reread f).1 (reread f).2 fields) [] := by
  have clean : ∀ l ∈ fs.flatMap fieldLines, '\n' ∉ l := by
    intro l mem
    obtain ⟨f, -, there⟩ := List.mem_flatMap.mp mem
    exact mem_fieldLines there
  have kept : ∀ l ∈ fs.flatMap fieldLines, l.getLast? ≠ some '\r' := by
    intro l mem
    obtain ⟨f, here, there⟩ := List.mem_flatMap.mp mem
    exact steady f here l there
  have read := lines_flatMap clean []
  rw [List.append_nil, map_stripCr kept, flatMap_fieldLines_all, show lines [] = [] from rfl, List.append_nil] at read
  rw [parseControlFields, read, foldl_fields all]
  rfl

/-! ## Stanzas -/

/-- The runs of lines that are not empty. -/
def paragraphs (text : List Char) : List (List (List Char)) := ((lines text).splitOnP (· = [])).filter (· ≠ [])

/-- A run of lines as a text. -/
def paragraphText (paragraph : List (List Char)) : List Char := paragraph.flatMap (· ++ ['\n'])

/-- No line is empty, nor is what is left of it without its end. -/
theorem stripCr_fieldLines (field : ControlField content f) {l : List Char} (mem : l ∈ fieldLines f) : stripCr l ≠ [] := by
  obtain ⟨others, parts, rest⟩ := breaks_eq f.2.toList
  have clean : '\n' ∉ f.1.toList ++ [':', ' '] := by
    intro mem
    cases List.mem_append.mp mem with
    | inl inKey => exact field.cleanKey.2 inKey
    | inr sep => exact absurd sep (by decide)
  have whole : f.1.toList ++ (':' :: ' ' :: f.2.toList) = (f.1.toList ++ [':', ' ']) ++ f.2.toList := by simp
  have long {line : List Char} (two : 2 ≤ line.length) : stripCr line ≠ [] := by
    unfold stripCr
    split
    · exact List.ne_nil_of_length_pos (by rw [List.length_dropLast]; omega)
    · exact List.ne_nil_of_length_pos (by omega)
  rw [fieldLines, whole, breaks_append clean, parts, List.modifyHead_cons] at mem
  cases List.mem_cons.mp mem with
  | inl header =>
    rw [header]
    exact long (by simp only [List.length_append, List.length_cons, List.length_nil]; omega)
  | inr continuation =>
    have starts := field.folded.breaks parts l continuation
    cases l with
    | nil => cases starts <;> contradiction
    | cons c l =>
      cases l with
      | nil =>
        have other : c ≠ '\r' := by
          rintro rfl
          exact absurd starts (by simp [StartsBlank])
        rw [stripCr_eq_self (by simpa using other)]
        exact List.cons_ne_nil c []
      | cons d l => exact long (by simp)

/-- Texts of fields with an empty line behind each are the paragraphs of the whole. -/
theorem paragraphs_flatMap {α : Type} (fields : α → List (String × String)) (items : List α)
    (all : ∀ a ∈ items, fields a ≠ [] ∧ ∀ f ∈ fields a, ∃ content, ControlField content f) :
    paragraphs (items.flatMap fun a => (fields a).flatMap fieldText ++ ['\n']) =
      items.map fun a => ((fields a).flatMap fieldLines).map stripCr := by
  induction items with
  | nil => rfl
  | cons a items ih =>
    obtain ⟨⟨some, shapes⟩, others⟩ := List.forall_mem_cons.mp all
    have clean : ∀ l ∈ (fields a).flatMap fieldLines, '\n' ∉ l := by
      intro l mem
      obtain ⟨f, -, there⟩ := List.mem_flatMap.mp mem
      exact mem_fieldLines there
    have full : ∀ l ∈ ((fields a).flatMap fieldLines).map stripCr, (decide (l = []) : Bool) = false := by
      intro l mem
      obtain ⟨line, there, rfl⟩ := List.mem_map.mp mem
      obtain ⟨f, here, inside⟩ := List.mem_flatMap.mp there
      obtain ⟨content, field⟩ := shapes f here
      exact decide_eq_false (stripCr_fieldLines field inside)
    have nonempty : ((fields a).flatMap fieldLines).map stripCr ≠ [] := by
      obtain ⟨f, rest, split⟩ := List.exists_cons_of_ne_nil some
      obtain ⟨others, parts, -⟩ := breaks_eq (f.1.toList ++ (':' :: ' ' :: f.2.toList))
      rw [split, List.flatMap_cons, fieldLines, parts]
      exact List.cons_ne_nil _ _
    rw [List.flatMap_cons, ← flatMap_fieldLines_all, List.append_assoc, paragraphs, lines_flatMap clean,
      List.singleton_append, show (∀ rest, lines ('\n' :: rest) = [] :: lines rest) from fun rest => rfl,
      List.splitOnP_append_cons _ _ (by decide), List.splitOnP_eq_singleton full, List.singleton_append,
      List.filter_cons_of_pos (by simpa using nonempty), List.map_cons]
    exact congrArg _ (ih others)

/-! ## What is computed -/

/-- The fields that `generate_apt_metadata` adds. -/
def computedFields (T : Generators.Tools) (filename : String) (data : T.Bytes) : List (String × String) :=
  [("Filename", "pool/" ++ filename), ("Size", toString (T.size data)), ("MD5sum", T.md5 data),
    ("SHA1", T.sha1 data), ("SHA256", T.sha256 data)]

/-- Fields with others put over them. -/
def overlay (fields computed : OrderedMap String String) : OrderedMap String String :=
  computed.foldl (fun map f => OrderedMap.put f.1 f.2 map) fields

theorem get_overlay_of_ne {key : String} {computed : List (String × String)} (other : ∀ f ∈ computed, key ≠ f.1)
    (fields : OrderedMap String String) : OrderedMap.get key (overlay fields computed) = OrderedMap.get key fields := by
  induction computed generalizing fields with
  | nil => rfl
  | cons f computed ih =>
    obtain ⟨first, others⟩ := List.forall_mem_cons.mp other
    rw [overlay, List.foldl_cons]
    exact (ih others _).trans (OrderedMap.get_put_of_ne first f.2 fields)

theorem get_overlay_filename (T : Generators.Tools) (fields : OrderedMap String String) (filename : String) (data : T.Bytes) :
    OrderedMap.get "Filename" (overlay fields (computedFields T filename data)) = some ("pool/" ++ filename) := by
  have others : ∀ f ∈ (computedFields T filename data).tail, "Filename" ≠ f.1 := by
    simp [computedFields]
  exact (get_overlay_of_ne others _).trans (OrderedMap.get_put_self ..)

theorem toList_foldl_fields (fields : List (String × String)) (text : String) :
    (fields.foldl (fun text field => text ++ field.1 ++ ": " ++ field.2 ++ "\n") text).toList =
      text.toList ++ fields.flatMap fieldText := by
  induction fields generalizing text with
  | nil => simp
  | cons f fields ih =>
    rw [List.foldl_cons, ih, List.flatMap_cons, fieldText]
    simp

theorem packageStanza_toList (T : Generators.Tools) (fields : List (String × String)) (filename : String)
    (data : T.Bytes) : (Generators.packageStanza fields filename data).toList =
      (fields ++ computedFields T filename data).flatMap fieldText ++ ['\n'] := by
  simp [Generators.packageStanza, toList_foldl_fields, computedFields, fieldText]

/-- A value of one line that is trimmed. -/
structure PlainValue (value : String) : Prop where
  clean : '\n' ∉ value.toList
  starts : ∀ c ∈ value.toList.head?, isWhitespace c = false
  ends : ∀ c ∈ value.toList.getLast?, isWhitespace c = false

theorem PlainValue.of_noBlank {value : String} (none : ∀ c ∈ value.toList, isWhitespace c = false) : PlainValue value where
  clean mem := absurd (none '\n' mem) (by decide)
  starts c head := none c (List.mem_of_head? head)
  ends c last := none c (List.mem_of_getLast? last)

structure PlainKey (key : String) : Prop where
  named : key.toList ≠ []
  trimmed : trim key.toList = key.toList
  clean : ':' ∉ key.toList ∧ '\n' ∉ key.toList

/-- The parts of a value have no carriage return at their end. -/
theorem steady_of_parts {key value : String} (plain : PlainKey key)
    (parts : ∀ l ∈ breaks value.toList, l.getLast? ≠ some '\r') : Steady (key, value) := by
  obtain ⟨others, split, -⟩ := breaks_eq value.toList
  have clean : '\n' ∉ key.toList ++ [':', ' '] := by
    intro mem
    cases List.mem_append.mp mem with
    | inl inKey => exact plain.clean.2 inKey
    | inr sep => exact absurd sep (by decide)
  have whole : key.toList ++ (':' :: ' ' :: value.toList) = (key.toList ++ [':', ' ']) ++ value.toList := by simp
  intro l mem
  rw [fieldLines, whole, breaks_append clean, split, List.modifyHead_cons] at mem
  rw [split] at parts
  obtain ⟨first, rest⟩ := List.forall_mem_cons.mp parts
  cases List.mem_cons.mp mem with
  | inl header =>
    rw [header]
    cases line : value.toList.takeWhile (· ≠ '\n') with
    | nil => simp
    | cons c more =>
      rw [line] at first
      rwa [List.getLast?_append_of_ne_nil _ (List.cons_ne_nil c more)]
  | inr continuation => exact rest l continuation

theorem breaks_clean {text : List Char} (clean : '\n' ∉ text) : breaks text = [text] := by
  refine List.splitOnP_eq_singleton fun c mem => ?_
  simpa using fun eq : c = '\n' => clean (eq ▸ mem)

theorem PlainValue.field {key value : String} (plainKey : PlainKey key) (plain : PlainValue value) :
    ControlField value.toList (key, value) ∧ Steady (key, value) ∧ reread (key, value) = (key, value) := by
  have trimmed : trim value.toList = value.toList := trim_eq_self plain.starts plain.ends
  have clean : ∀ c ∈ value.toList, (decide (c ≠ '\n') : Bool) = true := fun c mem =>
    decide_eq_true fun eq => plain.clean (eq ▸ mem)
  refine ⟨⟨plainKey.named, plainKey.trimmed, plainKey.clean, trimmed, folded_of_clean plain.clean,
    fun c mem => .inr mem⟩, steady_of_parts plainKey ?_, ?_⟩
  · rw [breaks_clean plain.clean]
    refine List.forall_mem_singleton.mpr fun last => ?_
    exact absurd (plain.ends '\r' last) (by decide)
  · rw [reread, rereadValue, List.takeWhile_eq_self_iff.mpr clean, List.dropWhile_eq_nil_iff.mpr clean, trimmed,
      List.append_nil, String.ofList_toList]

variable {X : DebLibs}

theorem plainValue_hex (bytes : List UInt8) : PlainValue (Hex.encode bytes) := by
  refine .of_noBlank fun c mem => ?_
  have digits : ∀ n < 16, isWhitespace (Nat.digitChar n) = false := by decide
  rw [Hex.encode, String.toList_ofList] at mem
  obtain ⟨b, -, inside⟩ := List.mem_flatMap.mp mem
  have small := b.toNat_lt
  simp only [Hex.byte, List.mem_cons, List.not_mem_nil, or_false] at inside
  obtain rfl | rfl := inside
  · exact digits _ (by omega)
  · exact digits _ (by omega)

/-- The name of a package ends with its suffix. -/
theorem plainValue_filename {suite filename : String} (selected : Generators.selects suite filename = true)
    (clean : '\n' ∉ filename.toList) : PlainValue ("pool/" ++ filename) where
  clean mem := by
    rw [String.toList_append] at mem
    exact (List.mem_append.mp mem).elim (fun inside => absurd inside (by decide)) clean
  starts c head := by
    rw [String.toList_append] at head
    obtain rfl := Option.some.inj head
    decide
  ends c last := by
    rw [Generators.selects, Bool.and_eq_true] at selected
    obtain ⟨front, suffix⟩ := List.isSuffixOf_iff_suffix.mp selected.1
    rw [String.toList_append, ← suffix, ← List.append_assoc, List.getLast?_append_of_ne_nil _ (by decide)] at last
    obtain rfl := Option.some.inj last
    decide

theorem plainValue_computed {suite filename : String} (selected : Generators.selects suite filename = true)
    (clean : '\n' ∉ filename.toList) (data : List UInt8) :
    ∀ f ∈ computedFields (debTools X) filename data, PlainKey f.1 ∧ PlainValue f.2 := by
  have size : PlainValue (toString data.length) := by
    have number : (toString data.length).toList = Nat.toDigits 10 data.length := by simp
    refine .of_noBlank fun c mem => ?_
    rw [number] at mem
    exact digits_not_blank data.length c mem
  simp only [computedFields, List.forall_mem_cons]
  exact ⟨⟨⟨by decide, by decide, by decide⟩, plainValue_filename selected clean⟩,
    ⟨⟨by decide, by decide, by decide⟩, size⟩, ⟨⟨by decide, by decide, by decide⟩, plainValue_hex _⟩,
    ⟨⟨by decide, by decide, by decide⟩, plainValue_hex _⟩, ⟨⟨by decide, by decide, by decide⟩, plainValue_hex _⟩,
    fun f mem => absurd mem List.not_mem_nil⟩

/-! ## Packages on disk -/

/-- A package with the text of its control file. -/
structure DebPackage where
  filename : String
  data : List UInt8
  control : String

namespace DebPackage

variable (p : DebPackage)

/-- Its own fields. -/
def fields : OrderedMap String String := parseControlFields p.control.toList

def computed (X : DebLibs) : List (String × String) := computedFields (debTools X) p.filename p.data

def stanza (X : DebLibs) : List Char := (p.fields ++ p.computed X).flatMap fieldText ++ ['\n']

end DebPackage

namespace Generators

open PatchManager.Conc

def Disk.debPackage? (w : Disk (debTools X)) (filename : String) : Option DebPackage := do
  let file ← (w.pool .apt).find? (·.filename == filename)
  let control ← controlText X file.data
  return ⟨filename, file.data, control⟩

/-- The files that are selected for a suite. -/
def Disk.debFiles (w : Disk (debTools X)) (suite : String) : List String :=
  sortNames (((w.pool .apt).map (·.filename)).filter (selects suite))

/-- Those that can be parsed. -/
def Disk.debPackages (w : Disk (debTools X)) (suite : String) : List DebPackage :=
  (w.debFiles suite).filterMap w.debPackage?

theorem debPackage?_eq {w : Disk (debTools X)} {filename : String} {p : DebPackage}
    (found : w.debPackage? filename = some p) : p.filename = filename := by
  simp only [Disk.debPackage?, Option.bind_eq_bind, Option.bind_eq_some_iff, pure, Option.some.injEq] at found
  obtain ⟨file, -, control, -, rfl⟩ := found
  rfl

variable {w w' : Disk (debTools X)}

/-- The stanzas are those of the files that can be parsed, in their order. -/
theorem packagesContent_alone {names : List String} {content : String} {value : Option String}
    (among : (packagesContent names content).Among (repository (debTools X)).exec Eq w w' value) : w' = w ∧
      ∃ text, value = some text ∧
        text.toList = content.toList ++ (names.filterMap w.debPackage?).flatMap (·.stanza X) := by
  induction names generalizing content with
  | nil =>
    obtain ⟨rfl, rfl⟩ := among.ret_inv
    exact ⟨rfl, _, rfl, by simp⟩
  | cons filename rest ih =>
    have among := readPackage_alone among
    cases found : (w.pool .apt).find? (·.filename == filename) with
    | none =>
      have skipped : w.debPackage? filename = none := by simp [Disk.debPackage?, found]
      rw [found] at among
      rw [List.filterMap_cons_none skipped]
      exact ih among
    | some file =>
      cases parsed : controlText X file.data with
      | none =>
        have skipped : w.debPackage? filename = none := by simp [Disk.debPackage?, found, parsed]
        have unread : (debTools X).parseDebControl file.data = none := by simp [debTools, parsed]
        simp only [found, Prog.ret_bind, Option.bind_some, unread] at among
        rw [List.filterMap_cons_none skipped]
        exact ih among
      | some control =>
        have listed : w.debPackage? filename = some ⟨filename, file.data, control⟩ := by
          simp [Disk.debPackage?, found, parsed]
        have read : (debTools X).parseDebControl file.data = some (parseControlFields control.toList) := by
          simp [debTools, parsed]
        simp only [found, Prog.ret_bind, Option.bind_some, read] at among
        have among := readPackage_alone among
        simp only [found, Prog.ret_bind] at among
        obtain ⟨same, text, done, joined⟩ := ih among
        refine ⟨same, text, done, ?_⟩
        rw [String.toList_append, packageStanza_toList, List.append_assoc] at joined
        rw [List.filterMap_cons_some listed, List.flatMap_cons]
        exact joined

theorem packagesContent_runs (w : Disk (debTools X)) (names : List String) (content : String) :
    ∃ text, (packagesContent names content).Among (repository (debTools X)).exec Eq w w (some text) := by
  have reads : ∀ filename, (repository (debTools X)).exec w (.readPackage .apt filename)
      ((w.pool .apt).find? (·.filename == filename)) w := fun filename => ⟨⟨0, true⟩, rfl⟩
  induction names generalizing content with
  | nil => exact ⟨_, .ret⟩
  | cons filename rest ih =>
    cases found : (w.pool .apt).find? (·.filename == filename) with
    | none =>
      obtain ⟨text, runs⟩ := ih content
      exact ⟨text, .stay (reads filename) (by simpa only [found, Prog.ret_bind, Option.bind_none] using runs)⟩
    | some file =>
      cases parsed : (debTools X).parseDebControl file.data with
      | none =>
        obtain ⟨text, runs⟩ := ih content
        exact ⟨text, .stay (reads filename) (by simpa only [found, Prog.ret_bind, Option.bind_some, parsed] using runs)⟩
      | some fields =>
        have again : (repository (debTools X)).exec w (.readPackage .apt filename) (some file) w := found ▸ reads filename
        obtain ⟨text, runs⟩ := ih _
        refine ⟨text, .stay again ?_⟩
        simp only [Prog.ret_bind, Option.bind_some, parsed]
        refine .stay again ?_
        simpa only [Prog.ret_bind] using runs

theorem generateAptRelease_alone {suite : String} {release : Release}
    (among : (generateAptRelease suite).Among (repository (debTools X)).exec Eq w w' release) : w' = w := by
  obtain ⟨_, _, _, ⟨_, done⟩, rfl, among⟩ := among.op_inv
  cases done
  obtain ⟨_, _, _, ⟨_, done⟩, rfl, among⟩ := Prog.Among.op_inv (Prog.ret_bind .. ▸ among)
  cases done
  obtain ⟨_, _, _, ⟨_, done⟩, rfl, among⟩ := Prog.Among.op_inv (Prog.ret_bind .. ▸ among)
  cases done
  obtain ⟨same, -⟩ := Prog.Among.ret_inv (Prog.ret_bind .. ▸ among)
  exact same

/-- What a regeneration leaves in `Packages`. -/
theorem generateApt_alone {suite : String} {written : Bool}
    (among : (generateAptMetadata suite).Among (repository (debTools X)).exec Eq w w' written) : ∃ content : String,
      w'.index (.packages suite) = some (Utf8.encode content.toList) ∧
      content.toList = (w.debPackages suite).flatMap (·.stanza X) := by
  obtain ⟨_, _, _, ⟨_, done⟩, rfl, among⟩ := among.op_inv
  cases done
  obtain ⟨found, _, texts, among⟩ := Prog.Among.bind_inv (Prog.ret_bind .. ▸ among)
  obtain ⟨rfl, content, rfl, joined⟩ := packagesContent_alone texts
  obtain ⟨_, _, _, ⟨_, done⟩, rfl, among⟩ := among.op_inv
  cases done
  obtain ⟨_, _, _, ⟨_, done⟩, rfl, among⟩ := Prog.Among.op_inv (Prog.ret_bind .. ▸ among)
  cases done
  obtain ⟨release, _, released, among⟩ := Prog.Among.bind_inv (Prog.ret_bind .. ▸ among)
  obtain ⟨_, _, _, ⟨_, done⟩, rfl, among⟩ := among.op_inv
  cases done
  obtain ⟨_, _, _, ⟨_, done⟩, rfl, among⟩ := Prog.Among.op_inv (Prog.ret_bind .. ▸ among)
  cases done
  obtain ⟨_, _, _, ⟨_, done⟩, rfl, among⟩ := Prog.Among.op_inv (Prog.ret_bind .. ▸ among)
  cases done
  obtain ⟨rfl, rfl⟩ := Prog.Among.ret_inv (Prog.ret_bind .. ▸ among)
  refine ⟨content, ?_, ?_⟩
  · rw [generateAptRelease_alone released]
    simp [Function.update_of_ne, debTools]
  · simpa [Disk.debPackages, Disk.debFiles] using joined

theorem generateApt_runs (w : Disk (debTools X)) (suite : String) :
    ∃ w', (generateAptMetadata suite).Among (repository (debTools X)).exec Eq w w' true := by
  have does : ∀ (v : Disk (debTools X)) (o : Op (debTools X)),
      (repository (debTools X)).exec v o (execute v o ⟨0, true⟩).1 (execute v o ⟨0, true⟩).2 :=
    fun v o => ⟨⟨0, true⟩, rfl⟩
  obtain ⟨text, found⟩ := packagesContent_runs w (w.debFiles suite) ""
  exact ⟨_, .op (does w (.readDir .apt)) rfl (.bind .ret (.bind found
    (.op (does _ (.writeIndex (.packages suite) _)) rfl (.bind .ret
    (.op (does _ (.writeIndex (.packagesGz suite) _)) rfl (.bind .ret
    (.bind (.op (does _ .utcNow) rfl (.bind .ret
      (.op (does _ (.readIndex (.packages suite))) rfl (.bind .ret
      (.op (does _ (.readIndex (.packagesGz suite))) rfl (.bind .ret .ret))))))
    (.op (does _ (.writeRelease suite _)) rfl (.bind .ret
    (.op (does _ (.signRelease suite false)) rfl (.bind .ret
    (.op (does _ (.signRelease suite true)) rfl (.bind .ret .ret)))))))))))))⟩

/-- The text has one stanza for each package, and in it the fields that are left of the package's own,
    with the computed ones over them. -/
def Disk.Stanzas (w : Disk (debTools X)) (suite : String) (left : OrderedMap String String → OrderedMap String String)
    (content : String) : Prop :=
  List.Forall₂
    (fun paragraph p => '\r' ∉ p.control.toList →
      parseControlFields (paragraphText paragraph) = overlay (left p.fields) (p.computed X))
    (paragraphs content.toList) (w.debPackages suite)

/-- What a regeneration writes has these stanzas. -/
def Disk.WritesStanzas (w : Disk (debTools X)) (suite : String)
    (left : OrderedMap String String → OrderedMap String String) : Prop :=
  ∀ w' written, (generateAptMetadata suite).Among (repository (debTools X)).exec Eq w w' written →
    ∃ content : String, w'.index (.packages suite) = some (Utf8.encode content.toList) ∧ w.Stanzas suite left content

theorem selects_of_mem {suite : String} {p : DebPackage} (mem : p ∈ w.debPackages suite) :
    selects suite p.filename = true := by
  obtain ⟨filename, there, found⟩ := List.mem_filterMap.mp mem
  rw [debPackage?_eq found]
  rw [Disk.debFiles, sortNames, List.mem_mergeSort] at there
  exact List.of_mem_filter there

end Generators

open Conc

/-- All fields of a stanza have the shape of fields that have been read. -/
theorem DebPackage.stanza_fields {p : DebPackage} {suite : String} (selected : Generators.selects suite p.filename = true)
    (clean : '\n' ∉ p.filename.toList) :
    p.fields ++ p.computed X ≠ [] ∧ ∀ f ∈ p.fields ++ p.computed X, ∃ content, ControlField content f := by
  refine ⟨List.append_ne_nil_of_right_ne_nil _ (List.cons_ne_nil _ _), fun f mem => ?_⟩
  cases List.mem_append.mp mem with
  | inl own => exact ⟨_, (parseControlFields_shape p.control.toList).1 f own⟩
  | inr computed =>
    obtain ⟨key, value⟩ := plainValue_computed selected clean p.data f computed
    exact ⟨_, (value.field key).1⟩

/-- What is read in the stanza of a package. -/
theorem DebPackage.stanza_reads {p : DebPackage} {suite : String} (selected : Generators.selects suite p.filename = true)
    (clean : '\n' ∉ p.filename.toList) (noReturn : '\r' ∉ p.control.toList) :
    parseControlFields (paragraphText (((p.fields ++ p.computed X).flatMap fieldLines).map stripCr)) =
      overlay (p.fields.map reread) (p.computed X) := by
  obtain ⟨own, increasing⟩ := parseControlFields_shape p.control.toList
  have plain := plainValue_computed (X := X) selected clean p.data
  have steady : ∀ f ∈ p.fields ++ p.computed X, Steady f := by
    intro f mem
    cases List.mem_append.mp mem with
    | inl inside =>
      have field := own f inside
      have key : PlainKey f.1 := ⟨field.named, field.trimmedKey, field.cleanKey⟩
      have parts : ∀ l ∈ breaks f.2.toList, l.getLast? ≠ some '\r' := by
        intro l part last
        -- a carriage return in a value is one of the control file
        cases field.chars '\r' ((mem_breaks part).2 '\r' (List.mem_of_getLast? last)) with
        | inl eq => exact absurd eq (by decide)
        | inr there => exact noReturn there
      exact steady_of_parts key parts
    | inr computed => exact ((plain f computed).2.field (plain f computed).1).2.1
  have kept : ∀ l ∈ (p.fields ++ p.computed X).flatMap fieldLines, l.getLast? ≠ some '\r' := by
    intro l mem
    obtain ⟨f, here, there⟩ := List.mem_flatMap.mp mem
    exact steady f here l there
  have mapped : OrderedMap.Increasing ([] ++ p.fields.map reread) :=
    List.pairwise_map.mpr (increasing.imp fun lt => by simpa only [reread] using lt)
  have whole := OrderedMap.foldl_put mapped
  rw [List.foldl_map] at whole
  have same : ∀ f ∈ p.computed X, reread f = f := by
    intro f mem
    obtain ⟨key, value⟩ := plain f mem
    exact (value.field key).2.2
  rw [map_stripCr kept, paragraphText, flatMap_fieldLines_all,
    parseControlFields_fields (DebPackage.stanza_fields selected clean).2 steady, List.foldl_append, whole, overlay]
  apply List.foldl_ext
  intro fields f mem
  rw [same f mem]

namespace Generators

theorem writesStanzas_reread {w : Disk (debTools X)} {suite : String}
    (clean : ∀ p ∈ w.debPackages suite, '\n' ∉ p.filename.toList) : w.WritesStanzas suite (List.map reread) := by
  intro w' written among
  obtain ⟨content, there, stanzas⟩ := generateApt_alone among
  have all : ∀ p ∈ w.debPackages suite, p.fields ++ p.computed X ≠ [] ∧
      ∀ f ∈ p.fields ++ p.computed X, ∃ content, ControlField content f :=
    fun p mem => DebPackage.stanza_fields (selects_of_mem mem) (clean p mem)
  refine ⟨content, there, ?_⟩
  rw [Disk.Stanzas, stanzas]
  unfold DebPackage.stanza
  rw [paragraphs_flatMap (fun p : DebPackage => p.fields ++ p.computed X) _ all, List.forall₂_map_left_iff,
    List.forall₂_same]
  exact fun p mem noReturn => DebPackage.stanza_reads (selects_of_mem mem) (clean p mem) noReturn

/-- A regeneration comes to its end.  If no name of a package has a line break, each package has a stanza,
    and the stanza of one whose control file has no carriage returns reads as its own fields, with the
    computed ones over them, but for the blanks at the end of the first line of a value. -/
theorem aptPackages_stanzas (w : Disk (debTools X)) (suite : String)
    (clean : ∀ p ∈ w.debPackages suite, '\n' ∉ p.filename.toList) :
    (∃ w', (generateAptMetadata suite).Among (repository (debTools X)).exec Eq w w' true) ∧
      w.WritesStanzas suite (List.map reread) :=
  ⟨generateApt_runs w suite, writesStanzas_reread clean⟩

/-- What is read in a package, from the parts of the way there. -/
theorem controlText_of {bytes tarData : List UInt8} {entries : List ArEntry} {control : ArEntry} {text : String}
    (small : bytes.length < 2 ^ 63) (parsed : parseAr bytes = .ok entries)
    (found : entries.find? (fun e => "control.tar".toList.isPrefixOf e.name.toList) = some control)
    (tar : decompressTar X control.data control.name = .ok tarData)
    (content : controlContent (X.entries tarData) = .ok text) (nonempty : text ≠ "") :
    controlText X bytes = some text := by
  have read : fsRead (.ok ()) bytes = .ok bytes := by
    simp only [fsRead, Outcome.ofExcept, Outcome.bind_eq, Outcome.ok_bind, if_pos small]
    rfl
  simp only [controlText, read, Outcome.ok_bind, debControlText, parsed, Outcome.bind_eq, found, tar, content,
    if_neg nonempty]
  rfl

namespace Small

/-- A list whose first line is folded and ends with a blank. -/
def controlFile : String := "Package: agent\nConffiles:\n /a \n /b\n"

def controlBytes : List UInt8 := Utf8.encode controlFile.toList

def controlTar : List (TarHeader × List UInt8) := [(gnuHeader "./control" controlBytes.length, controlBytes)]

theorem controlTar_sound : ∀ e ∈ controlTar, tarLayout.Sound e := by
  refine List.forall_mem_singleton.mpr ⟨⟨List.all_iff_forall_prop.mp ?_, ?_, ?_, ?_, ?_⟩, rfl⟩
  all_goals decide

theorem length_controlTar : (storedGzip (tarLayout.archive controlTar)).length = 2071 := by
  have contents : controlBytes.length = 35 := by decide
  have archive : (tarLayout.archive controlTar).length = 2048 := by
    rw [controlTar, Bytes.TarFormat.length_archive_singleton (controlTar_sound _ List.mem_cons_self), contents]
    rfl
  rw [length_storedGzip (by omega), archive]

def controlMember : ArMember where
  name := "control.tar.gz"
  attributes := List.replicate 32 0x20
  contents := storedGzip (tarLayout.archive controlTar)
  padding := 0x0A
  name_trimmed := by decide
  name_short := by decide
  attributes_length := length_blankAttributes
  contents_short := by rw [length_controlTar]; decide

def agentDeb : List UInt8 := arBytes [debianBinary, controlMember]

/-- The other digests are those of the package, in bytes. -/
def debLibs : DebLibs where
  gunzip bytes := ((readMember bytes).map Prod.fst).elim (.error "invalid gzip header") .ok
  unxz _ := .error "stream/file format not recognized"
  unzstd _ := .error "Unknown frame descriptor"
  entries tar := storedEntries (storedGzip tar)
  md5 _ := [0x96, 0x52, 0xE4, 0x82, 0xEB, 0x08, 0xA3, 0x8D, 0x80, 0x2E, 0x35, 0x13, 0x4A, 0x8C, 0x2F, 0x0E]
  sha1 := sha1
  sha256 _ := [0xF1, 0x50, 0xE1, 0xFE, 0xCD, 0x84, 0x99, 0x9C, 0x23, 0x8F, 0x59, 0xED, 0xE0, 0xB4, 0x85, 0xEC, 0x36,
    0xE7, 0xA8, 0xDB, 0x53, 0x45, 0x39, 0x56, 0x47, 0xBB, 0xC4, 0xC5, 0x68, 0x29, 0xCD, 0xEA]
  gzip := storedGzip
  parseRpm _ := none

theorem length_package : agentDeb.length = 2204 := by
  have control : controlMember.contents.length = 2071 := length_controlTar
  have first : debianBinary.contents.length = 3 := rfl
  have magic : arMagic.length = 8 := rfl
  rw [agentDeb, arBytes, List.flatMap_cons, List.flatMap_singleton, List.length_append, List.length_append,
    ArMember.length_bytes, ArMember.length_bytes, control, first, magic]

theorem decompressTar_control :
    decompressTar debLibs controlMember.entry.data controlMember.entry.name = .ok (tarLayout.archive controlTar) := by
  have suffix : endsWith ".gz" controlMember.entry.name = true := by decide
  have member := readMember_storedGzip (tarLayout.archive controlTar) []
  rw [List.append_nil] at member
  have unzipped : debLibs.gunzip controlMember.entry.data = .ok (tarLayout.archive controlTar) := by
    change ((readMember (storedGzip (tarLayout.archive controlTar))).map Prod.fst).elim _ _ = _
    rw [member]
    rfl
  rw [decompressTar, if_pos suffix, unzipped]
  rfl

theorem controlContent_control : controlContent (debLibs.entries (tarLayout.archive controlTar)) = .ok controlFile := by
  have lossy : Utf8.fromUtf8Lossy controlBytes = controlFile.toList := Utf8.fromUtf8Lossy_encode _
  have listed : debLibs.entries (tarLayout.archive controlTar) =
      [.ok ⟨"./control", .ok (.ofList (Utf8.fromUtf8Lossy controlBytes))⟩] := storedEntries_archive controlTar_sound
  rw [listed, lossy, String.ofList_toList, controlContent, if_pos (by decide)]
  rfl

theorem controlText_package : controlText debLibs agentDeb = some controlFile := by
  have small : agentDeb.length < 2 ^ 63 := by rw [length_package]; decide
  have found : [debianBinary.entry, controlMember.entry].find? (fun e => "control.tar".toList.isPrefixOf e.name.toList) =
      some controlMember.entry := rfl
  exact controlText_of small (parseAr_arBytes small) found decompressTar_control controlContent_control (by decide)

/-- A directory with the package under a name. -/
def pool (filename : String) : Disk (debTools debLibs) where
  pool _ := [⟨filename, agentDeb, 0⟩]
  index _ := none
  release _ := none
  repomd := none

theorem debPackages_pool (filename : String) (selected : selects "u2404" filename = true) :
    (pool filename).debPackages "u2404" = [⟨filename, agentDeb, controlFile⟩] := by
  have files : (pool filename).debFiles "u2404" = [filename] := by
    have kept : [filename].filter (selects "u2404") = [filename] := List.filter_cons_of_pos selected
    exact (congrArg sortNames kept).trans (List.mergeSort_singleton _)
  have file : ((pool filename).pool .apt).find? (·.filename == filename) = some ⟨filename, agentDeb, 0⟩ :=
    List.find?_cons_of_pos (beq_self_eq_true filename)
  have found : (pool filename).debPackage? filename = some ⟨filename, agentDeb, controlFile⟩ := by
    rw [Disk.debPackage?, file, Option.bind_eq_bind, Option.bind_some, controlText_package]
    rfl
  rw [Disk.debPackages, files, List.filterMap_cons_some found, List.filterMap_nil]

theorem pool_clean : ∀ p ∈ (pool "agent_u2404_amd64.deb").debPackages "u2404", '\n' ∉ p.filename.toList := by
  rw [debPackages_pool _ (by decide)]
  exact List.forall_mem_singleton.mpr (by decide)

end Small

/-- The package is in `Packages` with its own fields and the computed ones. -/
theorem aptPackages_stanzas_agent :
    (∃ w', (generateAptMetadata "u2404").Among (repository (debTools Small.debLibs)).exec Eq
        (Small.pool "agent_u2404_amd64.deb") w' true) ∧
      (Small.pool "agent_u2404_amd64.deb").WritesStanzas "u2404" (List.map reread) :=
  aptPackages_stanzas (Small.pool "agent_u2404_amd64.deb") "u2404" Small.pool_clean

/-- What a stanza says of a package alone in its directory. -/
theorem Disk.WritesStanzas.single {w : Disk (debTools X)} {suite : String} {p : DebPackage}
    {left : OrderedMap String String → OrderedMap String String} (writes : w.WritesStanzas suite left)
    (only : w.debPackages suite = [p]) (noReturn : '\r' ∉ p.control.toList) :
    ∃ paragraph, paragraphs (p.stanza X) = [paragraph] ∧
      parseControlFields (paragraphText paragraph) = overlay (left p.fields) (p.computed X) := by
  obtain ⟨w', run⟩ := generateApt_runs w suite
  obtain ⟨content, there, stanzas⟩ := writes w' true run
  obtain ⟨content', there', text⟩ := generateApt_alone run
  have same : content.toList = content'.toList := by
    have bytes := congrArg Utf8.fromUtf8Lossy (Option.some.inj (there.symm.trans there'))
    rwa [Utf8.fromUtf8Lossy_encode, Utf8.fromUtf8Lossy_encode] at bytes
  rw [only, List.flatMap_singleton] at text
  rw [Disk.Stanzas, only, same, text] at stanzas
  obtain ⟨paragraph, rest, reads, none, parts⟩ := List.forall₂_cons_right_iff.mp stanzas
  rw [List.forall₂_nil_right_iff.mp none] at parts
  exact ⟨paragraph, parts, reads noReturn⟩

/-- A value whose first line is folded and ends with a blank is read without the blank, and a name with
    a line break is not read back. -/
theorem aptPackages_unfaithful :
    ¬ (Small.pool "agent_u2404_amd64.deb").WritesStanzas "u2404" id ∧
      ¬ (Small.pool "agent_u2404_\namd64.deb").WritesStanzas "u2404" (List.map reread) := by
  constructor
  · intro writes
    have only := Small.debPackages_pool "agent_u2404_amd64.deb" (by decide)
    obtain ⟨paragraph, parts, reads⟩ := writes.single only (by decide)
    obtain ⟨lines, parts', reads'⟩ := (writesStanzas_reread Small.pool_clean).single only (by decide)
    obtain rfl := List.singleton_injective (parts.symm.trans parts')
    have fields : parseControlFields Small.controlFile.toList = [("Conffiles", "/a \n /b"), ("Package", "agent")] := by
      decide
    have same := congrArg (OrderedMap.get "Conffiles") (reads.symm.trans reads')
    rw [get_overlay_of_ne (by decide), get_overlay_of_ne (by decide), DebPackage.fields, fields] at same
    exact absurd same (by decide)
  · intro writes
    have only := Small.debPackages_pool "agent_u2404_\namd64.deb" (by decide)
    obtain ⟨paragraph, -, reads⟩ := writes.single only (by decide)
    have value : OrderedMap.get "Filename" (parseControlFields (paragraphText paragraph)) =
        some ("pool/" ++ "agent_u2404_\namd64.deb") := by
      rw [reads]
      exact get_overlay_filename ..
    have field := (parseControlFields_shape _).1 _ (OrderedMap.mem_of_get value)
    have starts := field.folded "pool/agent_u2404_".toList "amd64.deb".toList rfl
    cases starts <;> contradiction

end Generators

end PatchManager
