import PatchManager.Repo.PkgInfo
import PatchManager.Text.Str

/-! # Lines and folded values

The lines of a text that is put together from lines, and values whose further lines are marked by a
blank in front.

Main results: `lines_flatMap`, what has been written line by line is read line by line, and
`Folded.trim`, trimming a folded value leaves it folded.
-/

namespace PatchManager

open PatchManager.Str

/-! ## Lines -/

theorem linesFrom_append {text : List Char} (clean : '\n' ∉ text) (line rest : List Char) :
    linesFrom line (text ++ rest) = linesFrom (text.reverse ++ line) rest := by
  induction text generalizing line with
  | nil => rfl
  | cons c text ih =>
    have ne : c ≠ '\n' := fun eq => clean (eq ▸ List.mem_cons_self)
    rw [List.cons_append, linesFrom, if_neg ne, ih fun mem => clean (List.mem_cons_of_mem c mem)]
    simp

theorem lines_cons {line : List Char} (clean : '\n' ∉ line) (rest : List Char) :
    lines (line ++ '\n' :: rest) = stripCr line :: lines rest := by
  rw [lines, linesFrom_append clean, linesFrom, if_pos rfl, List.append_nil, List.reverse_reverse, lines]

/-- What has been written line by line is read line by line. -/
theorem lines_flatMap {written : List (List Char)} (clean : ∀ l ∈ written, '\n' ∉ l) (rest : List Char) :
    lines (written.flatMap (· ++ ['\n']) ++ rest) = written.map stripCr ++ lines rest := by
  induction written with
  | nil => rfl
  | cons l written ih =>
    obtain ⟨first, others⟩ := List.forall_mem_cons.mp clean
    rw [List.flatMap_cons, List.append_assoc, List.append_assoc, List.singleton_append, lines_cons first, ih others,
      List.map_cons, List.cons_append]

theorem stripCr_eq_self {line : List Char} (other : line.getLast? ≠ some '\r') : stripCr line = line := if_neg other

theorem stripCr_isPrefix (line : List Char) : stripCr line <+: line := by
  unfold stripCr
  split
  · exact List.dropLast_prefix line
  · exact List.prefix_refl line

theorem mem_linesFrom {line text l : List Char} (mem : l ∈ linesFrom line text) (clean : '\n' ∉ line) :
    '\n' ∉ l ∧ ∀ c ∈ l, c ∈ line ∨ c ∈ text := by
  induction text generalizing line with
  | nil =>
    rw [linesFrom] at mem
    split at mem
    · cases mem
    · obtain rfl := List.mem_singleton.mp mem
      exact ⟨by simpa using clean, fun c there => .inl (List.mem_reverse.mp there)⟩
  | cons c text ih =>
    rw [linesFrom] at mem
    split at mem
    next =>
      cases List.mem_cons.mp mem with
      | inl here =>
        have all : ∀ d ∈ l, d ∈ line := fun d there =>
          List.mem_reverse.mp ((stripCr_isPrefix line.reverse).subset (here ▸ there))
        exact ⟨fun break_ => clean (all _ break_), fun d there => .inl (all d there)⟩
      | inr later =>
        obtain ⟨none, chars⟩ := ih later List.not_mem_nil
        exact ⟨none, fun d there => .inr (List.mem_cons_of_mem c ((chars d there).resolve_left List.not_mem_nil))⟩
    next other =>
      have clean' : '\n' ∉ c :: line := fun there => (List.mem_cons.mp there).elim (fun eq => other eq.symm) clean
      obtain ⟨none, chars⟩ := ih mem clean'
      refine ⟨none, fun d there => ?_⟩
      cases chars d there with
      | inl there =>
        cases List.mem_cons.mp there with
        | inl eq => exact .inr (eq ▸ List.mem_cons_self)
        | inr there => exact .inl there
      | inr there => exact .inr (List.mem_cons_of_mem c there)

/-- A line has no line feed, and its characters are those of the text. -/
theorem mem_lines {text l : List Char} (mem : l ∈ lines text) : '\n' ∉ l ∧ ∀ c ∈ l, c ∈ text := by
  obtain ⟨none, chars⟩ := mem_linesFrom mem List.not_mem_nil
  exact ⟨none, fun c there => (chars c there).resolve_left List.not_mem_nil⟩

/-! ## Line feeds -/

/-- The parts between line feeds. -/
def breaks (text : List Char) : List (List Char) := text.splitOnP (· == '\n')

theorem breaks_newline (text : List Char) : breaks ('\n' :: text) = [] :: breaks text := by
  rw [breaks, List.splitOnP_cons_eq_if_modifyHead, if_pos (by simp), breaks]

theorem breaks_char {c : Char} (other : c ≠ '\n') (text : List Char) :
    breaks (c :: text) = (breaks text).modifyHead (c :: ·) := by
  rw [breaks, List.splitOnP_cons_eq_if_modifyHead, if_neg (by simpa using other), breaks]

theorem breaks_append {start : List Char} (clean : '\n' ∉ start) (text : List Char) :
    breaks (start ++ text) = (breaks text).modifyHead (start ++ ·) := by
  induction start with
  | nil =>
    have same : (fun part : List Char => [] ++ part) = id := funext fun part => rfl
    rw [List.nil_append, same, List.modifyHead_id]
    rfl
  | cons c start ih =>
    have other : c ≠ '\n' := fun eq => clean (eq ▸ List.mem_cons_self)
    rw [List.cons_append, breaks_char other, ih fun mem => clean (List.mem_cons_of_mem c mem)]
    cases breaks text <;> rfl

/-- The first part, and the others each behind its line feed. -/
theorem breaks_eq (text : List Char) : ∃ others, breaks text = text.takeWhile (· ≠ '\n') :: others ∧
    text.dropWhile (· ≠ '\n') = others.flatMap ('\n' :: ·) := by
  induction text with
  | nil => exact ⟨[], rfl, rfl⟩
  | cons c text ih =>
    obtain ⟨others, parts, rest⟩ := ih
    by_cases newline : c = '\n'
    · subst newline
      refine ⟨text.takeWhile (· ≠ '\n') :: others, by simp [breaks_newline, parts], ?_⟩
      rw [List.flatMap_cons, ← rest, List.cons_append, List.takeWhile_append_dropWhile]
      exact List.dropWhile_cons_of_neg (by simp)
    · exact ⟨others, by simp [breaks_char newline, parts, newline], by simpa [newline] using rest⟩

/-- Written as lines, the parts are the text with a line feed at the end. -/
theorem flatMap_breaks (text : List Char) : (breaks text).flatMap (· ++ ['\n']) = text ++ ['\n'] := by
  induction text with
  | nil => rfl
  | cons c text ih =>
    by_cases newline : c = '\n'
    · rw [newline, breaks_newline, List.flatMap_cons, ih]
      rfl
    · obtain ⟨others, parts, -⟩ := breaks_eq text
      rw [parts, List.flatMap_cons] at ih
      rw [breaks_char newline, parts, List.modifyHead_cons, List.flatMap_cons, List.cons_append, List.cons_append, ih]
      rfl

theorem mem_breaks {text l : List Char} (mem : l ∈ breaks text) : '\n' ∉ l ∧ ∀ c ∈ l, c ∈ text := by
  induction text generalizing l with
  | nil =>
    obtain rfl := List.mem_singleton.mp mem
    exact ⟨List.not_mem_nil, fun c there => there⟩
  | cons c text ih =>
    by_cases newline : c = '\n'
    · rw [newline, breaks_newline] at mem
      cases List.mem_cons.mp mem with
      | inl empty => rw [empty]; exact ⟨List.not_mem_nil, fun d there => absurd there List.not_mem_nil⟩
      | inr later => exact ⟨(ih later).1, fun d there => List.mem_cons_of_mem c ((ih later).2 d there)⟩
    · obtain ⟨others, parts, -⟩ := breaks_eq text
      rw [breaks_char newline, parts, List.modifyHead_cons] at mem
      rw [parts] at ih
      cases List.mem_cons.mp mem with
      | inl here =>
        obtain ⟨none, chars⟩ := ih List.mem_cons_self
        rw [here]
        refine ⟨fun there => (List.mem_cons.mp there).elim (fun eq => newline eq.symm) none, fun d there => ?_⟩
        exact (List.mem_cons.mp there).elim (fun eq => eq ▸ List.mem_cons_self) fun there => List.mem_cons_of_mem c (chars d there)
      | inr later =>
        obtain ⟨none, chars⟩ := ih (List.mem_cons_of_mem _ later)
        exact ⟨none, fun d there => List.mem_cons_of_mem c (chars d there)⟩

/-! ## Folded values -/

/-- The text begins with a blank or a tab. -/
def StartsBlank (text : List Char) : Prop := text.head? = some ' ' ∨ text.head? = some '\t'

/-- Behind every line feed there is a blank. -/
def Folded (value : List Char) : Prop :=
  ∀ before after, value = before ++ '\n' :: after → StartsBlank after

theorem folded_of_clean {value : List Char} (clean : '\n' ∉ value) : Folded value := by
  intro before after split
  exact absurd (split ▸ List.mem_append_right _ List.mem_cons_self) clean

theorem StartsBlank.append {text : List Char} (starts : StartsBlank text) (more : List Char) :
    StartsBlank (text ++ more) := by
  cases text with
  | nil => cases starts <;> contradiction
  | cons c text => exact starts

/-- A line that begins with a blank goes on with the value. -/
theorem Folded.append {value line : List Char} (folded : Folded value) (starts : StartsBlank line)
    (clean : '\n' ∉ line) : Folded (value ++ '\n' :: line) := by
  intro before after split
  cases List.append_eq_append_iff.mp split with
  | inl inside =>
    obtain ⟨between, rfl, rest⟩ := inside
    cases between with
    | nil =>
      obtain ⟨-, rfl⟩ := List.cons.inj rest
      exact starts
    | cons c between =>
      obtain ⟨-, rest⟩ := List.cons.inj rest
      exact absurd (rest ▸ List.mem_append_right _ List.mem_cons_self) clean
  | inr inside =>
    obtain ⟨between, whole, rest⟩ := inside
    cases between with
    | nil =>
      obtain ⟨-, rfl⟩ := List.cons.inj rest
      exact starts
    | cons c between =>
      obtain ⟨rfl, rfl⟩ := List.cons.inj rest
      exact (folded before between whole).append _

theorem head?_trim (text : List Char) : ∀ c ∈ (trim text).head?, isWhitespace c = false := by
  intro c head
  have starts := List.head?_dropWhile_not isWhitespace text
  have inside := (trimEnd_isPrefix (trimStart text))
  cases trimmed : trim text with
  | nil => rw [trimmed] at head; cases head
  | cons d rest =>
    obtain rfl := Option.some.inj ((congrArg List.head? trimmed).symm.trans head)
    rw [← trim_eq, trimmed] at inside
    obtain ⟨more, whole⟩ := inside
    rw [show text.dropWhile isWhitespace = d :: (rest ++ more) from whole.symm] at starts
    exact starts

theorem getLast?_trim (text : List Char) : ∀ c ∈ (trim text).getLast?, isWhitespace c = false := by
  intro c last
  obtain ⟨nonempty, rfl⟩ := List.mem_getLast?_eq_getLast last
  exact Bool.eq_false_iff.mpr (List.rdropWhile_last_not isWhitespace (trimStart text) nonempty)

/-- Trimming leaves a folded value folded. -/
theorem Folded.trim {value : List Char} (folded : Folded value) : Folded (Str.trim value) := by
  intro before after split
  obtain ⟨front, back, whole⟩ := trim_isInfix value
  have starts : StartsBlank (after ++ back) := folded (front ++ before) (after ++ back) (by rw [← whole, split]; simp)
  cases after with
  | nil =>
    have last := getLast?_trim value '\n' (by simp [split])
    exact absurd last (by decide)
  | cons c after => exact starts

/-- All parts but the first begin with a blank. -/
theorem Folded.breaks {value first : List Char} {others : List (List Char)} (folded : Folded value)
    (parts : PatchManager.breaks value = first :: others) : ∀ l ∈ others, StartsBlank l := by
  obtain ⟨others', parts', rest⟩ := breaks_eq value
  obtain ⟨-, rfl⟩ := List.cons.inj (parts.symm.trans parts')
  intro l mem
  obtain ⟨before, after, rfl⟩ := List.append_of_mem mem
  have whole : value = (value.takeWhile (· ≠ '\n') ++ before.flatMap ('\n' :: ·)) ++
      '\n' :: (l ++ after.flatMap ('\n' :: ·)) := by
    conv_lhs => rw [← List.takeWhile_append_dropWhile (p := (· ≠ '\n')) (l := value), rest]
    simp
  have starts := folded _ _ whole
  cases l with
  | nil =>
    cases after with
    | nil => cases starts <;> contradiction
    | cons l after => exact absurd starts (by simp [StartsBlank])
  | cons c l => exact starts

end PatchManager
