import Mathlib.Algebra.Group.Nat.Defs
import Mathlib.Data.List.Basic
import Mathlib.Data.List.DropRight

/-! # Text functions of the standard library

The operations on `str` that the service uses, on lists of characters: trimming, splitting at
a separator, lower-casing and reading unsigned numbers.
-/

namespace PatchManager.Str

/-- The Unicode property `White_Space`. -/
def isWhitespace (c : Char) : Bool :=
  let n := c.toNat
  (9 ≤ n && n ≤ 13) || n == 32 || n == 0x85 || n == 0xA0 || n == 0x1680 ||
    (0x2000 ≤ n && n ≤ 0x200A) || n == 0x2028 || n == 0x2029 || n == 0x202F || n == 0x205F ||
    n == 0x3000

def trimStart (s : List Char) : List Char := s.dropWhile isWhitespace

/-- `trim_end_matches` with a predicate. -/
def trimEndMatches (p : Char → Bool) (s : List Char) : List Char := (s.reverse.dropWhile p).reverse

def trim (s : List Char) : List Char := trimEndMatches isWhitespace (trimStart s)

/-- The first element of `split` at a character. -/
def splitNext (c : Char) (s : List Char) : List Char := s.takeWhile (· ≠ c)

/-- `split_once`: around the first occurrence of a text. -/
def splitOnce (pattern : List Char) : List Char → Option (List Char × List Char)
  | [] => if pattern = [] then some ([], []) else none
  | c :: rest =>
    if pattern.isPrefixOf (c :: rest) then some ([], (c :: rest).drop pattern.length)
    else (splitOnce pattern rest).map fun (before, after) => (c :: before, after)

def contains (pattern s : List Char) : Bool := (splitOnce pattern s).isSome

/-- `rsplit_once` at a character: around its last occurrence. -/
def rsplitOnce (c : Char) (s : List Char) : Option (List Char × List Char) :=
  if c ∈ s then
    let after := (s.reverse.takeWhile (· ≠ c)).reverse
    some (s.take (s.length - after.length - 1), after)
  else none

/-- The words of a text, as `split_whitespace` gives them. -/
def words (s : List Char) : List (List Char) := (s.splitOnP isWhitespace).filter (· ≠ [])

/-- `replace`, from left to right; the first `skip` characters belong to what was found. -/
def replaceFrom (pattern value : List Char) : Nat → List Char → List Char
  | _, [] => []
  | skip + 1, _ :: rest => replaceFrom pattern value skip rest
  | 0, c :: rest =>
    if pattern.isPrefixOf (c :: rest) then value ++ replaceFrom pattern value (pattern.length - 1) rest
    else c :: replaceFrom pattern value 0 rest

def replace (pattern value s : List Char) : List Char := replaceFrom pattern value 0 s

def toAsciiLowercase (s : List Char) : List Char := s.map Char.toLower

/-- The value of a digit in the given radix, upper and lower case. -/
def toDigit (radix : Nat) (c : Char) : Option Nat :=
  let value :=
    if '0' ≤ c ∧ c ≤ '9' then some (c.toNat - '0'.toNat)
    else if 'a' ≤ c ∧ c ≤ 'z' then some (c.toNat - 'a'.toNat + 10)
    else if 'A' ≤ c ∧ c ≤ 'Z' then some (c.toNat - 'A'.toNat + 10)
    else none
  value.filter (· < radix)

/-- `parse` of an unsigned number below `bound`: a plus sign may come first, and at least one
    digit has to follow. -/
def parseUnsigned (bound : Nat) (s : List Char) : Option Nat :=
  let digits := if s.head? = some '+' then s.tail else s
  if digits = [] then none
  else do
    let values ← digits.mapM (toDigit 10)
    let value := values.foldl (fun v d => 10 * v + d) 0
    if value < bound then some value else none

example : trim " a b\t".toList = "a b".toList := by decide
example : splitOnce "://".toList "http://a://b".toList = some ("http".toList, "a://b".toList) := by decide
example : rsplitOnce ':' "a:b:80".toList = some ("a:b".toList, "80".toList) := by decide
example : parseUnsigned 65536 "+443".toList = some 443 := by decide

/-- What is appended after a separator does not change the first element. -/
theorem splitNext_append (c : Char) (s more : List Char) :
    splitNext c (s ++ c :: more) = splitNext c s := by
  induction s with
  | nil => simp [splitNext]
  | cons d rest ih =>
    by_cases same : d = c
    · simp [splitNext, same]
    · simpa [splitNext, same] using ih

theorem splitNext_of_notMem {c : Char} {s : List Char} (missing : c ∉ s) (more : List Char) :
    splitNext c (s ++ more) = s ++ splitNext c more := by
  refine List.takeWhile_append_of_pos fun d mem => ?_
  simpa using fun eq : d = c => missing (eq ▸ mem)

theorem words_sep {c : Char} (blank : isWhitespace c = true) (s more : List Char) :
    words (s ++ c :: more) = words s ++ words more := by
  rw [words, List.splitOnP_append_cons s more blank, List.filter_append, words, words]

theorem blank_free {s : List Char} (word : s.all (!isWhitespace ·) = true) : ∀ c ∈ s, isWhitespace c = false := by
  simpa using word

theorem words_of_word {s : List Char} (word : ∀ c ∈ s, isWhitespace c = false) (nonempty : s ≠ []) :
    words s = [s] := by
  simp [words, List.splitOnP_eq_singleton word, nonempty]

/-- A text without the separator starts a joined text where it starts the first part. -/
theorem prefix_sep {pattern : List Char} {c : Char} (sep : c ∉ pattern) (s more : List Char) :
    pattern <+: s ++ c :: more ↔ pattern <+: s := by
  induction s generalizing pattern with
  | nil =>
    cases pattern with
    | nil => simp
    | cons d rest =>
      have ne : d ≠ c := fun eq => sep (by simp [eq])
      simp [ne]
  | cons d s ih =>
    cases pattern with
    | nil => simp
    | cons e rest => simp [ih (fun mem => sep (List.mem_cons_of_mem e mem))]

theorem replaceFrom_cons (pattern value : List Char) (c : Char) (rest : List Char) :
    replaceFrom pattern value 0 (c :: rest) =
      if pattern.isPrefixOf (c :: rest) then value ++ replaceFrom pattern value (pattern.length - 1) rest
      else c :: replaceFrom pattern value 0 rest := rfl

/-- Nothing is found across a separator, so the parts are replaced one by one. -/
theorem replaceFrom_sep {pattern : List Char} {c : Char} (sep : c ∉ pattern)
    (value more : List Char) {skip : Nat} {s : List Char} (within : skip ≤ s.length) :
    replaceFrom pattern value skip (s ++ c :: more) =
      replaceFrom pattern value skip s ++ replaceFrom pattern value 0 (c :: more) := by
  induction s generalizing skip with
  | nil =>
    obtain rfl : skip = 0 := Nat.le_zero.mp within
    simp [replaceFrom]
  | cons d rest ih =>
    cases skip with
    | succ skip => exact ih (Nat.le_of_succ_le_succ within)
    | zero =>
      have same : pattern.isPrefixOf (d :: (rest ++ c :: more)) = pattern.isPrefixOf (d :: rest) := by
        rw [Bool.eq_iff_iff, List.isPrefixOf_iff_prefix, List.isPrefixOf_iff_prefix]
        exact prefix_sep sep (d :: rest) more
      rw [List.cons_append, replaceFrom_cons pattern value d (rest ++ c :: more), replaceFrom_cons pattern value d rest,
        same]
      split
      case isTrue starts =>
        have short := (List.isPrefixOf_iff_prefix.mp starts).length_le
        rw [ih (by simp at short; omega), List.append_assoc]
      case isFalse => rw [ih (Nat.zero_le _), List.cons_append]

theorem replace_sep {pattern : List Char} {c : Char} (sep : c ∉ pattern) (value s more : List Char) :
    replace pattern value (s ++ c :: more) = replace pattern value s ++ replace pattern value (c :: more) :=
  replaceFrom_sep sep value more (Nat.zero_le _)

theorem replace_of_notMem {d : Char} {pattern s : List Char} (missing : d ∉ s) (value : List Char) :
    replace (d :: pattern) value s = s := by
  induction s with
  | nil => rfl
  | cons c rest ih =>
    have ne : d ≠ c := fun eq => missing (by simp [eq])
    have rest' := ih fun mem => missing (List.mem_cons_of_mem c mem)
    rw [replace, replaceFrom_cons, if_neg (by simp [ne])]
    exact congrArg _ rest'

theorem contains_iff {pattern s : List Char} : contains pattern s = true ↔ pattern <:+: s := by
  induction s with
  | nil => by_cases empty : pattern = [] <;> simp [contains, splitOnce, empty]
  | cons c rest ih =>
    rw [List.infix_cons_iff, ← ih]
    by_cases starts : pattern.isPrefixOf (c :: rest) = true
    · simp [contains, splitOnce, starts, List.isPrefixOf_iff_prefix.mp starts]
    · have starts' : ¬ pattern <+: c :: rest := fun h => starts (List.isPrefixOf_iff_prefix.mpr h)
      simp [contains, splitOnce, starts, starts']

theorem contains_of_isPrefixOf {pattern s : List Char} (starts : pattern.isPrefixOf s = true) :
    contains pattern s = true :=
  contains_iff.mpr (List.isPrefixOf_iff_prefix.mp starts).isInfix

/-- A text without the separator is found in one of the parts. -/
theorem infix_sep {pattern : List Char} {c : Char} (sep : c ∉ pattern) (nonempty : pattern ≠ [])
    (s more : List Char) : pattern <:+: s ++ c :: more ↔ pattern <:+: s ∨ pattern <:+: more := by
  induction s with
  | nil =>
    have start := prefix_sep sep [] more
    rw [List.nil_append] at start ⊢
    simp [List.infix_cons_iff, start, nonempty]
  | cons d s ih =>
    have start := prefix_sep sep (d :: s) more
    rw [List.cons_append] at start ⊢
    rw [List.infix_cons_iff, List.infix_cons_iff, start, ih, or_assoc]

theorem contains_sep {pattern : List Char} {c : Char} (sep : c ∉ pattern) (nonempty : pattern ≠ [])
    (s more : List Char) : contains pattern (s ++ c :: more) = (contains pattern s || contains pattern more) := by
  rw [Bool.eq_iff_iff, Bool.or_eq_true, contains_iff, contains_iff, contains_iff]
  exact infix_sep sep nonempty s more

theorem isPrefixOf_sep {pattern : List Char} {c : Char} (sep : c ∉ pattern) (s more : List Char) :
    pattern.isPrefixOf (s ++ c :: more) = pattern.isPrefixOf s := by
  rw [Bool.eq_iff_iff, List.isPrefixOf_iff_prefix, List.isPrefixOf_iff_prefix]
  exact prefix_sep sep s more

/-! ## Numbers that are written are read -/

theorem toDigit_digitChar : ∀ d < 10, toDigit 10 (Nat.digitChar d) = some d := by decide

theorem digits_read (n : Nat) : ∃ values, (Nat.toDigits 10 n).mapM (toDigit 10) = some values ∧
    values.foldl (fun v d => 10 * v + d) 0 = n := by
  induction n using Nat.strongRecOn with
  | _ n ih =>
    rw [Nat.toDigits_eq_if (by decide)]
    split
    · rename_i digit
      exact ⟨[n], by simp [toDigit_digitChar n digit], by simp⟩
    · obtain ⟨values, read, value⟩ := ih (n / 10) (Nat.div_lt_self (by omega) (by decide))
      refine ⟨values ++ [n % 10], ?_, ?_⟩
      · simp [List.mapM_append, read, toDigit_digitChar _ (Nat.mod_lt n (by decide))]
      · rw [List.foldl_append, value]
        simp [Nat.div_add_mod]

theorem toDigits_injective {m n : Nat} (same : Nat.toDigits 10 m = Nat.toDigits 10 n) : m = n := by
  obtain ⟨values, read, value⟩ := digits_read m
  obtain ⟨values', read', value'⟩ := digits_read n
  rw [same, read'] at read
  obtain rfl := Option.some.inj read
  exact value.symm.trans value'

theorem parseUnsigned_toDigits {bound n : Nat} (small : n < bound) :
    parseUnsigned bound (Nat.toDigits 10 n) = some n := by
  obtain ⟨values, read, value⟩ := digits_read n
  have noSign : (Nat.toDigits 10 n).head? ≠ some '+' := by
    intro eq
    have digit := Nat.isDigit_of_mem_toDigits (by decide) (by decide) (List.mem_of_head? eq)
    revert digit
    decide
  simp [parseUnsigned, noSign, Nat.toDigits_ne_nil, read, value, small]

theorem toDigit_lt {c : Char} {radix digit : Nat} (read : toDigit radix c = some digit) : digit < radix := by
  obtain ⟨-, small⟩ := Option.filter_eq_some_iff.mp read
  simpa using small

theorem value_lt {s : List Char} {values : List Nat} (read : s.mapM (toDigit 10) = some values) (value : Nat) :
    values.foldl (fun v d => 10 * v + d) value < (value + 1) * 10 ^ s.length := by
  induction s generalizing values value with
  | nil =>
    cases read
    simp
  | cons c rest ih =>
    simp only [List.mapM_cons, Option.bind_eq_bind, Option.bind_eq_some_iff, Option.pure_def,
      Option.some.injEq] at read
    obtain ⟨digit, first, others, later, rfl⟩ := read
    have small := toDigit_lt first
    calc others.foldl (fun v d => 10 * v + d) (10 * value + digit)
        < (10 * value + digit + 1) * 10 ^ rest.length := ih later _
      _ ≤ (value + 1) * 10 * 10 ^ rest.length := Nat.mul_le_mul_right _ (by omega)
      _ = (value + 1) * 10 ^ (c :: rest).length := by rw [List.length_cons, Nat.pow_succ', Nat.mul_assoc]

/-- A number is smaller than its number of characters allows. -/
theorem parseUnsigned_lt {bound value : Nat} {s : List Char} (read : parseUnsigned bound s = some value) :
    value < 10 ^ s.length := by
  have signs : (if s.head? = some '+' then s.tail else s).length ≤ s.length := by
    split
    · simp
    · exact Nat.le_refl _
  simp only [parseUnsigned] at read
  generalize (if s.head? = some '+' then s.tail else s) = digits at read signs
  split at read
  · cases read
  · simp only [Option.bind_eq_bind, Option.bind_eq_some_iff, Option.ite_none_right_eq_some, Option.some.injEq] at read
    obtain ⟨values, digits, -, rfl⟩ := read
    have small := value_lt digits 0
    rw [Nat.zero_add, Nat.one_mul] at small
    exact Nat.lt_of_lt_of_le small (Nat.pow_le_pow_right (by decide) signs)

end PatchManager.Str

/-! ## Trimming

What `trim` leaves of a text that is put together from parts.

Main results: `trim_append_blank` and `trim_blank_append`, blanks around a text do not count, and
`trim_eq_self`, a text is left alone when neither end is blank.
-/

namespace PatchManager.Str

/-- Nothing but white space. -/
def Blank (s : List Char) : Prop := ∀ c ∈ s, isWhitespace c = true

instance (s : List Char) : Decidable (Blank s) :=
  List.decidableBAll _ s

def trimEnd (s : List Char) : List Char := s.rdropWhile isWhitespace

theorem trim_eq (s : List Char) : trim s = trimEnd (trimStart s) := rfl

@[simp] theorem trim_nil : trim [] = [] := rfl

theorem blank_replicate (n : Nat) : Blank (List.replicate n ' ') := by
  intro c mem
  rw [List.eq_of_mem_replicate mem]
  decide

theorem trimEnd_append_blank {s t : List Char} (blank : Blank t) : trimEnd (s ++ t) = trimEnd s := by
  unfold trimEnd List.rdropWhile
  rw [List.reverse_append, List.dropWhile_append_of_pos fun c mem => blank c (List.mem_reverse.mp mem)]

theorem trimStart_blank_append {s t : List Char} (blank : Blank s) : trimStart (s ++ t) = trimStart t :=
  List.dropWhile_append_of_pos blank

theorem trim_blank_append {s t : List Char} (blank : Blank s) : trim (s ++ t) = trim t := by
  rw [trim_eq, trimStart_blank_append blank, trim_eq]

theorem trim_of_blank {s : List Char} (blank : Blank s) : trim s = [] := by
  simpa using trim_blank_append (t := []) blank

theorem trimStart_append (s t : List Char) :
    trimStart (s ++ t) = if Blank s then trimStart t else trimStart s ++ t := by
  unfold trimStart
  rw [List.dropWhile_append]
  by_cases blank : Blank s
  · rw [if_pos blank, if_pos (by rw [List.dropWhile_eq_nil_iff.mpr blank]; rfl)]
  · have rest : s.dropWhile isWhitespace ≠ [] := fun nil => blank (List.dropWhile_eq_nil_iff.mp nil)
    rw [if_neg blank, if_neg (by simpa using rest)]

theorem trim_append_blank {s t : List Char} (blank : Blank t) : trim (s ++ t) = trim s := by
  by_cases all : Blank s
  · rw [trim_blank_append all, trim_of_blank blank, trim_of_blank all]
  · rw [trim_eq, trimStart_append, if_neg all, trimEnd_append_blank blank, trim_eq]

theorem trimStart_eq_self {s : List Char} (starts : ∀ c ∈ s.head?, isWhitespace c = false) : trimStart s = s := by
  cases s with
  | nil => rfl
  | cons c rest => exact List.dropWhile_cons_of_neg (by simpa using starts c rfl)

theorem trimEnd_eq_self {s : List Char} (ends : ∀ c ∈ s.getLast?, isWhitespace c = false) : trimEnd s = s := by
  refine List.rdropWhile_eq_self_iff.mpr fun nonempty => ?_
  simpa using ends _ (List.getLast?_eq_some_getLast nonempty)

theorem trim_eq_self {s : List Char} (starts : ∀ c ∈ s.head?, isWhitespace c = false)
    (ends : ∀ c ∈ s.getLast?, isWhitespace c = false) : trim s = s := by
  rw [trim_eq, trimStart_eq_self starts, trimEnd_eq_self ends]

theorem trimEnd_isPrefix (s : List Char) : trimEnd s <+: s := List.rdropWhile_prefix _ _

theorem trimStart_suffix (s : List Char) : trimStart s <:+ s := List.dropWhile_suffix _

theorem trim_isInfix (s : List Char) : trim s <:+: s :=
  (trimEnd_isPrefix _).isInfix.trans (trimStart_suffix s).isInfix

theorem length_trim_le (s : List Char) : (trim s).length ≤ s.length := (trim_isInfix s).length_le

end PatchManager.Str
