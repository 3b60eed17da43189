import Mathlib.Data.List.Basic

/-! # Text in UTF-8

The bytes of a text, and the lenient reading of bytes as text that the standard library has: what
is no character is replaced by U+FFFD, one for each longest beginning of a character.

Main results: `fromUtf8Lossy_encode`, a text is read as it was written, and
`length_fromUtf8Lossy`, a text has at most one character for each byte.
-/

namespace PatchManager.Utf8

def encode (s : List Char) : List UInt8 := s.flatMap String.utf8EncodeChar

/-- The character that the bytes begin with. -/
def decodeChar (bytes : List UInt8) : Option Char := bytes.toByteArray.utf8DecodeChar? 0

def isContinuation (b : UInt8) : Bool := 0x80 ≤ b && b ≤ 0xBF

/-- The second byte of a character of three or four bytes. -/
def isSecond (first second : UInt8) : Bool :=
  if first = 0xE0 then 0xA0 ≤ second && second ≤ 0xBF
  else if first = 0xED then 0x80 ≤ second && second ≤ 0x9F
  else if first = 0xF0 then 0x90 ≤ second && second ≤ 0xBF
  else if first = 0xF4 then 0x80 ≤ second && second ≤ 0x8F
  else isContinuation second

/-- How many bytes are replaced together where no character begins. -/
def invalidLength : List UInt8 → Nat
  | first :: second :: rest =>
    if 0xE0 ≤ first && first ≤ 0xF4 && isSecond first second then
      if 0xF0 ≤ first && rest.head?.any isContinuation then 3 else 2
    else 1
  | _ => 1

/-- The first `skip` bytes belong to the character before. -/
def lossyFrom : Nat → List UInt8 → List Char
  | _, [] => []
  | skip + 1, _ :: rest => lossyFrom skip rest
  | 0, b :: rest =>
    match decodeChar (b :: rest) with
    | some c => c :: lossyFrom (c.utf8Size - 1) rest
    | none => '\uFFFD' :: lossyFrom (invalidLength (b :: rest) - 1) rest

/-- `String::from_utf8_lossy`. -/
def fromUtf8Lossy (bytes : List UInt8) : List Char := lossyFrom 0 bytes

example : fromUtf8Lossy [0x61, 0xC3, 0xA9, 0xFF, 0xE2, 0x82, 0x62] = ['a', 'é', '\uFFFD', '\uFFFD', 'b'] := by decide

/-! ## Characters -/

@[simp] theorem encode_nil : encode [] = [] := rfl

@[simp] theorem encode_cons (c : Char) (s : List Char) : encode (c :: s) = String.utf8EncodeChar c ++ encode s := rfl

@[simp] theorem encode_append (s t : List Char) : encode (s ++ t) = encode s ++ encode t := List.flatMap_append

theorem decodeChar_encode (c : Char) (rest : List UInt8) : decodeChar (String.utf8EncodeChar c ++ rest) = some c := by
  rw [decodeChar, List.toByteArray_append]
  exact ByteArray.utf8DecodeChar?_utf8EncodeChar_append

theorem lossyFrom_skip (part rest : List UInt8) : lossyFrom part.length (part ++ rest) = lossyFrom 0 rest := by
  induction part with
  | nil => rfl
  | cons b part ih => exact ih

theorem lossyFrom_char (c : Char) (rest : List UInt8) :
    lossyFrom 0 (String.utf8EncodeChar c ++ rest) = c :: lossyFrom 0 rest := by
  have size := String.length_utf8EncodeChar c
  have positive := c.utf8Size_pos
  have decoded := decodeChar_encode c rest
  cases bytes : String.utf8EncodeChar c with
  | nil =>
    rw [bytes, List.length_nil] at size
    omega
  | cons b part =>
    rw [bytes] at size decoded
    have skip : c.utf8Size - 1 = part.length := by
      rw [← size, List.length_cons, Nat.add_sub_cancel]
    rw [List.cons_append] at decoded ⊢
    simp only [lossyFrom, decoded]
    rw [skip, lossyFrom_skip]

/-! ## Texts -/

/-- Characters of the ASCII range take one byte each. -/
theorem length_encode_ascii {s : List Char} (ascii : ∀ c ∈ s, c.toNat < 128) : (encode s).length = s.length := by
  induction s with
  | nil => rfl
  | cons c s ih =>
    obtain ⟨first, rest⟩ := List.forall_mem_cons.mp ascii
    have small : c.val ≤ 127 := Nat.le_of_lt_succ first
    have size : c.utf8Size = 1 := Char.utf8Size_eq_one_iff.mpr small
    rw [encode_cons, List.length_append, String.length_utf8EncodeChar, size, ih rest, List.length_cons, Nat.add_comm]

theorem fromUtf8Lossy_encode_append (s : List Char) (rest : List UInt8) :
    fromUtf8Lossy (encode s ++ rest) = s ++ fromUtf8Lossy rest := by
  induction s with
  | nil => rfl
  | cons c s ih =>
    rw [encode_cons, List.append_assoc, fromUtf8Lossy, lossyFrom_char, List.cons_append]
    exact congrArg (c :: ·) ih

theorem fromUtf8Lossy_encode (s : List Char) : fromUtf8Lossy (encode s) = s := by
  simpa [fromUtf8Lossy, lossyFrom] using fromUtf8Lossy_encode_append s []

theorem length_lossyFrom (skip : Nat) (bytes : List UInt8) : (lossyFrom skip bytes).length ≤ bytes.length := by
  induction bytes generalizing skip with
  | nil => simp [lossyFrom]
  | cons b rest ih =>
    cases skip with
    | succ skip => exact Nat.le_succ_of_le (ih skip)
    | zero =>
      unfold lossyFrom
      split
      · exact Nat.succ_le_succ (ih _)
      · exact Nat.succ_le_succ (ih _)

theorem length_fromUtf8Lossy (bytes : List UInt8) : (fromUtf8Lossy bytes).length ≤ bytes.length :=
  length_lossyFrom 0 bytes

end PatchManager.Utf8
