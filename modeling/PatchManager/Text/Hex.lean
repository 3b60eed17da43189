import PatchManager.Text.Str

/-! # Bytes in hexadecimal

`format!("{:02x}", b)` for every byte, and `hex_decode` of `email.rs`, whose pairs are read by
`from_str_radix`.  Only characters of one byte are read; at others the source stops with a panic.
-/

namespace PatchManager.Hex

/-- Two digits, in lower case. -/
def byte (b : UInt8) : List Char := [Nat.digitChar (b.toNat / 16), Nat.digitChar (b.toNat % 16)]

def encode (bytes : List UInt8) : String := String.ofList (bytes.flatMap byte)

/-- `u8::from_str_radix` of two characters: a plus sign may come first. -/
def readByte (a b : Char) : Option UInt8 := do
  let low ← Str.toDigit 16 b
  if a = '+' then return UInt8.ofNat low
  let high ← Str.toDigit 16 a
  return UInt8.ofNat (16 * high + low)

def decodeChars : List Char → Option (List UInt8)
  | [] => some []
  | [_] => none
  | a :: b :: rest => do
    let first ← readByte a b
    let more ← decodeChars rest
    return first :: more

def decode (s : String) : Option (List UInt8) := decodeChars s.toList

theorem toDigit_digitChar : ∀ n < 16, Str.toDigit 16 (Nat.digitChar n) = some n := by decide

theorem digitChar_ne_plus : ∀ n < 16, Nat.digitChar n ≠ '+' := by decide

theorem readByte_byte (b : UInt8) :
    readByte (Nat.digitChar (b.toNat / 16)) (Nat.digitChar (b.toNat % 16)) = some b := by
  have high : b.toNat / 16 < 16 := by have := b.toNat_lt; omega
  have low : b.toNat % 16 < 16 := by omega
  simp only [readByte, toDigit_digitChar _ high, toDigit_digitChar _ low, Option.bind_eq_bind, Option.bind_some,
    digitChar_ne_plus _ high, if_false, pure, Nat.div_add_mod, UInt8.ofNat_toNat]

/-- What is written is read. -/
theorem decode_encode (bytes : List UInt8) : decode (encode bytes) = some bytes := by
  rw [decode, encode, String.toList_ofList]
  induction bytes with
  | nil => rfl
  | cons b rest ih =>
    change decodeChars (_ :: _ :: rest.flatMap byte) = _
    simp only [decodeChars, readByte_byte, ih, Option.bind_eq_bind, Option.bind_some, pure]

theorem encode_isEmpty {bytes : List UInt8} : (encode bytes).isEmpty = bytes.isEmpty := by
  cases bytes with
  | nil => rfl
  | cons b rest =>
    simp [encode, byte]

end PatchManager.Hex
