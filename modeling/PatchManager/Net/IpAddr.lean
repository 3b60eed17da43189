import PatchManager.Text.Str

/-! # Addresses

`IpAddr` of the standard library and how it is parsed: IPv4 in four decimal numbers without
leading zeros, IPv6 in groups of hexadecimal digits with at most one `::` and possibly an IPv4
address at the end.
-/

namespace PatchManager

inductive IpAddr where
  | v4 (bits : BitVec 32)
  | v6 (bits : BitVec 128)
deriving DecidableEq, Repr

namespace IpAddr

/-- What reads a value from the front of a text, and what it leaves. -/
abbrev Reader (α : Type) := List Char → Option (α × List Char)

def readGivenChar (target : Char) : List Char → Option (List Char)
  | c :: rest => if c = target then some rest else none
  | [] => none

/-- All but the first in a row of values come after a separator. -/
def readSeparator {α : Type} (sep : Char) (first : Bool) (inner : Reader α) : Reader α := fun s =>
  if first then inner s else (readGivenChar sep s).bind inner

/-- A number below `bound`, of at most `maxDigits` digits. -/
def readNumber (radix maxDigits bound : Nat) (allowZeroPrefix : Bool) : Reader Nat := fun s =>
  let digits := s.takeWhile fun c => (Str.toDigit radix c).isSome
  let result := (digits.filterMap (Str.toDigit radix)).foldl (fun v d => radix * v + d) 0
  if maxDigits < digits.length ∨ bound ≤ result then none
  else if digits.length = 0 then none
  else if !allowZeroPrefix ∧ digits.head? = some '0' ∧ 1 < digits.length then none
  else some (result, s.drop digits.length)

def readIpv4Addr : Reader (BitVec 32) := fun s => do
  let octet := readNumber 10 3 256 false
  let (a, s) ← octet s
  let (b, s) ← readSeparator '.' false octet s
  let (c, s) ← readSeparator '.' false octet s
  let (d, s) ← readSeparator '.' false octet s
  return (BitVec.ofNat 32 (((a * 256 + b) * 256 + c) * 256 + d), s)

/-- Groups of an IPv6 address, at most so many, and whether they end in an IPv4 address.  One
    takes the place of two groups. -/
def readGroups : Nat → Bool → List Char → List Nat × Bool × List Char
  | 0, _, s => ([], false, s)
  | left + 1, first, s =>
    match if 0 < left then readSeparator ':' first readIpv4Addr s else none with
    | some (bits, s) => ([bits.toNat / 65536, bits.toNat % 65536], true, s)
    | none =>
      match readSeparator ':' first (readNumber 16 4 65536 true) s with
      | some (group, s) =>
        let (groups, ipv4, s) := readGroups left false s
        (group :: groups, ipv4, s)
      | none => ([], false, s)

def ofGroups (groups : List Nat) : BitVec 128 :=
  BitVec.ofNat 128 (groups.foldl (fun v group => 65536 * v + group) 0)

def readIpv6Addr : Reader (BitVec 128) := fun s => do
  let (head, headIpv4, s) := readGroups 8 true s
  if head.length = 8 then return (ofGroups head, s)
  -- an IPv4 address is not allowed before `::`
  if headIpv4 then none
  let s ← readGivenChar ':' s
  let s ← readGivenChar ':' s
  let (tail, _, s) := readGroups (8 - (head.length + 1)) true s
  return (ofGroups (head ++ List.replicate (8 - head.length - tail.length) 0 ++ tail), s)

def readIpAddr : Reader IpAddr := fun s =>
  match readIpv4Addr s with
  | some (bits, s) => some (.v4 bits, s)
  | none => (readIpv6Addr s).map fun (bits, s) => (.v6 bits, s)

/-- `parse::<IpAddr>`, which has to read the whole text. -/
def parse (s : List Char) : Option IpAddr :=
  match readIpAddr s with
  | some (ip, []) => some ip
  | _ => none

example : parse "203.0.113.7".toList = some (.v4 0xCB007107#32) := by decide +kernel
example : parse "::ffff:1.2.3.4".toList = some (.v6 0xFFFF01020304#128) := by decide +kernel
example : parse "1.2.3.04".toList = none := by decide +kernel

end IpAddr

end PatchManager
