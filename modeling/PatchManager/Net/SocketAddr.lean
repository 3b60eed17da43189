import Mathlib.Data.List.TakeWhile
import PatchManager.Net.IpAddr

/-! # Socket addresses

How `IpAddr` is written, and how `SocketAddr` is parsed: an IPv4 address, a colon and a port, or an
IPv6 address in brackets, possibly with a scope, a colon and a port.

Main results:

* `parse_v4`: an IPv4 address with a port is read back.
* `parse_v6`: an IPv6 address followed by a colon and a port is not an address of a socket.
-/

namespace PatchManager

namespace IpAddr

/-! ## How addresses are written -/

def octets (bits : BitVec 32) : List Nat :=
  [bits.toNat / 16777216, bits.toNat / 65536 % 256, bits.toNat / 256 % 256, bits.toNat % 256]

def textV4 (bits : BitVec 32) : List Char := ['.'].intercalate ((octets bits).map (Nat.toDigits 10))

def segments (bits : BitVec 128) : List Nat :=
  (List.range 8).map fun i => bits.toNat / 65536 ^ (7 - i) % 65536

/-- Some segments in a row. -/
structure Span where
  start : Nat := 0
  len : Nat := 0

/-- The first of the longest rows of zeros; `i` is the index of the next segment. -/
def zeroes (longest current : Span) (i : Nat) : List Nat → Span
  | [] => longest
  | segment :: rest =>
    if segment = 0 then
      let current : Span := ⟨if current.len = 0 then i else current.start, current.len + 1⟩
      zeroes (if longest.len < current.len then current else longest) current (i + 1) rest
    else zeroes longest {} (i + 1) rest

def fmtSubslice (chunk : List Nat) : List Char := [':'].intercalate (chunk.map (Nat.toDigits 16))

/-- The IPv4 address in an address that starts with `::ffff`. -/
def toIpv4Mapped (bits : BitVec 128) : Option (BitVec 32) :=
  if bits.toNat / 2 ^ 32 = 0xFFFF then some (BitVec.ofNat 32 bits.toNat) else none

def textV6 (bits : BitVec 128) : List Char :=
  match toIpv4Mapped bits with
  | some ipv4 => "::ffff:".toList ++ textV4 ipv4
  | none =>
    let zeroes := zeroes {} {} 0 (segments bits)
    if 1 < zeroes.len then
      fmtSubslice ((segments bits).take zeroes.start) ++ "::".toList ++
        fmtSubslice ((segments bits).drop (zeroes.start + zeroes.len))
    else fmtSubslice (segments bits)

def text : IpAddr → List Char
  | .v4 bits => textV4 bits
  | .v6 bits => textV6 bits

example : text (.v4 0xCB007107#32) = "203.0.113.7".toList := by decide +kernel
example : text (.v6 0x20010DB8000000000001000000000001#128) = "2001:db8::1:0:0:1".toList := by decide +kernel
example : text (.v6 0xFFFF01020304#128) = "::ffff:1.2.3.4".toList := by decide +kernel

end IpAddr

structure SocketAddr where
  ip : IpAddr
  port : Nat
deriving DecidableEq, Repr

namespace SocketAddr

open IpAddr

def readPort : Reader Nat := fun s => do
  let s ← readGivenChar ':' s
  -- any number of digits
  readNumber 10 s.length 65536 true s

def readV4 : Reader SocketAddr := fun s => do
  let (bits, s) ← readIpv4Addr s
  let (port, s) ← readPort s
  return (⟨.v4 bits, port⟩, s)

/-- A scope is read and put aside, where there is one. -/
def readScope (s : List Char) : List Char :=
  match readGivenChar '%' s with
  | none => s
  | some rest => ((readNumber 10 rest.length (2 ^ 32) true rest).map (·.2)).getD s

def readV6 : Reader SocketAddr := fun s => do
  let s ← readGivenChar '[' s
  let (bits, s) ← readIpv6Addr s
  let s ← readGivenChar ']' (readScope s)
  let (port, s) ← readPort s
  return (⟨.v6 bits, port⟩, s)

/-- `parse::<SocketAddr>`, which has to read the whole text. -/
def parse (s : List Char) : Option SocketAddr :=
  match (readV4 s).orElse fun _ => readV6 s with
  | some (addr, []) => some addr
  | _ => none

/-- `format!("{ip}:{port}")`. -/
def format (ip : IpAddr) (port : Nat) : List Char := ip.text ++ ':' :: Nat.toDigits 10 port

example : parse "203.0.113.7:12443".toList = some ⟨.v4 0xCB007107#32, 12443⟩ := by decide +kernel
example : parse "[::1]:12443".toList = some ⟨.v6 1#128, 12443⟩ := by decide +kernel
example : parse (format (.v6 1#128) 12443) = none := by decide +kernel

/-! ## IPv4 is read back -/

section reading

variable {n bound maxDigits : Nat} {rest : List Char}

theorem filterMap_of_mapM {α β : Type} {f : α → Option β} {l : List α} {values : List β}
    (read : l.mapM f = some values) : l.filterMap f = values ∧ ∀ a ∈ l, (f a).isSome = true := by
  induction l generalizing values with
  | nil =>
    cases read
    simp
  | cons a l ih =>
    simp only [List.mapM_cons, Option.bind_eq_bind, Option.bind_eq_some_iff, Option.pure_def, Option.some.injEq] at read
    obtain ⟨value, first, values', others, rfl⟩ := read
    obtain ⟨read, all⟩ := ih others
    simpa [first, read] using all

/-- What is not zero is written without a zero in front. -/
theorem head_toDigits (positive : 0 < n) : (Nat.toDigits 10 n).head? ≠ some '0' := by
  induction n using Nat.strongRecOn with
  | _ n ih =>
    rw [Nat.toDigits_eq_if (by decide)]
    split
    · rename_i digit
      have all : ∀ d < 10, 0 < d → some (Nat.digitChar d) ≠ some '0' := by decide
      exact all n digit positive
    · rw [List.head?_append_of_ne_nil _ Nat.toDigits_ne_nil]
      exact ih (n / 10) (by omega) (by omega)

/-- A number is read back where no digit follows. -/
theorem readNumber_toDigits {allowZeroPrefix : Bool} (small : n < bound) (short : (Nat.toDigits 10 n).length ≤ maxDigits)
    (ends : ∀ c ∈ rest.head?, Str.toDigit 10 c = none) :
    readNumber 10 maxDigits bound allowZeroPrefix (Nat.toDigits 10 n ++ rest) = some (n, rest) := by
  obtain ⟨values, read, value⟩ := Str.digits_read n
  obtain ⟨filtered, all⟩ := filterMap_of_mapM read
  have digits : (Nat.toDigits 10 n ++ rest).takeWhile (fun c => (Str.toDigit 10 c).isSome) = Nat.toDigits 10 n := by
    rw [List.takeWhile_append_of_pos all]
    cases rest with
    | nil => simp
    | cons c rest => simp [ends c rfl]
  have unpadded : ¬((!allowZeroPrefix) = true ∧ (Nat.toDigits 10 n).head? = some '0' ∧ 1 < (Nat.toDigits 10 n).length) := by
    rintro ⟨-, zero, long⟩
    rcases Nat.eq_zero_or_pos n with rfl | positive
    · rw [Nat.toDigits_zero] at long
      simp at long
    · exact head_toDigits positive zero
  have nonempty : (Nat.toDigits 10 n).length ≠ 0 := Nat.ne_of_gt Nat.length_toDigits_pos
  unfold readNumber
  simp only [digits, filtered, value, nonempty, unpadded, if_false, List.drop_left]
  rw [if_neg (by omega)]

theorem octet_lt (bits : BitVec 32) : ∀ n ∈ octets bits, n < 256 := by
  have := bits.isLt
  simp only [octets, List.mem_cons, List.not_mem_nil, or_false]
  omega

theorem readOctet (small : n < 256) (ends : ∀ c ∈ rest.head?, Str.toDigit 10 c = none) :
    readNumber 10 3 256 false (Nat.toDigits 10 n ++ rest) = some (n, rest) :=
  readNumber_toDigits small ((Nat.length_toDigits_le_iff (by decide) (by decide)).mpr (by omega)) ends

theorem textV4_eq (bits : BitVec 32) : textV4 bits = Nat.toDigits 10 (bits.toNat / 16777216) ++ '.' ::
    (Nat.toDigits 10 (bits.toNat / 65536 % 256) ++ '.' ::
      (Nat.toDigits 10 (bits.toNat / 256 % 256) ++ '.' :: Nat.toDigits 10 (bits.toNat % 256))) := by
  simp [textV4, octets, List.intercalate_cons_cons]

theorem readIpv4Addr_textV4 (bits : BitVec 32) (ends : ∀ c ∈ rest.head?, Str.toDigit 10 c = none) :
    readIpv4Addr (textV4 bits ++ rest) = some (bits, rest) := by
  have lt := bits.isLt
  have dot : ∀ l : List Char, ∀ c ∈ ('.' :: l).head?, Str.toDigit 10 c = none := by
    intro l c mem
    obtain rfl := Option.some.inj mem
    decide
  rw [textV4_eq]
  simp only [List.append_assoc, List.cons_append]
  unfold readIpv4Addr
  simp only [readSeparator, readGivenChar, Bool.false_eq_true, if_false, if_true, Option.bind_eq_bind,
    Option.bind_some, readOctet (n := bits.toNat / 16777216) (by omega) (dot _),
    readOctet (Nat.mod_lt (bits.toNat / 65536) (by decide : 0 < 256)) (dot _),
    readOctet (Nat.mod_lt (bits.toNat / 256) (by decide : 0 < 256)) (dot _),
    readOctet (Nat.mod_lt bits.toNat (by decide : 0 < 256)) ends, Option.pure_def, Option.some.injEq, Prod.mk.injEq,
    and_true]
  refine BitVec.eq_of_toNat_eq ?_
  rw [BitVec.toNat_ofNat]
  omega

theorem parse_v4 (bits : BitVec 32) {port : Nat} (small : port < 65536) :
    parse (format (.v4 bits) port) = some ⟨.v4 bits, port⟩ := by
  have colon : ∀ c ∈ (':' :: Nat.toDigits 10 port).head?, Str.toDigit 10 c = none := by
    intro c mem
    obtain rfl := Option.some.inj mem
    decide
  have read : readPort (':' :: Nat.toDigits 10 port) = some (port, []) := by
    have number : readNumber 10 _ 65536 true (Nat.toDigits 10 port ++ []) = some (port, []) :=
      readNumber_toDigits small (Nat.le_refl _) nofun
    rw [List.append_nil] at number
    simp [readPort, readGivenChar, number]
  have address : readV4 (format (.v4 bits) port) = some (⟨.v4 bits, port⟩, []) := by
    simp [readV4, format, text, readIpv4Addr_textV4 bits colon, read]
  simp [parse, address]

/-- An IPv4 address is read back. -/
theorem parse_textV4 (bits : BitVec 32) : IpAddr.parse (text (.v4 bits)) = some (.v4 bits) := by
  have read : readIpv4Addr (textV4 bits ++ []) = some (bits, []) := readIpv4Addr_textV4 bits nofun
  rw [List.append_nil] at read
  simp [IpAddr.parse, readIpAddr, text, read]

end reading

/-! ## IPv6 is not -/

section colons

variable {s rest : List Char}

/-- What is read as a number has no colon. -/
theorem readNumber_consumes {radix maxDigits bound n : Nat} {allowZeroPrefix : Bool}
    (read : readNumber radix maxDigits bound allowZeroPrefix s = some (n, rest)) :
    ∃ digits, s = digits ++ rest ∧ ':' ∉ digits := by
  simp only [readNumber] at read
  split_ifs at read
  obtain ⟨-, rfl⟩ := Prod.mk.inj (Option.some.inj read)
  refine ⟨s.takeWhile fun c => (Str.toDigit radix c).isSome, ?_, fun mem => ?_⟩
  · exact (List.prefix_iff_eq_append.mp (List.takeWhile_prefix _)).symm
  · have digit := List.mem_takeWhile_imp mem
    simp [Str.toDigit] at digit

theorem readGivenChar_eq {c : Char} (read : readGivenChar c s = some rest) : s = c :: rest := by
  cases s with
  | nil => cases read
  | cons d s =>
    simp only [readGivenChar, Option.ite_none_right_eq_some, Option.some.injEq] at read
    rw [read.1, read.2]

/-- An octet after a point. -/
theorem readDotted_consumes {n : Nat} (read : readSeparator '.' false (readNumber 10 3 256 false) s = some (n, rest)) :
    ∃ digits, s = digits ++ rest ∧ ':' ∉ digits := by
  obtain ⟨s', point, number⟩ := Option.bind_eq_some_iff.mp read
  obtain ⟨digits, rfl, none⟩ := readNumber_consumes number
  exact ⟨'.' :: digits, readGivenChar_eq point, by simp [none]⟩

theorem readIpv4Addr_consumes {bits : BitVec 32} (read : readIpv4Addr s = some (bits, rest)) :
    ∃ address, s = address ++ rest ∧ ':' ∉ address := by
  simp only [readIpv4Addr, Option.bind_eq_bind, Option.bind_eq_some_iff, Option.pure_def, Option.some.injEq,
    Prod.mk.injEq, Prod.exists] at read
  obtain ⟨_, s₁, first, _, s₂, second, _, s₃, third, _, s₄, fourth, -, rfl⟩ := read
  obtain ⟨a, rfl, noA⟩ := readNumber_consumes first
  obtain ⟨b, rfl, noB⟩ := readDotted_consumes second
  obtain ⟨c, rfl, noC⟩ := readDotted_consumes third
  obtain ⟨d, rfl, noD⟩ := readDotted_consumes fourth
  exact ⟨a ++ b ++ c ++ d, by simp, by simp [noA, noB, noC, noD]⟩

/-- The text of an IPv4 address with a port has one colon. -/
theorem count_of_readV4 {addr : SocketAddr} (read : readV4 s = some (addr, [])) : s.count ':' = 1 := by
  simp only [readV4, readPort, Option.bind_eq_bind, Option.bind_eq_some_iff, Option.pure_def, Option.some.injEq,
    Prod.mk.injEq, Prod.exists] at read
  obtain ⟨bits, s₁, address, port, _, ⟨s₂, colon, number⟩, -, rfl⟩ := read
  obtain ⟨front, rfl, none⟩ := readIpv4Addr_consumes address
  obtain ⟨digits, rfl, none'⟩ := readNumber_consumes number
  rw [readGivenChar_eq colon]
  simp [List.count_eq_zero.mpr none, List.count_eq_zero.mpr none']

/-- An IPv6 address is written with a colon. -/
theorem colon_mem_textV6 (bits : BitVec 128) : ':' ∈ textV6 bits := by
  unfold textV6
  split
  · simp
  · simp only
    split
    · simp
    · simp [fmtSubslice, segments, List.range_succ, List.intercalate_cons_cons]

theorem bracket_notMem_toDigits (n : Nat) : '[' ∉ Nat.toDigits 16 n := by
  induction n using Nat.strongRecOn with
  | _ n ih =>
    have digit : ∀ d < 16, '[' ≠ Nat.digitChar d := by decide
    rw [Nat.toDigits_eq_if (by decide)]
    split
    · rename_i small
      simp [digit n small]
    · simp only [List.mem_append, List.mem_singleton, not_or]
      exact ⟨ih (n / 16) (Nat.div_lt_self (by omega) (by decide)), digit _ (Nat.mod_lt n (by decide))⟩

theorem bracket_notMem_fmtSubslice (chunk : List Nat) : '[' ∉ fmtSubslice chunk := by
  intro mem
  induction chunk with
  | nil => simp [fmtSubslice] at mem
  | cons segment rest ih =>
    cases rest with
    | nil => simp [fmtSubslice, bracket_notMem_toDigits] at mem
    | cons next rest =>
      simp only [fmtSubslice, List.map_cons, List.intercalate_cons_cons, List.mem_append] at mem ih
      obtain (first | colon) | others := mem
      · exact bracket_notMem_toDigits _ first
      · simp at colon
      · exact ih others

/-- It is not written in brackets. -/
theorem head_textV6 (bits : BitVec 128) : (textV6 bits).head? ≠ some '[' := by
  intro bracket
  unfold textV6 at bracket
  split at bracket
  · simp at bracket
  · have mem := List.mem_of_mem_head? bracket
    simp only at mem
    split at mem
    · simp [bracket_notMem_fmtSubslice] at mem
    · exact bracket_notMem_fmtSubslice _ mem

theorem parse_v6 (bits : BitVec 128) (port : Nat) : parse (format (.v6 bits) port) = none := by
  have colon := colon_mem_textV6 bits
  have noV6 : readV6 (format (.v6 bits) port) = none := by
    cases eq : textV6 bits with
    | nil => simp [eq] at colon
    | cons c rest =>
      have head := head_textV6 bits
      rw [eq, List.head?_cons, ne_eq, Option.some.injEq] at head
      simp [readV6, format, text, eq, readGivenChar, head]
  cases v4 : readV4 (format (.v6 bits) port) with
  | none => simp [parse, v4, noV6]
  | some read =>
    obtain ⟨addr, rest⟩ := read
    cases rest with
    | nil =>
      have one := count_of_readV4 v4
      have some_ := List.one_le_count_iff.mpr colon
      simp only [format, text, List.count_append, List.count_cons_self] at one
      omega
    | cons c rest => simp [parse, v4]

end colons

end SocketAddr

end PatchManager
