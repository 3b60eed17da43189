import PatchManager.Repo.Apk
import PatchManager.Verified.GzipMembers

/-! # Archives that are not compressed

An implementation of what the model takes from the crates: gzip members whose blocks are stored as they
are, headers in the layout of `tar`, and a decoder that reads through a buffer.

Main results: `readMember_storedGzip`, `decodeHeader_encodeHeader` and `splitDecoder_consumes`.
-/

namespace PatchManager

open PatchManager.Bytes PatchManager.Bytes.Outcome PatchManager.Bytes.TarFormat

/-! ## Gzip members -/

def littleEndian : Nat → Nat → List UInt8
  | 0, _ => []
  | width + 1, value => .ofNat value :: littleEndian width (value / 256)

def crcBit (c : UInt32) : UInt32 := if c &&& 1 = 1 then (c >>> 1) ^^^ 0xEDB88320 else c >>> 1

def crc32 (data : List UInt8) : UInt32 :=
  data.foldl (fun c b => crcBit^[8] (c ^^^ b.toUInt32)) 0xFFFFFFFF ^^^ 0xFFFFFFFF

/-- Deflate blocks with the data as they are. -/
def storedBlocks (data : List UInt8) : List UInt8 :=
  if data.length ≤ 65535 then
    1 :: .ofNat data.length :: .ofNat (data.length / 256) :: .ofNat (65535 - data.length) ::
      .ofNat ((65535 - data.length) / 256) :: data
  else 0 :: 0xFF :: 0xFF :: 0 :: 0 :: (data.take 65535 ++ storedBlocks (data.drop 65535))
termination_by data.length
decreasing_by
  rw [List.length_drop]
  omega

def gzipHeader : List UInt8 := [0x1F, 0x8B, 8, 0, 0, 0, 0, 0, 0, 0xFF]

def gzipTrailer (data : List UInt8) : List UInt8 :=
  littleEndian 4 (crc32 data).toNat ++ littleEndian 4 data.length

def storedGzip (data : List UInt8) : List UInt8 := gzipHeader ++ (storedBlocks data ++ gzipTrailer data)

/-- The data of stored blocks and the bytes after them. -/
def readBlocks : Nat → List UInt8 → Option (List UInt8 × List UInt8)
  | fuel + 1, final :: low :: high :: _ :: _ :: rest =>
    let size := low.toNat + 256 * high.toNat
    if rest.length < size then none
    else if final = 1 then some (rest.take size, rest.drop size)
    else (readBlocks fuel (rest.drop size)).map fun read => (rest.take size ++ read.1, read.2)
  | _, _ => none

def readMember (bytes : List UInt8) : Option (List UInt8 × List UInt8) :=
  if bytes.take 10 = gzipHeader then
    (readBlocks (bytes.length + 1) (bytes.drop 10)).bind fun read =>
      if 8 ≤ read.2.length then some (read.1, read.2.drop 8) else none
  else none

theorem readBlocks_storedBlocks (data after : List UInt8) (fuel : Nat) (enough : data.length < fuel) :
    readBlocks fuel (storedBlocks data ++ after) = some (data, after) := by
  induction fuel generalizing data with
  | zero => omega
  | succ fuel ih =>
    rw [storedBlocks]
    split
    next small =>
      have size : (UInt8.ofNat data.length).toNat + 256 * (UInt8.ofNat (data.length / 256)).toNat = data.length := by
        simp only [UInt8.toNat_ofNat']
        omega
      simp only [List.cons_append, readBlocks, size, List.take_left, List.drop_left, if_true]
      exact if_neg (by rw [List.length_append]; omega)
    next large =>
      have size : (0xFF : UInt8).toNat + 256 * (0xFF : UInt8).toNat = 65535 := rfl
      have first : (data.take 65535).length = 65535 := by
        rw [List.length_take]
        omega
      have next := ih (data.drop 65535) (by rw [List.length_drop]; omega)
      simp only [List.cons_append, List.append_assoc, readBlocks, size, List.take_left' first, List.drop_left' first,
        next, Option.map_some, List.take_append_drop]
      rw [if_neg (by rw [List.length_append]; omega), if_neg (by decide)]

theorem length_gzipTrailer (data : List UInt8) : (gzipTrailer data).length = 8 := rfl

theorem length_storedBlocks (data : List UInt8) : data.length < (storedBlocks data).length := by
  induction data using storedBlocks.induct with
  | case1 data small =>
    rw [storedBlocks, if_pos small]
    simp only [List.length_cons]
    omega
  | case2 data large ih =>
    rw [storedBlocks, if_neg large]
    simp only [List.length_cons, List.length_append, List.length_take, List.length_drop] at ih ⊢
    omega

theorem readMember_storedGzip (data after : List UInt8) : readMember (storedGzip data ++ after) = some (data, after) := by
  have bytes : storedGzip data ++ after = gzipHeader ++ (storedBlocks data ++ (gzipTrailer data ++ after)) := by
    simp [storedGzip, List.append_assoc]
  have header (rest : List UInt8) : (gzipHeader ++ rest).take 10 = gzipHeader := List.take_left' rfl
  have body (rest : List UInt8) : (gzipHeader ++ rest).drop 10 = rest := List.drop_left' rfl
  have enough := length_storedBlocks data
  rw [bytes, readMember, if_pos (header _), body, readBlocks_storedBlocks _ _ _ (by simp; omega),
    Option.bind_some, List.drop_left' (length_gzipTrailer data)]
  exact if_pos (by simp [length_gzipTrailer])

theorem length_storedGzip {data : List UInt8} (small : data.length ≤ 65535) :
    (storedGzip data).length = data.length + 23 := by
  rw [storedGzip, storedBlocks, if_pos small]
  simp only [List.length_append, List.length_cons, length_gzipTrailer, gzipHeader, List.length_nil]
  omega

/-! ## A decoder -/

namespace Bytes.BufReader

/-- Consumes bytes one by one. -/
def skip : Nat → BufReader → BufReader
  | 0, r => r
  | n + 1, r => skip n (r.fillBuf.consume (min 1 r.fillBuf.buffer.length))

theorem uses_skip (r : BufReader) (n : Nat) : ∃ k, Uses r k (skip n r) := by
  induction n generalizing r with
  | zero => exact ⟨0, .refl r⟩
  | succ n ih =>
    obtain ⟨k, uses⟩ := ih (r.fillBuf.consume (min 1 r.fillBuf.buffer.length))
    exact ⟨_, (Uses.consume (.fill (.refl r)) (Nat.min_le_right _ _)).trans uses⟩

/-- While there is more to read the buffer gets filled. -/
theorem Uses.filled {data : List UInt8} {r : BufReader} {n : Nat} (uses : Uses (new data) n r) (more : n < data.length) :
    1 ≤ r.fillBuf.buffer.length := by
  obtain ⟨-, same, -⟩ := uses.sound (sound_new data)
  have count := uses.consumed.1
  have all : r.data = data := same
  by_cases empty : r.buffer = []
  · rw [empty, List.length_nil, Nat.sub_zero] at count
    rw [fillBuf, if_pos empty]
    simp only [List.length_take, List.length_drop, all, capacity]
    omega
  · rw [fillBuf, if_neg empty]
    exact List.length_pos_iff.mpr empty

theorem Uses.skip {data : List UInt8} {r : BufReader} {n : Nat} (uses : Uses (new data) n r) (k : Nat)
    (inside : n + k ≤ data.length) : Uses (new data) (n + k) (skip k r) := by
  induction k generalizing n r with
  | zero => exact uses
  | succ k ih =>
    have one : min 1 r.fillBuf.buffer.length = 1 := Nat.min_eq_left (uses.filled (by omega))
    have next : Uses (new data) (n + 1) (r.fillBuf.consume 1) := .consume (.fill uses) (uses.filled (by omega))
    have rest := ih next (by omega)
    rw [BufReader.skip, one, show n + (k + 1) = n + 1 + k by omega]
    exact rest

end Bytes.BufReader

/-- Takes the first member that `member` finds. -/
def splitDecoder (member : List UInt8 → Option (List UInt8 × List UInt8)) : GzDecoder where
  State := BufReader × Bool
  new r :=
    match member (r.data.drop r.position) with
    | some (_, after) => (r.skip ((r.data.drop r.position).length - after.length), true)
    | none => (r, false)
  read s := (if s.2 then .ok 0 else .error "invalid gzip header", s)
  intoInner := Prod.fst
  left _ := 0
  new_uses r := by
    split
    · exact BufReader.uses_skip r _
    · exact ⟨0, .refl r⟩
  read_uses := stays_uses
  read_left := stays_left

theorem splitDecoder_consumes {member : List UInt8 → Option (List UInt8 × List UInt8)} {m after data : List UInt8}
    (first : member (m ++ after) = some (data, after)) : (splitDecoder member).consumed (m ++ after) = .ok m.length := by
  have size : (m ++ after).length - after.length = m.length := by
    rw [List.length_append, Nat.add_sub_cancel]
  have start : (splitDecoder member).new (.new (m ++ after)) = ((BufReader.new (m ++ after)).skip m.length, true) := by
    simp only [splitDecoder, BufReader.new, List.drop_zero, first, size]
  have drained (r : BufReader) : (splitDecoder member).drain (r, true) = .ok (r, true) := rfl
  have uses := (BufReader.Uses.refl (.new (m ++ after))).skip m.length (by rw [List.length_append]; omega)
  rw [GzDecoder.consumed, start, drained]
  change Outcome.ok (((BufReader.new (m ++ after)).skip m.length).position -
    ((BufReader.new (m ++ after)).skip m.length).buffer.length) = _
  rw [uses.consumed.1, Nat.zero_add]

theorem splitDecoder_exact : (splitDecoder readMember).Exact fun m => ∃ data, m = storedGzip data where
  header m stored := by
    obtain ⟨data, rfl⟩ := stored
    refine ⟨0, [0, 0, 0, 0, 0, 0xFF] ++ (storedBlocks data ++ gzipTrailer data), rfl, by decide, ?_⟩
    have blocks := length_storedBlocks data
    simp only [List.length_append, length_gzipTrailer, List.length_cons, List.length_nil]
    omega
  consumes m after stored := by
    obtain ⟨data, rfl⟩ := stored
    exact splitDecoder_consumes (readMember_storedGzip data after)

/-! ## Headers -/

/-- The digits of a number in a field, the highest first. -/
def digits (base : Nat) : Nat → Nat → List Nat
  | 0, _ => []
  | width + 1, value => digits base width (value / base) ++ [value % base]

def ofDigits (base : Nat) (ds : List Nat) : Nat := ds.foldl (fun value d => base * value + d) 0

theorem length_digits (base width value : Nat) : (digits base width value).length = width := by
  induction width generalizing value with
  | zero => rfl
  | succ width ih => rw [digits, List.length_append, ih]; rfl

theorem digits_lt {base : Nat} (pos : 0 < base) (width value : Nat) : ∀ d ∈ digits base width value, d < base := by
  induction width generalizing value with
  | zero => exact fun _ mem => absurd mem List.not_mem_nil
  | succ width ih =>
    intro d mem
    cases List.mem_append.mp mem with
    | inl high => exact ih _ d high
    | inr low =>
      rw [List.mem_singleton.mp low]
      exact Nat.mod_lt _ pos

theorem ofDigits_digits {base width value : Nat} (small : value < base ^ width) :
    ofDigits base (digits base width value) = value := by
  induction width generalizing value with
  | zero => exact (Nat.lt_one_iff.mp small).symm
  | succ width ih =>
    have high : value / base < base ^ width := Nat.div_lt_of_lt_mul (by rwa [← Nat.pow_succ'])
    have read := ih high
    rw [ofDigits] at read
    rw [digits, ofDigits, List.foldl_append, read, List.foldl_cons, List.foldl_nil, Nat.div_add_mod]

/-- Digits that are written as bytes and read as digits. -/
theorem map_digits {base width value : Nat} (pos : 0 < base) {write : Nat → UInt8} {read : UInt8 → Nat}
    (back : ∀ d < base, read (write d) = d) :
    ((digits base width value).map write).map read = digits base width value := by
  rw [List.map_map]
  conv_rhs => rw [← List.map_id (digits base width value)]
  exact List.map_congr_left fun d mem => back d (digits_lt pos width value d mem)

/-- Octal digits and a zero. -/
def octalField (width value : Nat) : List UInt8 := (digits 8 width value).map (fun d => .ofNat (48 + d)) ++ [0]

def readOctal (bytes : List UInt8) : Nat := ofDigits 8 (bytes.map fun b => b.toNat - 48)

/-- A length has eleven octal digits or, from eight gigabytes on, eight bytes behind a mark. -/
def sizeField (value : Nat) : List UInt8 :=
  if value < 8 ^ 11 then octalField 11 value else 0x80 :: 0 :: 0 :: 0 :: (digits 256 8 value).map .ofNat

def readSize (bytes : List UInt8) : Nat :=
  if bytes.head? = some 0x80 then ofDigits 256 ((bytes.drop 4).map UInt8.toNat) else readOctal (bytes.take 11)

theorem length_octalField (width value : Nat) : (octalField width value).length = width + 1 := by
  simp [octalField, length_digits]

theorem octalDigit {d : Nat} (small : d < 8) : (UInt8.ofNat (48 + d)).toNat = 48 + d := by
  rw [UInt8.toNat_ofNat']
  omega

theorem readOctal_octalField {width value : Nat} (small : value < 8 ^ width) :
    readOctal ((octalField width value).take width) = value := by
  have back : ∀ d < 8, (UInt8.ofNat (48 + d)).toNat - 48 = d := fun d small => by
    rw [octalDigit small, Nat.add_sub_cancel_left]
  rw [octalField, List.take_left' (by simp [length_digits]), readOctal, map_digits (by decide) back,
    ofDigits_digits small]

theorem length_sizeField (value : Nat) : (sizeField value).length = 12 := by
  rw [sizeField]
  split
  · exact length_octalField 11 value
  · simp [length_digits]

theorem readSize_sizeField {value : Nat} (small : value < 2 ^ 64) : readSize (sizeField value) = value := by
  rw [sizeField]
  split
  next octal =>
    have other : (octalField 11 value).head? ≠ some 0x80 := by
      intro mark
      cases List.mem_append.mp (List.mem_of_mem_head? mark) with
      | inl digit =>
        obtain ⟨d, mem, eq⟩ := List.mem_map.mp digit
        have small := digits_lt (by decide) 11 value d mem
        have number := (octalDigit small).symm.trans (congrArg UInt8.toNat eq)
        rw [show (0x80 : UInt8).toNat = 128 from rfl] at number
        omega
      | inr zero => exact absurd (List.mem_singleton.mp zero) (by decide)
    rw [readSize, if_neg other, readOctal_octalField octal]
  next =>
    have back : ∀ d < 256, (UInt8.ofNat d).toNat = d := fun d small => by
      rw [UInt8.toNat_ofNat']
      omega
    have mark : (0x80 :: 0 :: 0 :: 0 :: (digits 256 8 value).map UInt8.ofNat).head? = some 0x80 := rfl
    rw [readSize, if_pos mark]
    exact (congrArg (ofDigits 256) (map_digits (by decide) back)).trans (ofDigits_digits small)

def nameField (name : List UInt8) : List UInt8 := name ++ zeros (100 - name.length)

def typeflag : EntryType → UInt8
  | .regular => 0x30
  | .xHeader => 0x78

/-- The magic of a format and its version. -/
def magicField : HeaderKind → List UInt8
  | .gnu => [0x75, 0x73, 0x74, 0x61, 0x72, 0x20, 0x20, 0]
  | .ustar => [0x75, 0x73, 0x74, 0x61, 0x72, 0, 0x30, 0x30]

/-- A header up to its checksum. -/
def headerStart (h : TarHeader) : List UInt8 :=
  nameField (Utf8.encode h.path.toList) ++ (octalField 7 h.mode ++ (zeros 16 ++ (sizeField h.size ++ octalField 11 h.mtime)))

def headerEnd (h : TarHeader) : List UInt8 :=
  typeflag h.entryType :: (zeros 100 ++ (magicField h.kind ++ zeros 247))

/-- The sum of the bytes with blanks in place of the checksum. -/
def headerSum (h : TarHeader) : Nat := ((headerStart h ++ headerEnd h).map UInt8.toNat).sum + 8 * 32

def encodeHeader (h : TarHeader) : List UInt8 := headerStart h ++ (octalField 7 (headerSum h) ++ headerEnd h)

def decodeHeader (bytes : List UInt8) : Option TarHeader := some {
  kind := if (bytes.drop 257).take 8 = magicField .gnu then .gnu else .ustar
  path := .ofList (Utf8.fromUtf8Lossy ((bytes.take 100).takeWhile (· != 0)))
  size := readSize ((bytes.drop 124).take 12)
  mode := readOctal ((bytes.drop 100).take 7)
  entryType := if (bytes.drop 156).take 1 = [typeflag .xHeader] then .xHeader else .regular
  mtime := readOctal ((bytes.drop 136).take 11) }

theorem length_nameField {name : List UInt8} (short : name.length ≤ 100) : (nameField name).length = 100 := by
  rw [nameField, List.length_append, length_zeros]
  omega

theorem takeWhile_nameField {name : List UInt8} (nonzero : ∀ b ∈ name, b ≠ 0) :
    (nameField name).takeWhile (· != 0) = name := by
  have zeros (n : Nat) : (zeros n).takeWhile (· != 0) = [] := by
    cases n with
    | zero => rfl
    | succ n => rfl
  rw [nameField, List.takeWhile_append_of_pos fun b mem => by simpa using nonzero b mem, zeros, List.append_nil]

theorem length_magicField (kind : HeaderKind) : (magicField kind).length = 8 := by cases kind <;> rfl

theorem length_headerEnd (h : TarHeader) : (headerEnd h).length = 356 := by
  simp [headerEnd, length_magicField]

/-- What stands behind a part whose place is known. -/
theorem drop_next {bytes part after : List UInt8} {first size : Nat} (here : bytes.drop first = part ++ after)
    (length : part.length = size) : bytes.drop (first + size) = after := by
  rw [← List.drop_drop, here, List.drop_left' length]

theorem take_octalField {bytes after : List UInt8} {width value : Nat} (here : bytes = octalField width value ++ after)
    (small : value < 8 ^ width) : readOctal (bytes.take width) = value := by
  have le : width ≤ (octalField width value).length := by rw [length_octalField]; omega
  rw [here, List.take_append_of_le_length le, readOctal_octalField small]

/-- What fits in the fields. -/
structure TarHeader.Short (h : TarHeader) : Prop where
  nonzero : ∀ b ∈ Utf8.encode h.path.toList, b ≠ 0
  short : (Utf8.encode h.path.toList).length ≤ 100
  size : h.size < 2 ^ 64
  mode : h.mode < 8 ^ 7
  mtime : h.mtime < 8 ^ 11

theorem decodeHeader_encodeHeader {h : TarHeader} (fits : h.Short) : decodeHeader (encodeHeader h) = some h := by
  have name := length_nameField fits.short
  have sum : (octalField 7 (headerSum h)).length = 8 := length_octalField ..
  have kindLength := length_magicField h.kind
  generalize whole : encodeHeader h = bytes
  have at0 : bytes.drop 0 = nameField (Utf8.encode h.path.toList) ++ (octalField 7 h.mode ++ (zeros 16 ++
      (sizeField h.size ++ (octalField 11 h.mtime ++ (octalField 7 (headerSum h) ++ ([typeflag h.entryType] ++
        (zeros 100 ++ (magicField h.kind ++ zeros 247)))))))) := by
    simp [← whole, encodeHeader, headerStart, headerEnd]
  have at100 : bytes.drop 100 = octalField 7 h.mode ++ _ := drop_next at0 name
  have at108 : bytes.drop 108 = zeros 16 ++ _ := drop_next at100 (length_octalField 7 h.mode)
  have at124 : bytes.drop 124 = sizeField h.size ++ _ := drop_next at108 (length_zeros 16)
  have at136 : bytes.drop 136 = octalField 11 h.mtime ++ _ := drop_next at124 (length_sizeField h.size)
  have at148 : bytes.drop 148 = octalField 7 (headerSum h) ++ _ := drop_next at136 (length_octalField 11 h.mtime)
  have at156 : bytes.drop 156 = [typeflag h.entryType] ++ _ := drop_next at148 sum
  have at157 : bytes.drop 157 = zeros 100 ++ _ := drop_next at156 rfl
  have at257 : bytes.drop 257 = magicField h.kind ++ _ := drop_next at157 (length_zeros 100)
  have path : bytes.take 100 = nameField (Utf8.encode h.path.toList) := by
    rw [List.drop_zero] at at0
    rw [at0, List.take_left' name]
  rw [decodeHeader, path, take_octalField at100 fits.mode, at124, take_octalField at136 fits.mtime, at156, at257,
    takeWhile_nameField fits.nonzero, Utf8.fromUtf8Lossy_encode, String.ofList_toList,
    List.take_left' (length_sizeField h.size), readSize_sizeField fits.size, List.take_left' kindLength]
  obtain ⟨kind, path, size, mode, entryType, mtime⟩ := h
  cases kind <;> cases entryType <;> rfl

/-- The layout of the crate, for the headers that it can write. -/
def tarLayout : TarFormat TarHeader where
  Fits := TarHeader.Short
  size := TarHeader.size
  encode := encodeHeader
  decode := decodeHeader
  length_encode h fits := by
    have name := length_nameField fits.short
    simp only [encodeHeader, headerStart, List.length_append, name, length_octalField, length_zeros, length_sizeField,
      length_headerEnd]
  encode_nonzero h _ := by
    refine ⟨typeflag h.entryType, ?_, by cases h.entryType <;> decide⟩
    exact List.mem_append_right _ (List.mem_append_right _ List.mem_cons_self)
  decode_encode _ fits := decodeHeader_encodeHeader fits

/-! ## Digests -/

/-- A message filled up to whole blocks, with its length in bits at the end. -/
def sha1Pad (data : List UInt8) : List UInt8 :=
  data ++ 0x80 :: zeros ((119 - data.length % 64) % 64) ++ (digits 256 8 (8 * data.length)).map .ofNat

def bigEndian32 (bytes : List UInt8) : UInt32 := bytes.foldl (fun value b => value * 256 + b.toUInt32) 0

def rotate (x : UInt32) (n : UInt32) : UInt32 := (x <<< n) ||| (x >>> (32 - n))

/-- The words of a block, latest first, extended to eighty. -/
def sha1Words (block : List UInt8) : List UInt32 :=
  (List.range 64).foldl
    (fun words _ => rotate (words.getD 2 0 ^^^ words.getD 7 0 ^^^ words.getD 13 0 ^^^ words.getD 15 0) 1 :: words)
    ((List.range 16).foldl (fun words i => bigEndian32 ((block.drop (4 * i)).take 4) :: words) [])

structure Sha1State where
  a : UInt32
  b : UInt32
  c : UInt32
  d : UInt32
  e : UInt32

def sha1Round (s : Sha1State) (round : Nat × UInt32) : Sha1State :=
  let (i, word) := round
  let mixed : UInt32 × UInt32 :=
    if i < 20 then ((s.b &&& s.c) ||| (~~~s.b &&& s.d), 0x5A827999)
    else if i < 40 then (s.b ^^^ s.c ^^^ s.d, 0x6ED9EBA1)
    else if i < 60 then ((s.b &&& s.c) ||| (s.b &&& s.d) ||| (s.c &&& s.d), 0x8F1BBCDC)
    else (s.b ^^^ s.c ^^^ s.d, 0xCA62C1D6)
  ⟨rotate s.a 5 + mixed.1 + s.e + mixed.2 + word, s.a, rotate s.b 30, s.c, s.d⟩

def sha1Block (s : Sha1State) (block : List UInt8) : Sha1State :=
  let t := ((List.range 80).zip (sha1Words block).reverse).foldl sha1Round s
  ⟨s.a + t.a, s.b + t.b, s.c + t.c, s.d + t.d, s.e + t.e⟩

def sha1 (data : List UInt8) : List UInt8 :=
  let padded := sha1Pad data
  let s := (List.range (padded.length / 64)).foldl (fun s i => sha1Block s ((padded.drop (64 * i)).take 64))
    ⟨0x67452301, 0xEFCDAB89, 0x98BADCFE, 0x10325476, 0xC3D2E1F0⟩
  [s.a, s.b, s.c, s.d, s.e].flatMap fun word => (digits 256 4 word.toNat).map .ofNat

example : sha1 [0x61, 0x62, 0x63] = [0xA9, 0x99, 0x3E, 0x36, 0x47, 0x06, 0x81, 0x6A, 0xBA, 0x3E, 0x25, 0x71, 0x78, 0x50,
    0xC2, 0x6C, 0x9C, 0xD0, 0xD8, 0x9D] := by decide +kernel

def base64Char (value : Nat) : Char :=
  "ABCDEFGHIJKLMNOPQRSTUVWXYZabcdefghijklmnopqrstuvwxyz0123456789+/".toList.getD (value % 64) '='

def base64 : List UInt8 → List Char
  | x :: y :: z :: rest =>
    let value := 65536 * x.toNat + 256 * y.toNat + z.toNat
    base64Char (value / 262144) :: base64Char (value / 4096) :: base64Char (value / 64) :: base64Char value :: base64 rest
  | [x, y] =>
    let value := 1024 * x.toNat + 4 * y.toNat
    [base64Char (value / 4096), base64Char (value / 64), base64Char value, '=']
  | [x] => [base64Char (x.toNat / 4), base64Char (16 * x.toNat), '=', '=']
  | [] => []

example : base64 [0x66, 0x6F, 0x6F, 0x62] = "Zm9vYg==".toList := by decide

/-! ## The tools -/

/-- The files in the tar of the first member. -/
def storedEntries (bytes : List UInt8) : List (Except String TarItem) :=
  match (readMember bytes).bind fun read => tarLayout.read read.1 with
  | none => [.error "failed to read entire block"]
  | some entries => (entries.filter fun e => e.1.entryType == .regular).map fun e =>
      .ok ⟨e.1.path, .ok (.ofList (Utf8.fromUtf8Lossy e.2))⟩

def storedTools : ApkTools where
  decoder := splitDecoder readMember
  compress := storedGzip
  tar := tarLayout
  entries := storedEntries
  sha1 := sha1
  base64 bytes := .ofList (base64 bytes)

/-- The text files of an archive, as they are listed. -/
theorem storedEntries_archive {entries : List (TarHeader × List UInt8)} (sound : ∀ e ∈ entries, tarLayout.Sound e) :
    storedEntries (storedGzip (tarLayout.archive entries)) =
      (entries.filter fun e => e.1.entryType == .regular).map fun e =>
        .ok ⟨e.1.path, .ok (.ofList (Utf8.fromUtf8Lossy e.2))⟩ := by
  have member := readMember_storedGzip (tarLayout.archive entries) []
  rw [List.append_nil] at member
  rw [storedEntries, member, Option.bind_some, read_archive sound]

/-- Of a part of an archive nothing else is listed. -/
theorem storedEntries_prefix {entries : List (TarHeader × List UInt8)} (sound : ∀ e ∈ entries, tarLayout.Sound e)
    {part : List UInt8} (cut : part <+: tarLayout.archive entries) {item : TarItem}
    (listed : .ok item ∈ storedEntries (storedGzip part)) :
    ∃ e ∈ entries, e.1.entryType = .regular ∧ item.path = e.1.path := by
  have member := readMember_storedGzip part []
  rw [List.append_nil] at member
  rw [storedEntries, member, Option.bind_some] at listed
  cases read : tarLayout.read part with
  | none =>
    rw [read] at listed
    cases List.mem_singleton.mp listed
  | some found =>
    rw [read] at listed
    obtain ⟨e, mem, same⟩ := List.mem_map.mp listed
    obtain ⟨there, regular⟩ := List.mem_filter.mp mem
    refine ⟨e, (read_isPrefix sound cut found read).subset there, by simpa using regular, ?_⟩
    exact (congrArg TarItem.path (Except.ok.inj same)).symm

end PatchManager
