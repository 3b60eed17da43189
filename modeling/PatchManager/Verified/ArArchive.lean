import PatchManager.Repo.Ar
import PatchManager.Text.Str
import Mathlib.Tactic.Ring

/-! # Reading `ar` archives

What has been written as an `ar` archive is read back, whatever the members contain, and no byte string
makes the reader panic or run on: what it returns are parts of the string, in their order.

Main result: `parseAr_decodes`.
-/

namespace PatchManager

open PatchManager.Bytes PatchManager.Bytes.Outcome

/-! ## Archives -/

/-- A member as it is written. -/
structure ArMember where
  name : String
  /-- the time of the last change, the owner, the group and the mode -/
  attributes : List UInt8
  contents : List UInt8
  /-- the byte after contents of odd length -/
  padding : UInt8
  name_trimmed : Str.trim name.toList = name.toList
  name_short : (Utf8.encode name.toList).length ≤ 16
  attributes_length : attributes.length = 32
  contents_short : contents.length < 10 ^ 10

/-- The bytes with blanks up to the given width. -/
def padTo (width : Nat) (bytes : List UInt8) : List UInt8 := bytes ++ List.replicate (width - bytes.length) 0x20

namespace ArMember

variable (m : ArMember)

def size : List UInt8 := Utf8.encode (Nat.toDigits 10 m.contents.length)

def header : List UInt8 :=
  padTo 16 (Utf8.encode m.name.toList) ++ (m.attributes ++ (padTo 10 m.size ++ [0x60, 0x0A]))

/-- The byte that makes the length even. -/
def filler : List UInt8 := if m.contents.length % 2 = 1 then [m.padding] else []

def bytes : List UInt8 := m.header ++ (m.contents ++ m.filler)

def entry : ArEntry := ⟨m.name, m.contents⟩

end ArMember

def arBytes (members : List ArMember) : List UInt8 := arMagic ++ members.flatMap ArMember.bytes

/-- The contents are slices of the data, one after the other, and end before `pos`. -/
inductive InOrder (data : List UInt8) : List (List UInt8) → Nat → Prop
  | nil {pos : Nat} : InOrder data [] pos
  | snoc {contents : List (List UInt8)} {content : List UInt8} {start pos : Nat}
      (before : InOrder data contents start) (inside : start + content.length ≤ data.length)
      (read : (data.drop start).take content.length = content) (after : start + content.length ≤ pos) :
      InOrder data (contents ++ [content]) pos

/-! ## Fields of a header -/

theorem length_padTo {width : Nat} {bytes : List UInt8} (short : bytes.length ≤ width) :
    (padTo width bytes).length = width := by
  simp [padTo, short]

theorem encode_blanks (n : Nat) : Utf8.encode (List.replicate n ' ') = List.replicate n 0x20 := by
  induction n with
  | zero => rfl
  | succ n ih =>
    rw [List.replicate_succ, List.replicate_succ, Utf8.encode_cons, ih]
    rfl

/-- A field is read back as the text that has been padded. -/
theorem trim_field (width : Nat) (text : List Char) :
    Str.trim (Utf8.fromUtf8Lossy (padTo width (Utf8.encode text))) = Str.trim text := by
  rw [padTo, ← encode_blanks, ← Utf8.encode_append, Utf8.fromUtf8Lossy_encode,
    Str.trim_append_blank (Str.blank_replicate _)]

theorem digits_not_blank (n : Nat) : ∀ c ∈ Nat.toDigits 10 n, Str.isWhitespace c = false := by
  intro c mem
  have digit := Nat.isDigit_of_mem_toDigits (by decide) (by decide) mem
  simp only [Char.isDigit, Bool.and_eq_true, decide_eq_true_eq] at digit
  have low : 48 ≤ c.toNat := digit.1
  have high : c.toNat ≤ 57 := digit.2
  simp [Str.isWhitespace]
  omega

theorem trim_digits (n : Nat) : Str.trim (Nat.toDigits 10 n) = Nat.toDigits 10 n :=
  Str.trim_eq_self (fun c head => digits_not_blank n c (List.mem_of_head? head))
    fun c last => digits_not_blank n c (List.mem_of_getLast? last)

namespace ArMember

variable (m : ArMember)

theorem length_size : m.size.length ≤ 10 := by
  have ascii : ∀ c ∈ Nat.toDigits 10 m.contents.length, c.toNat < 128 := by
    intro c mem
    have digit := Nat.isDigit_of_mem_toDigits (by decide) (by decide) mem
    simp only [Char.isDigit, Bool.and_eq_true, decide_eq_true_eq] at digit
    have high : c.toNat ≤ 57 := digit.2
    omega
  rw [size, Utf8.length_encode_ascii ascii]
  exact (Nat.length_toDigits_le_iff (by decide) (by decide)).mpr m.contents_short

theorem length_header : m.header.length = 60 := by
  simp [header, length_padTo m.name_short, length_padTo m.length_size, m.attributes_length]

theorem length_filler : m.filler.length = m.contents.length % 2 := by
  unfold filler
  split <;> simp <;> omega

theorem length_bytes : m.bytes.length = 60 + m.contents.length + m.contents.length % 2 := by
  rw [bytes, List.length_append, List.length_append, length_header, length_filler, Nat.add_assoc]

theorem slice_name : slice m.header 0 16 = .ok (padTo 16 (Utf8.encode m.name.toList)) :=
  slice_prefix (length_padTo m.name_short).symm

theorem slice_size : slice m.header 48 58 = .ok (padTo 10 m.size) := by
  have start : (padTo 16 (Utf8.encode m.name.toList) ++ m.attributes).length = 48 := by
    rw [List.length_append, length_padTo m.name_short, m.attributes_length]
  rw [header, ← List.append_assoc]
  exact slice_append start.symm (by rw [start, length_padTo m.length_size])

theorem parse_size :
    Str.parseUnsigned (2 ^ 64) (Str.trim (Utf8.fromUtf8Lossy (padTo 10 m.size))) = some m.contents.length := by
  have short := m.contents_short
  rw [size, trim_field, trim_digits]
  exact Str.parseUnsigned_toDigits (by omega)

end ArMember

/-! ## Written archives -/

/-- One round reads one member. -/
theorem arRound_member (m : ArMember) {before after : List UInt8} {entries : List ArEntry}
    (fits : (before ++ (m.bytes ++ after)).length < 2 ^ 63) :
    arRound (before ++ (m.bytes ++ after)) ⟨before.length, entries⟩ =
      .ok (.inl ⟨(before ++ m.bytes).length, entries ++ [m.entry]⟩) := by
  have total : (before ++ (m.bytes ++ after)).length =
      before.length + (60 + m.contents.length + m.contents.length % 2 + after.length) := by
    rw [List.length_append, List.length_append, m.length_bytes]
  have header : slice (before ++ (m.bytes ++ after)) before.length (before.length + 60) = .ok m.header := by
    rw [ArMember.bytes, List.append_assoc]
    exact slice_append rfl (by rw [m.length_header])
  have content : slice (before ++ (m.bytes ++ after)) (before.length + 60)
      (before.length + 60 + m.contents.length) = .ok m.contents := by
    have start : (before ++ m.header).length = before.length + 60 := by rw [List.length_append, m.length_header]
    have split : before ++ (m.bytes ++ after) = (before ++ m.header) ++ (m.contents ++ (m.filler ++ after)) := by
      simp only [ArMember.bytes, List.append_assoc]
    rw [split]
    exact slice_append start.symm (by rw [start])
  have name : Str.trim (Utf8.fromUtf8Lossy (padTo 16 (Utf8.encode m.name.toList))) = m.name.toList := by
    rw [trim_field, m.name_trimmed]
  rw [total] at fits
  have bounds : m.contents.length % 2 < 2 := Nat.mod_lt _ (by decide)
  have first : add before.length 60 = .ok (before.length + 60) := add_eq (by omega)
  have last : add (before.length + 60) m.contents.length = .ok (before.length + 60 + m.contents.length) :=
    add_eq (by omega)
  simp only [arRound, arMember, bind_eq, first, last, ok_bind, total, header, content, m.slice_name, m.slice_size,
    m.parse_size, name]
  rw [if_pos (by omega), if_neg (by omega)]
  have reached : (before ++ m.bytes).length = before.length + 60 + m.contents.length + m.contents.length % 2 := by
    rw [List.length_append, m.length_bytes]
    omega
  rw [reached, String.ofList_toList]
  by_cases odd : m.contents.length % 2 = 1
  · rw [if_pos odd, add_eq (by omega), odd]
    rfl
  · have even : m.contents.length % 2 = 0 := by omega
    rw [if_neg odd, even]
    rfl

/-- The loop reads the members that are left. -/
theorem arLoop_members {members : List ArMember} (before : List UInt8) (entries : List ArEntry) {fuel : Nat}
    (fits : (before ++ members.flatMap ArMember.bytes).length < 2 ^ 63) (enough : members.length < fuel) :
    loop (arRound (before ++ members.flatMap ArMember.bytes)) fuel ⟨before.length, entries⟩ =
      .ok (entries ++ members.map ArMember.entry) := by
  induction members generalizing before entries fuel with
  | nil =>
    obtain ⟨fuel, rfl⟩ := Nat.exists_eq_succ_of_ne_zero (Nat.ne_of_gt enough)
    simp only [List.flatMap_nil, List.append_nil] at fits ⊢
    have next : add before.length 60 = .ok (before.length + 60) := add_eq (by omega)
    have stop : arRound before ⟨before.length, entries⟩ = .ok (.inr entries) := by
      simp only [arRound, bind_eq, next, ok_bind]
      rw [if_neg (by omega)]
      rfl
    rw [loop, stop, List.map_nil, List.append_nil]
    rfl
  | cons m rest ih =>
    obtain ⟨fuel, rfl⟩ := Nat.exists_eq_succ_of_ne_zero (Nat.ne_of_gt (Nat.zero_lt_of_lt enough))
    rw [List.flatMap_cons] at fits ⊢
    have split : before ++ (m.bytes ++ rest.flatMap ArMember.bytes) =
        (before ++ m.bytes) ++ rest.flatMap ArMember.bytes := (List.append_assoc ..).symm
    rw [loop, arRound_member m fits, ok_bind, Sum.elim_inl, split]
    rw [split] at fits
    rw [ih _ _ fits (Nat.lt_of_succ_lt_succ enough), List.map_cons, List.append_assoc, List.singleton_append]

theorem length_members_le (members : List ArMember) :
    members.length ≤ (members.flatMap ArMember.bytes).length := by
  induction members with
  | nil => exact Nat.le_refl _
  | cons m rest ih =>
    have size := m.length_bytes
    rw [List.flatMap_cons, List.length_append, List.length_cons]
    omega

theorem parseAr_arBytes {members : List ArMember} (fits : (arBytes members).length < 2 ^ 63) :
    parseAr (arBytes members) = .ok (members.map ArMember.entry) := by
  have enough := length_members_le members
  have total : (arBytes members).length = 8 + (members.flatMap ArMember.bytes).length := List.length_append
  have magic : slice (arBytes members) 0 8 = .ok arMagic := slice_prefix rfl
  rw [parseAr, if_neg (by omega), magic, bind_eq, ok_bind, if_neg (by simp)]
  exact arLoop_members arMagic [] fits (by omega)

/-! ## Any bytes -/

/-- What is true of the loop between two rounds. -/
structure ArState.Sound (data : List UInt8) (s : ArState) : Prop where
  inOrder : InOrder data (s.entries.map ArEntry.data) s.pos
  near : s.pos ≤ data.length + 1

theorem InOrder.mono {data : List UInt8} {contents : List (List UInt8)} {pos pos' : Nat}
    (inOrder : InOrder data contents pos) (le : pos ≤ pos') : InOrder data contents pos' := by
  cases inOrder with
  | nil => exact .nil
  | snoc before inside read after => exact .snoc before inside read (Nat.le_trans after le)

/-- A size is read from ten bytes. -/
theorem size_lt {bytes : List UInt8} {size : Nat} (width : bytes.length ≤ 10)
    (read : Str.parseUnsigned (2 ^ 64) (Str.trim (Utf8.fromUtf8Lossy bytes)) = some size) : size < 10 ^ 10 := by
  have short : (Str.trim (Utf8.fromUtf8Lossy bytes)).length ≤ 10 :=
    (Str.length_trim_le _).trans ((Utf8.length_fromUtf8Lossy bytes).trans width)
  exact Nat.lt_of_lt_of_le (Str.parseUnsigned_lt read) (Nat.pow_le_pow_right (by decide) short)

theorem InOrder.whole {data : List UInt8} {contents : List (List UInt8)} {pos : Nat}
    (inOrder : InOrder data contents pos) : InOrder data contents data.length := by
  cases inOrder with
  | nil => exact .nil
  | snoc before inside read after => exact .snoc before inside read inside

theorem arMember_ends {data : List UInt8} (fits : data.length < 2 ^ 63) {s : ArState} (sound : s.Sound data)
    (room : s.pos + 60 ≤ data.length) :
    (arMember data s).Ends (fun _ => False)
      (Sum.elim (fun s' => s'.Sound data ∧ data.length + 1 - s'.pos < data.length + 1 - s.pos)
        fun entries => InOrder data (entries.map ArEntry.data) data.length) := by
  have width : ((data.drop s.pos).take (s.pos + 60 - s.pos)).length = 60 := by
    rw [List.length_take, List.length_drop]
    omega
  simp only [arMember, bind_eq, ends_bind, ends_add, ends_slice, width]
  refine ⟨by omega, ⟨by omega, room⟩, ⟨by omega, by omega⟩, ⟨by omega, by omega⟩, ?_⟩
  split
  next => exact sound.inOrder.whole
  next size read =>
    have short : size < 10 ^ 10 := size_lt (by rw [List.length_take]; omega) read
    simp only [ends_bind, ends_add]
    refine ⟨by omega, by omega, ?_⟩
    split
    next => exact sound.inOrder.whole
    next inside =>
      have length : ((data.drop (s.pos + 60)).take size).length = size := by
        rw [List.length_take, List.length_drop]
        omega
      have next (name : String) (pos : Nat) (reached : s.pos + 60 + size ≤ pos) (near : pos ≤ data.length + 1) :
          ArState.Sound data ⟨pos, s.entries ++ [⟨name, (data.drop (s.pos + 60)).take size⟩]⟩ := by
        refine ⟨?_, near⟩
        rw [List.map_append, List.map_singleton]
        exact .snoc (sound.inOrder.mono (Nat.le_add_right s.pos 60)) (by rw [length]; omega) (by rw [length])
          (by rw [length]; exact reached)
      simp only [ends_bind, ends_add, ends_slice, Nat.add_sub_cancel_left]
      refine ⟨by omega, ⟨by omega, by omega⟩, by omega, ?_⟩
      split
      next =>
        simp only [ends_bind, ends_add]
        exact ⟨by omega, next _ _ (by omega) (by omega), by dsimp only; omega⟩
      next => exact ⟨next _ _ (by omega) (by omega), by dsimp only; omega⟩

/-- A round keeps what is true between rounds, and moves on. -/
theorem arRound_ends {data : List UInt8} (fits : data.length < 2 ^ 63) (s : ArState) (sound : s.Sound data) :
    (arRound data s).Ends (fun _ => False)
      (Sum.elim (fun s' => s'.Sound data ∧ data.length + 1 - s'.pos < data.length + 1 - s.pos)
        fun entries => InOrder data (entries.map ArEntry.data) data.length) := by
  have near := sound.near
  simp only [arRound, bind_eq, ends_bind, ends_add]
  refine ⟨by omega, ?_⟩
  split
  next room => exact arMember_ends fits sound room
  next => exact sound.inOrder.whole

theorem parseAr_ends (data : ByteString) : (parseAr data.val).Ends (fun _ => False)
    fun entries => InOrder data.val (entries.map ArEntry.data) data.val.length := by
  unfold parseAr
  split
  next => exact .nil
  next long =>
    simp only [bind_eq, ends_bind, ends_slice]
    refine ⟨⟨by omega, by omega⟩, ?_⟩
    split
    next => exact .nil
    next =>
      exact ends_loop (ArState.Sound data.val) (fun s => data.val.length + 1 - s.pos)
        (arRound_ends data.property) ⟨.nil, by dsimp only; omega⟩ (by dsimp only; omega)

/-- What has been written is read back; and for any bytes the reader comes to an end without a panic, with
    parts of them that follow one another. -/
theorem parseAr_decodes :
    (∀ members : List ArMember, (arBytes members).length < 2 ^ 63 →
      parseAr (arBytes members) = .ok (members.map ArMember.entry)) ∧
    ∀ data : ByteString, ∃ entries, parseAr data.val = .ok entries ∧
      InOrder data.val (entries.map ArEntry.data) data.val.length :=
  ⟨fun _ fits => parseAr_arBytes fits, fun data => (parseAr_ends data).value⟩

theorem length_blankAttributes : (List.replicate 32 0x20 : List UInt8).length = 32 := by decide

/-- The first member of a package. -/
def debianBinary : ArMember where
  name := "debian-binary"
  attributes := List.replicate 32 0x20
  contents := [0x32, 0x2E, 0x30]
  padding := 0x0A
  name_trimmed := by decide
  name_short := by decide
  attributes_length := length_blankAttributes
  contents_short := by decide

theorem parseAr_debianBinary :
    parseAr (arBytes [debianBinary, debianBinary]) =
      .ok [⟨"debian-binary", [0x32, 0x2E, 0x30]⟩, ⟨"debian-binary", [0x32, 0x2E, 0x30]⟩] :=
  parseAr_decodes.1 [debianBinary, debianBinary]
    (by simp [arBytes, arMagic, ArMember.length_bytes, debianBinary])

end PatchManager
