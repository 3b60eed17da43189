import PatchManager.Repo.Rpm

/-! # Reading RPM headers

No byte string makes the reader of RPM packages panic, whatever lengths and offsets it holds; and from a
well-formed package it returns what stands under the tags it asks for.

Main results: `parseRpm_ends` and `parseRpm_bytes`, which `parseRpm_reads` puts together.
-/

namespace PatchManager.Rpm

open PatchManager.Bytes PatchManager.Bytes.Outcome

/-! ## Any bytes -/

/-- The call ends without a panic. -/
def Safe {α : Type} (x : Outcome α) : Prop := x.Ends (fun _ => True) fun _ => True

theorem Safe.bind {α β : Type} {x : Outcome α} {rest : α → Outcome β} (first : Safe x)
    (second : ∀ value, Safe (rest value)) : Safe (x.bind rest) := by
  rw [Safe, ends_bind]
  exact Ends.mono first (fun _ error => error) fun value _ => second value

theorem readEntry_ends {data : List UInt8} (fits : data.length < 2 ^ 63) (indexStart i : Nat)
    (inside : indexStart + i * 16 + 16 ≤ data.length) :
    (readEntry data indexStart i).Ends (fun _ => True) fun entry => entry.offset < 2 ^ 32 := by
  simp only [readEntry, bind_eq]
  rw [ends_bind, ends_mul]
  refine ⟨by omega, ?_⟩
  rw [ends_bind, ends_add]
  refine ⟨by omega, ?_⟩
  refine number_bind_ends fits (by omega) fun tag _ => number_bind_ends fits (by omega) fun type _ => ?_
  exact number_bind_ends fits (by omega) fun offset small => number_bind_ends fits (by omega) fun count _ => small

theorem readEntries_ends {data : List UInt8} (fits : data.length < 2 ^ 63) (indexStart : Nat) :
    ∀ (left i : Nat), indexStart + 16 * (i + left) ≤ data.length →
      (readEntries data indexStart i left).Ends (fun _ => True) fun entries => ∀ e ∈ entries, e.offset < 2 ^ 32
  | 0, _, _ => fun _ mem => absurd mem List.not_mem_nil
  | left + 1, i, inside => by
    have first := readEntry_ends fits indexStart i (by omega)
    have rest := readEntries_ends fits indexStart left (i + 1) (by omega)
    simp only [readEntries, bind_eq, pure_eq, ends_bind, ends_ok]
    exact first.mono (fun _ error => error) fun _ small => rest.mono (fun _ error => error) fun _ others =>
      List.forall_mem_cons.mpr ⟨small, others⟩

theorem readRpmHeader_ends {data : List UInt8} (fits : data.length < 2 ^ 63) {offset : Nat}
    (near : offset < 2 ^ 63) :
    (readRpmHeader data offset).Ends (fun _ => True) fun header =>
      (∀ e ∈ header.1, e.offset < 2 ^ 32) ∧ header.2.length < 2 ^ 63 := by
  simp only [readRpmHeader, bind_eq, ends_bind, ends_add]
  refine ⟨by omega, ?_⟩
  split
  next => trivial
  next room =>
    simp only [ends_bind, ends_within]
    refine ⟨by omega, by omega, ⟨by omega, by omega⟩, ?_⟩
    split
    next => trivial
    next =>
      refine number_bind_ends fits (by omega) fun numEntries entriesSmall => ?_
      refine number_bind_ends fits (by omega) fun dataLen lenSmall => ?_
      simp only [ends_bind, ends_add, ends_mul]
      refine ⟨by omega, by omega, by omega, by omega, ?_⟩
      split
      next => trivial
      next inside =>
        rw [ends_bind]
        refine (readEntries_ends fits _ numEntries 0 (by omega)).mono (fun _ error => error) fun entries small => ?_
        simp only [pure_eq, ends_bind, ends_ok, ends_add, ends_slice]
        refine ⟨by omega, ⟨by omega, by omega⟩, small, ?_⟩
        rw [List.length_take]
        omega

theorem rpmReadString_ends {data : List UInt8} (fits : data.length < 2 ^ 63) (offset : Nat) :
    Safe (rpmReadString data offset) := by
  unfold Safe rpmReadString
  split
  next => trivial
  next inside =>
    have stops : (((data.drop offset).take (data.length - offset)).findIdx? (· == 0)).getD (data.length - offset) ≤
        data.length - offset := by
      cases found : ((data.drop offset).take (data.length - offset)).findIdx? (· == 0) with
      | none => exact Nat.le_refl _
      | some i =>
        have bound := (List.findIdx?_eq_some_iff_findIdx_eq.mp found).1
        rw [List.length_take, List.length_drop] at bound
        exact Nat.le_of_lt (by simpa using bound)
    simp only [bind_eq, pure_eq, ends_bind, ends_ok, ends_add, ends_sub, ends_slice, and_true]
    omega

theorem rpmReadInt32_ends (data : List UInt8) {offset : Nat} (near : offset < 2 ^ 63) :
    Safe (rpmReadInt32 data offset) := by
  simp only [Safe, rpmReadInt32, bind_eq, ends_bind, ends_add]
  refine ⟨by omega, ?_⟩
  split
  next => trivial
  next =>
    simp only [pure_eq, ends_bind, ends_ok, ends_number, and_true]
    omega

section

variable {entries : List RpmIndexEntry} {data : List UInt8}

theorem rpmGetString_ends (fits : data.length < 2 ^ 63) (tag : Nat) : Safe (rpmGetString entries data tag) := by
  unfold rpmGetString
  split
  next entry _ => exact rpmReadString_ends fits entry.offset
  next => trivial

theorem rpmGetInt32_ends (small : ∀ e ∈ entries, e.offset < 2 ^ 32) (tag : Nat) :
    Safe (rpmGetInt32 entries data tag) := by
  unfold rpmGetInt32
  split
  next entry found => exact rpmReadInt32_ends data (Nat.lt_trans (small entry (List.mem_of_find?_eq_some found)) (by decide))
  next => trivial

theorem rpmInfo_ends (small : ∀ e ∈ entries, e.offset < 2 ^ 32) (fits : data.length < 2 ^ 63) :
    Safe (rpmInfo entries data) := by
  have text (tag : Nat) : Safe (rpmGetString entries data tag) := rpmGetString_ends fits tag
  have number (tag : Nat) : Safe (rpmGetInt32 entries data tag) := rpmGetInt32_ends small tag
  exact (text 1000).bind fun _ => (text 1001).bind fun _ => (text 1002).bind fun _ => (number 1003).bind fun _ =>
    (text 1022).bind fun _ => (text 1004).bind fun _ => (text 1005).bind fun _ => (text 1020).bind fun _ =>
    (text 1014).bind fun _ => (number 1006).bind fun _ => (number 1009).bind fun _ => (number 1046).bind fun _ => trivial

end

theorem mainOffset_ends {size : Nat} (small : size < 2 ^ 40) :
    (mainOffset size).Ends (fun _ => True) fun offset => offset < 2 ^ 41 := by
  simp only [mainOffset, bind_eq, ends_bind, ends_add]
  omega

theorem parseRpm_ends (data : ByteString) : Safe (parseRpm data.val) := by
  obtain ⟨data, fits⟩ := data
  change Safe (parseRpm data)
  unfold Safe parseRpm
  split
  next => trivial
  next long =>
    simp only [bind_eq, ends_bind, ends_slice]
    refine ⟨⟨by omega, by omega⟩, ?_⟩
    split
    next => trivial
    next =>
      simp only [ends_bind, ends_add]
      refine ⟨by omega, ?_⟩
      split
      next => trivial
      next room =>
        simp only [ends_bind, ends_within]
        refine ⟨by omega, by omega, ⟨by omega, by omega⟩, ?_⟩
        split
        next => trivial
        next =>
          refine number_bind_ends fits (by omega) fun numEntries entriesSmall => ?_
          refine number_bind_ends fits (by omega) fun dataLen lenSmall => ?_
          simp only [ends_bind, ends_add, ends_mul]
          refine ⟨by omega, by omega, by omega, ?_⟩
          refine (mainOffset_ends (by omega)).mono (fun _ error => error) fun offset near => ?_
          refine (readRpmHeader_ends fits (by omega)).mono (fun _ error => error) fun header small => ?_
          exact rpmInfo_ends small.1 small.2

/-! ## Well-formed packages -/

/-- What stands under a tag. -/
inductive Value where
  | string (text : List UInt8)
  | i18nString (text : List UInt8) (others : List (List UInt8))
  | int32 (number : Nat) (others : List Nat)
  | other (type count : Nat) (bytes : List UInt8)

def terminated (text : List UInt8) : List UInt8 := text ++ [0]

namespace Value

def type : Value → Nat
  | string _ => 6
  | i18nString _ _ => 9
  | int32 _ _ => 4
  | other type _ _ => type

def count : Value → Nat
  | string _ => 1
  | i18nString _ others => others.length + 1
  | int32 _ others => others.length + 1
  | other _ count _ => count

def bytes : Value → List UInt8
  | string text => terminated text
  | i18nString text others => terminated text ++ others.flatMap terminated
  | int32 number others => toBigEndian number ++ others.flatMap toBigEndian
  | other _ _ bytes => bytes

/-- Texts end at their first zero. -/
def Proper : Value → Prop
  | string text => 0 ∉ text
  | i18nString text others => 0 ∉ text ∧ ∀ t ∈ others, 0 ∉ t
  | int32 number others => number < 2 ^ 32 ∧ ∀ n ∈ others, n < 2 ^ 32
  | other type _ _ => type ≠ 4 ∧ type ≠ 6 ∧ type ≠ 9

def text? : Value → Option (List UInt8)
  | string text => some text
  | i18nString text _ => some text
  | _ => none

def number? : Value → Option Nat
  | int32 number _ => some number
  | _ => none

end Value

/-- A tag of a header: where in the store its value is, and the value. -/
structure Tag where
  tag : Nat
  offset : Nat
  value : Value
  tag_lt : tag < 2 ^ 32
  offset_lt : offset < 2 ^ 32
  type_lt : value.type < 2 ^ 32
  count_lt : value.count < 2 ^ 32
  proper : value.Proper

namespace Tag

variable (t : Tag)

def entry : RpmIndexEntry := ⟨t.tag, t.value.type, t.offset, t.value.count⟩

/-- The text under the tag that is asked for. -/
def text? (tag : Nat) (t : Tag) : Option (List UInt8) := if t.tag = tag then t.value.text? else none

def number? (tag : Nat) (t : Tag) : Option Nat := if t.tag = tag then t.value.number? else none

def bytes : List UInt8 :=
  toBigEndian t.tag ++ (toBigEndian t.value.type ++ (toBigEndian t.offset ++ toBigEndian t.value.count))

end Tag

/-- A header: its tags in any order, and a store that has the value of each where its offset says. -/
structure Header where
  /-- the version and what is reserved -/
  reserved : List UInt8
  tags : List Tag
  store : List UInt8
  reserved_length : reserved.length = 5
  tags_few : tags.length < 2 ^ 32
  store_short : store.length < 2 ^ 32
  stored : ∀ t ∈ tags, t.value.bytes <+: store.drop t.offset

namespace Header

variable (h : Header)

def intro : List UInt8 :=
  headerMagic ++ (h.reserved ++ (toBigEndian h.tags.length ++ toBigEndian h.store.length))

def bytes : List UInt8 := h.intro ++ (h.tags.flatMap Tag.bytes ++ h.store)

/-- The first text under a tag. -/
def text (tag : Nat) : String :=
  (h.tags.findSome? (Tag.text? tag)).elim "" fun bytes => .ofList (Utf8.fromUtf8Lossy bytes)

/-- The first number under a tag. -/
def number (tag : Nat) : Option Nat := h.tags.findSome? (Tag.number? tag)

/-- What the package says about itself. -/
def info : RpmInfo where
  name := h.text 1000
  version := h.text 1001
  release := h.text 1002
  epoch := (h.number 1003).getD 0
  arch := h.text 1022
  summary := h.text 1004
  description := h.text 1005
  url := h.text 1020
  license := h.text 1014
  buildTime := (h.number 1006).getD 0
  size := (h.number 1009).getD 0
  archiveSize := (h.number 1046).getD 0

end Header

/-- A package: the second header starts at a multiple of 8. -/
structure Package where
  /-- the lead after its magic number -/
  lead : List UInt8
  signature : Header
  padding : List UInt8
  main : Header
  payload : List UInt8
  lead_length : lead.length = 92
  aligned : (96 + signature.bytes.length + padding.length) % 8 = 0
  padding_short : padding.length < 8

def Package.bytes (p : Package) : List UInt8 :=
  leadMagic ++ (p.lead ++ (p.signature.bytes ++ (p.padding ++ (p.main.bytes ++ p.payload))))

/-! ## Values -/

/-- A text ends at the first zero. -/
theorem findIdx_zero {text : List UInt8} (free : 0 ∉ text) (rest : List UInt8) :
    (text ++ 0 :: rest).findIdx? (· == 0) = some text.length := by
  induction text with
  | nil => rfl
  | cons b text ih =>
    have apart : ¬ (b == 0) = true := by
      simpa using fun eq : b = 0 => free (by rw [eq]; exact List.mem_cons_self)
    rw [List.cons_append, List.findIdx?_cons, if_neg apart, ih fun mem => free (List.mem_cons_of_mem b mem)]
    rfl

theorem rpmReadString_stored {store text rest : List UInt8} {offset : Nat} (fits : store.length < 2 ^ 32)
    (free : 0 ∉ text) (stored : store.drop offset = text ++ 0 :: rest) :
    rpmReadString store offset = .ok (.ofList (Utf8.fromUtf8Lossy text)) := by
  have size : store.length - offset = text.length + (rest.length + 1) := by
    rw [← List.length_drop, stored, List.length_append, List.length_cons]
  have all : slice store offset store.length = .ok (text ++ 0 :: rest) := by
    rw [slice, if_pos ⟨by omega, Nat.le_refl _⟩, stored, List.take_of_length_le]
    rw [List.length_append, List.length_cons, size]
  have part : slice store offset (offset + text.length) = .ok text := by
    rw [slice, if_pos ⟨by omega, by omega⟩, stored, Nat.add_sub_cancel_left, List.take_left]
  have length : sub store.length offset = .ok (store.length - offset) := sub_eq (by omega)
  have stop : add offset text.length = .ok (offset + text.length) := add_eq (by omega)
  simp only [rpmReadString, bind_eq, all, length, ok_bind, findIdx_zero free, Option.getD_some, stop, part, pure_eq]
  rw [if_neg (by omega)]

theorem rpmReadInt32_stored {store rest : List UInt8} {offset value : Nat} (fits : store.length < 2 ^ 32)
    (small : value < 2 ^ 32) (stored : store.drop offset = toBigEndian value ++ rest) :
    rpmReadInt32 store offset = .ok (some value) := by
  have size : store.length - offset = 4 + rest.length := by
    rw [← List.length_drop, stored, List.length_append, length_toBigEndian]
  have split : store = store.take offset ++ (toBigEndian value ++ rest) := by
    rw [← stored, List.take_append_drop]
  have before : (store.take offset).length = offset := by rw [List.length_take]; omega
  have next : add offset 4 = .ok (offset + 4) := add_eq (by omega)
  have read : number store offset 0 4 = .ok value :=
    number_eq split small (by rw [before]; rfl) (by rw [before]) (by omega)
  simp only [rpmReadInt32, bind_eq, next, ok_bind, read, pure_eq]
  rw [if_neg (by omega)]

theorem Value.isStringType_type {v : Value} (proper : v.Proper) : isStringType v.type = v.text?.isSome := by
  cases v with
  | other kind _ _ => simp [type, text?, isStringType, proper.2.1, proper.2.2]
  | _ => rfl

theorem Value.type_eq_four {v : Value} (proper : v.Proper) : (v.type == 4) = v.number?.isSome := by
  cases v with
  | other kind _ _ => simp [type, number?, proper.1]
  | _ => rfl

/-- The entry of a tag is one for a text exactly when there is a text. -/
theorem Tag.entry_string (t : Tag) (tag : Nat) :
    (t.entry.tag == tag && isStringType t.entry.type) = (Tag.text? tag t).isSome := by
  rw [entry, Value.isStringType_type t.proper, text?]
  by_cases asked : t.tag = tag
  · simp [asked]
  · simp [asked]

theorem Tag.entry_int32 (t : Tag) (tag : Nat) :
    (t.entry.tag == tag && t.entry.type == 4) = (Tag.number? tag t).isSome := by
  rw [entry, Value.type_eq_four t.proper, number?]
  by_cases asked : t.tag = tag
  · simp [asked]
  · simp [asked]

/-- A text stands at the offset of its tag and ends with a zero. -/
theorem Tag.text_stored {t : Tag} {tag : Nat} {text store : List UInt8} (found : Tag.text? tag t = some text)
    (stored : t.value.bytes <+: store.drop t.offset) :
    0 ∉ text ∧ ∃ rest, store.drop t.offset = text ++ 0 :: rest := by
  obtain ⟨-, found⟩ := Option.ite_none_right_eq_some.mp found
  obtain ⟨after, stored⟩ := stored
  have proper := t.proper
  cases value : t.value with
  | string _ =>
    rw [value] at found stored proper
    cases found
    exact ⟨proper, after, by simp [← stored, Value.bytes, terminated]⟩
  | i18nString _ others =>
    rw [value] at found stored proper
    cases found
    exact ⟨proper.1, others.flatMap terminated ++ after, by simp [← stored, Value.bytes, terminated]⟩
  | int32 _ _ => rw [value] at found; cases found
  | other _ _ _ => rw [value] at found; cases found

theorem Tag.number_stored {t : Tag} {tag number : Nat} {store : List UInt8} (found : Tag.number? tag t = some number)
    (stored : t.value.bytes <+: store.drop t.offset) :
    number < 2 ^ 32 ∧ ∃ rest, store.drop t.offset = toBigEndian number ++ rest := by
  obtain ⟨-, found⟩ := Option.ite_none_right_eq_some.mp found
  obtain ⟨after, stored⟩ := stored
  have proper := t.proper
  cases value : t.value with
  | int32 _ others =>
    rw [value] at found stored proper
    cases found
    exact ⟨proper.1, others.flatMap toBigEndian ++ after, by rw [← stored, Value.bytes, List.append_assoc]⟩
  | string _ => rw [value] at found; cases found
  | i18nString _ _ => rw [value] at found; cases found
  | other _ _ _ => rw [value] at found; cases found

section

variable {store : List UInt8} {tags : List Tag}

theorem rpmGetString_tags (fits : store.length < 2 ^ 32) (tag : Nat)
    (stored : ∀ t ∈ tags, t.value.bytes <+: store.drop t.offset) :
    rpmGetString (tags.map Tag.entry) store tag =
      .ok ((tags.findSome? (Tag.text? tag)).elim "" fun bytes => .ofList (Utf8.fromUtf8Lossy bytes)) := by
  induction tags with
  | nil => rfl
  | cons t rest ih =>
    obtain ⟨first, others⟩ := List.forall_mem_cons.mp stored
    have later := ih others
    unfold rpmGetString at later ⊢
    rw [List.map_cons, List.find?_cons, t.entry_string, List.findSome?_cons]
    cases found : Tag.text? tag t with
    | none => exact later
    | some text =>
      obtain ⟨free, rest, there⟩ := t.text_stored found first
      exact rpmReadString_stored fits free there

theorem rpmGetInt32_tags (fits : store.length < 2 ^ 32) (tag : Nat)
    (stored : ∀ t ∈ tags, t.value.bytes <+: store.drop t.offset) :
    rpmGetInt32 (tags.map Tag.entry) store tag = .ok (tags.findSome? (Tag.number? tag)) := by
  induction tags with
  | nil => rfl
  | cons t rest ih =>
    obtain ⟨first, others⟩ := List.forall_mem_cons.mp stored
    have later := ih others
    unfold rpmGetInt32 at later ⊢
    rw [List.map_cons, List.find?_cons, t.entry_int32, List.findSome?_cons]
    cases found : Tag.number? tag t with
    | none => exact later
    | some number =>
      obtain ⟨small, rest, there⟩ := t.number_stored found first
      exact rpmReadInt32_stored fits small there

end

/-! ## Headers -/

namespace Header

variable (h : Header)

theorem rpmInfo_eq : rpmInfo (h.tags.map Tag.entry) h.store = .ok h.info := by
  have text (tag : Nat) : rpmGetString (h.tags.map Tag.entry) h.store tag = .ok (h.text tag) :=
    rpmGetString_tags h.store_short tag h.stored
  have number (tag : Nat) : rpmGetInt32 (h.tags.map Tag.entry) h.store tag = .ok (h.number tag) :=
    rpmGetInt32_tags h.store_short tag h.stored
  simp only [rpmInfo, text, number, bind_eq, ok_bind, pure_eq]
  rfl

theorem length_intro : h.intro.length = 16 := by
  simp [intro, headerMagic, h.reserved_length, length_toBigEndian]

theorem length_index (tags : List Tag) : (tags.flatMap Tag.bytes).length = 16 * tags.length := by
  induction tags with
  | nil => rfl
  | cons t rest ih =>
    have one : t.bytes.length = 16 := rfl
    rw [List.flatMap_cons, List.length_append, ih, one, List.length_cons]
    omega

theorem length_bytes : h.bytes.length = 16 + 16 * h.tags.length + h.store.length := by
  rw [bytes, List.length_append, List.length_append, length_intro, length_index, Nat.add_assoc]

end Header

/-- The entry of a tag is read where the bytes of the tag are. -/
theorem readEntry_tag (t : Tag) {data before after : List UInt8} {indexStart i : Nat}
    (split : data = before ++ (t.bytes ++ after)) (starts : indexStart + i * 16 = before.length)
    (fits : data.length < 2 ^ 63) : readEntry data indexStart i = .ok t.entry := by
  have total : data.length = before.length + (16 + after.length) := by
    rw [split, List.length_append, List.length_append]
    rfl
  simp only [Tag.bytes, List.append_assoc] at split
  have e : add indexStart (i * 16) = .ok before.length := by rw [add_eq (by omega), starts]
  have scaled : mul i 16 = .ok (i * 16) := mul_eq (by omega)
  have tag : number data before.length 0 4 = .ok t.tag := number_eq split t.tag_lt rfl rfl fits
  have type : number data before.length 4 8 = .ok t.value.type := by
    rw [← List.append_assoc] at split
    exact number_eq split t.type_lt (by simp [length_toBigEndian]) (by simp [length_toBigEndian]) fits
  have offset : number data before.length 8 12 = .ok t.offset := by
    rw [← List.append_assoc, ← List.append_assoc] at split
    exact number_eq split t.offset_lt (by simp [length_toBigEndian]) (by simp [length_toBigEndian]) fits
  have count : number data before.length 12 16 = .ok t.value.count := by
    rw [← List.append_assoc, ← List.append_assoc, ← List.append_assoc] at split
    exact number_eq split t.count_lt (by simp [length_toBigEndian]) (by simp [length_toBigEndian]) fits
  simp only [readEntry, scaled, e, tag, type, offset, count, bind_eq, ok_bind, pure_eq]
  rfl

theorem readEntries_tags {data after : List UInt8} {indexStart : Nat} (fits : data.length < 2 ^ 63) :
    ∀ {tags : List Tag} {before : List UInt8} {i : Nat}, data = before ++ (tags.flatMap Tag.bytes ++ after) →
      indexStart + i * 16 = before.length →
        readEntries data indexStart i tags.length = .ok (tags.map Tag.entry)
  | [], _, _, _, _ => rfl
  | t :: rest, before, i, split, starts => by
    rw [List.flatMap_cons, List.append_assoc] at split
    have first := readEntry_tag t split starts fits
    have next : indexStart + (i + 1) * 16 = (before ++ t.bytes).length := by
      have one : t.bytes.length = 16 := rfl
      rw [List.length_append, one]
      omega
    have others := readEntries_tags fits (by rw [split, List.append_assoc]) next
    simp only [readEntries, List.length_cons, first, others, bind_eq, ok_bind, pure_eq, List.map_cons]

/-- The beginning of a header says how long its index and its store are. -/
theorem read_intro (h : Header) {data before after : List UInt8} (split : data = before ++ (h.bytes ++ after))
    (fits : data.length < 2 ^ 63) :
    within data before.length 0 3 = .ok headerMagic ∧ number data before.length 8 12 = .ok h.tags.length ∧
      number data before.length 12 16 = .ok h.store.length := by
  have five := h.reserved_length
  have parts : data = before ++ (headerMagic ++ (h.reserved ++ (toBigEndian h.tags.length ++
      (toBigEndian h.store.length ++ (h.tags.flatMap Tag.bytes ++ (h.store ++ after)))))) := by
    simp only [split, Header.bytes, Header.intro, List.append_assoc]
  refine ⟨?_, ?_, ?_⟩
  · rw [parts] at fits ⊢
    exact within_append rfl rfl fits
  · rw [← List.append_assoc, ← List.append_assoc] at parts
    exact number_eq parts h.tags_few (by simp [headerMagic, five]) (by simp [headerMagic, five]) fits
  · rw [← List.append_assoc, ← List.append_assoc, ← List.append_assoc] at parts
    exact number_eq parts h.store_short (by simp [headerMagic, five, length_toBigEndian])
      (by simp [headerMagic, five, length_toBigEndian]) fits

/-- A header is read where its bytes are. -/
theorem readRpmHeader_header (h : Header) {data before after : List UInt8}
    (split : data = before ++ (h.bytes ++ after)) (fits : data.length < 2 ^ 63) :
    readRpmHeader data before.length = .ok (h.tags.map Tag.entry, h.store) := by
  have total : data.length = before.length + (16 + 16 * h.tags.length + h.store.length + after.length) := by
    rw [split, List.length_append, List.length_append, h.length_bytes]
  obtain ⟨magic, entries, length⟩ := read_intro h split fits
  have index : readEntries data (before.length + 16) 0 h.tags.length = .ok (h.tags.map Tag.entry) := by
    have opened : data = (before ++ h.intro) ++ (h.tags.flatMap Tag.bytes ++ (h.store ++ after)) := by
      simp only [split, Header.bytes, List.append_assoc]
    exact readEntries_tags fits opened (by rw [List.length_append, h.length_intro, Nat.zero_mul, Nat.add_zero])
  have store : slice data (before.length + 16 + 16 * h.tags.length)
      (before.length + 16 + 16 * h.tags.length + h.store.length) = .ok h.store := by
    have stored : data = (before ++ (h.intro ++ h.tags.flatMap Tag.bytes)) ++ (h.store ++ after) := by
      simp only [split, Header.bytes, List.append_assoc]
    have reached : (before ++ (h.intro ++ h.tags.flatMap Tag.bytes)).length =
        before.length + 16 + 16 * h.tags.length := by
      rw [List.length_append, List.length_append, h.length_intro, Header.length_index, Nat.add_assoc]
    rw [stored]
    exact slice_append reached.symm (by rw [reached])
  have first : add before.length 16 = .ok (before.length + 16) := add_eq (by omega)
  have scaled : mul 16 h.tags.length = .ok (16 * h.tags.length) := mul_eq (by omega)
  have second : add (before.length + 16) (16 * h.tags.length) = .ok (before.length + 16 + 16 * h.tags.length) :=
    add_eq (by omega)
  have third : add (before.length + 16 + 16 * h.tags.length) h.store.length =
      .ok (before.length + 16 + 16 * h.tags.length + h.store.length) := add_eq (by omega)
  simp only [readRpmHeader, bind_eq, ok_bind, first, magic, entries, length, scaled, second, third, index, store,
    pure_eq]
  rw [if_neg (by omega), if_neg (fun ne => ne rfl), if_neg (by omega)]

/-! ## Packages -/

/-- The padding after the signature is what makes its end a multiple of 8. -/
theorem Package.mainOffset_eq (p : Package) :
    mainOffset (16 + 16 * p.signature.tags.length + p.signature.store.length) =
      .ok (96 + p.signature.bytes.length + p.padding.length) := by
  have few := p.signature.tags_few
  have short := p.signature.store_short
  have aligned := p.aligned
  have padding := p.padding_short
  rw [p.signature.length_bytes] at aligned ⊢
  have total : add 96 (16 + 16 * p.signature.tags.length + p.signature.store.length) =
      .ok (96 + (16 + 16 * p.signature.tags.length + p.signature.store.length)) := add_eq (by omega)
  have pad : (8 - (96 + (16 + 16 * p.signature.tags.length + p.signature.store.length)) % 8) % 8 =
      p.padding.length := by omega
  simp only [mainOffset, bind_eq, total, ok_bind, pad]
  exact add_eq (by omega)

theorem parseRpm_bytes (p : Package) (fits : p.bytes.length < 2 ^ 63) : parseRpm p.bytes = .ok p.main.info := by
  have few := p.signature.tags_few
  have short := p.signature.store_short
  have lead : (leadMagic ++ p.lead).length = 96 := by rw [List.length_append, p.lead_length]; rfl
  have atSignature : p.bytes = (leadMagic ++ p.lead) ++
      (p.signature.bytes ++ (p.padding ++ (p.main.bytes ++ p.payload))) := by
    rw [Package.bytes, List.append_assoc]
  have atMain : p.bytes = (leadMagic ++ (p.lead ++ (p.signature.bytes ++ p.padding))) ++
      (p.main.bytes ++ p.payload) := by
    simp only [Package.bytes, List.append_assoc]
  have reached : (leadMagic ++ (p.lead ++ (p.signature.bytes ++ p.padding))).length =
      96 + p.signature.bytes.length + p.padding.length := by
    rw [← List.append_assoc, List.length_append, lead, List.length_append, Nat.add_assoc]
  have total : p.bytes.length = 96 + (p.signature.bytes.length +
      (p.padding ++ (p.main.bytes ++ p.payload)).length) := by
    rw [atSignature, List.length_append, lead, List.length_append]
  rw [p.signature.length_bytes] at total
  have magic : slice p.bytes 0 4 = .ok leadMagic := slice_prefix rfl
  have start : add 96 16 = .ok 112 := rfl
  obtain ⟨header, entries, length⟩ := read_intro p.signature atSignature fits
  rw [lead] at header entries length
  have scaled : mul 16 p.signature.tags.length = .ok (16 * p.signature.tags.length) := mul_eq (by omega)
  have first : add 16 (16 * p.signature.tags.length) = .ok (16 + 16 * p.signature.tags.length) := add_eq (by omega)
  have second : add (16 + 16 * p.signature.tags.length) p.signature.store.length =
      .ok (16 + 16 * p.signature.tags.length + p.signature.store.length) := add_eq (by omega)
  have main := readRpmHeader_header p.main atMain fits
  rw [reached] at main
  simp only [parseRpm, bind_eq, ok_bind, magic, start, header, entries, length, scaled, first, second,
    p.mainOffset_eq, main, p.main.rpmInfo_eq]
  rw [if_neg (by omega), if_neg (fun ne => ne rfl), if_neg (by omega), if_neg (fun ne => ne rfl)]

/-- No bytes make the reader panic, and from a well-formed package it returns the first texts and numbers
    under the tags it asks for. -/
theorem parseRpm_reads : (∀ data : ByteString, Safe (parseRpm data.val)) ∧
    ∀ p : Package, p.bytes.length < 2 ^ 63 → parseRpm p.bytes = .ok p.main.info :=
  ⟨parseRpm_ends, parseRpm_bytes⟩

/-- A package named `x` of epoch 7, whose signature header needs padding. -/
def smallPackage : Package where
  lead := List.replicate 92 0
  signature :=
    { reserved := [1, 0, 0, 0, 0], tags := [], store := [1, 2, 3], reserved_length := rfl, tags_few := by decide
      store_short := by decide, stored := nofun }
  padding := List.replicate 5 0
  main :=
    { reserved := [1, 0, 0, 0, 0]
      tags :=
        [{ tag := 1003, offset := 4, value := .int32 7 [], tag_lt := by decide, offset_lt := by decide
           type_lt := by decide, count_lt := by decide, proper := ⟨by decide, nofun⟩ },
          { tag := 1000, offset := 0, value := .string [0x78], tag_lt := by decide, offset_lt := by decide
            type_lt := by decide, count_lt := by decide, proper := by simp [Value.Proper] }]
      store := [0x78, 0, 0, 0, 0, 0, 0, 7]
      reserved_length := rfl
      tags_few := by decide
      store_short := by decide
      stored := by
        intro t mem
        simp only [List.mem_cons, List.not_mem_nil, or_false] at mem
        obtain rfl | rfl := mem
        · exact ⟨[], rfl⟩
        · exact ⟨[0, 0, 0, 0, 0, 7], rfl⟩ }
  payload := []
  lead_length := rfl
  aligned := by decide
  padding_short := by decide

theorem parseRpm_smallPackage : parseRpm smallPackage.bytes = .ok smallPackage.main.info ∧
    smallPackage.main.info.name = "x" ∧ smallPackage.main.info.epoch = 7 :=
  ⟨parseRpm_reads.2 smallPackage (by decide +kernel), by decide, by decide⟩

end PatchManager.Rpm
