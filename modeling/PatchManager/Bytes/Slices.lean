import PatchManager.Bytes.Outcome
import Mathlib.Data.List.Basic
import Mathlib.Tactic.Ring

/-! # Slices of bytes

Indexing and arithmetic as a machine with 64-bit offsets does it: an index outside the slice and a
sum that does not fit are panics.  A byte string in memory has fewer than `2 ^ 63` bytes.

Main results: `ends_add`, `ends_slice` and `ends_within`, the preconditions of the operations, and
`slice_append`, which reads a part of a string back.
-/

namespace PatchManager.Bytes

open Outcome

/-- A byte string that fits in memory. -/
abbrev ByteString := { data : List UInt8 // data.length < 2 ^ 63 }

def add (a b : Nat) : Outcome Nat := if a + b < 2 ^ 64 then .ok (a + b) else .panics

def mul (a b : Nat) : Outcome Nat := if a * b < 2 ^ 64 then .ok (a * b) else .panics

def sub (a b : Nat) : Outcome Nat := if b ≤ a then .ok (a - b) else .panics

/-- `data[i]`. -/
def index (data : List UInt8) (i : Nat) : Outcome UInt8 :=
  match data[i]? with
  | some b => .ok b
  | none => .panics

/-- `data[first..last]`. -/
def slice (data : List UInt8) (first last : Nat) : Outcome (List UInt8) :=
  if first ≤ last ∧ last ≤ data.length then .ok ((data.drop first).take (last - first)) else .panics

/-- `data[offset + first..offset + last]`. -/
def within (data : List UInt8) (offset first last : Nat) : Outcome (List UInt8) := do
  slice data (← add offset first) (← add offset last)

/-- The number that the bytes are, the highest first. -/
def bigEndian (bytes : List UInt8) : Nat := bytes.foldl (fun value b => 256 * value + b.toNat) 0

/-- `u32::from_be_bytes` of `data[offset + first..offset + last]`. -/
def number (data : List UInt8) (offset first last : Nat) : Outcome Nat := do
  return bigEndian (← within data offset first last)

/-- The four bytes of a number below `2 ^ 32`, the highest first. -/
def toBigEndian (value : Nat) : List UInt8 :=
  [.ofNat (value / 2 ^ 24), .ofNat (value / 2 ^ 16), .ofNat (value / 2 ^ 8), .ofNat value]

variable {refuses : String → Prop}

/-! ## Preconditions -/

@[simp] theorem ends_add {a b : Nat} {post : Nat → Prop} :
    (add a b).Ends refuses post ↔ a + b < 2 ^ 64 ∧ post (a + b) := ends_guard

@[simp] theorem ends_mul {a b : Nat} {post : Nat → Prop} :
    (mul a b).Ends refuses post ↔ a * b < 2 ^ 64 ∧ post (a * b) := ends_guard

@[simp] theorem ends_sub {a b : Nat} {post : Nat → Prop} :
    (sub a b).Ends refuses post ↔ b ≤ a ∧ post (a - b) := ends_guard

@[simp] theorem ends_index {data : List UInt8} {i : Nat} {post : UInt8 → Prop} :
    (index data i).Ends refuses post ↔ ∃ b, data[i]? = some b ∧ post b := by
  unfold index
  cases data[i]? with
  | none => exact ⟨False.elim, nofun⟩
  | some b => simp

@[simp] theorem ends_slice {data : List UInt8} {first last : Nat} {post : List UInt8 → Prop} :
    (slice data first last).Ends refuses post ↔
      (first ≤ last ∧ last ≤ data.length) ∧ post ((data.drop first).take (last - first)) := ends_guard

@[simp] theorem ends_within {data : List UInt8} {offset first last : Nat} {post : List UInt8 → Prop} :
    (within data offset first last).Ends refuses post ↔
      offset + first < 2 ^ 64 ∧ offset + last < 2 ^ 64 ∧
        (offset + first ≤ offset + last ∧ offset + last ≤ data.length) ∧
          post ((data.drop (offset + first)).take (offset + last - (offset + first))) := by
  simp only [within, bind_eq, ends_bind, ends_add, ends_slice]

@[simp] theorem ends_number {data : List UInt8} {offset first last : Nat} {post : Nat → Prop} :
    (number data offset first last).Ends refuses post ↔
      offset + first < 2 ^ 64 ∧ offset + last < 2 ^ 64 ∧
        (offset + first ≤ offset + last ∧ offset + last ≤ data.length) ∧
          post (bigEndian ((data.drop (offset + first)).take (offset + last - (offset + first)))) := by
  simp only [number, bind_eq, pure_eq, ends_bind, ends_within, ends_ok]

/-! ## Evaluation -/

theorem add_eq {a b : Nat} (fits : a + b < 2 ^ 64) : add a b = .ok (a + b) := if_pos fits

theorem sub_eq {a b : Nat} (le : b ≤ a) : sub a b = .ok (a - b) := if_pos le

theorem mul_eq {a b : Nat} (fits : a * b < 2 ^ 64) : mul a b = .ok (a * b) := if_pos fits

/-- A part of a byte string, by the length of what stands before it. -/
theorem slice_append {before part after : List UInt8} {first last : Nat} (starts : first = before.length)
    (ends : last = before.length + part.length) :
    slice (before ++ (part ++ after)) first last = .ok part := by
  subst starts ends
  rw [slice, if_pos ⟨by omega, by simp⟩, List.drop_left, Nat.add_sub_cancel_left, List.take_left]

theorem slice_prefix {part after : List UInt8} {last : Nat} (ends : last = part.length) :
    slice (part ++ after) 0 last = .ok part := by
  rw [slice, if_pos ⟨Nat.zero_le _, by rw [ends, List.length_append]; omega⟩, List.drop_zero, Nat.sub_zero,
    ends, List.take_left]

theorem within_append {before part after : List UInt8} {offset first last : Nat}
    (starts : offset + first = before.length) (ends : offset + last = before.length + part.length)
    (fits : (before ++ (part ++ after)).length < 2 ^ 63) :
    within (before ++ (part ++ after)) offset first last = .ok part := by
  simp only [List.length_append] at fits
  rw [within, bind_eq, add_eq (by omega), ok_bind, bind_eq, add_eq (by omega), ok_bind]
  exact slice_append starts ends

theorem length_toBigEndian (value : Nat) : (toBigEndian value).length = 4 := rfl

theorem bigEndian_toBigEndian {value : Nat} (small : value < 2 ^ 32) : bigEndian (toBigEndian value) = value := by
  simp only [bigEndian, toBigEndian, List.foldl_cons, List.foldl_nil, UInt8.toNat_ofNat']
  omega

/-- A number is read back where its bytes are. -/
theorem number_eq {data before after : List UInt8} {value offset first last : Nat}
    (split : data = before ++ (toBigEndian value ++ after)) (small : value < 2 ^ 32)
    (starts : offset + first = before.length) (ends : offset + last = before.length + 4)
    (fits : data.length < 2 ^ 63) : number data offset first last = .ok value := by
  subst split
  rw [number, within_append starts ends fits, bind_eq, ok_bind, bigEndian_toBigEndian small]
  rfl

theorem bigEndian_lt {bytes : List UInt8} : bigEndian bytes < 256 ^ bytes.length := by
  suffices general : ∀ value, bytes.foldl (fun value b => 256 * value + b.toNat) value <
      (value + 1) * 256 ^ bytes.length by
    rw [bigEndian]
    simpa only [Nat.zero_add, Nat.one_mul] using general 0
  induction bytes with
  | nil => simp
  | cons b rest ih =>
    intro value
    have digit := b.toNat_lt
    calc List.foldl (fun value b => 256 * value + b.toNat) (256 * value + b.toNat) rest
        < (256 * value + b.toNat + 1) * 256 ^ rest.length := ih _
      _ ≤ (value + 1) * 256 * 256 ^ rest.length := Nat.mul_le_mul_right _ (by omega)
      _ = (value + 1) * 256 ^ (b :: rest).length := by rw [List.length_cons, Nat.pow_succ']; ring

/-- Four bytes in bounds are a 32-bit number, with which a call goes on. -/
theorem number_bind_ends {α : Type} {data : List UInt8} {offset first : Nat} {rest : Nat → Outcome α}
    {post : α → Prop} (fits : data.length < 2 ^ 63) (inside : offset + (first + 4) ≤ data.length)
    (next : ∀ value, value < 2 ^ 32 → (rest value).Ends refuses post) :
    ((number data offset first (first + 4)).bind rest).Ends refuses post := by
  rw [ends_bind, ends_number]
  refine ⟨by omega, by omega, ⟨by omega, inside⟩, next _ (Nat.lt_of_lt_of_le bigEndian_lt ?_)⟩
  have width : ((data.drop (offset + first)).take (offset + (first + 4) - (offset + first))).length ≤ 4 := by
    rw [List.length_take]
    omega
  exact Nat.pow_le_pow_right (by decide) width

end PatchManager.Bytes

/-! ## Readers that read ahead

A buffered reader takes its data in chunks; who reads from it consumes what it needs and leaves the
rest in the buffer.  How much has been consumed shows in the position of the reader below and the
length of the buffer.

Main result: `Uses.consumed`.
-/

namespace PatchManager.Bytes

structure BufReader where
  data : List UInt8
  /-- how far the data have been read -/
  position : Nat
  /-- what has been read and is not consumed yet -/
  buffer : List UInt8

namespace BufReader

def new (data : List UInt8) : BufReader := ⟨data, 0, []⟩

/-- The default capacity of a buffer. -/
def capacity : Nat := 8192

/-- An empty buffer takes the next chunk. -/
def fillBuf (r : BufReader) : BufReader :=
  if r.buffer = [] then
    let chunk := (r.data.drop r.position).take capacity
    { r with position := r.position + chunk.length, buffer := chunk }
  else r

def consume (n : Nat) (r : BufReader) : BufReader := { r with buffer := r.buffer.drop n }

/-- What can be done with a reader, and how many bytes it consumes. -/
inductive Uses : BufReader → Nat → BufReader → Prop
  | refl (r : BufReader) : Uses r 0 r
  | fill {r r' : BufReader} {n : Nat} (before : Uses r n r') : Uses r n r'.fillBuf
  | consume {r r' : BufReader} {n k : Nat} (before : Uses r n r') (there : k ≤ r'.buffer.length) :
      Uses r (n + k) (r'.consume k)

theorem Uses.trans {r r' r'' : BufReader} {n k : Nat} (first : Uses r n r') (second : Uses r' k r'') :
    Uses r (n + k) r'' := by
  induction second with
  | refl => exact first
  | fill _ ih => exact .fill ih
  | consume _ there ih => exact Nat.add_assoc .. ▸ .consume ih there

/-- The buffer ends where the data have been read to. -/
structure Sound (r : BufReader) : Prop where
  inside : r.position ≤ r.data.length
  ahead : r.buffer.length ≤ r.position

theorem sound_new (data : List UInt8) : (new data).Sound := ⟨Nat.zero_le _, Nat.zero_le _⟩

theorem Uses.sound {r r' : BufReader} {n : Nat} (uses : Uses r n r') (sound : r.Sound) :
    r'.Sound ∧ r'.data = r.data ∧ r'.position - r'.buffer.length = r.position - r.buffer.length + n := by
  induction uses with
  | refl => exact ⟨sound, rfl, rfl⟩
  | @fill r' n _ ih =>
    obtain ⟨⟨inside, ahead⟩, data, count⟩ := ih
    unfold fillBuf
    split
    next empty =>
      rw [empty, List.length_nil] at count
      have chunk : ((r'.data.drop r'.position).take capacity).length ≤ r'.data.length - r'.position := by
        rw [List.length_take, List.length_drop]
        exact Nat.min_le_right _ _
      exact ⟨⟨by dsimp only; omega, Nat.le_add_left _ _⟩, data, by dsimp only; omega⟩
    next => exact ⟨⟨inside, ahead⟩, data, count⟩
  | @consume r' n k _ there ih =>
    obtain ⟨⟨inside, ahead⟩, data, count⟩ := ih
    have left : (r'.consume k).buffer.length = r'.buffer.length - k := List.length_drop
    exact ⟨⟨inside, by rw [left]; exact Nat.le_trans (Nat.sub_le _ _) ahead⟩, data,
      by rw [left]; change r'.position - _ = _; omega⟩

/-- The position and the buffer tell how much of the data has been consumed, and no more is than there is. -/
theorem Uses.consumed {data : List UInt8} {r : BufReader} {n : Nat} (uses : Uses (new data) n r) :
    r.position - r.buffer.length = n ∧ n ≤ data.length := by
  obtain ⟨⟨inside, -⟩, same, count⟩ := uses.sound (sound_new data)
  rw [same] at inside
  simp only [new, List.length_nil, Nat.sub_zero, Nat.zero_add] at count inside
  omega

end BufReader

end PatchManager.Bytes
