import Mathlib.Data.List.Infix

/-! # Tar archives

An entry is a header of one block and its contents, filled up with zeros to a whole number of blocks;
two blocks of zeros end an archive.  How a header is written is a parameter.

Main results: `read_entries`, entries read back in front of whatever follows, and `read_archive`.
-/

namespace PatchManager.Bytes

def zeros (n : Nat) : List UInt8 := List.replicate n 0

@[simp] theorem length_zeros (n : Nat) : (zeros n).length = n := List.length_replicate

theorem zeros_add (n k : Nat) : zeros (n + k) = zeros n ++ zeros k := List.replicate_add ..

theorem all_zeros (n : Nat) : (zeros n).all (· == 0) = true :=
  List.all_eq_true.mpr fun b mem => by simpa using (List.mem_replicate.mp mem).2

/-- How many zeros follow contents of a length. -/
def padding (length : Nat) : Nat := (512 - length % 512) % 512

def pad (data : List UInt8) : List UInt8 := data ++ zeros (padding data.length)

/-- How headers are written and read. -/
structure TarFormat (Header : Type) where
  /-- the headers that can be written -/
  Fits : Header → Prop
  /-- the length of the contents -/
  size : Header → Nat
  encode : Header → List UInt8
  decode : List UInt8 → Option Header
  length_encode : ∀ h, Fits h → (encode h).length = 512
  encode_nonzero : ∀ h, Fits h → ∃ b ∈ encode h, b ≠ 0
  decode_encode : ∀ h, Fits h → decode (encode h) = some h

variable {Header : Type}

namespace TarFormat

variable (F : TarFormat Header)

/-- A header and the contents it tells the length of. -/
def Sound (e : Header × List UInt8) : Prop := F.Fits e.1 ∧ F.size e.1 = e.2.length

def entry (e : Header × List UInt8) : List UInt8 := F.encode e.1 ++ pad e.2

def archive (entries : List (Header × List UInt8)) : List UInt8 := entries.flatMap F.entry ++ zeros 1024

/-- The entries up to a block of zeros or the end of the bytes. -/
def read (bytes : List UInt8) : Option (List (Header × List UInt8)) :=
  if bytes = [] then some []
  else if bytes.length < 512 then none
  else if (bytes.take 512).all (· == 0) then some []
  else
    match F.decode (bytes.take 512) with
    | none => none
    | some h =>
      let rest := bytes.drop 512
      if rest.length < F.size h then none
      else (read (rest.drop (F.size h + padding (F.size h)))).map ((h, rest.take (F.size h)) :: ·)
termination_by bytes.length
decreasing_by
  rw [List.length_drop, List.length_drop]
  omega

variable {F}

theorem length_entry {e : Header × List UInt8} (sound : F.Sound e) :
    (F.entry e).length = 512 + (e.2.length + padding e.2.length) := by
  rw [entry, List.length_append, F.length_encode e.1 sound.1, pad, List.length_append, length_zeros]

/-- An archive of one file. -/
theorem length_archive_singleton {e : Header × List UInt8} (sound : F.Sound e) :
    (F.archive [e]).length = 512 + (e.2.length + padding e.2.length) + 1024 := by
  rw [archive, List.flatMap_singleton, List.length_append, length_entry sound, length_zeros]

theorem read_zeros : F.read (zeros 1024) = some [] := by
  have block : (zeros 1024).take 512 = zeros 512 := by rw [zeros_add 512 512, List.take_left' (length_zeros 512)]
  rw [read, if_neg, if_neg, block, if_pos (all_zeros 512)]
  · rw [length_zeros]
    omega
  · exact List.ne_nil_of_length_pos (by rw [length_zeros]; omega)

theorem read_entry {e : Header × List UInt8} (sound : F.Sound e) (after : List UInt8) :
    F.read (F.entry e ++ after) = (F.read after).map (e :: ·) := by
  obtain ⟨h, data⟩ := e
  obtain ⟨fits, size⟩ := sound
  dsimp only at fits size
  have length := F.length_encode h fits
  obtain ⟨b, mem, nonzero⟩ := F.encode_nonzero h fits
  have bytes : F.entry (h, data) ++ after = F.encode h ++ (data ++ (zeros (padding data.length) ++ after)) := by
    simp [entry, pad, List.append_assoc]
  have header : (F.encode h ++ (data ++ (zeros (padding data.length) ++ after))).take 512 = F.encode h :=
    List.take_left' length
  have rest : (F.encode h ++ (data ++ (zeros (padding data.length) ++ after))).drop 512 =
      data ++ (zeros (padding data.length) ++ after) := List.drop_left' length
  have next : (data ++ (zeros (padding data.length) ++ after)).drop (data.length + padding data.length) = after := by
    rw [← List.append_assoc]
    exact List.drop_left' (by simp)
  rw [bytes, read, if_neg, if_neg, if_neg, header, F.decode_encode h fits]
  · dsimp only
    rw [rest, size, next, List.take_left, if_neg (by simp)]
  · intro all
    rw [header] at all
    exact nonzero (by simpa using List.all_eq_true.mp all b mem)
  · simp only [List.length_append, length]
    omega
  · intro empty
    rw [List.append_eq_nil_iff.mp empty |>.1] at mem
    exact List.not_mem_nil mem

/-- Entries read back in front of whatever follows. -/
theorem read_entries {entries : List (Header × List UInt8)} (sound : ∀ e ∈ entries, F.Sound e) (after : List UInt8) :
    F.read (entries.flatMap F.entry ++ after) = (F.read after).map (entries ++ ·) := by
  induction entries with
  | nil => simp
  | cons e es ih =>
    obtain ⟨first, others⟩ := List.forall_mem_cons.mp sound
    rw [List.flatMap_cons, List.append_assoc, read_entry first, ih others, Option.map_map]
    rfl

theorem read_archive {entries : List (Header × List UInt8)} (sound : ∀ e ∈ entries, F.Sound e) :
    F.read (F.archive entries) = some entries := by
  rw [archive, read_entries sound, read_zeros, Option.map_some, List.append_nil]

/-- From a part of an archive only its entries are read. -/
theorem read_isPrefix {entries : List (Header × List UInt8)} (sound : ∀ e ∈ entries, F.Sound e) {bytes : List UInt8}
    (part : bytes <+: F.archive entries) : ∀ read, F.read bytes = some read → read <+: entries := by
  induction entries generalizing bytes with
  | nil =>
    intro read found
    have all : (bytes.take 512).all (· == 0) = true := by
      refine List.all_eq_true.mpr fun b mem => List.all_eq_true.mp (all_zeros 1024) b ?_
      exact part.subset (List.mem_of_mem_take mem)
    rw [TarFormat.read, if_pos all] at found
    split at found
    · exact Option.some.inj found ▸ List.prefix_refl _
    split at found
    · cases found
    · exact Option.some.inj found ▸ List.prefix_refl _
  | cons e rest ih =>
    intro read found
    obtain ⟨first, others⟩ := List.forall_mem_cons.mp sound
    have whole : F.archive (e :: rest) = F.encode e.1 ++ (e.2 ++ (zeros (padding e.2.length) ++ F.archive rest)) := by
      simp [archive, entry, pad, List.append_assoc]
    have length := F.length_encode e.1 first.1
    rw [whole] at part
    rw [TarFormat.read] at found
    split at found
    · exact Option.some.inj found ▸ List.nil_prefix
    split at found
    · cases found
    next long =>
      have header : bytes.take 512 = F.encode e.1 := by
        have same := List.prefix_iff_eq_take.mp (part.take 512)
        rw [List.take_left' length] at same
        rw [same, List.take_of_length_le]
        rw [length, List.length_take]
        omega
      split at found
      · exact Option.some.inj found ▸ List.nil_prefix
      rw [header, F.decode_encode e.1 first.1] at found
      dsimp only at found
      split at found
      · cases found
      next enough =>
        have behind : bytes.drop 512 <+: e.2 ++ (zeros (padding e.2.length) ++ F.archive rest) := by
          have dropped := part.drop 512
          rwa [List.drop_left' length] at dropped
        have data : (bytes.drop 512).take (F.size e.1) = e.2 := by
          have same := List.prefix_iff_eq_take.mp (behind.take e.2.length)
          rw [first.2, same, List.take_left, List.take_of_length_le]
          rw [List.length_take]
          have := first.2
          omega
        have next : (bytes.drop 512).drop (F.size e.1 + padding (F.size e.1)) <+: F.archive rest := by
          have dropped := behind.drop (e.2.length + padding e.2.length)
          rwa [← List.append_assoc, List.drop_left' (by simp), ← first.2] at dropped
        obtain ⟨later, readLater, rfl⟩ := Option.map_eq_some_iff.mp found
        rw [data]
        exact List.cons_prefix_cons.mpr ⟨rfl, ih others next later readLater⟩

/-! ## The last block -/

/-- Whole blocks of which the last has a byte that is not zero. -/
def EndsNonzero (bytes : List UInt8) : Prop :=
  ∃ front last, bytes = front ++ last ∧ last.length = 512 ∧ ∃ b ∈ last, b ≠ (0 : UInt8)

/-- The contents are empty, or their last block is not all zeros. -/
def LastBlockNonzero (data : List UInt8) : Prop := data = [] ∨ ∃ b ∈ data.drop ((data.length - 1) / 512 * 512), b ≠ 0

theorem endsNonzero_pad {data : List UInt8} (some : data ≠ []) (nonzero : LastBlockNonzero data) :
    EndsNonzero (pad data) := by
  obtain ⟨b, mem, ne⟩ := nonzero.resolve_left some
  have pos := List.length_pos_iff.mpr some
  refine ⟨data.take ((data.length - 1) / 512 * 512),
    data.drop ((data.length - 1) / 512 * 512) ++ zeros (padding data.length), ?_, ?_, b, ?_, ne⟩
  · rw [← List.append_assoc, List.take_append_drop, pad]
  · rw [List.length_append, List.length_drop, length_zeros, padding]
    omega
  · exact List.mem_append_left _ mem

theorem EndsNonzero.prepend {bytes : List UInt8} (ends : EndsNonzero bytes) (before : List UInt8) :
    EndsNonzero (before ++ bytes) := by
  obtain ⟨front, last, rfl, length, nonzero⟩ := ends
  exact ⟨before ++ front, last, (List.append_assoc ..).symm, length, nonzero⟩

/-- An entry ends with a block that is not all zeros when its contents do. -/
theorem endsNonzero_entry {e : Header × List UInt8} (fits : F.Fits e.1) (nonzero : LastBlockNonzero e.2) :
    EndsNonzero (F.entry e) := by
  by_cases empty : e.2 = []
  · refine ⟨[], F.encode e.1, ?_, F.length_encode e.1 fits, F.encode_nonzero e.1 fits⟩
    simp [entry, pad, empty, padding, zeros]
  · exact (endsNonzero_pad empty nonzero).prepend _

end TarFormat

end PatchManager.Bytes
