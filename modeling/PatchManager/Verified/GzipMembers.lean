import PatchManager.Repo.Gzip

/-! # Where gzip streams start

The scan of a byte string is a function of what is left of it: `starts` gives the offsets of the streams
in a suffix, relative to the suffix.  Over members that the decoder consumes whole these are the sums
of their lengths.

Main results: `findGzipStreamBoundaries_eq` and `starts_members`, which
`findGzipStreamBoundaries_members` puts together.
-/

namespace PatchManager

open PatchManager.Bytes PatchManager.Bytes.Outcome

namespace GzDecoder

variable {D : GzDecoder}

theorem drain_ends {r : BufReader} {s : D.State} {n : Nat} (uses : BufReader.Uses r n (D.intoInner s)) :
    (D.drain s).Ends (fun _ => False) fun s' => ∃ n, BufReader.Uses r n (D.intoInner s') := by
  apply ends_loop (fun s' => ∃ n, BufReader.Uses r n (D.intoInner s')) D.left
  · intro s' ⟨n, uses⟩
    obtain ⟨k, further⟩ := D.read_uses s'
    have all := uses.trans further
    unfold drainRound
    split
    next => exact ⟨_, all⟩
    next n more => exact ⟨⟨_, all⟩, D.read_left s' n more⟩
    next => exact ⟨_, all⟩
  · exact ⟨n, uses⟩
  · omega

theorem consumed_ends (bytes : List UInt8) : ∃ n, D.consumed bytes = .ok n ∧ n ≤ bytes.length := by
  obtain ⟨n, uses⟩ := D.new_uses (.new bytes)
  obtain ⟨s, drained, n, uses⟩ := (drain_ends uses).value
  obtain ⟨count, le⟩ := uses.consumed
  refine ⟨n, ?_, le⟩
  simp only [consumed, bind_eq, drained, ok_bind, pure_eq, count]

/-- How many bytes the decoder consumes of what it is given. -/
def size (D : GzDecoder) (bytes : List UInt8) : Nat :=
  match D.consumed bytes with
  | .ok n => n
  | _ => 0

theorem consumed_eq (bytes : List UInt8) : D.consumed bytes = .ok (D.size bytes) := by
  obtain ⟨n, consumed, -⟩ := D.consumed_ends bytes
  rw [size, consumed]

theorem size_le (bytes : List UInt8) : D.size bytes ≤ bytes.length := by
  obtain ⟨n, consumed, le⟩ := D.consumed_ends bytes
  rw [size, consumed]
  exact le

end GzDecoder

/-- The bytes begin as a gzip stream does. -/
def GzipHeader (bytes : List UInt8) : Prop :=
  bytes[0]? = some 0x1F ∧ bytes[1]? = some 0x8B ∧ bytes[2]? = some 8 ∧ ∀ flg ∈ bytes[3]?, flg &&& 0xE0 = 0

instance (bytes : List UInt8) : Decidable (GzipHeader bytes) :=
  letI : Decidable (∀ flg ∈ bytes[3]?, flg &&& 0xE0 = 0) := Option.decidableForallMem _
  inferInstanceAs (Decidable (_ ∧ _ ∧ _ ∧ _))

/-- How far the scan goes when there is a header. -/
def GzDecoder.advance (D : GzDecoder) (bytes : List UInt8) : Nat := max 1 (D.size bytes)

/-- Where gzip streams start in the bytes. -/
def GzDecoder.starts (D : GzDecoder) (bytes : List UInt8) : List Nat :=
  if 10 ≤ bytes.length then
    if GzipHeader bytes then 0 :: (D.starts (bytes.drop (D.advance bytes))).map (D.advance bytes + ·)
    else (D.starts (bytes.drop 1)).map (1 + ·)
  else []
termination_by bytes.length
decreasing_by
  · have := Nat.le_max_left 1 (D.size bytes)
    rw [List.length_drop, advance]
    omega
  · rw [List.length_drop]
    omega

variable {D : GzDecoder}

/-! ## The scan -/

theorem index_drop (data : List UInt8) (pos i : Nat) (inside : pos + i < data.length) :
    ∃ b, (data.drop pos)[i]? = some b ∧ index data (pos + i) = .ok b := by
  refine ⟨data[pos + i], ?_, ?_⟩
  · rw [List.getElem?_drop, List.getElem?_eq_getElem inside]
  · rw [index, List.getElem?_eq_getElem inside]

/-- Away from a header the scan goes to the next byte. -/
theorem gzipRound_skips {data : ByteString} {s : ScanState} (room : s.pos + 10 ≤ data.1.length)
    (other : ¬ GzipHeader (data.1.drop s.pos)) :
    gzipRound D data.1 s = .ok (.inl ⟨s.pos + 1, s.offsets⟩) := by
  obtain ⟨data, fits⟩ := data
  change s.pos + 10 ≤ data.length at room
  obtain ⟨b0, at0, read0⟩ := index_drop data s.pos 0 (by omega)
  obtain ⟨b1, at1, read1⟩ := index_drop data s.pos 1 (by omega)
  obtain ⟨b2, at2, read2⟩ := index_drop data s.pos 2 (by omega)
  obtain ⟨b3, at3, read3⟩ := index_drop data s.pos 3 (by omega)
  simp only [GzipHeader, at0, at1, at2, at3, Option.mem_def, Option.some.injEq, forall_eq', not_and] at other
  simp only [gzipRound, gzipMagicAt, bind_eq, pure_eq, add_eq (show s.pos + 10 < 2 ^ 64 by omega),
    add_eq (show s.pos + 1 < 2 ^ 64 by omega), add_eq (show s.pos + 2 < 2 ^ 64 by omega),
    add_eq (show s.pos + 3 < 2 ^ 64 by omega), ok_bind, if_pos room, read1, read2, read3]
  rw [show index data s.pos = .ok b0 from read0]
  by_cases first : b0 = 0x1F
  · by_cases second : b1 = 0x8B
    · by_cases third : b2 = 8
      · simp [first, second, third, other first second third]
      · simp [first, second, third]
    · simp [first, second]
  · simp [first]

/-- At a header it notes the offset and goes to the end of the stream. -/
theorem gzipRound_stream {data : ByteString} {s : ScanState} (room : s.pos + 10 ≤ data.1.length)
    (header : GzipHeader (data.1.drop s.pos)) :
    gzipRound D data.1 s = .ok (.inl ⟨s.pos + D.advance (data.1.drop s.pos), s.offsets ++ [s.pos]⟩) := by
  obtain ⟨data, fits⟩ := data
  change s.pos + 10 ≤ data.length at room
  obtain ⟨b3, at3, read3⟩ := index_drop data s.pos 3 (by omega)
  obtain ⟨b2, at2, read2⟩ := index_drop data s.pos 2 (by omega)
  obtain ⟨b1, at1, read1⟩ := index_drop data s.pos 1 (by omega)
  obtain ⟨b0, at0, read0⟩ := index_drop data s.pos 0 (by omega)
  simp only [GzipHeader, at0, at1, at2, at3, Option.mem_def, Option.some.injEq, forall_eq'] at header
  obtain ⟨rfl, rfl, rfl, clear⟩ := header
  have slice : Bytes.slice data s.pos data.length = .ok (data.drop s.pos) := by
    rw [Bytes.slice, if_pos ⟨by omega, Nat.le_refl _⟩, ← List.length_drop, List.take_length]
  have le := D.size_le (data.drop s.pos)
  rw [List.length_drop] at le
  simp only [gzipRound, gzipMagicAt, gzipStream, bind_eq, pure_eq,
    add_eq (show s.pos + 10 < 2 ^ 64 by omega), add_eq (show s.pos + 1 < 2 ^ 64 by omega),
    add_eq (show s.pos + 2 < 2 ^ 64 by omega), add_eq (show s.pos + 3 < 2 ^ 64 by omega), ok_bind,
    if_pos room, read1, read2, read3, show index data s.pos = .ok 0x1F from read0, slice, D.consumed_eq,
    add_eq (show s.pos + D.size (data.drop s.pos) < 2 ^ 64 by omega), clear, GzDecoder.advance]
  by_cases none : D.size (data.drop s.pos) = 0
  · simp [none]
  · simp [none, Nat.max_eq_right (Nat.one_le_iff_ne_zero.mpr none)]

theorem gzipRound_end {data : ByteString} {s : ScanState} (inside : s.pos ≤ data.1.length)
    (room : ¬ s.pos + 10 ≤ data.1.length) : gzipRound D data.1 s = .ok (.inr s.offsets) := by
  have fits := data.2
  simp only [gzipRound, bind_eq, pure_eq, add_eq (show s.pos + 10 < 2 ^ 64 by omega), ok_bind, if_neg room]

theorem advance_pos (bytes : List UInt8) : 1 ≤ D.advance bytes := Nat.le_max_left _ _

theorem advance_le {bytes : List UInt8} (some : 1 ≤ bytes.length) : D.advance bytes ≤ bytes.length :=
  Nat.max_le.mpr ⟨some, D.size_le bytes⟩

theorem starts_nil {bytes : List UInt8} (short : ¬ 10 ≤ bytes.length) : D.starts bytes = [] := by
  rw [GzDecoder.starts, if_neg short]

theorem starts_stream {bytes : List UInt8} (room : 10 ≤ bytes.length) (header : GzipHeader bytes) :
    D.starts bytes = 0 :: (D.starts (bytes.drop (D.advance bytes))).map (D.advance bytes + ·) := by
  rw [GzDecoder.starts, if_pos room, if_pos header]

theorem starts_skip {bytes : List UInt8} (room : 10 ≤ bytes.length) (other : ¬ GzipHeader bytes) :
    D.starts bytes = (D.starts (bytes.drop 1)).map (1 + ·) := by
  rw [GzDecoder.starts, if_pos room, if_neg other]

/-- A round that goes on goes forward, and the scan ends. -/
theorem gzipScan_eq (data : ByteString) (fuel : Nat) {s : ScanState} (inside : s.pos ≤ data.1.length)
    (enough : data.1.length - s.pos < fuel) :
    loop (gzipRound D data.1) fuel s = .ok (s.offsets ++ (D.starts (data.1.drop s.pos)).map (s.pos + ·)) := by
  induction fuel generalizing s with
  | zero => omega
  | succ fuel ih =>
    have length : (data.1.drop s.pos).length = data.1.length - s.pos := List.length_drop
    rw [loop]
    by_cases room : s.pos + 10 ≤ data.1.length
    · by_cases header : GzipHeader (data.1.drop s.pos)
      · have le : D.advance (data.1.drop s.pos) ≤ (data.1.drop s.pos).length := advance_le (by omega)
        have pos := advance_pos (D := D) (data.1.drop s.pos)
        rw [gzipRound_stream room header, ok_bind, Sum.elim_inl, ih (by dsimp only; omega) (by dsimp only; omega),
          starts_stream (by omega) header, List.append_assoc, List.drop_drop]
        simp [Function.comp_def, Nat.add_assoc]
      · rw [gzipRound_skips room header, ok_bind, Sum.elim_inl, ih (by dsimp only; omega) (by dsimp only; omega),
          starts_skip (by omega) header, List.drop_drop]
        simp [Function.comp_def, Nat.add_assoc]
    · rw [gzipRound_end inside room, ok_bind, Sum.elim_inr, starts_nil (by omega), List.map_nil, List.append_nil]

theorem findGzipStreamBoundaries_eq (data : ByteString) :
    findGzipStreamBoundaries D data.1 =
      if D.starts data.1 = [] then .fails "No gzip streams found in data" else .ok (D.starts data.1) := by
  have scanned := gzipScan_eq (D := D) data (data.1.length + 1) (s := ⟨0, []⟩) (Nat.zero_le _)
    (by dsimp only; omega)
  simp only [List.drop_zero, List.nil_append, Nat.zero_add, List.map_id'] at scanned
  simp only [findGzipStreamBoundaries, bind_eq, pure_eq, scanned, ok_bind]

/-- The offsets are in order and inside. -/
theorem starts_sorted (bytes : List UInt8) :
    (D.starts bytes).Pairwise (· < ·) ∧ ∀ o ∈ D.starts bytes, o < bytes.length := by
  induction bytes using GzDecoder.starts.induct D with
  | case1 bytes room header ih =>
    have pos := advance_pos (D := D) bytes
    rw [starts_stream room header]
    refine ⟨List.pairwise_cons.mpr ⟨?_, ?_⟩, List.forall_mem_cons.mpr ⟨by omega, ?_⟩⟩
    · intro o mem
      obtain ⟨o, -, rfl⟩ := List.mem_map.mp mem
      omega
    · exact List.pairwise_map.mpr (ih.1.imp fun lt => by omega)
    · intro o mem
      obtain ⟨o, there, rfl⟩ := List.mem_map.mp mem
      have := ih.2 o there
      rw [List.length_drop] at this
      omega
  | case2 bytes room other ih =>
    rw [starts_skip room other]
    refine ⟨List.pairwise_map.mpr (ih.1.imp fun lt => by omega), fun o mem => ?_⟩
    obtain ⟨o, there, rfl⟩ := List.mem_map.mp mem
    have := ih.2 o there
    rw [List.length_drop] at this
    omega
  | case3 bytes short =>
    rw [starts_nil short]
    exact ⟨.nil, fun _ mem => absurd mem List.not_mem_nil⟩

/-! ## Members -/

/-- `valid` members begin with a header, and the decoder consumes them whole whatever follows. -/
structure GzDecoder.Exact (D : GzDecoder) (valid : List UInt8 → Prop) : Prop where
  header : ∀ m, valid m → ∃ flg rest, m = 0x1F :: 0x8B :: 8 :: flg :: rest ∧ flg &&& 0xE0 = 0 ∧ 14 ≤ rest.length
  consumes : ∀ m after, valid m → D.consumed (m ++ after) = .ok m.length

variable {valid : List UInt8 → Prop}

theorem starts_member (exact : D.Exact valid) {m : List UInt8} (isValid : valid m) (after : List UInt8) :
    D.starts (m ++ after) = 0 :: (D.starts after).map (m.length + ·) := by
  have size : D.size (m ++ after) = m.length := by rw [GzDecoder.size, exact.consumes m after isValid]
  obtain ⟨flg, rest, bytes, clear, long⟩ := exact.header m isValid
  have length : m.length = rest.length + 4 := by rw [bytes]; rfl
  have advance : D.advance (m ++ after) = m.length := by
    rw [GzDecoder.advance, size]
    omega
  have header : GzipHeader (m ++ after) := by
    subst bytes
    refine ⟨rfl, rfl, rfl, fun b mem => ?_⟩
    cases Option.mem_some.mp mem
    exact clear
  have room : 10 ≤ (m ++ after).length := by
    rw [List.length_append]
    omega
  rw [starts_stream room header, advance, List.drop_left]

/-- The start of each member is the length of what stands before it. -/
theorem starts_members (exact : D.Exact valid) (members : List (List UInt8)) (all : ∀ m ∈ members, valid m) :
    D.starts members.flatten = (List.range members.length).map fun i => (members.take i).flatten.length := by
  induction members with
  | nil => exact starts_nil (by simp)
  | cons m ms ih =>
    obtain ⟨first, others⟩ := List.forall_mem_cons.mp all
    rw [List.flatten_cons, starts_member exact first, ih others, List.length_cons, List.range_succ_eq_map]
    simp [Function.comp_def]

/-- Over concatenated members the scan finds where each starts; over any bytes each round that goes on
    goes forward and the scan ends, with offsets in order or with the error for no stream. -/
theorem findGzipStreamBoundaries_members (D : GzDecoder) (valid : List UInt8 → Prop) (exact : D.Exact valid) :
    (∀ members : List (List UInt8), members ≠ [] → (∀ m ∈ members, valid m) → members.flatten.length < 2 ^ 63 →
      findGzipStreamBoundaries D members.flatten =
        .ok ((List.range members.length).map fun i => (members.take i).flatten.length)) ∧
    ∀ data : ByteString,
      (∀ s s' : ScanState, s.pos ≤ data.1.length → gzipRound D data.1 s = .ok (.inl s') →
        s.pos < s'.pos ∧ s'.pos ≤ data.1.length) ∧
      (findGzipStreamBoundaries D data.1).Ends (· = "No gzip streams found in data") fun offsets =>
        offsets.Pairwise (· < ·) ∧ ∀ o ∈ offsets, o < data.1.length := by
  refine ⟨fun members nonempty all fits => ?_, fun data => ⟨fun s s' inside goes => ?_, ?_⟩⟩
  · rw [findGzipStreamBoundaries_eq ⟨members.flatten, fits⟩, if_neg, starts_members exact members all]
    rw [starts_members exact members all]
    simpa using nonempty
  · have length : (data.1.drop s.pos).length = data.1.length - s.pos := List.length_drop
    by_cases room : s.pos + 10 ≤ data.1.length
    · by_cases header : GzipHeader (data.1.drop s.pos)
      · have pos := advance_pos (D := D) (data.1.drop s.pos)
        have le : D.advance (data.1.drop s.pos) ≤ (data.1.drop s.pos).length := advance_le (by omega)
        cases (gzipRound_stream room header).symm.trans goes
        dsimp only
        omega
      · cases (gzipRound_skips (D := D) room header).symm.trans goes
        dsimp only
        omega
    · cases (gzipRound_end (D := D) inside room).symm.trans goes
  · rw [findGzipStreamBoundaries_eq]
    split
    · exact rfl
    · exact starts_sorted data.1

/-! ## A decoder -/

/-- The stream of no data. -/
def emptyGzip : List UInt8 :=
  [0x1F, 0x8B, 8, 0, 0, 0, 0, 0, 0, 3, 3, 0, 0, 0, 0, 0, 0, 0, 0, 0]

/-- A decoder that stays where it is reads nothing. -/
theorem stays_uses (s : BufReader × Bool) : ∃ n, BufReader.Uses s.1 n s.1 := ⟨0, .refl s.1⟩

theorem stays_left (s : BufReader × Bool) (n : Nat)
    (more : (if s.2 then .ok 0 else .error "invalid gzip header" : Except String Nat) = .ok (n + 1)) :
    0 < 0 := by
  split at more <;> cases more

/-- Knows the empty stream only. -/
def emptyDecoder : GzDecoder where
  State := BufReader × Bool
  new r := if emptyGzip <+: r.fillBuf.buffer then (r.fillBuf.consume 20, true) else (r.fillBuf, false)
  read s := (if s.2 then .ok 0 else .error "invalid gzip header", s)
  intoInner := Prod.fst
  left _ := 0
  new_uses r := by
    split
    next whole => exact ⟨_, .consume (.fill (.refl r)) (show 20 ≤ _ from whole.length_le)⟩
    next => exact ⟨_, .fill (.refl r)⟩
  read_uses := stays_uses
  read_left := stays_left

theorem emptyDecoder_exact : emptyDecoder.Exact (· = emptyGzip) where
  header m isEmpty := ⟨0, _, isEmpty, rfl, by decide⟩
  consumes m after isEmpty := by
    subst isEmpty
    have buffer : (BufReader.new (emptyGzip ++ after)).fillBuf.buffer = emptyGzip ++ after.take 8172 := rfl
    have start : emptyDecoder.new (.new (emptyGzip ++ after)) =
        ((BufReader.new (emptyGzip ++ after)).fillBuf.consume 20, true) := by
      simp only [emptyDecoder, buffer, List.prefix_append, if_true]
    have drained (r : BufReader) : emptyDecoder.drain (r, true) = .ok (r, true) := rfl
    have position : (BufReader.new (emptyGzip ++ after)).fillBuf.position = (emptyGzip ++ after.take 8172).length :=
      Nat.zero_add _
    have left : ((emptyGzip ++ after.take 8172).drop 20).length = (after.take 8172).length := rfl
    rw [GzDecoder.consumed, start, drained]
    change Outcome.ok ((BufReader.new (emptyGzip ++ after)).fillBuf.position -
      ((BufReader.new (emptyGzip ++ after)).fillBuf.buffer.drop 20).length) = _
    rw [position, buffer, left, List.length_append, Nat.add_sub_cancel]

theorem findGzipStreamBoundaries_empties :
    findGzipStreamBoundaries emptyDecoder (emptyGzip ++ emptyGzip) = .ok [0, 20] :=
  ((findGzipStreamBoundaries_members emptyDecoder _ emptyDecoder_exact).1 [emptyGzip, emptyGzip] (by decide)
    (by simp) (by decide)).trans rfl

end PatchManager
