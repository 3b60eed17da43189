import PatchManager.Verified.ApkIndexArchive
import Mathlib.Data.List.TakeWhile

/-! # Packages that are signed again

`resign_apk` puts a new signature in front of the gzip streams from the second on.  Which of them the
control stream is it tells by the position alone.

Main results: `streams_resigned`, what the streams of the new file are, and `resignApk_preserves_iff`,
exactly for which files the control stream and the payload are kept.
-/

namespace PatchManager

open PatchManager.Bytes PatchManager.Bytes.Outcome PatchManager.Bytes.TarFormat

/-! ## Streams -/

/-- The parts of the bytes from each offset to the next. -/
def cutAt : List Nat → List UInt8 → List (List UInt8)
  | [], _ => []
  | [o], data => [data.drop o]
  | o :: o' :: rest, data => (data.take o').drop o :: cutAt (o' :: rest) data

/-- The gzip streams of a file. -/
def GzDecoder.streams (D : GzDecoder) (data : List UInt8) : List (List UInt8) := cutAt (D.starts data) data

variable {D : GzDecoder}

/-- From an offset on the scan finds what it finds in the rest of the bytes alone. -/
theorem starts_drop {data : List UInt8} {before after : List Nat} {o : Nat} (split : D.starts data = before ++ o :: after) :
    o :: after = (D.starts (data.drop o)).map (o + ·) := by
  induction data using GzDecoder.starts.induct D generalizing before o after with
  | case1 data room header ih =>
    rw [starts_stream room header] at split
    cases before with
    | nil =>
      obtain ⟨rfl, rfl⟩ := List.cons.inj split
      rw [List.drop_zero, starts_stream room header]
      simp
    | cons first before =>
      obtain ⟨front, back, whole, rfl, mapped⟩ := List.map_eq_append_iff.mp (List.cons.inj split).2
      obtain ⟨o', after', rfl, rfl, rfl⟩ := List.map_eq_cons_iff.mp mapped
      have tail := congrArg (List.map (D.advance data + ·)) (ih whole)
      rw [List.map_cons, List.map_map, List.drop_drop] at tail
      rw [tail]
      exact List.map_congr_left fun n _ => (Nat.add_assoc ..).symm
  | case2 data room other ih =>
    rw [starts_skip room other] at split
    obtain ⟨front, back, whole, rfl, mapped⟩ := List.map_eq_append_iff.mp split
    obtain ⟨o', after', rfl, rfl, rfl⟩ := List.map_eq_cons_iff.mp mapped
    have tail := congrArg (List.map (1 + ·)) (ih whole)
    rw [List.map_cons, List.map_map, List.drop_drop] at tail
    rw [tail]
    exact List.map_congr_left fun n _ => (Nat.add_assoc ..).symm
  | case3 data short =>
    rw [starts_nil short] at split
    exact absurd split.symm (by simp)

theorem cutAt_append (m data : List UInt8) (offsets : List Nat) :
    cutAt (offsets.map (m.length + ·)) (m ++ data) = cutAt offsets data := by
  induction offsets with
  | nil => rfl
  | cons o rest ih =>
    cases rest with
    | nil => simp [cutAt, List.drop_append]
    | cons o' rest =>
      have here : ((m ++ data).take (m.length + o')).drop (m.length + o) = (data.take o').drop o := by
        rw [List.take_length_add_append, List.drop_append, List.drop_eq_nil_of_le (by omega), List.nil_append,
          Nat.add_sub_cancel_left]
      rw [List.map_cons, List.map_cons, cutAt, cutAt, here]
      exact congrArg _ ih

/-- From an offset on the streams are those of the rest of the bytes. -/
theorem cutAt_drop {data : List UInt8} (before : List Nat) {after : List Nat} {o : Nat} (split : D.starts data = before ++ o :: after) :
    cutAt (o :: after) data = D.streams (data.drop o) := by
  have inside : o < data.length := (starts_sorted data).2 o (by rw [split]; simp)
  have length : (data.take o).length = o := by
    rw [List.length_take]
    omega
  have cut := cutAt_append (data.take o) (data.drop o) (D.starts (data.drop o))
  rwa [length, List.take_append_drop, ← starts_drop split] at cut

/-- A member in front is a stream of its own, when a stream follows. -/
theorem streams_append {valid : List UInt8 → Prop} (exact : D.Exact valid) {m : List UInt8} (isValid : valid m)
    {data : List UInt8} {after : List Nat} (next : D.starts data = 0 :: after) :
    D.streams (m ++ data) = m :: D.streams data := by
  have shifted := cutAt_append m data (D.starts data)
  rw [GzDecoder.streams, starts_member exact isValid]
  rw [next, List.map_cons, Nat.add_zero] at shifted ⊢
  rw [cutAt, shifted, List.take_left, List.drop_zero, GzDecoder.streams, next]

/-- Two streams at least: the first and those from the second offset on. -/
theorem streams_two {data : List UInt8} {o o' : Nat} {rest : List Nat} (starts : D.starts data = o :: o' :: rest) :
    D.streams data = (data.take o').drop o :: D.streams (data.drop o') := by
  rw [GzDecoder.streams, starts, cutAt, cutAt_drop [o] starts]

/-! ## The call -/

def isPkgInfo (item : Except String TarItem) : Bool :=
  match item with
  | .ok entry => trimDotSlash entry.path.toList == ".PKGINFO".toList
  | .error _ => false

variable (T : ApkTools)

/-- The stream holds `.PKGINFO`. -/
def HoldsPkgInfo (stream : List UInt8) : Bool := (T.entries stream).any isPkgInfo

/-- The control stream, which is the first that holds `.PKGINFO`, and the payload behind it. -/
def packageStreams (data : List UInt8) : List (List UInt8) :=
  (T.decoder.streams data).dropWhile fun stream => !HoldsPkgInfo T stream

/-- The checksum of the file is the SHA-1 of the control stream. -/
def ChecksumOf (data control : List UInt8) : Prop :=
  apkControlGz T data = .ok control ∧
    computeApkControlChecksum T data = .ok ("Q1" ++ T.base64 (T.sha1 control))

/-- A call keeps the control stream and the payload, and so do all later ones. -/
def Preserved (data newApk : List UInt8) : Prop :=
  ∀ control payload, packageStreams T data = control :: payload →
    packageStreams T newApk = control :: payload ∧ ChecksumOf T data control ∧ ChecksumOf T newApk control ∧
    ∀ calls, packageStreams T (resignedApk T calls newApk) = control :: payload

/-- The first stream does not hold `.PKGINFO`, and the second does or none. -/
def ControlSecond (data : List UInt8) : Prop :=
  ∀ first second rest, T.decoder.streams data = first :: second :: rest →
    HoldsPkgInfo T first = false ∧ (HoldsPkgInfo T second = true ∨ ∀ stream ∈ rest, HoldsPkgInfo T stream = false)

/-- What the crates do: what is compressed is a gzip member, and in a compressed signature there is nothing
    but the signature. -/
structure SigningTools : Prop where
  exact : T.decoder.Exact fun m => ∃ data, m = T.compress data
  listed : ∀ (signature : ByteString) (cut : List UInt8),
    stripTarEof (T.tar.archive (apkSignEntries signature.1)) = .ok cut → ∀ entry, .ok entry ∈ T.entries (T.compress cut) → entry.path = signEntryName

variable {T}

theorem holdsPkgInfo_signature (tools : SigningTools T) {signature : ByteString} {cut : List UInt8}
    (stripped : stripTarEof (T.tar.archive (apkSignEntries signature.1)) = .ok cut) :
    HoldsPkgInfo T (T.compress cut) = false := by
  refine Bool.eq_false_iff.mpr fun holds => ?_
  obtain ⟨item, mem, isInfo⟩ := List.any_eq_true.mp holds
  cases item with
  | error e => cases isInfo
  | ok entry =>
    have path := tools.listed signature cut stripped entry mem
    simp only [isPkgInfo, path] at isInfo
    exact absurd isInfo (by decide)

/-- The stream at the second offset goes to the third or to the end. -/
theorem slice_second {data : List UInt8} {o o' : Nat} {rest : List Nat} (starts : T.decoder.starts data = o :: o' :: rest)
    {first second : List UInt8} {others : List (List UInt8)}
    (streams : T.decoder.streams data = first :: second :: others) :
    slice data o' (rest.head?.getD data.length) = .ok second := by
  obtain ⟨sorted, inside⟩ := starts_sorted (D := T.decoder) data
  rw [starts] at sorted inside
  rw [GzDecoder.streams, starts] at streams
  have there := inside o' (by simp)
  cases rest with
  | nil =>
    obtain ⟨rfl, -⟩ := List.cons.inj (List.cons.inj streams).2
    rw [List.head?_nil, Option.getD_none, slice, if_pos ⟨Nat.le_of_lt there, Nat.le_refl _⟩,
      List.take_of_length_le (by rw [List.length_drop])]
  | cons o'' rest =>
    obtain ⟨rfl, -⟩ := List.cons.inj (List.cons.inj streams).2
    have next := inside o'' (by simp)
    have later : o' < o'' := (List.pairwise_cons.mp (List.pairwise_cons.mp sorted).2).1 o'' (by simp)
    rw [List.head?_cons, Option.getD_some, slice, if_pos ⟨Nat.le_of_lt later, Nat.le_of_lt next⟩, List.drop_take]

/-- Two streams have two offsets. -/
theorem starts_of_streams {data first second : List UInt8} {others : List (List UInt8)}
    (streams : T.decoder.streams data = first :: second :: others) :
    ∃ o o' rest, T.decoder.starts data = o :: o' :: rest := by
  rw [GzDecoder.streams] at streams
  cases starts : T.decoder.starts data with
  | nil => rw [starts] at streams; cases streams
  | cons o rest =>
    cases rest with
    | nil => rw [starts] at streams; cases streams
    | cons o' rest => exact ⟨o, o', rest, rfl⟩

theorem apkControlGz_eq {data : ByteString} {first second : List UInt8} {others : List (List UInt8)}
    (streams : T.decoder.streams data.1 = first :: second :: others) : apkControlGz T data.1 = .ok second := by
  obtain ⟨o, o', rest, starts⟩ := starts_of_streams streams
  have found := findGzipStreamBoundaries_eq (D := T.decoder) data
  rw [starts, if_neg (List.cons_ne_nil _ _)] at found
  rw [apkControlGz, found, bind_eq, ok_bind]
  exact slice_second starts streams

theorem checksumOf_eq {data : ByteString} {first second : List UInt8} {others : List (List UInt8)}
    (streams : T.decoder.streams data.1 = first :: second :: others) : ChecksumOf T data.1 second := by
  have control := apkControlGz_eq streams
  refine ⟨control, ?_⟩
  rw [computeApkControlChecksum, control]
  rfl

/-- A call that returns has put a signature in front of the streams from the second on. -/
theorem resignApk_ok {call : ResignCall} {data newApk : List UInt8} (run : resignApk T call data = .ok newApk) :
    ∃ (o o' : Nat) (rest : List Nat) (signature : ByteString) (cut : List UInt8),
      T.decoder.starts data = o :: o' :: rest ∧
      stripTarEof (T.tar.archive (apkSignEntries signature.1)) = .ok cut ∧ newApk = T.compress cut ++ data.drop o' := by
  simp only [resignApk, bind_eq, pure_eq] at run
  obtain ⟨read, readOk, run⟩ := bind_eq_ok run
  obtain ⟨-, -, readOk⟩ := bind_eq_ok readOk
  by_cases fits : data.length < 2 ^ 63
  · rw [if_pos fits, pure_eq] at readOk
    obtain rfl := Outcome.ok.inj readOk
    obtain ⟨offsets, found, run⟩ := bind_eq_ok run
    rw [findGzipStreamBoundaries_eq ⟨data, fits⟩] at found
    split at found
    next => cases found
    next =>
      obtain rfl := Outcome.ok.inj found
      cases starts : T.decoder.starts data with
      | nil => simp only [starts] at run; cases run
      | cons o rest =>
        cases rest with
        | nil => simp only [starts] at run; cases run
        | cons o' rest =>
          simp only [starts] at run
          obtain ⟨controlGz, -, run⟩ := bind_eq_ok run
          obtain ⟨hasDataHash, -, run⟩ := bind_eq_ok run
          obtain ⟨signedData, -, run⟩ := bind_eq_ok run
          obtain ⟨signature, -, run⟩ := bind_eq_ok run
          obtain ⟨cut, stripped, run⟩ := bind_eq_ok run
          obtain ⟨tail, sliced, run⟩ := bind_eq_ok run
          obtain ⟨-, -, run⟩ := bind_eq_ok run
          obtain ⟨-, -, run⟩ := bind_eq_ok run
          have there := (starts_sorted (D := T.decoder) data).2 o' (by rw [starts]; simp)
          rw [slice, if_pos ⟨Nat.le_of_lt there, Nat.le_refl _⟩, List.take_of_length_le (by rw [List.length_drop])] at sliced
          obtain rfl := Outcome.ok.inj sliced
          exact ⟨o, o', rest, signature, cut, rfl, stripped, (Outcome.ok.inj run).symm⟩
  · rw [if_neg fits] at readOk
    cases readOk

/-- The streams of the new file: a signature, and all of the old one from the second on. -/
theorem streams_resigned (tools : SigningTools T) {call : ResignCall} {data newApk : List UInt8}
    (run : resignApk T call data = .ok newApk) :
    ∃ first second rest signature, T.decoder.streams data = first :: second :: rest ∧
      T.decoder.streams newApk = signature :: second :: rest ∧ HoldsPkgInfo T signature = false := by
  obtain ⟨o, o', rest, signature, cut, starts, stripped, rfl⟩ := resignApk_ok run
  have tail := starts_drop (show T.decoder.starts data = [o] ++ o' :: rest from starts)
  obtain ⟨start, after, split, same, -⟩ := List.map_eq_cons_iff.mp tail.symm
  obtain rfl : start = 0 := by omega
  have streams := streams_two starts
  have resigned := streams_append tools.exact ⟨cut, rfl⟩ split
  cases rests : T.decoder.streams (data.drop o') with
  | nil =>
    rw [GzDecoder.streams, split] at rests
    cases after <;> cases rests
  | cons second others =>
    rw [rests] at streams resigned
    exact ⟨_, second, others, _, streams, resigned, holdsPkgInfo_signature tools stripped⟩

/-- All later calls put a signature in front of the same streams. -/
theorem streams_later (tools : SigningTools T) (calls : List ResignCall) {data first second : List UInt8}
    {rest : List (List UInt8)} (streams : T.decoder.streams data = first :: second :: rest)
    (clean : HoldsPkgInfo T first = false) :
    ∃ front, T.decoder.streams (resignedApk T calls data) = front :: second :: rest ∧ HoldsPkgInfo T front = false := by
  induction calls generalizing data first with
  | nil => exact ⟨first, streams, clean⟩
  | cons call calls ih =>
    rw [resignedApk]
    split
    next newApk run =>
      obtain ⟨first', second', rest', signature, before, after, unsigned⟩ := streams_resigned tools run
      obtain ⟨rfl, same⟩ := List.cons.inj (streams.symm.trans before)
      obtain ⟨rfl, rfl⟩ := List.cons.inj same
      exact ih after unsigned
    next => exact ih streams clean

theorem packageStreams_second {data first second : List UInt8} {rest : List (List UInt8)}
    (streams : T.decoder.streams data = first :: second :: rest) (clean : HoldsPkgInfo T first = false)
    (holds : HoldsPkgInfo T second = true) : packageStreams T data = second :: rest := by
  simp [packageStreams, streams, clean, holds]

/-- The control stream is one of the streams, and holds `.PKGINFO`. -/
theorem holdsPkgInfo_control {data control : List UInt8} {payload : List (List UInt8)}
    (package : packageStreams T data = control :: payload) :
    control ∈ T.decoder.streams data ∧ HoldsPkgInfo T control = true := by
  have head := List.head?_dropWhile_not (fun stream => !HoldsPkgInfo T stream) (T.decoder.streams data)
  have all : packageStreams T data <:+ T.decoder.streams data := List.dropWhile_suffix _
  rw [packageStreams] at package
  rw [package] at head
  rw [packageStreams, package] at all
  exact ⟨all.subset List.mem_cons_self, by simpa using head⟩

theorem preserved_of_controlSecond (tools : SigningTools T) {call : ResignCall} {data newApk : ByteString}
    (run : resignApk T call data.1 = .ok newApk.1) (condition : ControlSecond T data.1) :
    Preserved T data.1 newApk.1 := by
  intro control payload package
  obtain ⟨first, second, rest, signature, before, after, unsigned⟩ := streams_resigned tools run
  obtain ⟨clean, some⟩ := condition first second rest before
  cases holds : HoldsPkgInfo T second with
  | true =>
    obtain ⟨rfl, rfl⟩ := List.cons.inj ((packageStreams_second before clean holds).symm.trans package)
    refine ⟨packageStreams_second after unsigned holds, checksumOf_eq before, checksumOf_eq after, fun calls => ?_⟩
    obtain ⟨front, later, none⟩ := streams_later tools calls after unsigned
    exact packageStreams_second later none holds
  | false =>
    obtain ⟨mem, isControl⟩ := holdsPkgInfo_control package
    have others := some.resolve_left (by simp [holds])
    rw [before] at mem
    cases List.mem_cons.mp mem with
    | inl isFirst => rw [isFirst, clean] at isControl; cases isControl
    | inr mem =>
      cases List.mem_cons.mp mem with
      | inl isSecond => rw [isSecond, holds] at isControl; cases isControl
      | inr mem => rw [others control mem] at isControl; cases isControl

/-- A control stream in the first place is lost, and one behind the second is not the one in the checksum. -/
theorem controlSecond_of_preserved (tools : SigningTools T) {call : ResignCall} {data newApk : ByteString}
    (run : resignApk T call data.1 = .ok newApk.1) (preserved : Preserved T data.1 newApk.1) :
    ControlSecond T data.1 := by
  intro first second rest before
  obtain ⟨first', second', rest', signature, streams, after, unsigned⟩ := streams_resigned tools run
  obtain ⟨rfl, same⟩ := List.cons.inj (before.symm.trans streams)
  obtain ⟨rfl, rfl⟩ := List.cons.inj same
  have clean : HoldsPkgInfo T first = false := by
    refine Bool.eq_false_iff.mpr fun holds => ?_
    have package : packageStreams T data.1 = first :: second :: rest := by simp [packageStreams, before, holds]
    have kept := congrArg List.length (preserved first (second :: rest) package).1
    have shorter := List.length_dropWhile_le (fun stream => !HoldsPkgInfo T stream) (second :: rest)
    rw [packageStreams, after, List.dropWhile_cons_of_pos (by simp [unsigned])] at kept
    simp only [List.length_cons] at kept shorter
    omega
  refine ⟨clean, ?_⟩
  cases holds : HoldsPkgInfo T second with
  | true => exact .inl rfl
  | false =>
    have package : packageStreams T data.1 = rest.dropWhile fun stream => !HoldsPkgInfo T stream := by
      simp [packageStreams, before, clean, holds]
    cases none : rest.dropWhile fun stream => !HoldsPkgInfo T stream with
    | nil => exact .inr fun stream mem => by simpa using List.dropWhile_eq_nil_iff.mp none stream mem
    | cons control payload =>
      rw [none] at package
      have hashed := (preserved control payload package).2.1.1
      obtain rfl := Outcome.ok.inj ((apkControlGz_eq before).symm.trans hashed)
      have isControl := (holdsPkgInfo_control package).2
      rw [holds] at isControl
      cases isControl

/-- A call that returns keeps the control stream and the payload exactly when the control stream is the
    second stream, or there is none. -/
theorem resignApk_preserves_iff (T : ApkTools) (tools : SigningTools T) (call : ResignCall) (data newApk : ByteString)
    (run : resignApk T call data.1 = .ok newApk.1) : Preserved T data.1 newApk.1 ↔ ControlSecond T data.1 :=
  ⟨controlSecond_of_preserved tools run, preserved_of_controlSecond tools run⟩

/-! ## Two packages -/

/-- Members are the streams of the file they make up. -/
theorem streams_members {valid : List UInt8 → Prop} (exact : D.Exact valid) (members : List (List UInt8))
    (all : ∀ m ∈ members, valid m) : D.streams members.flatten = members := by
  induction members with
  | nil => rw [GzDecoder.streams, List.flatten_nil, starts_nil (by simp)]; rfl
  | cons m rest ih =>
    obtain ⟨first, others⟩ := List.forall_mem_cons.mp all
    rw [List.flatten_cons]
    cases rest with
    | nil =>
      have alone := starts_member exact first []
      rw [starts_nil (show ¬ 10 ≤ ([] : List UInt8).length by simp), List.map_nil] at alone
      rw [GzDecoder.streams, List.flatten_nil, alone, cutAt, List.append_nil, List.drop_zero]
    | cons next rest =>
      have start := starts_member exact (List.forall_mem_cons.mp others).1 rest.flatten
      rw [streams_append exact first (by rw [List.flatten_cons, start]), ih others]

/-- A call in which nothing fails returns. -/
theorem resignApk_writes (data : ByteString) {first second : List UInt8} {rest : List (List UInt8)}
    (streams : T.decoder.streams data.1 = first :: second :: rest) {hash : Bool}
    (read : apkHasDataHash (T.entries second) = .ok hash) (signature : ByteString) :
    ∃ cut tail, cut <+: T.tar.archive (apkSignEntries signature.1) ∧ tail <:+ data.1 ∧
      resignApk T ⟨.ok (), fun _ => .ok signature, .ok (), .ok ()⟩ data.1 = .ok (T.compress cut ++ tail) := by
  obtain ⟨o, o', offsets, starts⟩ := starts_of_streams streams
  have found := findGzipStreamBoundaries_eq (D := T.decoder) data
  rw [starts, if_neg (List.cons_ne_nil _ _)] at found
  have there := (starts_sorted (D := T.decoder) data.1).2 o' (by rw [starts]; simp)
  have tail : slice data.1 o' data.1.length = .ok (data.1.drop o') := by
    rw [slice, if_pos ⟨Nat.le_of_lt there, Nat.le_refl _⟩, List.take_of_length_le (by rw [List.length_drop])]
  obtain ⟨cut, stripped, part⟩ := (stripTarEof_ends (T.tar.archive (apkSignEntries signature.1))).value
  refine ⟨cut, data.1.drop o', part, List.drop_suffix _ _, ?_⟩
  obtain ⟨signed, some⟩ : ∃ signed, signedData hash second data.1 o' = .ok signed := by
    cases hash with
    | true => exact ⟨second, rfl⟩
    | false => exact ⟨_, tail⟩
  simp only [resignApk, fsRead, Outcome.ofExcept, bind_eq, pure_eq, ok_bind, if_pos data.2, found,
    slice_second starts streams, read, some, stripped, tail]

/-- A text file. -/
def textFile (path : String) (text : String) : TarHeader × List UInt8 :=
  (gnuHeader path (Utf8.encode text.toList).length, Utf8.encode text.toList)

def sampleControl : List (TarHeader × List UInt8) := [textFile ".PKGINFO" "pkgname = a\n"]

def samplePayload : List (TarHeader × List UInt8) := [textFile "usr/bin/a" "a\n"]

def sampleSignature : List (TarHeader × List UInt8) := [textFile ".SIGN.RSA.abuild.rsa.pub" "s"]

theorem short_header {kind : HeaderKind} {path : String} {size : Nat} {entryType : EntryType}
    (bytes : ((Utf8.encode path.toList).all fun b => decide (b ≠ 0)) = true)
    (short : (Utf8.encode path.toList).length ≤ 100) (small : size < 2 ^ 64) :
    TarHeader.Short ⟨kind, path, size, 0o644, entryType, 0⟩ :=
  ⟨List.all_iff_forall_prop.mp bytes, short, small, show 0o644 < 8 ^ 7 by decide, show 0 < 8 ^ 11 by decide⟩

theorem sound_sample : (∀ e ∈ sampleControl, tarLayout.Sound e) ∧ (∀ e ∈ samplePayload, tarLayout.Sound e) ∧
    ∀ e ∈ sampleSignature, tarLayout.Sound e := by
  refine ⟨List.forall_mem_singleton.mpr ?_, List.forall_mem_singleton.mpr ?_, List.forall_mem_singleton.mpr ?_⟩ <;>
    exact ⟨short_header (by decide) (by decide) (by decide), rfl⟩

theorem sound_apkSignEntries (signature : ByteString) : ∀ e ∈ apkSignEntries signature.1, tarLayout.Sound e := by
  have small : signature.1.length < 2 ^ 64 := Nat.lt_trans signature.2 (by decide)
  have pax : TarHeader.Short ⟨.ustar, paxEntryName, paxData.length, 0o644, .xHeader, 0⟩ :=
    short_header (by decide) (by decide) (by decide)
  have sign : TarHeader.Short ⟨.ustar, signEntryName, signature.1.length, 0o644, .regular, 0⟩ :=
    short_header (by decide) (by decide) small
  exact List.forall_mem_cons.mpr ⟨⟨pax, rfl⟩, List.forall_mem_singleton.mpr ⟨sign, rfl⟩⟩

theorem signingTools_stored : SigningTools storedTools where
  exact := splitDecoder_exact
  listed signature cut stripped entry listed := by
    obtain ⟨e, mem, regular, path⟩ :=
      storedEntries_prefix (sound_apkSignEntries signature) (stripTarEof_isPrefix stripped) listed
    cases List.mem_cons.mp mem with
    | inl isPax => rw [isPax] at regular; cases regular
    | inr isSign => rw [path, List.mem_singleton.mp isSign]

/-- A package of members that are not compressed. -/
def storedApk (archives : List (List (TarHeader × List UInt8))) : List UInt8 :=
  (archives.map fun entries => storedGzip (tarLayout.archive entries)).flatten

theorem streams_storedApk (archives : List (List (TarHeader × List UInt8))) :
    storedTools.decoder.streams (storedApk archives) = archives.map fun entries => storedGzip (tarLayout.archive entries) := by
  refine streams_members splitDecoder_exact _ fun m mem => ?_
  obtain ⟨entries, -, rfl⟩ := List.mem_map.mp mem
  exact ⟨_, rfl⟩

theorem length_storedApk_small : (storedApk [sampleControl, samplePayload]).length < 2 ^ 62 ∧
    (storedApk [sampleSignature, sampleControl, samplePayload]).length < 2 ^ 62 := by
  obtain ⟨soundControl, soundPayload, soundSignature⟩ := sound_sample
  have control : (tarLayout.archive sampleControl).length = 2048 :=
    Bytes.TarFormat.length_archive_singleton (soundControl _ List.mem_cons_self)
  have payload : (tarLayout.archive samplePayload).length = 2048 :=
    Bytes.TarFormat.length_archive_singleton (soundPayload _ List.mem_cons_self)
  have signature : (tarLayout.archive sampleSignature).length = 2048 :=
    Bytes.TarFormat.length_archive_singleton (soundSignature _ List.mem_cons_self)
  simp [storedApk, length_storedGzip, control, payload, signature]

/-- A call with a signature of one byte. -/
def sampleCall : ResignCall := ⟨.ok (), fun _ => .ok ⟨[1], by decide⟩, .ok (), .ok ()⟩

theorem storedApk_resigned {first second : List (TarHeader × List UInt8)} {rest : List (List (TarHeader × List UInt8))}
    (small : (storedApk (first :: second :: rest)).length < 2 ^ 62) {hash : Bool}
    (read : apkHasDataHash (storedEntries (storedGzip (tarLayout.archive second))) = .ok hash) :
    ∃ newApk : ByteString, resignApk storedTools sampleCall (storedApk (first :: second :: rest)) = .ok newApk.1 := by
  have streams := streams_storedApk (first :: second :: rest)
  obtain ⟨cut, tail, part, behind, run⟩ := resignApk_writes (T := storedTools)
    ⟨storedApk (first :: second :: rest), Nat.lt_trans small (by decide)⟩ streams read ⟨[1], by decide⟩
  refine ⟨⟨storedGzip cut ++ tail, ?_⟩, run⟩
  have signature : (tarLayout.archive (apkSignEntries [1])).length = 3072 := by
    have sound := List.forall_mem_cons.mp (sound_apkSignEntries ⟨[1], by decide⟩)
    have pax := Bytes.TarFormat.length_entry sound.1
    have sign := Bytes.TarFormat.length_archive_singleton (sound.2 _ List.mem_cons_self)
    have parts : tarLayout.archive (apkSignEntries [1]) = tarLayout.entry _ ++ tarLayout.archive [_] :=
      List.append_assoc ..
    rw [parts, List.length_append, pax, sign]
    rfl
  have cutLength : cut.length ≤ (tarLayout.archive (apkSignEntries [1])).length := part.length_le
  have tailLength := behind.length_le
  dsimp only at tailLength
  rw [List.length_append, length_storedGzip (by omega)]
  omega

theorem holdsPkgInfo_stored {entries : List (TarHeader × List UInt8)} (sound : ∀ e ∈ entries, tarLayout.Sound e) :
    HoldsPkgInfo storedTools (storedGzip (tarLayout.archive entries)) =
      ((entries.filter fun e => e.1.entryType == .regular).any fun e =>
        trimDotSlash e.1.path.toList == ".PKGINFO".toList) := by
  rw [HoldsPkgInfo, show storedTools.entries = storedEntries from rfl, storedEntries_archive sound, List.any_map]
  rfl

/-- The call keeps a package with a signature. -/
theorem resignApk_signed : ∃ newApk : ByteString,
    resignApk storedTools sampleCall (storedApk [sampleSignature, sampleControl, samplePayload]) = .ok newApk.1 ∧
      Preserved storedTools (storedApk [sampleSignature, sampleControl, samplePayload]) newApk.1 := by
  obtain ⟨control, payload, signature⟩ := sound_sample
  have small := length_storedApk_small.2
  have read : apkHasDataHash (storedEntries (storedGzip (tarLayout.archive sampleControl))) = .ok false := by
    rw [storedEntries_archive control]
    decide +kernel
  obtain ⟨newApk, run⟩ := storedApk_resigned small read
  refine ⟨newApk, run, (resignApk_preserves_iff storedTools signingTools_stored sampleCall
    ⟨_, Nat.lt_trans small (by decide)⟩ newApk run).mpr fun first second rest streams => ?_⟩
  have streams := streams.symm.trans (streams_storedApk _)
  obtain ⟨rfl, rest'⟩ := List.cons.inj streams
  obtain ⟨rfl, -⟩ := List.cons.inj rest'
  rw [holdsPkgInfo_stored signature, holdsPkgInfo_stored control]
  exact ⟨by decide, .inl (by decide)⟩

/-- The control stream of a package without a signature is lost. -/
theorem resignApk_unsigned_lost : ¬ ∀ (call : ResignCall) (data newApk : ByteString),
    resignApk storedTools call data.1 = .ok newApk.1 → Preserved storedTools data.1 newApk.1 := by
  intro all
  obtain ⟨control, payload, -⟩ := sound_sample
  have small := length_storedApk_small.1
  have read : apkHasDataHash (storedEntries (storedGzip (tarLayout.archive samplePayload))) = .ok false := by
    rw [storedEntries_archive payload]
    decide +kernel
  obtain ⟨newApk, run⟩ := storedApk_resigned small read
  have preserved := all sampleCall ⟨_, Nat.lt_trans small (by decide)⟩ newApk run
  have condition := controlSecond_of_preserved signingTools_stored run preserved
  have clean := (condition _ _ _ (streams_storedApk _)).1
  rw [holdsPkgInfo_stored control] at clean
  exact absurd clean (by decide)

end PatchManager
