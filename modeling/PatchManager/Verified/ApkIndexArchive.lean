import PatchManager.Verified.StoredArchives
import Mathlib.Data.Bool.AllAny

/-! # The signed index of `apk`

What `generate_apk_metadata` writes reads back whole: over all gzip members it is one tar with the
signature, the description and the index, and what follows the first member has been signed.

Main results: `stripTarEof_eq`, the end marker goes and nothing else, and `signedApkIndex_reads`, which
`generateApkIndex_reads` is about.
-/

namespace PatchManager

open PatchManager.Bytes PatchManager.Bytes.Outcome PatchManager.Bytes.TarFormat

/-! ## The end marker -/

theorem stripRound_nonzero {front last after : List UInt8} (length : last.length = 512)
    (nonzero : ∃ b ∈ last, b ≠ (0 : UInt8)) :
    stripRound (front ++ (last ++ after)) (front.length + 512) = .ok (.inr (front.length + 512)) := by
  obtain ⟨b, mem, ne⟩ := nonzero
  have other : last.all (· == 0) = false := by
    refine Bool.eq_false_iff.mpr fun all => ne ?_
    simpa using List.all_eq_true.mp all b mem
  simp only [stripRound, bind_eq, pure_eq, sub_eq (show 512 ≤ front.length + 512 by omega), ok_bind,
    Nat.add_sub_cancel, slice_append rfl (show front.length + 512 = front.length + last.length by omega), other,
    if_pos (show 512 ≤ front.length + 512 by omega), Bool.false_eq_true, if_false]

theorem stripRound_zeros (before after : List UInt8) :
    stripRound (before ++ (zeros 512 ++ after)) (before.length + 512) = .ok (.inl before.length) := by
  simp only [stripRound, bind_eq, pure_eq, sub_eq (show 512 ≤ before.length + 512 by omega), ok_bind,
    Nat.add_sub_cancel, all_zeros, if_pos (show 512 ≤ before.length + 512 by omega), if_true,
    slice_append rfl (show before.length + 512 = before.length + (zeros 512).length by rw [length_zeros])]

/-- The loop goes back over the blocks of zeros and stops at the first that is not. -/
theorem stripLoop_eq {kept : List UInt8} (ends : EndsNonzero kept) (blocks fuel : Nat) (enough : blocks < fuel)
    (after : List UInt8) :
    Outcome.loop (stripRound (kept ++ (zeros (512 * blocks) ++ after))) fuel (kept.length + 512 * blocks) =
      .ok kept.length := by
  induction blocks generalizing fuel after with
  | zero =>
    obtain ⟨fuel, rfl⟩ := Nat.exists_eq_succ_of_ne_zero (Nat.ne_of_gt enough)
    obtain ⟨front, last, rfl, length, nonzero⟩ := ends
    have stop : (front ++ last).length + 512 * 0 = front.length + 512 := by
      rw [List.length_append]
      omega
    have bytes : front ++ last ++ (zeros (512 * 0) ++ after) = front ++ (last ++ after) := List.append_assoc ..
    rw [Outcome.loop, stop, bytes, stripRound_nonzero length nonzero, ok_bind, Sum.elim_inr, List.length_append, length]
  | succ blocks ih =>
    obtain ⟨fuel, rfl⟩ := Nat.exists_eq_succ_of_ne_zero (Nat.ne_of_gt (Nat.zero_lt_of_lt enough))
    have bytes : kept ++ (zeros (512 * (blocks + 1)) ++ after) =
        kept ++ zeros (512 * blocks) ++ (zeros 512 ++ after) := by
      rw [Nat.mul_succ, zeros_add]
      simp only [List.append_assoc]
    have stop : kept.length + 512 * (blocks + 1) = (kept ++ zeros (512 * blocks)).length + 512 := by
      rw [List.length_append, length_zeros]
      omega
    have next := ih fuel (by omega) (zeros 512 ++ after)
    rw [Outcome.loop, stop, bytes, stripRound_zeros, ok_bind, Sum.elim_inl, List.length_append, length_zeros,
      List.append_assoc]
    exact next

/-- All blocks of zeros at the end go, and nothing else. -/
theorem stripTarEof_eq {kept : List UInt8} (ends : EndsNonzero kept) (blocks : Nat)
    (marker : 1 ≤ blocks) : stripTarEof (kept ++ zeros (512 * blocks)) = .ok kept := by
  have whole : (kept ++ zeros (512 * blocks)).length = kept.length + 512 * blocks := by
    rw [List.length_append, length_zeros]
  have long : 512 ≤ kept.length := by
    obtain ⟨front, last, rfl, length, -⟩ := ends
    rw [List.length_append]
    omega
  have stopped := stripLoop_eq ends blocks ((kept ++ zeros (512 * blocks)).length + 1) (by omega) []
  rw [List.append_nil] at stopped
  rw [whole] at stopped
  rw [stripTarEof, whole, if_neg (by omega), bind_eq, stopped, ok_bind]
  exact slice_prefix rfl

/-! ## The archive -/

/-- What the crates do: any header of a plain name can be written, with the length of the contents. -/
structure ApkTools.Lawful (T : ApkTools) : Prop where
  size : ∀ h, T.tar.size h = h.size
  fits : ∀ h : TarHeader, h.Plain → T.tar.Fits h

/-- Reads gzip members that have been written, whatever follows them. -/
structure GzipReader (compress : List UInt8 → List UInt8) where
  /-- the contents of the first member, and the bytes after it -/
  member : List UInt8 → Option (List UInt8 × List UInt8)
  member_compress : ∀ data after, member (compress data ++ after) = some (data, after)
  compress_nonempty : ∀ data, compress data ≠ []

/-- The contents of all members, one after the other. -/
def GzipReader.decompress {compress : List UInt8 → List UInt8} (R : GzipReader compress) (bytes : List UInt8) :
    Option (List UInt8) :=
  if bytes = [] then some []
  else
    match R.member bytes with
    | none => none
    | some (data, after) => if after.length < bytes.length then (R.decompress after).map (data ++ ·) else none
termination_by bytes.length

variable {T : ApkTools}

theorem GzipReader.decompress_compress {compress : List UInt8 → List UInt8} (R : GzipReader compress)
    (data after : List UInt8) : R.decompress (compress data ++ after) = (R.decompress after).map (data ++ ·) := by
  have nonempty := R.compress_nonempty data
  have shorter : after.length < (compress data ++ after).length := by
    have pos := List.length_pos_iff.mpr nonempty
    rw [List.length_append]
    omega
  rw [GzipReader.decompress, if_neg (by simp [nonempty]), R.member_compress]
  exact if_pos shorter

theorem GzipReader.decompress_nil {compress : List UInt8 → List UInt8} (R : GzipReader compress) :
    R.decompress [] = some [] := by
  rw [GzipReader.decompress, if_pos rfl]

theorem PlainName.of_all {path : String}
    (bytes : ((Utf8.encode path.toList).all fun b => decide (b ≠ 0x2F ∧ b ≠ 0)) = true)
    (named : path ≠ "" ∧ path ≠ "." ∧ path ≠ "..") (short : (Utf8.encode path.toList).length ≤ 100) :
    PlainName path :=
  ⟨List.all_iff_forall_prop.mp bytes, named, short⟩

theorem plainName_sign : PlainName signEntryName := .of_all (by decide) (by decide) (by decide)

theorem plainName_description : PlainName "DESCRIPTION" := .of_all (by decide) (by decide) (by decide)

theorem plainName_index : PlainName "APKINDEX" := .of_all (by decide) (by decide) (by decide)

/-- An entry for contents that are in memory. -/
theorem sound_gnuHeader (lawful : T.Lawful) {path : String} (plain : PlainName path) (data : ByteString) :
    T.tar.Sound (gnuHeader path data.1.length, data.1) := by
  have small : data.1.length < 2 ^ 64 := Nat.lt_trans data.2 (by decide)
  exact ⟨lawful.fits _ ⟨plain, small, show 0o644 < 8 ^ 7 by decide, show 0 < 8 ^ 11 by decide⟩, lawful.size _⟩

/-- The archive of the written file: the signature, the description and the index; and what follows the
    first member has been signed. -/
def SignedIndex (T : ApkTools) (R : GzipReader T.compress) (signData : SignTask) (path : String)
    (apkindex written : List UInt8) : Prop :=
  ∃ (signature : ByteString) (first signed : List UInt8), R.member written = some (first, signed) ∧
    signData path signed = .ok (.ok signature) ∧
    (LastBlockNonzero signature.1 → (R.decompress written).bind T.tar.read = some
      [(gnuHeader signEntryName signature.1.length, signature.1),
        (gnuHeader "DESCRIPTION" apkDescription.length, apkDescription),
        (gnuHeader "APKINDEX" apkindex.length, apkindex)])

theorem stripTarEof_archive {F : TarFormat TarHeader} {e : TarHeader × List UInt8} (fits : F.Fits e.1)
    (nonzero : LastBlockNonzero e.2) : stripTarEof (F.archive [e]) = .ok (F.entry e) := by
  have bytes : F.archive [e] = F.entry e ++ zeros (512 * 2) := by simp [archive]
  rw [bytes]
  exact stripTarEof_eq (endsNonzero_entry fits nonzero) 2 (by decide)

/-- Whatever the bytes are, a prefix of them is kept. -/
theorem stripTarEof_ends (tarData : List UInt8) :
    (stripTarEof tarData).Ends (fun _ => False) fun kept => kept <+: tarData := by
  rw [stripTarEof]
  split
  · exact List.prefix_refl tarData
  · rw [bind_eq, ends_bind]
    apply Ends.mono (ends_loop (fun stop => stop ≤ tarData.length) id (q := fun stop => stop ≤ tarData.length) ?_
      (Nat.le_refl _) (Nat.lt_succ_self _)) (fun _ error => error)
    · intro stop inside
      rw [ends_slice, List.drop_zero]
      exact ⟨⟨Nat.zero_le _, inside⟩, List.take_prefix _ _⟩
    · intro stop inside
      unfold stripRound
      split
      next room =>
        simp only [bind_eq, pure_eq, ends_bind, ends_sub, ends_slice]
        refine ⟨room, ⟨Nat.sub_le _ _, inside⟩, ?_⟩
        generalize List.all _ _ = allZero
        cases allZero with
        | true =>
          simp only [if_true, ends_bind, ends_sub, ends_ok, Sum.elim_inl, id]
          omega
        | false => exact inside
      next => exact inside

theorem stripTarEof_isPrefix {tarData kept : List UInt8} (stripped : stripTarEof tarData = .ok kept) : kept <+: tarData := by
  have ends := stripTarEof_ends tarData
  rwa [stripped] at ends

/-- Both tars together are the archive of all entries. -/
theorem decompress_signed (lawful : T.Lawful) (R : GzipReader T.compress) (apkindex signature : ByteString) :
    (R.decompress (T.compress (T.tar.entry (indexSignEntry signature.1)) ++
        T.compress (T.tar.archive (apkIndexEntries apkindex.1)))).bind T.tar.read =
      some (indexSignEntry signature.1 :: apkIndexEntries apkindex.1) := by
  have inner := R.decompress_compress (T.tar.archive (apkIndexEntries apkindex.1)) []
  rw [List.append_nil, R.decompress_nil, Option.map_some, List.append_nil] at inner
  have description : T.tar.Sound (gnuHeader "DESCRIPTION" apkDescription.length, apkDescription) :=
    sound_gnuHeader lawful plainName_description ⟨apkDescription, by decide⟩
  have index := sound_gnuHeader lawful plainName_index apkindex
  have entries : ∀ e ∈ apkIndexEntries apkindex.1, T.tar.Sound e :=
    List.forall_mem_cons.mpr ⟨description, List.forall_mem_singleton.mpr index⟩
  have sign : T.tar.Sound (indexSignEntry signature.1) := sound_gnuHeader lawful plainName_sign signature
  rw [R.decompress_compress, inner, Option.map_some, Option.bind_some, read_entry sign, read_archive entries,
    Option.map_some]

theorem signedApkIndex_ends (lawful : T.Lawful) (R : GzipReader T.compress) (path : String) (signData : SignTask)
    (apkindex : ByteString) :
    (signedApkIndex T (some path) signData apkindex.1).Ends (fun _ => True) fun written =>
      SignedIndex T R signData path apkindex.1 written := by
  rw [signedApkIndex]
  split
  · trivial
  split
  next => trivial
  next => trivial
  next signature signed =>
    obtain ⟨cut, stripped, -⟩ := (stripTarEof_ends (T.tar.archive [indexSignEntry signature.1])).value
    rw [stripped, bind_eq, ok_bind, pure_eq, ends_ok]
    refine ⟨signature, cut, _, R.member_compress _ _, signed, fun nonzero => ?_⟩
    have fits := (sound_gnuHeader lawful plainName_sign signature).1
    obtain rfl : T.tar.entry (indexSignEntry signature.1) = cut :=
      Outcome.ok.inj ((stripTarEof_archive fits nonzero).symm.trans stripped)
    exact decompress_signed lawful R apkindex signature

/-- With a key and a signature there is an archive. -/
theorem signedApkIndex_writes {path : String} (key : path ≠ "") {signData : SignTask} {signature : ByteString}
    (signs : ∀ data, signData path data = .ok (.ok signature)) (apkindex : List UInt8) :
    ∃ written, signedApkIndex T (some path) signData apkindex = .ok written := by
  obtain ⟨cut, stripped, -⟩ := (stripTarEof_ends (T.tar.archive [indexSignEntry signature.1])).value
  refine ⟨T.compress cut ++ T.compress (T.tar.archive (apkIndexEntries apkindex)), ?_⟩
  simp only [signedApkIndex, if_neg key, signs, stripped, bind_eq, ok_bind, pure_eq]

/-- With a signature that is always the same there is an archive that reads back with it. -/
theorem SignedIndex.fixed {R : GzipReader T.compress} {path : String} {signature : ByteString} {apkindex : List UInt8}
    (spec : ((signedApkIndex T (some path) (fun _ _ => .ok (.ok signature)) apkindex).Ends (fun _ => True) fun written =>
        SignedIndex T R (fun _ _ => .ok (.ok signature)) path apkindex written) ∧
      ∀ s, path ≠ "" → (∀ data : List UInt8, (fun _ _ => .ok (.ok signature) : SignTask) path data = .ok (.ok s)) →
        ∃ written, signedApkIndex T (some path) (fun _ _ => .ok (.ok signature)) apkindex = .ok written)
    (key : path ≠ "") (nonzero : LastBlockNonzero signature.1) :
    ∃ written, signedApkIndex T (some path) (fun _ _ => .ok (.ok signature)) apkindex = .ok written ∧
      (R.decompress written).bind T.tar.read = some (indexSignEntry signature.1 :: apkIndexEntries apkindex) := by
  obtain ⟨ends, writes⟩ := spec
  obtain ⟨written, wrote⟩ := writes signature key fun _ => rfl
  rw [wrote, ends_ok] at ends
  obtain ⟨same, first, signed, -, eq, reads⟩ := ends
  obtain rfl : signature = same := Except.ok.inj (Except.ok.inj eq)
  exact ⟨written, wrote, reads nonzero⟩

theorem storedTools_lawful : storedTools.Lawful where
  size _ := rfl
  fits _ plain := ⟨fun b mem => (plain.path.bytes b mem).2, plain.path.short, plain.size, plain.mode, plain.mtime⟩

def storedReader : GzipReader storedGzip where
  member := readMember
  member_compress := readMember_storedGzip
  compress_nonempty _ := List.cons_ne_nil _ _

end PatchManager
