import PatchManager.Order.Mixed
import PatchManager.Web.Upgrades
import Mathlib.Data.String.Basic

/-! # The order of versions

Parts of versions are compared as numbers if both are numbers, else as texts.  A part that is a
text may stand between the spellings of two numbers that are in the other order: `9`, `10`, `1rc1`
and `9` again each precede the next one.

Main results:

* `orders_iff`: exactly for which versions the comparison keeps the laws and what is selected by it
  is greatest.
* `orders_of_numbers`: versions whose parts are numbers are ordered.
* `release_candidate_circle`: three versions that follow one another in a circle.
-/

namespace PatchManager

open PatchManager.Order
open RepoSync (RepoPackage)

/-! ## What the callers rely on -/

/-- The files that have an entry in the database of `pacman`. -/
def pacmanEntries (packages : List PackageFile) : List IndexEntry :=
  (sortFiles (packages.filter fun file =>
    file.endsWith ".pkg.tar.zst" && !file.endsWith ".sig" && !file.endsWith ".db.tar.zst")).filterMap
      PackageFile.entry

/-- Among some versions the comparison keeps the laws, and in whatever order they come, those that
    are sorted start with a greatest one and `pacman` is given a greatest one of each name. -/
structure Orders (versions : List String) : Prop where
  lawful : Coherent compareVersions versions
  listed : ∀ rows : List RepoAvailableVersion, (∀ row ∈ rows, row.version ∈ versions) →
    ∀ latest ∈ (sortRepoVersionsDesc rows).head?, ∀ row ∈ rows,
      compareVersions row.version latest.version ≠ .gt
  available : ∀ (rows : List RepoPackage) distro codename,
    (∀ row ∈ offered rows distro codename, row.version ∈ versions) →
    ∀ latest ∈ (availableVersions rows distro codename).head?, ∀ row ∈ offered rows distro codename,
      compareVersions row.version latest ≠ .gt
  kept : ∀ packages : List PackageFile,
    (∀ entry ∈ pacmanEntries packages, entry.info.version ∈ versions) →
    ∀ latest ∈ generatePacmanMetadata packages, ∀ entry ∈ pacmanEntries packages,
      entry.info.name = latest.info.name →
      compareVersions entry.info.version latest.info.version ≠ .gt

/-! ## Versions as sequences -/

/-- The number that a part is. -/
def partNumber (part : String) : Option Nat := Str.parseUnsigned (2 ^ 64) part.toList

/-- The parts of a version, followed by as many `0` as are needed. -/
def versionPart (version : String) (i : Nat) : String :=
  String.ofList ((splitVersion version.toList).getD i ['0'])

theorem compareParts_eq (a b : List Char) :
    compareParts a b = mixed partNumber (String.ofList a) (String.ofList b) := by
  simp only [compareParts, mixed, partNumber, String.toList_ofList]
  cases Str.parseUnsigned (2 ^ 64) a <;> cases Str.parseUnsigned (2 ^ 64) b <;> rfl

theorem versionPart_missing {version : String} {i : Nat} (le : (splitVersion version.toList).length ≤ i) :
    versionPart version i = "0" := by
  simp [versionPart, List.getElem?_eq_none le]

theorem compareVersions_eq (a b : String) :
    compareVersions a b =
      byParts (mixed partNumber) (max (splitVersion a.toList).length (splitVersion b.toList).length)
        (versionPart a) (versionPart b) := by
  simp only [compareVersions, byParts, compareParts_eq, versionPart]

/-- Versions are in the order of the first parts that differ. -/
theorem compareVersions_iff (a b : String) (order : Ordering) (differ : order ≠ .eq) :
    compareVersions a b = order ↔ FirstDiffer (mixed partNumber) order (versionPart a) (versionPart b) := by
  rw [compareVersions_eq]
  refine byParts_iff differ fun i le => ?_
  rw [versionPart_missing (by omega), versionPart_missing (by omega)]
  decide

instance : Std.OrientedCmp compareVersions := orientedCmp_of_parts compareVersions_iff

theorem compareVersions_eq_trans (a b c : String) (ab : compareVersions a b = .eq)
    (bc : compareVersions b c = .eq) : compareVersions a c = .eq :=
  eq_trans_of_parts compareVersions_iff a b c ab bc

/-! ## The greatest of each name -/

/-- What has been kept of the entries seen: of each name one, and none of them is greater. -/
structure Kept (seen latest : List IndexEntry) : Prop where
  nodup : (latest.map (·.info.name)).Nodup
  sub : latest ⊆ seen
  names : ∀ entry ∈ seen, ∃ kept ∈ latest, kept.info.name = entry.info.name
  greatest : ∀ kept ∈ latest, ∀ entry ∈ seen, entry.info.name = kept.info.name →
    compareVersions entry.info.version kept.info.version ≠ .gt

theorem kept_nil : Kept [] [] := ⟨by simp, by simp, by simp, by simp⟩

/-- An entry of a name is found if there is one, and it is the only one. -/
theorem Kept.find {seen latest : List IndexEntry} (kept : Kept seen latest) {name : String} {existing : IndexEntry}
    (found : latest.find? (·.info.name == name) = some existing) {other : IndexEntry} (mem : other ∈ latest)
    (same : other.info.name = name) : other = existing := by
  have named : existing.info.name = name := by simpa using List.find?_some found
  exact List.inj_on_of_nodup_map kept.nodup mem (List.mem_of_find?_eq_some found) (same.trans named.symm)

variable {versions : List String}

theorem Kept.step (coherent : Coherent compareVersions versions) {seen latest : List IndexEntry}
    (kept : Kept seen latest) {entry : IndexEntry} (known : ∀ e ∈ entry :: seen, e.info.version ∈ versions) :
    Kept (entry :: seen) (keepLatest latest entry) := by
  obtain ⟨knownEntry, knownSeen⟩ := List.forall_mem_cons.mp known
  cases found : latest.find? (·.info.name == entry.info.name) with
  | none =>
    have fresh : ∀ other ∈ latest, other.info.name ≠ entry.info.name := by simpa using found
    have next : keepLatest latest entry = entry :: latest := by simp [keepLatest, found]
    rw [next]
    refine ⟨by simpa using ⟨fresh, kept.nodup⟩, List.cons_subset_cons _ kept.sub, fun other mem => ?_,
      fun one memOne other memOther named => ?_⟩
    · rcases List.mem_cons.mp mem with rfl | mem
      · exact ⟨other, by simp, rfl⟩
      · obtain ⟨old, memOld, named⟩ := kept.names other mem
        exact ⟨old, by simp [memOld], named⟩
    · rcases List.mem_cons.mp memOne with rfl | old <;> rcases List.mem_cons.mp memOther with rfl | seenBefore
      · exact coherent.self knownEntry
      · obtain ⟨same, memSame, sameName⟩ := kept.names other seenBefore
        exact absurd (sameName.trans named) (fresh same memSame)
      · exact absurd named.symm (fresh one old)
      · exact kept.greatest one old other seenBefore named
  | some existing =>
    have named : existing.info.name = entry.info.name := by simpa using List.find?_some found
    have memExisting : existing ∈ latest := List.mem_of_find?_eq_some found
    by_cases newer : compareVersions entry.info.version existing.info.version = .gt
    · have next : keepLatest latest entry = entry :: latest.filter (·.info.name != entry.info.name) := by
        simp [keepLatest, found, newer]
      have older : compareVersions existing.info.version entry.info.version ≠ .gt :=
        coherent.of_gt knownEntry (knownSeen existing (kept.sub memExisting)) newer
      rw [next]
      refine ⟨?_, ?_, fun other mem => ?_, fun one memOne other memOther same => ?_⟩
      · rw [List.map_cons, List.nodup_cons]
        exact ⟨by simp, kept.nodup.sublist (List.filter_sublist.map _)⟩
      · exact List.cons_subset_cons _ fun old mem => kept.sub (List.mem_of_mem_filter mem)
      · by_cases same : other.info.name = entry.info.name
        · exact ⟨entry, by simp, same.symm⟩
        · obtain ⟨old, memOld, namedOld⟩ := kept.names other (List.mem_of_ne_of_mem (by grind) mem)
          exact ⟨old, by simp [memOld, namedOld, same], namedOld⟩
      · rcases List.mem_cons.mp memOne with rfl | memOne
        · rcases List.mem_cons.mp memOther with rfl | memOther
          · exact coherent.self knownEntry
          · have le := kept.greatest existing memExisting other memOther (same.trans named.symm)
            exact (coherent _ (knownSeen other memOther) _ (knownSeen existing (kept.sub memExisting)) _
              knownEntry).trans le older
        · obtain ⟨memOne, different⟩ := List.mem_filter.mp memOne
          rcases List.mem_cons.mp memOther with rfl | memOther
          · exact absurd same.symm (by simpa using different)
          · exact kept.greatest one memOne other memOther same
    · have next : keepLatest latest entry = latest := by simp [keepLatest, found, newer]
      rw [next]
      refine ⟨kept.nodup, fun old mem => List.mem_cons_of_mem _ (kept.sub mem), fun other mem => ?_,
        fun one memOne other memOther same => ?_⟩
      · rcases List.mem_cons.mp mem with rfl | mem
        · exact ⟨existing, memExisting, named⟩
        · exact kept.names other mem
      · rcases List.mem_cons.mp memOther with rfl | memOther
        · rw [kept.find found memOne same.symm]
          exact newer
        · exact kept.greatest one memOne other memOther same

/-- The loop over all entries, after those that have been seen. -/
theorem Kept.run (coherent : Coherent compareVersions versions) {entries seen latest : List IndexEntry}
    (kept : Kept seen latest) (known : ∀ e ∈ entries ++ seen, e.info.version ∈ versions) :
    Kept (entries.reverse ++ seen) (entries.foldl keepLatest latest) := by
  induction entries generalizing seen latest with
  | nil => exact kept
  | cons entry rest ih =>
    have next := kept.step coherent fun e mem => known e (by simp at mem ⊢; tauto)
    rw [List.reverse_cons, List.append_assoc]
    exact ih next fun e mem => known e (by simp at mem ⊢; tauto)

/-! ## The versions that are ordered -/

/-- Three of them: where they first differ, one has a text that stands between the spellings of
    two numbers, and the version with the greater spelling is not the greater version. -/
def TangledVersions (a b c : String) : Prop :=
  ∃ i, Tangled partNumber (versionPart a) (versionPart b) (versionPart c) i

theorem coherent_versions_iff (versions : List String) :
    Coherent compareVersions versions ↔ ∀ a ∈ versions, ∀ b ∈ versions, ∀ c ∈ versions, ¬ TangledVersions a b c := by
  rw [coherent_iff compareVersions_iff versions]
  simp only [TangledVersions, not_exists]

/-- The comparison keeps its laws on some versions, and what it selects from them is greatest,
    exactly if no three of them are tangled. -/
theorem orders_iff (versions : List String) :
    Orders versions ↔ ∀ a ∈ versions, ∀ b ∈ versions, ∀ c ∈ versions, ¬ TangledVersions a b c := by
  rw [← coherent_versions_iff]
  constructor
  · exact Orders.lawful
  · intro coherent
    refine ⟨coherent, fun rows known latest head row mem => ?_, fun rows distro codename known latest head row mem => ?_,
      fun packages known latest memLatest entry memEntry named => ?_⟩
    · have among : Coherent compareVersions (rows.map (·.version)) :=
        coherent.subset fun v mem => by
          obtain ⟨row, memRow, rfl⟩ := List.mem_map.mp mem
          exact known row memRow
      exact among.comap.head_sortDesc head mem
    · refine Coherent.head_sortDesc (coherent.subset fun v mem => ?_) head ?_
      · simp only [List.mem_mergeSort, List.mem_dedup, List.mem_map] at mem
        obtain ⟨row, memRow, rfl⟩ := mem
        exact known row memRow
      · simpa using ⟨row, mem, rfl⟩
    · have kept : Kept ((pacmanEntries packages).reverse ++ []) ((pacmanEntries packages).foldl keepLatest []) :=
        kept_nil.run coherent (by simpa using known)
      exact kept.greatest latest memLatest entry (by simpa using memEntry) named

/-- Versions of numbers alone are ordered. -/
theorem orders_of_numbers (numbers : ∀ v ∈ versions, ∀ i, (partNumber (versionPart v i)).isSome) :
    Orders versions := by
  refine (orders_iff versions).mpr fun a _ b _ c memC ⟨i, tangled⟩ => ?_
  have number := numbers c memC i
  simp [tangled.between.text] at number

/-- A release candidate is after `10` and before `9`. -/
theorem release_candidate_circle : ¬ Orders ["2.0.9", "2.0.10", "2.0.1rc1"] := by
  intro orders
  have laws := orders.lawful "2.0.9" (by simp) "2.0.10" (by simp) "2.0.1rc1" (by simp)
  exact laws.trans (by decide +kernel) (by decide +kernel) (by decide +kernel)

end PatchManager
