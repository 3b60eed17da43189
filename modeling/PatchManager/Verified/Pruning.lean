import PatchManager.Order.Pass
import PatchManager.Order.Stable
import PatchManager.Repo.Prune
import PatchManager.Verified.VersionOrder

/-! # Pruning keeps the newest

Of the packages with one name and one suite the pool keeps the one whose version is greatest as a text.

Main results: `mem_gone_iff`, which packages are removed, and `prune_right_iff`, exactly for which pools
what is removed has a replacement that is not older, whatever the file system answers.
-/

namespace PatchManager

open PatchManager.Order

instance lawfulEqCmp_lex : Std.LawfulEqCmp (compare : String ×ₗ String → String ×ₗ String → Ordering) where
  eq_of_compare := compare_eq_iff_eq.mp

/-! ## What is collected -/

/-- A `.deb` with a suite that can be parsed. -/
def PackageFile.poolEntry (file : PackageFile) : Option PoolEntry :=
  if file.endsWith ".deb" then
    (suiteOf file.filename).bind fun suite => file.info.map fun info => ⟨file.filename, info.name, info.version, suite⟩
  else none

def PackageFile.isOrphan (file : PackageFile) : Bool := file.endsWith ".deb" && (suiteOf file.filename).isNone

theorem scanEntry_eq (access : PoolAccess) (scan : PoolScan) (file : PackageFile) :
    scanEntry access scan file = {
      entries := scan.entries ++ file.poolEntry.toList
      gone := scan.gone ++ if file.isOrphan && access.removes file.filename then [file.filename] else [] } := by
  unfold scanEntry PackageFile.poolEntry PackageFile.isOrphan
  cases file.endsWith ".deb" with
  | false => simp
  | true =>
    cases suiteOf file.filename with
    | none => by_cases removes : access.removes file.filename <;> simp [removes]
    | some suite => cases file.info <;> simp

theorem scan_eq (access : PoolAccess) (files : List PackageFile) :
    files.foldl (scanEntry access) ⟨[], []⟩ = {
      entries := files.filterMap PackageFile.poolEntry
      gone := ((files.filter PackageFile.isOrphan).map PackageFile.filename).filter access.removes } := by
  induction files using List.reverseRecOn with
  | nil => rfl
  | append_singleton before file ih =>
    rw [List.foldl_append, ih, List.foldl_cons, List.foldl_nil, scanEntry_eq]
    congr 1
    · cases entry : file.poolEntry <;> simp [entry]
    · by_cases orphan : file.isOrphan <;> by_cases removes : access.removes file.filename <;> simp [orphan, removes]

def AptPool.entries (pool : AptPool) : List PoolEntry := pool.files.filterMap PackageFile.poolEntry

theorem poolEntry_filename {file : PackageFile} {e : PoolEntry} (entry : file.poolEntry = some e) :
    e.filename = file.filename := by
  simp only [PackageFile.poolEntry, Option.ite_none_right_eq_some, Option.bind_eq_some_iff, Option.map_eq_some_iff] at entry
  obtain ⟨-, suite, -, info, -, rfl⟩ := entry
  rfl

theorem AptPool.eq_of_filename {pool : AptPool} {a b : PackageFile} (memA : a ∈ pool.files) (memB : b ∈ pool.files)
    (same : a.filename = b.filename) : a = b :=
  List.inj_on_of_nodup_map pool.nodup memA memB same

theorem AptPool.entry_eq {pool : AptPool} {d e : PoolEntry} (memD : d ∈ pool.entries) (memE : e ∈ pool.entries)
    (same : d.filename = e.filename) : d = e := by
  obtain ⟨file, mem, entry⟩ := List.mem_filterMap.mp memD
  obtain ⟨file', mem', entry'⟩ := List.mem_filterMap.mp memE
  rw [poolEntry_filename entry, poolEntry_filename entry'] at same
  obtain rfl := pool.eq_of_filename mem mem' same
  exact Option.some.inj (entry.symm.trans entry')

theorem AptPool.entries_nodup (pool : AptPool) : pool.entries.Nodup := by
  have names : (pool.entries.map PoolEntry.filename).Sublist (pool.files.map PackageFile.filename) := by
    have eq : pool.entries.map PoolEntry.filename =
        (pool.files.filter fun file => file.poolEntry.isSome).map PackageFile.filename := by
      rw [AptPool.entries, List.map_filterMap, ← List.filterMap_eq_map, ← List.filterMap_eq_filter,
        List.filterMap_filterMap]
      refine List.filterMap_congr fun file _ => ?_
      cases entry : file.poolEntry with
      | none => simp [Option.guard, entry]
      | some e => simp [Option.guard, entry, poolEntry_filename entry]
    rw [eq]
    exact List.filter_sublist.map _
  exact (pool.nodup.sublist names).of_map _

/-! ## What is removed -/

/-- The entries with the package and the suite of an entry. -/
def AptPool.group (pool : AptPool) (e : PoolEntry) : List PoolEntry :=
  pool.entries.filter fun d => (d.packageName, d.suite) = (e.packageName, e.suite)

/-- No version of the group is greater as a text, and the directory has the entry before those with the
    same version. -/
def AptPool.Kept (pool : AptPool) (e : PoolEntry) : Prop :=
  FirstLeast (fun a b => b.version ≤ a.version) (pool.group e) e

theorem pruneGroup_eq (access : PoolAccess) (versions : List (String × String)) : pruneGroup access versions =
    (((versions.mergeSort fun a b => b.2 ≤ a.2).drop 1).map Prod.fst).filter access.removes := by
  unfold pruneGroup
  split
  · have short : (versions.mergeSort fun a b => b.2 ≤ a.2).length ≤ 1 := by simpa
    rw [List.drop_eq_nil_of_le short]
    rfl
  · rfl

/-- What is sorted of an entry. -/
def PoolEntry.path (e : PoolEntry) : String × String := (e.filename, e.version)

theorem AptPool.path_inj {pool : AptPool} {d e : PoolEntry} (memD : d ∈ pool.group e)
    {c : PoolEntry} (memC : c ∈ pool.group e) (same : d.path = c.path) : d = c :=
  pool.entry_eq (List.mem_of_mem_filter memD) (List.mem_of_mem_filter memC) (Prod.mk.inj same).1

theorem AptPool.mem_group_self {pool : AptPool} {e : PoolEntry} (mem : e ∈ pool.entries) : e ∈ pool.group e :=
  List.mem_filter.mpr ⟨mem, by simp⟩

theorem groupEntries_values {pool : AptPool} {group : (String ×ₗ String) × List (String × String)}
    (mem : group ∈ groupEntries pool.entries) {e : PoolEntry} (key : group.1 = toLex (e.packageName, e.suite)) :
    group.2 = (pool.group e).map PoolEntry.path := by
  rw [group_eq mem, key, List.filter_map, List.map_map]
  rfl

/-- Behind the head of a group stand those that are not kept. -/
theorem mem_drop_group {pool : AptPool} {e : PoolEntry} (mem : e ∈ pool.entries) :
    e.path ∈ (((pool.group e).map PoolEntry.path).mergeSort fun a b => b.2 ≤ a.2).drop 1 ↔ ¬ pool.Kept e := by
  have nodup : ((pool.group e).map PoolEntry.path).Nodup :=
    (pool.entries_nodup.filter _).map_on fun d memD c memC same => pool.path_inj memD memC same
  have inj : ∀ d ∈ pool.group e, ∀ c ∈ pool.group e, d.path = c.path → d = c :=
    fun d memD c memC same => pool.path_inj memD memC same
  have there := pool.mem_group_self mem
  rw [mem_drop_mergeSort (fun a b c => by simpa using fun ab bc => le_trans bc ab)
    (fun a b => by simpa using le_total b.2 a.2) nodup, firstLeast_map inj there]
  exact and_iff_right (List.mem_map_of_mem there)

def AptPool.pruned (pool : AptPool) (access : PoolAccess) : List String :=
  (groupEntries pool.entries).flatMap fun group => pruneGroup access group.2

theorem mem_pruned_iff {pool : AptPool} {access : PoolAccess} {filename : String} :
    filename ∈ pool.pruned access ↔
      ∃ e ∈ pool.entries, e.filename = filename ∧ ¬ pool.Kept e ∧ access.removes filename = true := by
  simp only [AptPool.pruned, List.mem_flatMap, pruneGroup_eq, List.mem_filter, List.mem_map]
  constructor
  · rintro ⟨group, mem, ⟨v, behind, rfl⟩, removes⟩
    have there : v ∈ group.2 := (List.mergeSort_perm _ _).mem_iff.mp (List.mem_of_mem_drop behind)
    rw [group_eq mem] at there
    obtain ⟨entry, inGroup, rfl⟩ := List.mem_map.mp there
    obtain ⟨memEntry, key⟩ := List.mem_filter.mp inGroup
    obtain ⟨e, memE, rfl⟩ := List.mem_map.mp memEntry
    rw [groupEntries_values mem (e := e) (of_decide_eq_true key).symm] at behind
    exact ⟨e, memE, rfl, (mem_drop_group memE).mp behind, removes⟩
  · rintro ⟨e, memE, rfl, notKept, removes⟩
    obtain ⟨group, mem, key⟩ := exists_group (List.mem_map_of_mem (f := fun e : PoolEntry =>
      ((e.filename, e.version), (toLex (e.packageName, e.suite) : String ×ₗ String))) memE)
    refine ⟨group, mem, ⟨e.path, ?_, rfl⟩, removes⟩
    rw [groupEntries_values mem key]
    exact (mem_drop_group memE).mpr notKept

/-- Every file can be removed and the directory can be read. -/
def PoolAccess.perfect : PoolAccess where
  removes _ := true
  failsAfter := none

/-- A file is left when it is not an orphan and, if it can be parsed, is kept in its group. -/
theorem mem_remaining_iff {pool : AptPool} {file : PackageFile} :
    file ∈ (pruneStaleAptPackages .perfect pool).2.files ↔
      file ∈ pool.files ∧ file.isOrphan = false ∧ ∀ e, file.poolEntry = some e → pool.Kept e := by
  have gone : (pruneStaleAptPackages .perfect pool).2 =
      pool.without ((pool.files.filter PackageFile.isOrphan).map PackageFile.filename ++ pool.pruned .perfect) := by
    simp only [pruneStaleAptPackages, PoolAccess.perfect, scan_eq, List.filter_true]
    rfl
  rw [gone, AptPool.without, List.mem_filter]
  refine and_congr_right fun mem => ?_
  rw [decide_eq_true_iff, List.mem_append, not_or]
  refine and_congr ?_ ?_
  · rw [Bool.eq_false_iff, ← not_iff_not, not_not, not_not, List.mem_map]
    constructor
    · rintro ⟨orphan, there, same⟩
      obtain ⟨memOrphan, isOrphan⟩ := List.mem_filter.mp there
      rwa [← pool.eq_of_filename memOrphan mem same]
    · intro isOrphan
      exact ⟨file, List.mem_filter.mpr ⟨mem, isOrphan⟩, rfl⟩
  · rw [mem_pruned_iff]
    constructor
    · intro none e entry
      by_contra notKept
      exact none ⟨e, List.mem_filterMap.mpr ⟨file, mem, entry⟩, poolEntry_filename entry, notKept, rfl⟩
    · rintro kept ⟨e, memE, same, notKept, -⟩
      obtain ⟨file', mem', entry⟩ := List.mem_filterMap.mp memE
      rw [poolEntry_filename entry] at same
      obtain rfl := pool.eq_of_filename mem' mem same
      exact notKept (kept e entry)

/-- Whatever goes wrong, no more than that is removed. -/
theorem remaining_sub (access : PoolAccess) (pool : AptPool) :
    (pruneStaleAptPackages .perfect pool).2.files ⊆ (pruneStaleAptPackages access pool).2.files := by
  intro file mem
  obtain ⟨there, notOrphan, kept⟩ := mem_remaining_iff.mp mem
  have notGone (files : List PackageFile) (sub : files ⊆ pool.files) :
      file.filename ∉ ((files.filter PackageFile.isOrphan).map PackageFile.filename).filter access.removes := by
    intro gone
    obtain ⟨orphan, inFiles, same⟩ := List.mem_map.mp (List.mem_of_mem_filter gone)
    obtain ⟨memOrphan, isOrphan⟩ := List.mem_filter.mp inFiles
    rw [pool.eq_of_filename (sub memOrphan) there same, notOrphan] at isOrphan
    cases isOrphan
  have notPruned : file.filename ∉ pool.pruned access := by
    intro gone
    obtain ⟨e, memE, same, notKept, -⟩ := mem_pruned_iff.mp gone
    obtain ⟨file', mem', entry⟩ := List.mem_filterMap.mp memE
    rw [poolEntry_filename entry] at same
    obtain rfl := pool.eq_of_filename mem' there same
    exact notKept (kept e entry)
  unfold pruneStaleAptPackages
  cases access.failsAfter with
  | some n =>
    simp only [scan_eq]
    exact List.mem_filter.mpr ⟨there, by simpa using notGone _ (List.take_subset n _)⟩
  | none =>
    simp only [scan_eq]
    have both := not_or.mpr ⟨notGone _ (List.Subset.refl _), notPruned⟩
    rw [← List.mem_append] at both
    exact List.mem_filter.mpr ⟨there, decide_eq_true both⟩

theorem remaining_files {access : PoolAccess} {pool : AptPool} :
    (pruneStaleAptPackages access pool).2.files ⊆ pool.files := by
  unfold pruneStaleAptPackages
  cases access.failsAfter <;> exact List.filter_subset_self _

/-! ## What replaces it -/

/-- The index of a suite has the file, if it can be parsed. -/
def PackageFile.isFor (suite : String) (file : PackageFile) : Bool :=
  file.endsWith ".deb" && (hasSuiteToken suite file.filename || suite == "u2404" &&
    "linux-patch-manager_".toList.isPrefixOf (Str.toAsciiLowercase file.filename.toList))

theorem mem_generateAptMetadata {files : List PackageFile} {suite : String} {entry : IndexEntry} :
    entry ∈ generateAptMetadata files suite ↔
      ∃ file ∈ files, file.isFor suite = true ∧ file.entry = some entry := by
  simp only [generateAptMetadata, sortFiles, List.mem_filterMap, List.mem_mergeSort, List.mem_filter, and_assoc]
  rfl

/-- What pruning may do to the pool. -/
structure PruneRight (access : PoolAccess) (pool : AptPool) : Prop where
  /-- What is removed has a suite and can be parsed, or it has none. -/
  removed : ∀ file ∈ pool.files, file ∉ (pruneStaleAptPackages access pool).2.files →
    file.isOrphan = true ∨ ∃ e, file.poolEntry = some e
  /-- A package of the same name and suite that is not older remains. -/
  replaced : ∀ file ∈ pool.files, file ∉ (pruneStaleAptPackages access pool).2.files →
    ∀ e, file.poolEntry = some e → ∃ other ∈ (pruneStaleAptPackages access pool).2.files, ∃ e',
      other.poolEntry = some e' ∧ e'.packageName = e.packageName ∧ e'.suite = e.suite ∧
        compareVersions e'.version e.version ≠ .lt
  /-- What the index of a suite lists, it lists afterwards in a version that is not older. -/
  listed : ∀ suite ∈ aptSuites, ∀ entry ∈ generateAptMetadata pool.files suite,
    ∃ entry' ∈ generateAptMetadata (pruneStaleAptPackages access pool).2.files suite,
      entry'.info.name = entry.info.name ∧ compareVersions entry'.info.version entry.info.version ≠ .lt

/-- The pools that can be pruned. -/
structure PruneSafe (pool : AptPool) : Prop where
  /-- In a group the version that is greatest as a text is not older than another. -/
  newest : ∀ e ∈ pool.entries, ∀ top ∈ pool.group e, (∀ d ∈ pool.group e, d.version ≤ top.version) →
    compareVersions top.version e.version ≠ .lt
  /-- For an index that lists a file although the first token in its name is not that of the suite, a file
      that is kept in its group will do. -/
  others : ∀ suite ∈ aptSuites, ∀ entry ∈ generateAptMetadata pool.files suite,
    suiteOf entry.filename ≠ some suite → ∃ top ∈ pool.entries, pool.Kept top ∧
      top.packageName = entry.info.name ∧ compareVersions top.version entry.info.version ≠ .lt ∧
      ∃ entry' ∈ generateAptMetadata pool.files suite, entry'.filename = top.filename

theorem compareVersions_self (version : String) : compareVersions version version = .eq := cmp_self version

theorem poolEntry_isSome {file : PackageFile} {info : PackageInfo} {suite : String}
    (deb : file.endsWith ".deb" = true) (token : suiteOf file.filename = some suite) (parsed : file.info = some info) :
    file.poolEntry = some ⟨file.filename, info.name, info.version, suite⟩ := by
  simp [PackageFile.poolEntry, deb, token, parsed]

theorem poolEntry_cases {file : PackageFile} {e : PoolEntry} (entry : file.poolEntry = some e) :
    file.endsWith ".deb" = true ∧ suiteOf file.filename = some e.suite ∧
      file.info = some ⟨e.packageName, e.version⟩ := by
  simp only [PackageFile.poolEntry, Option.ite_none_right_eq_some, Option.bind_eq_some_iff, Option.map_eq_some_iff] at entry
  obtain ⟨deb, suite, token, info, parsed, rfl⟩ := entry
  exact ⟨deb, token, parsed⟩

theorem poolEntry_not_orphan {file : PackageFile} {e : PoolEntry} (entry : file.poolEntry = some e) :
    file.isOrphan = false := by
  simp [PackageFile.isOrphan, (poolEntry_cases entry).2.1]

/-- The index of its suite lists the file of an entry. -/
theorem poolEntry_listed {files : List PackageFile} {file : PackageFile} (mem : file ∈ files) {e : PoolEntry}
    (entry : file.poolEntry = some e) :
    ⟨file.filename, e.packageName, e.version⟩ ∈ generateAptMetadata files e.suite := by
  obtain ⟨deb, token, parsed⟩ := poolEntry_cases entry
  have named : hasSuiteToken e.suite file.filename = true := by simpa using List.find?_some token
  refine mem_generateAptMetadata.mpr ⟨file, mem, ?_, ?_⟩
  · simp [PackageFile.isFor, deb, named]
  · simp [PackageFile.entry, parsed]

theorem AptPool.group_eq {pool : AptPool} {d e : PoolEntry} (mem : d ∈ pool.group e) : pool.group d = pool.group e := by
  have key := of_decide_eq_true (List.mem_filter.mp mem).2
  unfold AptPool.group
  rw [key]

theorem AptPool.exists_kept {pool : AptPool} {e : PoolEntry} (mem : e ∈ pool.entries) :
    ∃ top ∈ pool.group e, pool.Kept top := by
  obtain ⟨top, first⟩ : ∃ top, FirstLeast (fun a b : PoolEntry => b.version ≤ a.version) (pool.group e) top :=
    exists_firstLeast (fun a b c => by simpa using fun ab bc => le_trans bc ab)
      (fun a b => by simpa using le_total b.version a.version) (pool.entries_nodup.filter _)
      (List.ne_nil_of_mem (pool.mem_group_self mem))
  refine ⟨top, first.mem, ?_⟩
  rwa [AptPool.Kept, pool.group_eq first.mem]

/-- The file of an entry that is kept is left. -/
theorem kept_remains (access : PoolAccess) {pool : AptPool} {top : PoolEntry} (mem : top ∈ pool.entries)
    (kept : pool.Kept top) :
    ∃ file ∈ (pruneStaleAptPackages access pool).2.files, file.poolEntry = some top := by
  obtain ⟨file, there, entry⟩ := List.mem_filterMap.mp mem
  refine ⟨file, remaining_sub access pool (mem_remaining_iff.mpr ⟨there, poolEntry_not_orphan entry, ?_⟩), entry⟩
  intro e entry'
  rwa [← Option.some.inj (entry.symm.trans entry')]

/-- A group has a file left that is not older. -/
theorem PruneSafe.replacement {pool : AptPool} (safe : PruneSafe pool) (access : PoolAccess) {e : PoolEntry}
    (mem : e ∈ pool.entries) : ∃ other ∈ (pruneStaleAptPackages access pool).2.files, ∃ e',
      other.poolEntry = some e' ∧ e'.packageName = e.packageName ∧ e'.suite = e.suite ∧
        compareVersions e'.version e.version ≠ .lt := by
  obtain ⟨top, inGroup, kept⟩ := pool.exists_kept mem
  obtain ⟨memTop, key⟩ := List.mem_filter.mp inGroup
  obtain ⟨packageName, suite⟩ := Prod.mk.inj (of_decide_eq_true key)
  obtain ⟨file, there, entry⟩ := kept_remains access memTop kept
  have same := pool.group_eq inGroup
  refine ⟨file, there, top, entry, packageName, suite, safe.newest e mem top inGroup fun d memD => ?_⟩
  have greatest := kept.least d (same ▸ memD)
  simpa using greatest

theorem PruneSafe.right {pool : AptPool} (safe : PruneSafe pool) (access : PoolAccess) : PruneRight access pool where
  removed file mem gone := by
    by_contra neither
    obtain ⟨notOrphan, noEntry⟩ := not_or.mp neither
    refine gone (remaining_sub access pool (mem_remaining_iff.mpr ⟨mem, by simpa using notOrphan, ?_⟩))
    exact fun e entry => absurd ⟨e, entry⟩ noEntry
  replaced file mem _ e entry := safe.replacement access (List.mem_filterMap.mpr ⟨file, mem, entry⟩)
  listed suite known entry mem := by
    by_cases token : suiteOf entry.filename = some suite
    · -- the file is in a group of this suite
      obtain ⟨file, there, isFor, parsed⟩ := mem_generateAptMetadata.mp mem
      obtain ⟨info, read, rfl⟩ := Option.map_eq_some_iff.mp parsed
      have deb : file.endsWith ".deb" = true := (Bool.and_eq_true_iff.mp isFor).1
      have entry := poolEntry_isSome deb token read
      obtain ⟨other, left, e', entry', packageName, rfl, newer⟩ :=
        safe.replacement access (List.mem_filterMap.mpr ⟨file, there, entry⟩)
      exact ⟨_, poolEntry_listed left entry', packageName, newer⟩
    · obtain ⟨top, memTop, kept, packageName, newer, listed, memListed, same⟩ := safe.others suite known entry mem token
      obtain ⟨other, left, entry'⟩ := kept_remains access memTop kept
      obtain ⟨file, there, isFor, parsed⟩ := mem_generateAptMetadata.mp memListed
      obtain ⟨info, read, rfl⟩ := Option.map_eq_some_iff.mp parsed
      -- the index lists the file that is left
      have file_eq : other = file :=
        pool.eq_of_filename (remaining_files left) there
          ((poolEntry_filename entry').symm.trans same.symm)
      subst file_eq
      have stored : other.entry = some ⟨other.filename, top.packageName, top.version⟩ := by
        simp [PackageFile.entry, (poolEntry_cases entry').2.2]
      exact ⟨_, mem_generateAptMetadata.mpr ⟨other, left, isFor, stored⟩, packageName, newer⟩

theorem PruneRight.safe {pool : AptPool} (right : PruneRight .perfect pool) : PruneSafe pool where
  newest e mem top inGroup greatest := by
    obtain ⟨file, there, entry⟩ := List.mem_filterMap.mp mem
    -- some entry of the group is kept and not older
    obtain ⟨kept, inGroup', isKept, newer⟩ : ∃ kept ∈ pool.group e, pool.Kept kept ∧
        compareVersions kept.version e.version ≠ .lt := by
      by_cases left : file ∈ (pruneStaleAptPackages .perfect pool).2.files
      · refine ⟨e, pool.mem_group_self mem, (mem_remaining_iff.mp left).2.2 e entry, ?_⟩
        rw [compareVersions_self]
        simp
      · obtain ⟨other, left', e', entry', packageName, suite, newer⟩ := right.replaced file there left e entry
        have memOther : e' ∈ pool.entries := List.mem_filterMap.mpr ⟨other, remaining_files left', entry'⟩
        exact ⟨e', List.mem_filter.mpr ⟨memOther, by simp [packageName, suite]⟩,
          (mem_remaining_iff.mp left').2.2 e' entry', newer⟩
    have same : pool.group kept = pool.group e := pool.group_eq inGroup'
    have least := isKept.least top (same ▸ inGroup)
    have version : top.version = kept.version :=
      le_antisymm (by simpa using least) (greatest kept inGroup')
    rwa [version]
  others suite known entry mem _ := by
    obtain ⟨entry', mem', packageName, newer⟩ := right.listed suite known entry mem
    obtain ⟨file, left, isFor, parsed⟩ := mem_generateAptMetadata.mp mem'
    obtain ⟨info, read, rfl⟩ := Option.map_eq_some_iff.mp parsed
    obtain ⟨there, notOrphan, kept⟩ := mem_remaining_iff.mp left
    have deb : file.endsWith ".deb" = true := (Bool.and_eq_true_iff.mp isFor).1
    obtain ⟨token, named⟩ : ∃ token, suiteOf file.filename = some token := by
      simpa [PackageFile.isOrphan, deb, Option.isSome_iff_exists] using notOrphan
    have entry := poolEntry_isSome deb named read
    exact ⟨_, List.mem_filterMap.mpr ⟨file, there, entry⟩, kept _ entry, packageName, newer, _,
      mem_generateAptMetadata.mpr ⟨file, there, isFor, parsed⟩, rfl⟩

/-- Whatever the file system answers, pruning is right exactly for these pools. -/
theorem prune_right_iff (pool : AptPool) : (∀ access, PruneRight access pool) ↔ PruneSafe pool :=
  ⟨fun right => (right .perfect).safe, fun safe access => safe.right access⟩

/-- Two versions of the agent for Ubuntu 24.04. -/
def twoAgents : AptPool where
  files := ["2.6.9", "2.6.10"].map fun version =>
    { filename := "linux-patch-agent_" ++ version ++ "_u2404_amd64.deb", info := some ⟨"linux-patch-agent", version⟩ }
  nodup := by decide

/-- As texts `2.6.9` is greater than `2.6.10`, and the newer package is removed. -/
theorem prune_loses_newest : ¬ ∀ access pool, PruneRight access pool := by
  intro right
  have safe := (right .perfect twoAgents).safe
  let older : PoolEntry := ⟨"linux-patch-agent_2.6.9_u2404_amd64.deb", "linux-patch-agent", "2.6.9", "u2404"⟩
  let newer : PoolEntry := ⟨"linux-patch-agent_2.6.10_u2404_amd64.deb", "linux-patch-agent", "2.6.10", "u2404"⟩
  have entries : twoAgents.entries = [older, newer] := by decide +kernel
  have group : twoAgents.group newer = [older, newer] := by
    rw [AptPool.group, entries]
    decide
  have greatest : ∀ d ∈ twoAgents.group newer, d.version ≤ older.version := by
    rw [group]
    decide
  have lost := safe.newest newer (by simp [entries]) older (by simp [group]) greatest
  exact lost (by decide +kernel)

end PatchManager
