import PatchManager.Web.RepoAdmin

/-! # Packages that are deleted

A row goes whatever has become of its file, and a file that several rows have in common goes with the
first of them.

Main result: `deletePackages_inStep_iff`, when rows and files go together.
-/

namespace PatchManager.RepoAdmin

variable {repoDir : String} {faults : Faults}

/-! ## What a request does -/

/-- The answer tells that the row could not be deleted. -/
def Reported (packageIds : List Uuid) (answer : Except ApiError DeleteResponse) (row : PackageRow) : Prop :=
  row.id ∈ packageIds ∧ ∃ response message, answer = .ok response ∧ deletionFailed row.filename message ∈ response.errors

/-- A row that is gone has no file, and a file that is gone has no row that has not been reported. -/
structure InStep (repoDir : String) (packageIds : List Uuid) (before after : Packages)
    (answer : Except ApiError DeleteResponse) : Prop where
  row : ∀ row ∈ before.rows, row ∉ after.rows → ∀ path, row.path repoDir = some path → after.files path = none
  file : ∀ row ∈ before.rows, ∀ path, row.path repoDir = some path → before.files path ≠ none →
    after.files path = none → row ∉ after.rows ∨ Reported packageIds answer row

/-- The packages that the loop goes through. -/
def Packages.requested (store : Packages) (faults : Faults) (packageIds : List Uuid) : List PackageRow :=
  if faults.fetch then [] else store.fetch packageIds

/-- A file is removed for one of the rows. -/
def Unlinks (repoDir : String) (faults : Faults) (packages : List PackageRow) (path : String) : Prop :=
  ∃ row ∈ packages, row.path repoDir = some path ∧ faults.removal row.id = none

/-! ## Rounds -/

theorem deletePackage_rows (s : Deletion) (row : PackageRow) : (deletePackage repoDir faults s row).store.rows =
    if faults.deletion row.id = none then s.store.rows.filter (·.id != row.id) else s.store.rows := by
  have first : (removePackageFile repoDir faults s row).store.rows = s.store.rows := by
    unfold removePackageFile
    split <;> rfl
  unfold deletePackage deletePackageRow Packages.deleteRow
  cases faults.deletion row.id with
  | none => simp [first]
  | some e => simp [first]

theorem deletePackage_files (s : Deletion) (row : PackageRow) (path : String) :
    (deletePackage repoDir faults s row).store.files path =
      if row.path repoDir = some path ∧ faults.removal row.id = none then none else s.store.files path := by
  have second : (deletePackage repoDir faults s row).store.files = (removePackageFile repoDir faults s row).store.files := by
    unfold deletePackage deletePackageRow Packages.deleteRow
    cases faults.deletion row.id <;> rfl
  rw [second, removePackageFile]
  cases known : row.path repoDir with
  | none => simp
  | some found =>
    dsimp only
    rw [removeFile_files]
    by_cases refused : faults.removal row.id = none
    · by_cases same : found = path
      · simp [refused, same]
      · simp [refused, same, Function.update_of_ne (Ne.symm same)]
    · simp [refused]

/-- What has been told stays told. -/
theorem deletePackage_errors (s : Deletion) (row : PackageRow) :
    s.errors ⊆ (deletePackage repoDir faults s row).errors ∧ ∀ e, faults.deletion row.id = some e →
      deletionFailed row.filename e ∈ (deletePackage repoDir faults s row).errors := by
  have first : s.errors ⊆ (removePackageFile repoDir faults s row).errors := by
    unfold removePackageFile
    split
    next => exact List.Subset.refl _
    next => exact List.subset_append_left _ _
  unfold deletePackage deletePackageRow Packages.deleteRow
  cases faults.deletion row.id with
  | none => exact ⟨first, fun e failed => by cases failed⟩
  | some e =>
    refine ⟨fun x mem => List.mem_append_left _ (first mem), fun e' failed => ?_⟩
    cases failed
    exact List.mem_append_right _ (List.mem_singleton_self _)

/-! ## The loop -/

theorem mem_rows_foldl {packages : List PackageRow} {s : Deletion} {row : PackageRow} :
    row ∈ (packages.foldl (deletePackage repoDir faults) s).store.rows ↔
      row ∈ s.store.rows ∧ ∀ p ∈ packages, faults.deletion p.id = none → p.id ≠ row.id := by
  induction packages generalizing s with
  | nil => simp
  | cons p packages ih =>
    rw [List.foldl_cons, ih, deletePackage_rows, List.forall_mem_cons]
    by_cases deleted : faults.deletion p.id = none
    · have swap : row.id ≠ p.id ↔ p.id ≠ row.id := ne_comm
      simp only [deleted, if_true, List.mem_filter, bne_iff_ne, swap, and_assoc, forall_const]
    · simp [deleted]

theorem files_foldl (packages : List PackageRow) (s : Deletion) (path : String) :
    (packages.foldl (deletePackage repoDir faults) s).store.files path = none ↔
      Unlinks repoDir faults packages path ∨ s.store.files path = none := by
  induction packages generalizing s with
  | nil => simp [Unlinks]
  | cons p packages ih =>
    rw [List.foldl_cons, ih, deletePackage_files]
    by_cases here : p.path repoDir = some path ∧ faults.removal p.id = none
    · simp [Unlinks, here]
    · simp [Unlinks, here]

theorem errors_foldl {packages : List PackageRow} {s : Deletion} {row : PackageRow} {e : String}
    (mem : row ∈ packages) (failed : faults.deletion row.id = some e) :
    deletionFailed row.filename e ∈ (packages.foldl (deletePackage repoDir faults) s).errors := by
  have kept : ∀ (packages : List PackageRow) (s : Deletion),
      s.errors ⊆ (packages.foldl (deletePackage repoDir faults) s).errors := by
    intro packages
    induction packages with
    | nil => exact fun s => List.Subset.refl _
    | cons p packages ih =>
      intro s
      exact List.Subset.trans (deletePackage_errors s p).1 (ih _)
  induction packages generalizing s with
  | nil => cases mem
  | cons p packages ih =>
    rw [List.foldl_cons]
    cases List.mem_cons.mp mem with
    | inl here =>
      subst here
      exact kept packages _ ((deletePackage_errors s row).2 e failed)
    | inr later => exact ih later

/-! ## Requests -/

variable {store : Packages} {packageIds : List Uuid}

/-- The loop over the packages of a request. -/
def Packages.loop (store : Packages) (repoDir : String) (faults : Faults) (packageIds : List Uuid) : Deletion :=
  (store.requested faults packageIds).foldl (deletePackage repoDir faults) ⟨store, 0, []⟩

theorem mem_requested {row : PackageRow} : row ∈ store.requested faults packageIds ↔
    faults.fetch = false ∧ row ∈ store.rows ∧ row.id ∈ packageIds := by
  rw [Packages.requested]
  cases faults.fetch with
  | true => simp
  | false => simp [Packages.fetch]

/-- A request that goes through no packages changes nothing; of the others the answer has the errors. -/
theorem deletePackages_loop :
    (deletePackages repoDir faults store packageIds).2 = (store.loop repoDir faults packageIds).store ∧
      (store.requested faults packageIds ≠ [] → (deletePackages repoDir faults store packageIds).1 =
        .ok ⟨(store.loop repoDir faults packageIds).deletedCount,
          (store.loop repoDir faults packageIds).errors ++ faults.regeneration⟩) := by
  unfold deletePackages Packages.loop Packages.requested
  by_cases noIds : packageIds = []
  · subst noIds
    simp [Packages.fetch]
  · cases fetch : faults.fetch with
    | true => simp [noIds]
    | false =>
      by_cases nothing : store.fetch packageIds = []
      · simp [noIds, nothing]
      · simp [noIds, nothing]

theorem files_after (path : String) : (deletePackages repoDir faults store packageIds).2.files path = none ↔
    Unlinks repoDir faults (store.requested faults packageIds) path ∨ store.files path = none := by
  rw [deletePackages_loop.1, Packages.loop, files_foldl]

/-- A row stays unless it is requested and can be deleted. -/
theorem mem_rows_after {row : PackageRow} (mem : row ∈ store.rows) :
    row ∈ (deletePackages repoDir faults store packageIds).2.rows ↔
      ¬ (row ∈ store.requested faults packageIds ∧ faults.deletion row.id = none) := by
  rw [deletePackages_loop.1, Packages.loop, mem_rows_foldl]
  constructor
  · rintro ⟨-, others⟩ ⟨requested, deleted⟩
    exact others row requested deleted rfl
  · intro kept
    refine ⟨mem, fun p requested deleted same => kept ?_⟩
    obtain rfl : p = row := List.inj_on_of_nodup_map store.distinct (mem_requested.mp requested).2.1 mem same
    exact ⟨requested, deleted⟩

/-- Rows and files go together exactly if no row is deleted whose file is there and cannot be removed, and no
    file is removed that is also the file of a row which is not requested. -/
theorem deletePackages_inStep_iff (repoDir : String) (faults : Faults) (store : Packages) (packageIds : List Uuid) :
    InStep repoDir packageIds store (deletePackages repoDir faults store packageIds).2
        (deletePackages repoDir faults store packageIds).1 ↔
      ∀ row ∈ store.rows, ∀ path, row.path repoDir = some path → store.files path ≠ none →
        if row ∈ store.requested faults packageIds then
          faults.deletion row.id = none → Unlinks repoDir faults (store.requested faults packageIds) path
        else ¬ Unlinks repoDir faults (store.requested faults packageIds) path := by
  constructor
  · intro inStep row mem path known there
    split
    next requested =>
      intro deleted
      have gone : row ∉ (deletePackages repoDir faults store packageIds).2.rows := fun left =>
        (mem_rows_after mem).mp left ⟨requested, deleted⟩
      exact ((files_after path).mp (inStep.row row mem gone path known)).resolve_right there
    next other =>
      intro unlinks
      cases inStep.file row mem path known there ((files_after path).mpr (.inl unlinks)) with
      | inl gone => exact gone ((mem_rows_after mem).mpr fun both => other both.1)
      | inr reported =>
        -- the loop goes through packages, so they have been fetched
        obtain ⟨p, requested, -⟩ := unlinks
        exact other (mem_requested.mpr ⟨(mem_requested.mp requested).1, mem, reported.1⟩)
  · intro condition
    constructor
    · intro row mem gone path known
      obtain ⟨requested, deleted⟩ := not_not.mp (mt (mem_rows_after mem).mpr gone)
      refine (files_after path).mpr ?_
      by_cases there : store.files path = none
      · exact .inr there
      · have unlinks := condition row mem path known there
        rw [if_pos requested] at unlinks
        exact .inl (unlinks deleted)
    · intro row mem path known there gone
      have unlinks := ((files_after path).mp gone).resolve_right there
      have requested : row ∈ store.requested faults packageIds := by
        by_contra other
        have kept := condition row mem path known there
        rw [if_neg other] at kept
        exact kept unlinks
      cases deleted : faults.deletion row.id with
      | none => exact .inl fun left => (mem_rows_after mem).mp left ⟨requested, deleted⟩
      | some e =>
        refine .inr ⟨(mem_requested.mp requested).2.2, _, e, deletePackages_loop.2 (List.ne_nil_of_mem requested), ?_⟩
        exact List.mem_append_left _ (errors_foldl requested deleted)

/-! ## A file that cannot be removed -/

namespace Small

def filename : String := "linux-patch-api_u2404_amd64.deb"

/-- A release of the agent; the file has the same name in the next. -/
def release (id : Uuid) (version : String) : PackageRow := ⟨id, filename, "apt", some "u2404", version⟩

def files (path : String) : Option (List UInt8) :=
  if path = "/srv/repo/apt/pool/linux-patch-api_u2404_amd64.deb" then some [] else none

def single : Packages := ⟨[release 7 "1.0.0"], by decide, files⟩

def both : Packages := ⟨[release 7 "1.0.0", release 8 "1.0.1"], by decide, files⟩

/-- The file system refuses, or it does not. -/
def refusing (refusal : Option String) : Faults := ⟨false, fun _ => refusal, fun _ => none, []⟩

theorem path_release (id : Uuid) (version : String) : (release id version).path "/srv/repo" =
    some "/srv/repo/apt/pool/linux-patch-api_u2404_amd64.deb" := rfl

end Small

/-- A row is gone and its file is still there; and a row is left without its file. -/
theorem deletePackages_apart :
    ¬ InStep "/srv/repo" [7] Small.single
        (deletePackages "/srv/repo" (Small.refusing (some "Permission denied (os error 13)")) Small.single [7]).2
        (deletePackages "/srv/repo" (Small.refusing (some "Permission denied (os error 13)")) Small.single [7]).1 ∧
      ¬ InStep "/srv/repo" [7] Small.both
        (deletePackages "/srv/repo" (Small.refusing none) Small.both [7]).2
        (deletePackages "/srv/repo" (Small.refusing none) Small.both [7]).1 := by
  constructor
  · intro inStep
    have gone := inStep.row (Small.release 7 "1.0.0") (by decide) (by decide) _ (Small.path_release ..)
    exact absurd gone (by decide)
  · intro inStep
    have left := inStep.file (Small.release 8 "1.0.1") (by decide) _ (Small.path_release ..) (by decide) (by decide)
    cases left with
    | inl gone => exact gone (by decide)
    | inr reported => exact absurd reported.1 (by decide)

end PatchManager.RepoAdmin
