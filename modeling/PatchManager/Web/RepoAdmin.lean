import PatchManager.Repo.Files
import PatchManager.Web.Headers

/-! # Deleting packages

`delete_packages` of `repo_admin.rs`, from the request to the answer: which packages are fetched, and the
loop that removes a file and a row for each.  A statement that fails has no effect.  What the regeneration
of the indexes writes is left out; what it says goes into the answer.
-/

namespace PatchManager.RepoAdmin

/-- What is read of a row of `repo_packages`. -/
structure PackageRow where
  id : Uuid
  filename : String
  distro : String
  distroCodename : Option String
  version : String
deriving DecidableEq

def PackageRow.path (repoDir : String) (row : PackageRow) : Option String :=
  resolvePackagePath repoDir row.distro row.distroCodename row.filename

/-- The packages in the database and on disk. -/
structure Packages where
  rows : List PackageRow
  distinct : (rows.map (·.id)).Nodup
  files : Files

/-- What goes wrong during a request. -/
structure Faults where
  /-- the packages cannot be fetched -/
  fetch : Bool
  /-- why the file of a row cannot be removed, other than that it is not there -/
  removal : Uuid → Option String
  /-- why a row cannot be deleted -/
  deletion : Uuid → Option String
  /-- what is reported of the regeneration -/
  regeneration : List String

structure DeleteResponse where
  deleted : Nat
  errors : List String
deriving DecidableEq

def removalFailed (filename message : String) : String := "Failed to delete " ++ filename ++ ": " ++ message

def deletionFailed (filename message : String) : String := "DB delete failed for " ++ filename ++ ": " ++ message

/-- What the loop carries. -/
structure Deletion where
  store : Packages
  deletedCount : Nat
  errors : List String

def Packages.deleteRow (failure : Option String) (id : Uuid) (store : Packages) : Except String Unit × Packages :=
  match failure with
  | some message => (.error message, store)
  | none => (.ok (), { store with
      rows := store.rows.filter (·.id != id)
      distinct := store.distinct.sublist (List.filter_sublist.map _) })

/-- What is told of the removal of a file; one that is not there is not an error. -/
def removalErrors (filename : String) : Except IoError Unit → List String
  | .error (.other e) => [removalFailed filename e]
  | _ => []

/-- The part of a round for the file. -/
def removePackageFile (repoDir : String) (faults : Faults) (s : Deletion) (row : PackageRow) : Deletion :=
  match row.path repoDir with
  | none => s
  | some path =>
    let (removed, files) := removeFile (faults.removal row.id) path s.store.files
    { s with store := { s.store with files }, errors := s.errors ++ removalErrors row.filename removed }

/-- The part for the row. -/
def deletePackageRow (faults : Faults) (s : Deletion) (row : PackageRow) : Deletion :=
  match s.store.deleteRow (faults.deletion row.id) row.id with
  | (.ok (), store) => { s with store, deletedCount := s.deletedCount + 1 }
  | (.error e, store) => { s with store, errors := s.errors ++ [deletionFailed row.filename e] }

/-- A round of the loop. -/
def deletePackage (repoDir : String) (faults : Faults) (s : Deletion) (row : PackageRow) : Deletion :=
  deletePackageRow faults (removePackageFile repoDir faults s row) row

/-- `WHERE id = ANY($1)`. -/
def Packages.fetch (store : Packages) (packageIds : List Uuid) : List PackageRow :=
  store.rows.filter fun row => decide (row.id ∈ packageIds)

def deletePackages (repoDir : String) (faults : Faults) (store : Packages) (packageIds : List Uuid) :
    Except ApiError DeleteResponse × Packages :=
  if packageIds = [] then (.error ⟨400, "bad_request", "package_ids must not be empty"⟩, store)
  else if faults.fetch then (.error .database, store)
  else if store.fetch packageIds = [] then (.error ⟨404, "not_found", "No packages found for the given IDs"⟩, store)
  else
    let s := (store.fetch packageIds).foldl (deletePackage repoDir faults) ⟨store, 0, []⟩
    (.ok ⟨s.deletedCount, s.errors ++ faults.regeneration⟩, s.store)

end PatchManager.RepoAdmin
