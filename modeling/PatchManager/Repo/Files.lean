import PatchManager.Repo.Distro
import Mathlib.Logic.Function.Basic

/-! # Files of packages

Where a package has its file in the directory of the repository: `local_package_path` of `repo_sync.rs`
and `resolve_package_path` of `repo_admin.rs`, over files that are taken by their paths.
-/

namespace PatchManager

/-- The files of the server with what they contain. -/
abbrev Files := String → Option (List UInt8)

inductive IoError where
  | notFound
  | other (message : String)

/-- `remove_file`, which the file system can refuse. -/
def removeFile (refusal : Option String) (path : String) (files : Files) : Except IoError Unit × Files :=
  match refusal with
  | some message => (.error (.other message), files)
  | none => if (files path).isSome then (.ok (), Function.update files path none) else (.error .notFound, files)

/-- Below the directory of its format, if there is such a format. -/
def packagePath (repoDir distro filename : String) : Option String :=
  if distro = "apt" then some (repoDir ++ "/apt/pool/" ++ filename)
  else if distro = "dnf" then some (repoDir ++ "/dnf/" ++ dnfCodename ++ "/Packages/" ++ filename)
  else if distro = "apk" then some (repoDir ++ "/apk/" ++ apkCodename ++ "/x86_64/" ++ filename)
  else if distro = "pacman" then some (repoDir ++ "/pacman/x86_64/" ++ filename)
  else none

def localPackagePath (repoDir distro : String) (_codename : Option String) (filename : String) : Option String :=
  packagePath repoDir distro filename

def resolvePackagePath (repoDir distro : String) (_codename : Option String) (filename : String) : Option String :=
  packagePath repoDir distro filename

@[simp] theorem removeFile_files (refusal : Option String) (path : String) (files : Files) :
    (removeFile refusal path files).2 = if refusal = none then Function.update files path none else files := by
  cases refusal with
  | some message => rfl
  | none =>
    rw [removeFile, if_pos rfl]
    split
    next => rfl
    next absent =>
      have missing : files path = none := by simpa using absent
      exact (Function.update_eq_self_iff.mpr missing.symm).symm

end PatchManager
