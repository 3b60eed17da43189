import PatchManager.Order.Groups
import PatchManager.Repo.Metadata
import Mathlib.Data.Prod.Lex
import Mathlib.Data.String.Basic

/-! # Pruning the pool

`prune_stale_apt_packages` of `repo_metadata.rs`: which packages are removed from the pool of `apt`.
-/

namespace PatchManager

open PatchManager.Order

/-- The files in the pool, in the order the directory is read in. -/
structure AptPool where
  files : List PackageFile
  nodup : (files.map PackageFile.filename).Nodup

/-- What the file system answers. -/
structure PoolAccess where
  /-- whether a file can be removed -/
  removes : String → Bool
  /-- after so many entries the directory cannot be read any further -/
  failsAfter : Option Nat

/-- A package that may be pruned: the name of its file, what its control says, and its suite. -/
structure PoolEntry where
  filename : String
  packageName : String
  version : String
  suite : String
deriving DecidableEq

/-- The first of the suites whose token is in the name. -/
def suiteOf (filename : String) : Option String := aptSuites.find? (hasSuiteToken · filename)

/-- What has been collected, and the files that are gone. -/
structure PoolScan where
  entries : List PoolEntry
  gone : List String

/-- A `.deb` without a suite is removed; one that cannot be parsed is left alone. -/
def scanEntry (access : PoolAccess) (scan : PoolScan) (file : PackageFile) : PoolScan :=
  if !file.endsWith ".deb" then scan
  else
    match suiteOf file.filename with
    | none =>
      if access.removes file.filename then { scan with gone := scan.gone ++ [file.filename] }
      else scan
    | some suite =>
      match file.info with
      | some info => { scan with entries := scan.entries ++ [⟨file.filename, info.name, info.version, suite⟩] }
      | none => scan

/-- The groups: the path and the version of each entry, by package and suite. -/
def groupEntries (entries : List PoolEntry) : List ((String ×ₗ String) × List (String × String)) :=
  groupByKey (entries.map fun e => ((e.filename, e.version), toLex (e.packageName, e.suite)))

/-- The files of a group that are removed; the versions are sorted as texts. -/
def pruneGroup (access : PoolAccess) (versions : List (String × String)) : List String :=
  if versions.length ≤ 1 then []
  else (((versions.mergeSort fun a b => b.2 ≤ a.2).drop 1).map Prod.fst).filter access.removes

def AptPool.without (pool : AptPool) (gone : List String) : AptPool where
  files := pool.files.filter fun file => file.filename ∉ gone
  nodup := pool.nodup.sublist (List.filter_sublist.map _)

/-- The number of files that are counted as removed, and what is left. -/
def pruneStaleAptPackages (access : PoolAccess) (pool : AptPool) : Option Nat × AptPool :=
  match access.failsAfter with
  | some n =>
    let scan := (pool.files.take n).foldl (scanEntry access) ⟨[], []⟩
    (none, pool.without scan.gone)
  | none =>
    let scan := pool.files.foldl (scanEntry access) ⟨[], []⟩
    let removed := (groupEntries scan.entries).flatMap fun group => pruneGroup access group.2
    (some removed.length, pool.without (scan.gone ++ removed))

end PatchManager
