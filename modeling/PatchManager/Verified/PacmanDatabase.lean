import PatchManager.Order.Pass
import PatchManager.Repo.PkgInfo
import PatchManager.Verified.VersionOrder

/-! # The database of `pacman`

`generate_pacman_metadata` goes once through the packages and holds on to the newest of each name, in
one map for what it has read and in another for the path.

Main results: `latestPackages_spec`, the maps hold the result of one pass for each name, both of the
same package, and `pacman_newest_iff`, exactly for which packages the database has the newest of each
name in whatever order they are read.  The order they are read in is that of the names of their files.
-/

namespace PatchManager

open PatchManager.Order

/-- A package that can be parsed. -/
structure Parsed where
  archive : Archive
  info : PacmanInfo
  parsed : parsePacmanPkg archive = some info

def Archive.parsed (archive : Archive) : Option Parsed :=
  (parsePacmanPkg archive).attach.map fun ⟨info, mem⟩ => ⟨archive, info, mem⟩

theorem Archive.parsed_none {archive : Archive} (none : parsePacmanPkg archive = none) : archive.parsed = .none := by
  simp [Archive.parsed, none]

theorem Archive.parsed_some {archive : Archive} {info : PacmanInfo} (some : parsePacmanPkg archive = some info) :
    archive.parsed = .some ⟨archive, info, some⟩ := by
  simp [Archive.parsed, some]

/-- By their versions. -/
def compareParsed (a b : Parsed) : Ordering := compareVersions a.info.pkgver b.info.pkgver

instance : Std.OrientedCmp compareParsed where
  eq_swap {a b} := (Std.OrientedCmp.eq_swap : compareVersions a.info.pkgver b.info.pkgver = _)

theorem compareParsed_eq_trans (a b c : Parsed) (ab : compareParsed a b = .eq) (bc : compareParsed b c = .eq) :
    compareParsed a c = .eq := compareVersions_eq_trans _ _ _ ab bc

/-- The packages with a name. -/
def named (name : String) (packages : List Parsed) : List Parsed :=
  packages.filter fun p => p.info.pkgname == name

/-! ## The two maps -/

/-- The maps after some packages. -/
structure HoldsPass (packages : List Parsed) (latest : LatestPackages) : Prop where
  infos : ∀ name, OrderedMap.get name latest.latestByName =
    (pass compareParsed (named name packages)).map Parsed.info
  paths : ∀ name, OrderedMap.get name latest.pkgPathByName =
    (pass compareParsed (named name packages)).map fun p => p.archive.filename
  increasing : OrderedMap.Increasing latest.latestByName

theorem named_append (name : String) (packages : List Parsed) (p : Parsed) :
    named name (packages ++ [p]) = if p.info.pkgname = name then named name packages ++ [p] else named name packages := by
  by_cases same : p.info.pkgname = name <;> simp [named, same]

theorem pass_named_append (name : String) (packages : List Parsed) (p : Parsed) :
    pass compareParsed (named name (packages ++ [p])) = if p.info.pkgname = name
      then better compareParsed (pass compareParsed (named name packages)) p
      else pass compareParsed (named name packages) := by
  rw [named_append]
  split
  · exact pass_append _ _
  · rfl

/-- A package that is held from now on is put into both maps. -/
theorem HoldsPass.put {packages : List Parsed} {latest : LatestPackages} (holds : HoldsPass packages latest)
    {p : Parsed} (held : better compareParsed (pass compareParsed (named p.info.pkgname packages)) p = some p) :
    HoldsPass (packages ++ [p])
      { latestByName := OrderedMap.put p.info.pkgname p.info latest.latestByName
        pkgPathByName := OrderedMap.put p.info.pkgname p.archive.filename latest.pkgPathByName } where
  infos name := by
    rw [pass_named_append]
    by_cases same : p.info.pkgname = name
    · subst same
      rw [OrderedMap.get_put_self, if_pos rfl, held]
      rfl
    · rw [OrderedMap.get_put_of_ne (Ne.symm same), if_neg same, holds.infos]
  paths name := by
    rw [pass_named_append]
    by_cases same : p.info.pkgname = name
    · subst same
      rw [OrderedMap.get_put_self, if_pos rfl, held]
      rfl
    · rw [OrderedMap.get_put_of_ne (Ne.symm same), if_neg same, holds.paths]
  increasing := holds.increasing.put

/-- A package that is not held changes nothing. -/
theorem HoldsPass.keep {packages : List Parsed} {latest : LatestPackages} (holds : HoldsPass packages latest)
    {p : Parsed} (held : better compareParsed (pass compareParsed (named p.info.pkgname packages)) p =
      pass compareParsed (named p.info.pkgname packages)) : HoldsPass (packages ++ [p]) latest := by
  have same (name : String) : pass compareParsed (named name (packages ++ [p])) =
      pass compareParsed (named name packages) := by
    rw [pass_named_append]
    split
    · rename_i eq
      exact eq ▸ held
    · rfl
  exact ⟨fun name => by rw [same, holds.infos], fun name => by rw [same, holds.paths], holds.increasing⟩

theorem HoldsPass.step {packages : List Parsed} {latest : LatestPackages} (holds : HoldsPass packages latest)
    (archive : Archive) : HoldsPass (packages ++ archive.parsed.toList) (keepNewer latest archive) := by
  unfold keepNewer
  cases parsed : parsePacmanPkg archive with
  | none => simpa [Archive.parsed_none parsed] using holds
  | some info =>
    rw [Archive.parsed_some parsed, Option.toList_some]
    simp only [holds.infos]
    cases held : pass compareParsed (named info.pkgname packages) with
    | none =>
      simp only [Option.map_none, if_true]
      exact holds.put (p := ⟨archive, info, parsed⟩) (by rw [held]; rfl)
    | some existing =>
      by_cases newer : compareVersions info.pkgver existing.info.pkgver = .gt
      · simp only [Option.map_some, newer, beq_self_eq_true, if_true]
        refine holds.put (p := ⟨archive, info, parsed⟩) ?_
        rw [held]
        exact better_of_gt newer
      · have notNewer : (compareVersions info.pkgver existing.info.pkgver == .gt) = false := by simpa using newer
        simp only [Option.map_some, notNewer, Bool.false_eq_true, if_false]
        refine holds.keep (p := ⟨archive, info, parsed⟩) ?_
        rw [held]
        exact better_of_not_gt newer

theorem HoldsPass.run (archives : List Archive) :
    HoldsPass (archives.filterMap Archive.parsed) (archives.foldl keepNewer ⟨[], []⟩) := by
  induction archives using List.reverseRecOn with
  | nil => exact ⟨fun _ => rfl, fun _ => rfl, List.Pairwise.nil⟩
  | append_singleton before archive ih =>
    have next := ih.step archive
    rw [List.filterMap_append, List.foldl_append]
    cases parsed : archive.parsed <;> simpa [parsed] using next

/-- The packages in the directory, in the order of their paths. -/
def directoryParsed (directory : List Archive) : List Parsed :=
  (sortArchives (directory.filter fun a => isPacmanPkg a.filename)).filterMap Archive.parsed

theorem latestPackages_spec (directory : List Archive) :
    HoldsPass (directoryParsed directory) (latestPackages directory) := HoldsPass.run _

/-! ## The entries -/

/-- The packages in the database: of each name one, and none of the name is newer. -/
structure NewestOfEach (packages chosen : List Parsed) : Prop where
  sub : chosen ⊆ packages
  once : (chosen.map fun p => p.info.pkgname).Nodup
  each : ∀ p ∈ packages, ∃ best ∈ chosen, best.info.pkgname = p.info.pkgname
  newest : ∀ best ∈ chosen, ∀ p ∈ packages, p.info.pkgname = best.info.pkgname →
    compareVersions p.info.pkgver best.info.pkgver ≠ .gt

/-- What `desc` says about the file is what that file has. -/
structure OfOneFile (archive : Archive) (sections : List (String × String)) : Prop where
  filename : ("%FILENAME%", archive.filename) ∈ sections
  version : ∃ info, parsePacmanPkg archive = some info ∧ ("%VERSION%", info.pkgver) ∈ sections
  csize : ("%CSIZE%", toString archive.size) ∈ sections
  sha256 : ("%SHA256SUM%", archive.sha256) ∈ sections

/-- The database is written, and its entries are right. -/
def DatabaseRight (directory : List Archive) : Prop :=
  ∃ chosen, databasePackages directory = some (chosen.map fun p => (p.archive.filename, p.info)) ∧
    NewestOfEach (directoryParsed directory) chosen ∧
    ∀ p ∈ chosen, OfOneFile p.archive (descSections p.archive.filename p.info)

theorem Parsed.ofOneFile (p : Parsed) : OfOneFile p.archive (descSections p.archive.filename p.info) := by
  obtain ⟨archive, info, parsed⟩ := p
  have measured : info.csize = archive.size ∧ info.sha256 = archive.sha256 := by
    simp only [parsePacmanPkg, Option.bind_eq_bind, Option.bind_eq_some_iff, Option.ite_none_left_eq_some,
      Option.pure_def, Option.some.injEq] at parsed
    obtain ⟨content, -, -, rfl⟩ := parsed
    exact ⟨rfl, rfl⟩
  constructor
  · simp [descSections]
  · exact ⟨info, parsed, by simp [descSections]⟩
  · simp [descSections, measured.1]
  · simp [descSections, measured.2]

theorem mem_named {name : String} {packages : List Parsed} {p : Parsed} :
    p ∈ named name packages ↔ p ∈ packages ∧ p.info.pkgname = name := by
  simp [named]

/-- Each element has what `g` finds for it, and the loop makes its result of that. -/
theorem mapM_of_filterMap {α β γ : Type} {f : α → Option β} {g : α → Option γ} {h : γ → β} {l : List α}
    (each : ∀ a ∈ l, ∃ c, g a = some c ∧ f a = some (h c)) : l.mapM f = some ((l.filterMap g).map h) := by
  induction l with
  | nil => rfl
  | cons a rest ih =>
    obtain ⟨⟨c, found, result⟩, others⟩ := List.forall_mem_cons.mp each
    simp [List.mapM_cons, found, result, ih others]

/-- What the passes have found is in the database. -/
theorem databasePackages_eq (directory : List Archive) : ∃ chosen : List Parsed,
    databasePackages directory = some (chosen.map fun p => (p.archive.filename, p.info)) ∧
    (chosen.map fun p => p.info.pkgname).Nodup ∧
    (∀ p, p ∈ chosen ↔ pass compareParsed (named p.info.pkgname (directoryParsed directory)) = some p) := by
  have holds := latestPackages_spec directory
  -- an entry of the map has been found by the pass for its name
  have found : ∀ entry ∈ (latestPackages directory).latestByName, ∃ p,
      pass compareParsed (named entry.1 (directoryParsed directory)) = some p ∧ p.info.pkgname = entry.1 ∧
        p.info = entry.2 := by
    rintro ⟨name, info⟩ mem
    have there := holds.infos name
    rw [holds.increasing.mem_iff_get.mp mem] at there
    obtain ⟨p, eq, rfl⟩ := Option.map_eq_some_iff.mp there.symm
    exact ⟨p, eq, (mem_named.mp (mem_of_pass eq)).2, rfl⟩
  refine ⟨(latestPackages directory).latestByName.filterMap fun entry =>
    pass compareParsed (named entry.1 (directoryParsed directory)), ?_, ?_, fun p => ?_⟩
  · refine mapM_of_filterMap fun entry mem => ?_
    obtain ⟨p, eq, -, info⟩ := found entry mem
    refine ⟨p, eq, ?_⟩
    have path := holds.paths entry.1
    rw [eq] at path
    simp [path, info]
  · have names : ((latestPackages directory).latestByName.filterMap fun entry =>
        pass compareParsed (named entry.1 (directoryParsed directory))).map (fun p => p.info.pkgname) =
        (latestPackages directory).latestByName.map Prod.fst := by
      rw [List.map_filterMap, ← List.filterMap_eq_map]
      refine List.filterMap_congr fun entry mem => ?_
      obtain ⟨p, eq, name, -⟩ := found entry mem
      simp [eq, name]
    rw [names]
    exact holds.increasing.nodup
  · rw [List.mem_filterMap]
    constructor
    · rintro ⟨entry, -, eq⟩
      rw [(mem_named.mp (mem_of_pass eq)).2]
      exact eq
    · intro eq
      have there := holds.infos p.info.pkgname
      rw [eq] at there
      exact ⟨(p.info.pkgname, p.info), holds.increasing.mem_iff_get.mpr there, eq⟩

theorem databaseRight_iff (directory : List Archive) : DatabaseRight directory ↔
    ∀ name best, pass compareParsed (named name (directoryParsed directory)) = some best →
      Greatest compareParsed (named name (directoryParsed directory)) best := by
  obtain ⟨chosen, database, once, found⟩ := databasePackages_eq directory
  constructor
  · rintro ⟨chosen', database', right, -⟩ name best eq p mem
    obtain ⟨memP, nameP⟩ := mem_named.mp mem
    have nameBest := (mem_named.mp (mem_of_pass eq)).2
    have memBest : best ∈ chosen := (found best).mpr (by rw [nameBest]; exact eq)
    -- both lists make the same entries
    have same := Option.some.inj (database.symm.trans database')
    have there : (best.archive.filename, best.info) ∈ chosen'.map fun p => (p.archive.filename, p.info) := by
      rw [← same]
      exact List.mem_map_of_mem memBest
    obtain ⟨best', mem', eq'⟩ := List.mem_map.mp there
    have info : best'.info = best.info := (Prod.mk.inj eq').2
    have newest := right.newest best' mem' p memP (by rw [info, nameP, nameBest])
    rwa [info] at newest
  · intro greatest
    refine ⟨chosen, database, ⟨fun p mem => ?_, once, fun p mem => ?_, fun best mem p memP same => ?_⟩,
      fun p _ => p.ofOneFile⟩
    · exact (mem_named.mp (mem_of_pass ((found p).mp mem))).1
    · obtain ⟨best, eq⟩ : ∃ best, pass compareParsed (named p.info.pkgname (directoryParsed directory)) = some best :=
        pass_isSome (List.ne_nil_of_mem (mem_named.mpr ⟨mem, rfl⟩))
      have name := (mem_named.mp (mem_of_pass eq)).2
      exact ⟨best, (found best).mpr (by rw [name]; exact eq), name⟩
    · exact greatest best.info.pkgname best ((found best).mp mem) p (mem_named.mpr ⟨memP, same⟩)

/-! ## The order of the files -/

/-- The version of a package with that name. -/
def versionAs (name : String) (archive : Archive) : Option String :=
  (parsePacmanPkg archive).bind fun info => if info.pkgname = name then some info.pkgver else none

/-- The versions of a name that are there. -/
def versionsOf (name : String) (archives : List Archive) : List String := archives.filterMap (versionAs name)

theorem versionsOf_eq (name : String) (archives : List Archive) :
    (named name (archives.filterMap Archive.parsed)).map (fun p => p.info.pkgver) = versionsOf name archives := by
  induction archives with
  | nil => rfl
  | cons archive rest ih =>
    have here := versionAs.eq_1 name archive
    cases parsed : parsePacmanPkg archive with
    | none =>
      rw [parsed] at here
      simpa [versionsOf, here, Archive.parsed_none parsed] using ih
    | some info =>
      rw [parsed] at here
      by_cases same : info.pkgname = name
      · simpa [versionsOf, here, same, named, Archive.parsed_some parsed] using ih
      · simpa [versionsOf, here, same, named, Archive.parsed_some parsed] using ih

theorem pass_versions (name : String) (packages : List Parsed) :
    pass compareVersions ((named name packages).map fun p => p.info.pkgver) =
      (pass compareParsed (named name packages)).map fun p => p.info.pkgver :=
  pass_map _ _

theorem greatest_versions {name : String} {packages : List Parsed} {best : Parsed} :
    Greatest compareVersions ((named name packages).map fun p => p.info.pkgver) best.info.pkgver ↔
      Greatest compareParsed (named name packages) best := by
  simp [Greatest, compareParsed]

/-- The database is right when the passes over the versions find the newest ones. -/
theorem databaseRight_iff_versions (directory : List Archive) : DatabaseRight directory ↔
    ∀ name found,
      pass compareVersions (versionsOf name (sortArchives (directory.filter fun a => isPacmanPkg a.filename))) = some found →
      Greatest compareVersions
        (versionsOf name (sortArchives (directory.filter fun a => isPacmanPkg a.filename))) found := by
  rw [databaseRight_iff]
  refine forall_congr' fun name => ?_
  rw [← versionsOf_eq, pass_versions]
  constructor
  · intro right found eq
    obtain ⟨best, held, rfl⟩ := Option.map_eq_some_iff.mp eq
    exact greatest_versions.mpr (right best held)
  · intro right best held
    exact greatest_versions.mp (right best.info.pkgver (Option.map_eq_some_iff.mpr ⟨best, held, rfl⟩))

def Archive.rename (filename : String) (archive : Archive) : Archive := { archive with filename }

/-- The same packages in files with other names, each the name of a package. -/
structure RenamedTo (directory renamed : List Archive) : Prop where
  same : (renamed.map (Archive.rename "")).Perm (directory.map (Archive.rename ""))
  packages : ∀ archive ∈ renamed, isPacmanPkg archive.filename = true
  nodup : (renamed.map Archive.filename).Nodup

theorem versionsOf_rename (name : String) (archives : List Archive) :
    versionsOf name (archives.map (Archive.rename "")) = versionsOf name archives := by
  rw [versionsOf, List.filterMap_map]
  rfl

theorem RenamedTo.versions {directory renamed : List Archive} (names : RenamedTo directory renamed) (name : String) :
    (versionsOf name (sortArchives (renamed.filter fun a => isPacmanPkg a.filename))).Perm
      (versionsOf name directory) := by
  rw [List.filter_eq_self.mpr names.packages]
  refine ((List.mergeSort_perm renamed _).filterMap _).trans ?_
  have perm := names.same.filterMap (versionAs name)
  rw [← versionsOf, ← versionsOf, versionsOf_rename, versionsOf_rename] at perm
  exact perm

/-! ### Names in a given order -/

/-- `.pkg.tar.zst` after so many letters. -/
def nameAt (i : Nat) : String := .ofList (List.replicate i 'a' ++ ".pkg.tar.zst".toList)

theorem nameAt_isPacmanPkg (i : Nat) : isPacmanPkg (nameAt i) = true := by
  have package : ".pkg.tar.zst".toList <:+ (nameAt i).toList := by simp [nameAt]
  have not (suffix : List Char) (short : suffix.length ≤ ".pkg.tar.zst".toList.length)
      (other : ¬ suffix <:+ ".pkg.tar.zst".toList) : ¬ suffix <:+ (nameAt i).toList := fun ends =>
    other (List.suffix_of_suffix_length_le ends package short)
  have signature := not ".sig".toList (by decide) (by decide)
  have database := not ".db.tar.zst".toList (by decide) (by decide)
  rw [← List.isSuffixOf_iff_suffix, Bool.not_eq_true] at signature database
  simp only [isPacmanPkg, endsWith, List.isSuffixOf_iff_suffix.mpr package, signature, database]
  rfl

theorem nameAt_lt {i j : Nat} (lt : i < j) : nameAt i < nameAt j := by
  obtain ⟨k, rfl⟩ := Nat.exists_eq_add_of_lt lt
  have more : List.replicate (i + k + 1) 'a' = List.replicate i 'a' ++ 'a' :: List.replicate k 'a' := by
    rw [Nat.add_assoc, List.replicate_add, List.replicate_succ]
  simp only [String.lt_iff_toList_lt, nameAt, String.toList_ofList, more, List.append_assoc]
  apply List.append_left_lt
  have dot : '.' < 'a' := by decide
  exact List.Lex.rel dot

/-- The archives in files with names in that order. -/
def numbered (archives : List Archive) : List Archive := archives.mapIdx fun i a => a.rename (nameAt i)

theorem numbered_rename (archives : List Archive) :
    (numbered archives).map (Archive.rename "") = archives.map (Archive.rename "") := by
  refine List.ext_getElem (by simp [numbered]) fun i inside inside' => ?_
  simp [numbered, Archive.rename]

theorem numbered_sorted (archives : List Archive) :
    (numbered archives).Pairwise fun a b => a.filename < b.filename := by
  rw [List.pairwise_iff_getElem]
  intro i j inside inside' lt
  simpa [numbered, Archive.rename] using nameAt_lt lt

theorem numbered_packages (archives : List Archive) : ∀ archive ∈ numbered archives, isPacmanPkg archive.filename = true := by
  intro archive mem
  obtain ⟨i, inside, rfl⟩ := List.mem_mapIdx.mp mem
  exact nameAt_isPacmanPkg i

theorem sortArchives_numbered (archives : List Archive) :
    sortArchives ((numbered archives).filter fun a => isPacmanPkg a.filename) = numbered archives := by
  rw [List.filter_eq_self.mpr (numbered_packages archives)]
  exact List.mergeSort_of_pairwise ((numbered_sorted archives).imp fun lt => by simpa using lt.le)

theorem renamedTo_numbered {directory archives : List Archive} (perm : archives.Perm directory) :
    RenamedTo directory (numbered archives) where
  same := by
    rw [numbered_rename]
    exact perm.map _
  packages := numbered_packages archives
  nodup := List.pairwise_map.mpr ((numbered_sorted archives).imp fun lt => lt.ne)

/-- The database is right under all names for the files exactly when, of each name, some version is such
    that none is newer than it, nor than one that compares equal to it. -/
theorem pacman_newest_iff (directory : List Archive) :
    (∀ renamed, RenamedTo directory renamed → DatabaseRight renamed) ↔
      ∀ name, versionsOf name directory ≠ [] → Settled compareVersions (versionsOf name directory) := by
  constructor
  · intro right name nonempty
    by_contra unsettled
    obtain ⟨order, found, perm, eq, worse⟩ := exists_pass_not_greatest compareVersions_eq_trans nonempty unsettled
    obtain ⟨archives, perm', rfl⟩ := exists_perm_filterMap perm
    have there := (databaseRight_iff_versions _).mp (right _ (renamedTo_numbered perm')) name found
    rw [sortArchives_numbered, ← versionsOf_rename, numbered_rename, versionsOf_rename] at there
    exact worse fun b mem => there eq b (perm.mem_iff.mpr mem)
  · intro settled renamed names
    refine (databaseRight_iff_versions renamed).mpr fun name found eq => ?_
    have perm := names.versions name
    have nonempty : versionsOf name directory ≠ [] := List.ne_nil_of_mem (perm.mem_iff.mp (mem_of_pass eq))
    intro b mem
    exact (pass_greatest_iff compareVersions_eq_trans nonempty).mpr (settled name nonempty) _ found perm eq b
      (perm.mem_iff.mp mem)

/-- A package of the agent for Arch, in the file it is built in. -/
def archPackage (version : String) : Archive where
  filename := "linux-patch-agent-" ++ version ++ "-1-x86_64.pkg.tar.zst"
  pkginfo := some ("pkgname = linux-patch-agent\npkgver = " ++ version ++ "-1\narch = x86_64\n")
  size := 4096
  sha256 := "7d865e959b2466918c9863afca942d0f"
  control := none

/-- `2.0.10` is older than `2.0.1rc1` and that is older than `2.0.9`, as `compare_versions` has it, so the
    last of them is held although `2.0.10` is newer. -/
theorem pacman_newest_lost : ¬ ∀ directory, DatabaseRight directory := by
  intro right
  let directory := ["2.0.10", "2.0.1rc1", "2.0.9"].map archPackage
  have sorted : sortArchives (directory.filter fun a => isPacmanPkg a.filename) = directory := by
    have packages : ∀ a ∈ directory, isPacmanPkg a.filename = true := by decide +kernel
    rw [List.filter_eq_self.mpr packages]
    exact List.mergeSort_of_pairwise (by decide +kernel)
  have versions : versionsOf "linux-patch-agent" directory = ["2.0.10-1", "2.0.1rc1-1", "2.0.9-1"] := by
    decide +kernel
  have newest := (databaseRight_iff_versions directory).mp (right directory) "linux-patch-agent" "2.0.9-1"
  rw [sorted, versions] at newest
  have held : pass compareVersions ["2.0.10-1", "2.0.1rc1-1", "2.0.9-1"] = some "2.0.9-1" := by decide +kernel
  have newer : compareVersions "2.0.10-1" "2.0.9-1" = .gt := by decide +kernel
  exact newest held "2.0.10-1" (by simp) newer

end PatchManager
