import PatchManager.Repo.Client
import PatchManager.Repo.Metadata
import PatchManager.Web.Enrollment

/-! # Where a configured repository is looked for

The configuration that an agent is given makes its package manager fetch an index.  Three files have
to agree on where that is.

Main results:

* `fetchable_iff`: when the text for a distribution leads to an index.
* `provisioned_iff`: which hosts are led to one.
* `codename_not_generated`: an Ubuntu that tells its codename.
-/

namespace PatchManager.Enrollment

open PatchManager.Conc

/-- The address without the slashes at its end. -/
def RepoServerConfig.base (cfg : RepoServerConfig) : List Char := Str.trimEndMatches (· = '/') cfg.urlBase.toList

/-- An address has no blanks in it. -/
def RepoServerConfig.IsUrl (cfg : RepoServerConfig) : Prop := ∀ c ∈ cfg.urlBase.toList, Str.isWhitespace c = false

/-- What the package manager fetches is one of the indexes that are generated. -/
def Fetchable (cfg : RepoServerConfig) (config : RepoConfig) (arch : String) : Prop :=
  ∃ path ∈ indexPaths, Client.index config.distroId arch config.sourcesConfig = some (cfg.base ++ path.toList)

/-- The first word on the line is a suite that there is, and a component follows. -/
def NamesSuite (codename : String) : Prop :=
  ∃ suite ∈ aptSuites, ∃ component rest,
    Str.words (Str.splitNext '\n' (codename.toList ++ " main".toList)) = suite.toList :: component :: rest

section Text

variable {cfg : RepoServerConfig}

theorem base_word (url : cfg.IsUrl) : ∀ c ∈ cfg.base, Str.isWhitespace c = false := by
  intro c mem
  refine url c ?_
  have sub := (List.dropWhile_suffix (· = '/') (l := cfg.urlBase.toList.reverse)).subset
  simpa using sub (List.mem_reverse.mp mem)

/-- The line in words, as far as the suite. -/
theorem apt_line (url : cfg.IsUrl) (tail : List Char) :
    Str.words (Str.splitNext '\n' ("deb [signed-by=/etc/apt/keyrings/lpa-repo.gpg] ".toList ++ cfg.base ++
      "/apt ".toList ++ tail)) = "deb".toList :: "[signed-by=/etc/apt/keyrings/lpa-repo.gpg]".toList ::
        (cfg.base ++ "/apt".toList) :: Str.words (Str.splitNext '\n' tail) := by
  have noBreak : '\n' ∉ cfg.base := fun mem => absurd (base_word url _ mem) (by decide)
  have word : ∀ c ∈ cfg.base ++ "/apt".toList, Str.isWhitespace c = false := by
    intro c mem
    rcases List.mem_append.mp mem with mem | mem
    · exact base_word url c mem
    · exact Str.blank_free (s := "/apt".toList) (by rw [String.toList_ofList]; decide) c mem
  have start : '\n' ∉ "deb [signed-by=/etc/apt/keyrings/lpa-repo.gpg] ".toList := by
    rw [String.toList_ofList]
    decide
  have middle : '\n' ∉ "/apt ".toList := by
    rw [String.toList_ofList]
    decide
  rw [List.append_assoc, List.append_assoc, Str.splitNext_of_notMem start, Str.splitNext_of_notMem noBreak,
    Str.splitNext_of_notMem middle]
  generalize Str.splitNext '\n' tail = rest
  have parts : "deb [signed-by=/etc/apt/keyrings/lpa-repo.gpg] ".toList ++ (cfg.base ++ ("/apt ".toList ++ rest)) =
      "deb".toList ++ ' ' :: ("[signed-by=/etc/apt/keyrings/lpa-repo.gpg]".toList ++ ' ' ::
        ((cfg.base ++ "/apt".toList) ++ ' ' :: rest)) := by
    repeat rw [String.toList_ofList]
    simp only [List.append_assoc, List.cons_append, List.nil_append]
  have first : Str.words "deb".toList = ["deb".toList] := by
    rw [String.toList_ofList]
    exact Str.words_of_word (Str.blank_free (by decide)) (by decide)
  have second : Str.words "[signed-by=/etc/apt/keyrings/lpa-repo.gpg]".toList =
      ["[signed-by=/etc/apt/keyrings/lpa-repo.gpg]".toList] := by
    rw [String.toList_ofList]
    exact Str.words_of_word (Str.blank_free (by decide)) (by decide)
  rw [parts, Str.words_sep (by decide), Str.words_sep (by decide), Str.words_sep (by decide), first, second,
    Str.words_of_word word (by simp)]
  rfl

/-- The other indexes are in other directories. -/
theorem not_in_dists : ∀ path ∈ [dnfRepomdPath, apkIndexPath, pacmanDbPath],
    ¬ ("/apt/dists/".toList).isPrefixOf path.toList = true := by
  simp only [List.forall_mem_cons, dnfRepomdPath, apkIndexPath, apkCodename, pacmanDbPath, String.toList_append]
  repeat rw [String.toList_ofList]
  decide

/-- Only the release of a suite there is has such a path. -/
theorem release_path {suite : List Char} {path : String} (mem : path ∈ indexPaths)
    (same : "/apt/dists/".toList ++ suite ++ "/Release".toList = path.toList) :
    ∃ known ∈ aptSuites, suite = known.toList := by
  rcases List.mem_append.mp mem with mem | mem
  · obtain ⟨known, isSuite, rfl⟩ := List.mem_map.mp mem
    refine ⟨known, isSuite, ?_⟩
    rw [aptReleasePath, String.toList_append, String.toList_append] at same
    exact List.append_cancel_left (List.append_cancel_right same)
  · -- the others do not begin with the directory
    have start : ("/apt/dists/".toList).isPrefixOf path.toList = true := by
      rw [← same, List.append_assoc]
      exact List.isPrefixOf_iff_prefix.mpr (List.prefix_append _ _)
    exact absurd start (not_in_dists path mem)

theorem apt_fetchable (url : cfg.IsUrl) (suite : String) :
    (∃ path ∈ indexPaths, Client.aptIndex ("deb [signed-by=/etc/apt/keyrings/lpa-repo.gpg] ".toList ++ cfg.base ++
      "/apt ".toList ++ (suite.toList ++ " main".toList)) = some (cfg.base ++ path.toList)) ↔ NamesSuite suite := by
  simp only [Client.aptIndex_eq_some (apt_line url _)]
  constructor
  · rintro ⟨path, mem, word, component, more, line, same⟩
    rw [List.append_assoc, List.append_assoc, List.append_assoc] at same
    obtain ⟨known, isSuite, rfl⟩ := release_path mem
      ((List.append_assoc _ _ _).trans (List.append_cancel_left same).symm)
    exact ⟨known, isSuite, component, more, line⟩
  · rintro ⟨known, isSuite, component, more, line⟩
    refine ⟨aptReleasePath known, List.mem_append_left _ (List.mem_map.mpr ⟨known, isSuite, rfl⟩), known.toList,
      component, more, line, ?_⟩
    simp [aptReleasePath]

theorem dnf_fetchable (url : cfg.IsUrl) : ∃ path ∈ indexPaths, Client.dnfIndex
    ("[lpa-repo]\nname=Linux Patch API Repo\nbaseurl=".toList ++ cfg.base ++ "/dnf/".toList ++ dnfCodename.toList ++
      "/\nenabled=1\nrepo_gpgcheck=1\ngpgcheck=0\ngpgkey=file:///etc/pki/rpm-gpg/lpa-repo.gpg\n".toList) =
      some (cfg.base ++ path.toList) := by
  refine ⟨dnfRepomdPath, by simp [indexPaths], ?_⟩
  have noBreak : '\n' ∉ "baseurl=".toList ++ (cfg.base ++ "/dnf/el9/".toList) := by
    simpa using fun mem => absurd (base_word url _ mem) (by decide)
  have absent : ("[lpa-repo]\nname=Linux Patch API Repo".toList.splitOn '\n').find?
      ("baseurl=".toList.isPrefixOf ·) = none := by
    rw [String.toList_ofList, String.toList_ofList]
    decide
  have line := Client.setting_line
    "enabled=1\nrepo_gpgcheck=1\ngpgcheck=0\ngpgkey=file:///etc/pki/rpm-gpg/lpa-repo.gpg\n".toList absent noBreak
  have text : "[lpa-repo]\nname=Linux Patch API Repo\nbaseurl=".toList ++ cfg.base ++ "/dnf/".toList ++
      dnfCodename.toList ++
      "/\nenabled=1\nrepo_gpgcheck=1\ngpgcheck=0\ngpgkey=file:///etc/pki/rpm-gpg/lpa-repo.gpg\n".toList =
      "[lpa-repo]\nname=Linux Patch API Repo".toList ++ '\n' :: ("baseurl=".toList ++ (cfg.base ++ "/dnf/el9/".toList) ++
        '\n' :: "enabled=1\nrepo_gpgcheck=1\ngpgcheck=0\ngpgkey=file:///etc/pki/rpm-gpg/lpa-repo.gpg\n".toList) := by
    rw [dnfCodename]
    repeat rw [String.toList_ofList]
    simp only [List.append_assoc, List.cons_append, List.nil_append]
  rw [Client.dnfIndex, text, line]
  simp [Str.trimEndMatches, dnfRepomdPath]

theorem apkIndexPath_parts :
    apkIndexPath.toList = "/apk/v3.21/".toList ++ "x86_64".toList ++ "/APKINDEX.tar.gz".toList := by
  rw [apkIndexPath, apkCodename, String.toList_append, String.toList_append]
  repeat rw [String.toList_ofList]
  rfl

/-- Only one index is in that directory. -/
theorem in_apk : ∀ path ∈ indexPaths, ("/apk/".toList).isPrefixOf path.toList = true → path = apkIndexPath := by
  have others : ∀ suite, ("/apk/".toList).isPrefixOf (aptReleasePath suite).toList = false := by
    intro suite
    rw [aptReleasePath, String.toList_append, String.toList_append, List.append_assoc, String.toList_ofList,
      String.toList_ofList]
    rfl
  have elsewhere : ("/apk/".toList).isPrefixOf dnfRepomdPath.toList = false ∧
      ("/apk/".toList).isPrefixOf pacmanDbPath.toList = false := by
    rw [dnfRepomdPath, pacmanDbPath]
    repeat rw [String.toList_ofList]
    exact ⟨rfl, rfl⟩
  intro path mem start
  rcases List.mem_append.mp mem with release | other
  · obtain ⟨suite, -, rfl⟩ := List.mem_map.mp release
    rw [others suite] at start
    cases start
  · simp only [List.mem_cons, List.not_mem_nil, or_false] at other
    rcases other with rfl | rfl | rfl
    · rw [elsewhere.1] at start
      cases start
    · rfl
    · rw [elsewhere.2] at start
      cases start

/-- An index is written for one architecture. -/
theorem apk_fetchable (url : cfg.IsUrl) (arch : List Char) : (∃ path ∈ indexPaths, Client.apkIndex arch
    (cfg.base ++ "/apk/".toList ++ apkCodename.toList) = some (cfg.base ++ path.toList)) ↔ arch = "x86_64".toList := by
  have noBreak : '\n' ∉ cfg.base ++ "/apk/v3.21".toList := by
    simpa using fun mem => absurd (base_word url _ mem) (by decide)
  have whole : Client.apkIndex arch (cfg.base ++ "/apk/".toList ++ apkCodename.toList) =
      some (cfg.base ++ ("/apk/v3.21/".toList ++ arch ++ "/APKINDEX.tar.gz".toList)) := by
    have line := Str.splitNext_of_notMem noBreak []
    rw [List.append_nil] at line
    have text : cfg.base ++ "/apk/".toList ++ apkCodename.toList = cfg.base ++ "/apk/v3.21".toList := by
      simp [apkCodename]
    rw [Client.apkIndex, text, line]
    simp [Str.splitNext]
  rw [whole]
  simp only [Option.some.injEq, List.append_cancel_left_eq]
  constructor
  · rintro ⟨path, mem, same⟩
    have start : ("/apk/".toList).isPrefixOf path.toList = true := by
      rw [← same]
      exact List.isPrefixOf_iff_prefix.mpr ⟨"v3.21/".toList ++ arch ++ "/APKINDEX.tar.gz".toList, by simp⟩
    rw [in_apk path mem start, apkIndexPath_parts] at same
    exact List.append_cancel_left (List.append_cancel_right same)
  · rintro rfl
    exact ⟨apkIndexPath, by simp [indexPaths], apkIndexPath_parts.symm⟩

/-- The name of the section is put into the end of the address, where there is no architecture. -/
theorem expand_server (arch s : List Char) : Str.replace "$arch".toList arch (Str.replace "$repo".toList
    "lpa-repo".toList (s ++ '/' :: "pacman/$repo".toList)) = Str.replace "$arch".toList arch (Str.replace "$repo".toList
      "lpa-repo".toList s) ++ "/pacman/lpa-repo".toList := by
  repeat rw [String.toList_ofList]
  have name : Str.replace ['$', 'r', 'e', 'p', 'o'] "lpa-repo".toList ('/' :: "pacman/$repo".toList) =
      '/' :: "pacman/lpa-repo".toList := by
    repeat rw [String.toList_ofList]
    decide
  repeat rw [String.toList_ofList] at name
  rw [Str.replace_sep (by decide), name, Str.replace_sep (by decide)]
  exact congrArg _ (Str.replace_of_notMem (by decide) arch)

/-- The database is looked for below the name of the section, whatever the address substitutes. -/
theorem pacman_index (url : cfg.IsUrl) (arch : List Char) : ∃ server, Client.pacmanIndex arch
    ("[lpa-repo]\nServer = ".toList ++ cfg.base ++ "/pacman/$repo\nSigLevel = Required DatabaseOptional\n".toList) =
      some (server ++ "/pacman/lpa-repo/lpa-repo.db".toList) := by
  have noBreak : '\n' ∉ "Server = ".toList ++ (cfg.base ++ "/pacman/$repo".toList) := by
    simpa using fun mem => absurd (base_word url _ mem) (by decide)
  have opened : '\n' ∉ "[".toList ++ "lpa-repo]".toList := by
    repeat rw [String.toList_ofList]
    decide
  have name : Client.setting "[".toList ("[".toList ++ "lpa-repo]".toList ++ '\n' :: ("Server = ".toList ++
      (cfg.base ++ "/pacman/$repo".toList) ++ '\n' :: "SigLevel = Required DatabaseOptional\n".toList)) =
      some "lpa-repo]".toList := Client.setting_first _ opened
  have absent : ("[lpa-repo]".toList.splitOn '\n').find? ("Server = ".toList.isPrefixOf ·) = none := by
    repeat rw [String.toList_ofList]
    decide
  have server := Client.setting_line "SigLevel = Required DatabaseOptional\n".toList absent noBreak
  have section_ : "[".toList ++ "lpa-repo]".toList = "[lpa-repo]".toList := by
    repeat rw [String.toList_ofList]
    rfl
  have text : "[lpa-repo]\nServer = ".toList ++ cfg.base ++
      "/pacman/$repo\nSigLevel = Required DatabaseOptional\n".toList =
      "[".toList ++ "lpa-repo]".toList ++ '\n' :: ("Server = ".toList ++ (cfg.base ++ "/pacman/$repo".toList) ++
        '\n' :: "SigLevel = Required DatabaseOptional\n".toList) := by
    repeat rw [String.toList_ofList]
    simp only [List.append_assoc, List.cons_append, List.nil_append]
  refine ⟨Str.replace "$arch".toList arch (Str.replace "$repo".toList "lpa-repo".toList cfg.base), ?_⟩
  have named : Str.splitNext ']' "lpa-repo]".toList = "lpa-repo".toList := by
    repeat rw [String.toList_ofList]
    decide
  have below : "/pacman/$repo".toList = '/' :: "pacman/$repo".toList := by
    repeat rw [String.toList_ofList]
  have database : "/pacman/lpa-repo".toList ++ "/lpa-repo.db".toList = "/pacman/lpa-repo/lpa-repo.db".toList := by
    repeat rw [String.toList_ofList]
    rfl
  unfold Client.pacmanIndex
  rw [text, name, section_, server]
  dsimp only [Option.bind_eq_bind, Option.bind_some]
  rw [named, below, expand_server]
  simp [← database]

theorem not_in_lpa_repo : ∀ path ∈ indexPaths, "/lpa-repo/lpa-repo.db".toList.length ≤ path.toList.length ∧
    ¬ "/lpa-repo/lpa-repo.db".toList <:+ path.toList := by
  simp only [indexPaths, aptSuites, List.map_cons, List.map_nil, List.cons_append, List.nil_append,
    List.forall_mem_cons, aptReleasePath, dnfRepomdPath, apkIndexPath, apkCodename, pacmanDbPath, String.toList_append]
  repeat rw [String.toList_ofList]
  decide

/-- The directory of the database is that of an architecture, not of the repository. -/
theorem pacman_not_fetchable (url : cfg.IsUrl) (arch : List Char) : ¬ ∃ path ∈ indexPaths, Client.pacmanIndex arch
    ("[lpa-repo]\nServer = ".toList ++ cfg.base ++ "/pacman/$repo\nSigLevel = Required DatabaseOptional\n".toList) =
      some (cfg.base ++ path.toList) := by
  rintro ⟨path, mem, fetched⟩
  obtain ⟨server, index⟩ := pacman_index url arch
  have same := Option.some.inj (index.symm.trans fetched)
  have ends : "/lpa-repo/lpa-repo.db".toList <:+ cfg.base ++ path.toList :=
    same ▸ ⟨server ++ "/pacman".toList, by simp⟩
  have inPath : "/lpa-repo/lpa-repo.db".toList <:+ path.toList :=
    List.suffix_of_suffix_length_le ends (List.suffix_append _ _) (not_in_lpa_repo path mem).1
  exact (not_in_lpa_repo path mem).2 inPath

/-- The suite that is written for a distribution with packages of `apt`. -/
def writtenSuite (distroId : String) (suite : Option String) : String :=
  suite.getD (if distroId = "debian" then "debian12" else "u2404")

/-- The configurations, one distribution after the other. -/
theorem fetchable_iff (url : cfg.IsUrl) {config : RepoConfig} {suite : Option String} (arch : String)
    (generated : generateDistroConfig config.distroId cfg.urlBase suite = some (config.sourcesConfig, config.keyringPath)) :
    Fetchable cfg config arch ↔ config.distroId ≠ "arch" ∧
      (config.distroId = "ubuntu" ∨ config.distroId = "debian" → NamesSuite (writtenSuite config.distroId suite)) ∧
      (config.distroId = "alpine" → arch = "x86_64") := by
  unfold Fetchable
  generalize config.distroId = distroId at generated ⊢
  generalize config.sourcesConfig = sources at generated ⊢
  have base : (String.ofList (Str.trimEndMatches (· = '/') cfg.urlBase.toList)).toList = cfg.base := String.toList_ofList
  dsimp only [generateDistroConfig] at generated
  dsimp only [Client.index]
  by_cases apt : distroId = "ubuntu" ∨ distroId = "debian"
  · rw [if_pos apt] at generated ⊢
    obtain ⟨rfl, -⟩ := Prod.mk.inj (Option.some.inj generated)
    have other : distroId ≠ "arch" ∧ distroId ≠ "alpine" := by rcases apt with rfl | rfl <;> decide
    have fetched := apt_fetchable url (writtenSuite distroId suite)
    rw [← List.append_assoc] at fetched
    simp only [String.toList_append, base]
    exact fetched.trans ⟨fun names => ⟨other.1, fun _ => names, fun h => absurd h other.2⟩, fun h => h.2.1 apt⟩
  rw [if_neg apt] at generated ⊢
  by_cases dnf : distroId = "fedora" ∨ distroId = "almalinux"
  · rw [if_pos dnf] at generated ⊢
    obtain ⟨rfl, -⟩ := Prod.mk.inj (Option.some.inj generated)
    have other : distroId ≠ "arch" ∧ distroId ≠ "alpine" := by rcases dnf with rfl | rfl <;> decide
    simp only [String.toList_append, base]
    exact iff_of_true (dnf_fetchable url) ⟨other.1, fun h => absurd h apt, fun h => absurd h other.2⟩
  rw [if_neg dnf] at generated ⊢
  by_cases apk : distroId = "alpine"
  · rw [if_pos apk] at generated ⊢
    obtain ⟨rfl, -⟩ := Prod.mk.inj (Option.some.inj generated)
    have other : distroId ≠ "arch" := by rw [apk]; decide
    simp only [String.toList_append, base]
    rw [apk_fetchable url, String.toList_inj]
    exact ⟨fun same => ⟨other, fun h => absurd h apt, fun _ => same⟩, fun h => h.2.2 apk⟩
  rw [if_neg apk] at generated ⊢
  by_cases pacman : distroId = "arch"
  · rw [if_pos pacman] at generated ⊢
    obtain ⟨rfl, -⟩ := Prod.mk.inj (Option.some.inj generated)
    simp only [String.toList_append, base]
    exact iff_of_false (pacman_not_fetchable url _) fun h => h.1 pacman
  · rw [if_neg pacman] at generated
    cases generated

end Text

theorem namesSuite_of_mem {suite : String} (mem : suite ∈ aptSuites) : NamesSuite suite := by
  have named : ∀ suite ∈ aptSuites, Str.words (Str.splitNext '\n' (suite.toList ++ " main".toList)) =
      [suite.toList, "main".toList] := by
    simp only [aptSuites, List.forall_mem_cons]
    repeat rw [String.toList_ofList]
    decide
  exact ⟨suite, mem, "main".toList, [], named suite mem⟩

theorem detected_mem {osVersion : Option String} {suite : String} (detected : detectAptSuite osVersion = some suite) :
    suite ∈ aptSuites := by
  dsimp only [detectAptSuite] at detected
  split_ifs at detected <;> cases detected <;> decide

/-! ## Hosts -/

/-- What is known of a host: its request for enrollment, or what it asks for later. -/
inductive Description where
  | enrolling (req : EnrollmentRequest)
  | asking (params : RepoConfigQuery)

namespace Description

def distroId : Description → Option String
  | .enrolling req => req.distroId
  | .asking params => some params.distroId

def codename : Description → Option String
  | .enrolling req => req.os "codename"
  | .asking params => params.codename

/-- What the repository is configured with. -/
def suite : Description → Option String
  | .enrolling req => (req.os "codename").or (detectAptSuite (req.os "version"))
  | .asking params => params.codename

end Description

/-- The configurations that agents get, with the bundle of an approval or as an answer. -/
inductive HandedOut (cfg : RepoServerConfig) : Description → RepoConfig → Prop
  | approved {caRootPem : String} {auth : AuthUser} {id : Uuid} {l : List (Exchange Op Op.Resp)}
      {req : EnrollmentRequest} {pki : PkiBundle} {config : RepoConfig}
      (approved : (generateBundle cfg caRootPem auth id).Returns l (.ok (some (req, pki))))
      (bundled : pki.repoConfig = some config) : HandedOut cfg (.enrolling req) config
  | answered {params : RepoConfigQuery} {l : List (Exchange Op Op.Resp)} {config : RepoConfig}
      (answered : (getRepoConfig cfg params).Returns l (.ok config)) : HandedOut cfg (.asking params) config

/-- The host does not run Arch, a codename that it tells is one of the suites, and Alpine runs on the
    one architecture there are packages for. -/
structure Known (d : Description) (arch : String) : Prop where
  pacman : d.distroId ≠ some "arch"
  codename : d.distroId = some "ubuntu" ∨ d.distroId = some "debian" →
    ∀ codename, d.codename = some codename → NamesSuite codename
  apk : d.distroId = some "alpine" → arch = "x86_64"

variable {cfg : RepoServerConfig} {d : Description} {config : RepoConfig}

theorem repoConfigFor_generated {req : EnrollmentRequest} {l : List (Exchange Op Op.Resp)}
    (returns : (repoConfigFor cfg req).Returns l (some config)) : req.distroId = some config.distroId ∧
      generateDistroConfig config.distroId cfg.urlBase ((req.os "codename").or (detectAptSuite (req.os "version"))) =
        some (config.sourcesConfig, config.keyringPath) := by
  unfold repoConfigFor at returns
  cases detected : req.distroId with
  | none =>
    simp only [detected] at returns
    cases returns.ret_inv.2
  | some distroId =>
    simp only [detected] at returns
    cases generated : generateDistroConfig distroId cfg.urlBase
        ((req.os "codename").or (detectAptSuite (req.os "version"))) with
    | none =>
      simp only [generated] at returns
      cases returns.ret_inv.2
    | some texts =>
      obtain ⟨sourcesConfig, keyringPath⟩ := texts
      simp only [generated] at returns
      by_cases alpine : distroId = "alpine"
      · rw [if_pos alpine] at returns
        obtain ⟨key, l, rfl, last⟩ := returns.op_inv
        cases last.ret_inv.2
        exact ⟨rfl, generated⟩
      · rw [if_neg alpine] at returns
        obtain ⟨key, l, rfl, last⟩ := returns.op_inv
        by_cases empty : (key.toOption.getD "").isEmpty = true
        · simp only [Prog.ret_bind, if_pos empty] at last
          cases last.ret_inv.2
        · simp only [Prog.ret_bind, if_neg empty] at last
          cases last.ret_inv.2
          exact ⟨rfl, generated⟩

theorem getRepoConfig_generated {params : RepoConfigQuery} {l : List (Exchange Op Op.Resp)}
    (returns : (getRepoConfig cfg params).Returns l (.ok config)) : params.distroId = config.distroId ∧
      generateDistroConfig config.distroId cfg.urlBase params.codename =
        some (config.sourcesConfig, config.keyringPath) := by
  dsimp only [getRepoConfig] at returns
  split at returns
  · cases returns.ret_inv.2
  obtain ⟨key, l, rfl, rest⟩ := returns.op_inv
  cases key with
  | error e => cases rest.ret_inv.2
  | ok key =>
    cases generated : generateDistroConfig params.distroId cfg.urlBase params.codename with
    | none =>
      simp only [Prog.ret_bind, generated] at rest
      cases rest.ret_inv.2
    | some texts =>
      obtain ⟨sourcesConfig, keyringPath⟩ := texts
      simp only [Prog.ret_bind, generated] at rest
      cases rest.ret_inv.2
      exact ⟨rfl, generated⟩

/-- Either way the configuration is that of the distribution, with the suite. -/
theorem HandedOut.generated (handed : HandedOut cfg d config) : d.distroId = some config.distroId ∧
    generateDistroConfig config.distroId cfg.urlBase d.suite = some (config.sourcesConfig, config.keyringPath) := by
  cases handed with
  | approved approved bundled =>
    obtain ⟨reqs, before, reads, -, -, returns⟩ := generateBundle_returns approved
    exact repoConfigFor_generated (bundled ▸ returns)
  | answered answered =>
    obtain ⟨same, generated⟩ := getRepoConfig_generated answered
    exact ⟨congrArg some same, generated⟩

/-- What stands in for a codename is a suite: that of the version, or the one assumed. -/
theorem writtenSuite_iff (d : Description) (distroId : String) :
    NamesSuite (writtenSuite distroId d.suite) ↔ ∀ codename, d.codename = some codename → NamesSuite codename := by
  have assumed : NamesSuite (writtenSuite distroId none) := by
    refine namesSuite_of_mem ?_
    unfold writtenSuite
    split <;> decide
  cases d with
  | asking params =>
    cases told : params.codename with
    | none => simpa [Description.suite, Description.codename, told] using assumed
    | some codename => simp [Description.suite, Description.codename, told, writtenSuite]
  | enrolling req =>
    cases told : req.os "codename" with
    | some codename => simp [Description.suite, Description.codename, told, writtenSuite]
    | none =>
      cases detected : detectAptSuite (req.os "version") with
      | none => simpa [Description.suite, Description.codename, told, detected] using assumed
      | some suite =>
        simpa [Description.suite, Description.codename, told, detected, writtenSuite] using
          namesSuite_of_mem (detected_mem detected)

/-- An answer for a host that is not Alpine, given the key for GPG. -/
theorem getRepoConfig_answers {params : RepoConfigQuery} {sourcesConfig keyringPath : String} (key : String)
    (named : params.distroId.isEmpty = false) (other : (params.distroId == "alpine") = false)
    (generated : generateDistroConfig params.distroId cfg.urlBase params.codename = some (sourcesConfig, keyringPath)) :
    (getRepoConfig cfg params).Returns [⟨.readToString cfg.gpgPublicKeyPath, .ok key⟩]
      (.ok { gpgPublicKey := key, sourcesConfig, distroId := params.distroId, keyringPath, apkRsaPublicKey := none }) := by
  dsimp only [getRepoConfig]
  rw [if_neg (Bool.eq_false_iff.mp named)]
  generalize (params.distroId == "alpine") = alpine at other ⊢
  subst other
  refine .op ?_
  simp only [Prog.ret_bind, generated]
  exact .ret

theorem provisioned_iff (url : cfg.IsUrl) (handed : HandedOut cfg d config) (arch : String) :
    Fetchable cfg config arch ↔ Known d arch := by
  obtain ⟨distro, generated⟩ := handed.generated
  have some_ (name : String) : d.distroId = some name ↔ config.distroId = name := by rw [distro, Option.some.injEq]
  rw [fetchable_iff url arch generated, writtenSuite_iff]
  constructor
  · rintro ⟨pacman, codename, apk⟩
    exact ⟨fun eq => pacman ((some_ _).mp eq), fun eq => codename (eq.imp (some_ _).mp (some_ _).mp),
      fun eq => apk ((some_ _).mp eq)⟩
  · rintro ⟨pacman, codename, apk⟩
    exact ⟨fun eq => pacman ((some_ _).mpr eq), fun eq => codename (eq.imp (some_ _).mpr (some_ _).mpr),
      fun eq => apk ((some_ _).mpr eq)⟩

namespace Small

def repository : RepoServerConfig := ⟨"http://pm/", "gpg.pub", "rsa.pub"⟩

/-- What Ubuntu is configured with, given the suite. -/
def ubuntuConfig (suite : String) : RepoConfig where
  gpgPublicKey := "key"
  sourcesConfig := "deb [signed-by=/etc/apt/keyrings/lpa-repo.gpg] http://pm/apt " ++ suite ++ " main"
  distroId := "ubuntu"
  keyringPath := "/etc/apt/keyrings/lpa-repo.gpg"
  apkRsaPublicKey := none

theorem repository_isUrl : repository.IsUrl := by
  have url : repository.urlBase.toList = "http://pm/".toList := rfl
  rw [RepoServerConfig.IsUrl, url, String.toList_ofList]
  exact Str.blank_free (by decide)

theorem handed (codename : Option String) (suite : String) (generated : generateDistroConfig "ubuntu" "http://pm/" codename =
    some ((ubuntuConfig suite).sourcesConfig, "/etc/apt/keyrings/lpa-repo.gpg")) :
    HandedOut repository (.asking ⟨"ubuntu", codename⟩) (ubuntuConfig suite) :=
  .answered (getRepoConfig_answers "key" (by decide +kernel : "ubuntu".isEmpty = false)
    (by decide +kernel : ("ubuntu" == "alpine") = false) generated)

end Small

theorem provisioned_iff_ubuntu : Fetchable Small.repository (Small.ubuntuConfig "u2404") "x86_64" := by
  refine (provisioned_iff Small.repository_isUrl (Small.handed none "u2404" (by decide +kernel)) "x86_64").mpr ?_
  exact ⟨by decide +kernel, fun _ _ told => absurd told (Option.some_ne_none _).symm, fun _ => rfl⟩

/-- Ubuntu calls its release `noble`. -/
theorem codename_not_generated : ¬ ∀ (cfg : RepoServerConfig) (d : Description) (config : RepoConfig) (arch : String),
    cfg.IsUrl → HandedOut cfg d config → Fetchable cfg config arch := by
  intro all
  have generated : generateDistroConfig "ubuntu" "http://pm/" (some "noble") =
      some ((Small.ubuntuConfig "noble").sourcesConfig, "/etc/apt/keyrings/lpa-repo.gpg") := by
    decide +kernel
  have fetchable := all _ _ _ "x86_64" Small.repository_isUrl (Small.handed (some "noble") "noble" generated)
  have names := ((fetchable_iff Small.repository_isUrl "x86_64" generated).mp fetchable).2.1 (.inl rfl)
  obtain ⟨suite, mem, component, rest, line⟩ := names
  have first : suite.toList = "noble".toList := by
    have words : Str.words (Str.splitNext '\n' ("noble".toList ++ " main".toList)) = ["noble".toList, "main".toList] := by
      decide +kernel
    exact (List.cons.inj (line.symm.trans words)).1
  rw [String.toList_inj] at first
  exact absurd (first ▸ mem) (by decide)

end PatchManager.Enrollment
