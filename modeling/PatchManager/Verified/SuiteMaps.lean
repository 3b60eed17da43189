import PatchManager.Web.Upgrades
import Mathlib.Tactic.MkIffOfInductiveProp

/-! # Two maps from systems to suites

An upgrade looks for packages by `map_os_to_distro`, on the text that the health poller has
stored.  At enrollment the repository of a host is chosen by `detect_distro_id` and
`detect_apt_suite`.

Main results:

* `mapsAgree_iff`: when the two agree.
* `trixie_defaults`: a Debian whose version comes with its name.
-/

namespace PatchManager.SuiteMaps

/-- The part of the repository that a distribution takes its packages from. -/
def repoFormat (distroId : String) : Option String :=
  if distroId = "ubuntu" ∨ distroId = "debian" then some "apt"
  else if distroId = "fedora" ∨ distroId = "almalinux" then some "dnf"
  else if distroId = "alpine" then some "apk"
  else if distroId = "arch" then some "pacman"
  else none

structure MapsAgree (os osVersion : String) : Prop where
  distro : (mapOsToDistro (osNameFromSysinfo os osVersion)).map (·.1) =
    (detectDistroId none (some os)).bind repoFormat
  suite : ∀ suite, mapOsToDistro (osNameFromSysinfo os osVersion) = some ("apt", suite) →
    suite = detectAptSuite (some osVersion)

section Words

variable (s : String) (word : String)

def starts : Bool := word.toList.isPrefixOf (Str.toAsciiLowercase s.toList)

def mentions : Bool := Str.contains word.toList (Str.toAsciiLowercase s.toList)

/-- A release of Debian, or a point release of it. -/
def isRelease : Bool := Str.toAsciiLowercase s.toList = word.toList || starts s (word ++ ".")

end Words

variable (os osVersion : String)

/-- The name begins with the word that it is recognised by at enrollment, or has none of them. -/
@[mk_iff]
inductive NamedFirst : Prop
  | apt : starts os "ubuntu" ∨ starts os "debian" → NamedFirst
  | dnf : starts os "fedora" ∨ starts os "almalinux" →
      (∀ word ∈ ["ubuntu", "debian"], ¬ mentions os word) → NamedFirst
  | apk : starts os "alpine" →
      (∀ word ∈ ["ubuntu", "debian", "fedora", "alma"], ¬ mentions os word) → NamedFirst
  | pacman : starts os "arch" →
      (∀ word ∈ ["ubuntu", "debian", "fedora", "alma", "alpine"], ¬ mentions os word) → NamedFirst
  | none : (∀ word ∈ ["ubuntu", "debian", "fedora", "alma", "alpine", "arch"], ¬ mentions os word) →
      NamedFirst

/-- A release in the name is in the version too, or an earlier one is, and an Ubuntu without a known
    release has no version that Debian has. -/
@[mk_iff]
structure UbuntuTold : Prop where
  u2404 : mentions os "24.04" → mentions osVersion "24.04"
  u2204 : mentions os "22.04" → mentions osVersion "24.04" ∨ mentions osVersion "22.04"
  u2604 : mentions os "26.04" →
    mentions osVersion "24.04" ∨ mentions osVersion "22.04" ∨ mentions osVersion "26.04"
  unknown : (∀ release ∈ ["24.04", "22.04", "26.04"], ¬ mentions osVersion release) →
    ¬ isRelease osVersion "12" ∧ ¬ isRelease osVersion "13"

/-- The number or the name of the release is somewhere. -/
def tellsDebian (number name : String) : Bool :=
  (mentions os number || mentions osVersion number) || (mentions os name || mentions osVersion name)

/-- The version begins with the release that is told, and is none of Ubuntu. -/
@[mk_iff]
structure DebianTold : Prop where
  ubuntu : ∀ release ∈ ["24.04", "22.04", "26.04"], ¬ mentions osVersion release
  bookworm : tellsDebian os osVersion "12" "bookworm" → isRelease osVersion "12"
  trixie : ¬ tellsDebian os osVersion "12" "bookworm" → tellsDebian os osVersion "13" "trixie" →
    isRelease osVersion "13"

@[mk_iff]
structure VersionTold : Prop where
  ubuntu : starts os "ubuntu" → UbuntuTold os osVersion
  debian : ¬ starts os "ubuntu" → starts os "debian" → DebianTold os osVersion

variable {os osVersion}

theorem mentions_of_starts {s word : String} (begins : starts s word = true) : mentions s word = true :=
  Str.contains_of_isPrefixOf begins

theorem lower_stored : Str.toAsciiLowercase (osNameFromSysinfo os osVersion).toList =
    Str.toAsciiLowercase os.toList ++ ' ' :: Str.toAsciiLowercase osVersion.toList := by
  simp [osNameFromSysinfo, Str.toAsciiLowercase]

/-- The release of an Ubuntu as the upgrades see it: the first that name or version mention. -/
def ubuntuSuite (os osVersion : String) : Option String :=
  if mentions os "24.04" || mentions osVersion "24.04" then some "u2404"
  else if mentions os "22.04" || mentions osVersion "22.04" then some "u2204"
  else if mentions os "26.04" || mentions osVersion "26.04" then some "u2604"
  else none

def debianSuite (os osVersion : String) : Option String :=
  if tellsDebian os osVersion "12" "bookworm" then some "debian12"
  else if tellsDebian os osVersion "13" "trixie" then some "debian13"
  else none

/-- None of the words holds the blank that the poller puts between name and version. -/
theorem mapOsToDistro_stored : mapOsToDistro (osNameFromSysinfo os osVersion) =
    if starts os "ubuntu" then some ("apt", ubuntuSuite os osVersion)
    else if starts os "debian" then some ("apt", debianSuite os osVersion)
    else if starts os "fedora" || starts os "almalinux" then some ("dnf", some dnfCodename)
    else if starts os "alpine" then some ("apk", some apkCodename)
    else if starts os "arch" then some ("pacman", some "x86_64")
    else none := by
  dsimp only [mapOsToDistro]
  rw [lower_stored]
  simp (disch := decide +kernel) only [Str.isPrefixOf_sep, Str.contains_sep]
  unfold ubuntuSuite debianSuite tellsDebian starts mentions
  split_ifs <;> rfl

theorem detected_format : (detectDistroId none (some os)).bind repoFormat =
    if mentions os "ubuntu" || mentions os "debian" then some "apt"
    else if mentions os "fedora" || mentions os "alma" then some "dnf"
    else if mentions os "alpine" then some "apk"
    else if mentions os "arch" then some "pacman"
    else none := by
  have nothing (word : String) (nonempty : word.toList ≠ []) :
      Str.contains word.toList (Str.toAsciiLowercase "".toList) = false := by
    rw [Bool.eq_false_iff, Ne, Str.contains_iff]
    simpa [Str.toAsciiLowercase] using nonempty
  dsimp only [detectDistroId, Option.getD_none, Option.getD_some]
  simp (disch := decide +kernel) only [nothing, Bool.false_or]
  dsimp only [mentions]
  split_ifs <;> simp_all [repoFormat]

theorem stored_format : (mapOsToDistro (osNameFromSysinfo os osVersion)).map (·.1) =
    if starts os "ubuntu" || starts os "debian" then some "apt"
    else if starts os "fedora" || starts os "almalinux" then some "dnf"
    else if starts os "alpine" then some "apk"
    else if starts os "arch" then some "pacman"
    else none := by
  rw [mapOsToDistro_stored]
  split_ifs <;> simp_all

theorem mentions_of_isRelease {number : String} (release : isRelease osVersion number = true) :
    mentions osVersion number = true := by
  refine Str.contains_iff.mpr ?_
  rcases Bool.or_eq_true_iff.mp release with same | point
  · exact (of_decide_eq_true same) ▸ List.infix_rfl
  · have begins := List.isPrefixOf_iff_prefix.mp point
    rw [String.toList_append] at begins
    exact ((List.prefix_append _ _).trans begins).isInfix

theorem detected_suite : detectAptSuite (some osVersion) =
    if mentions osVersion "24.04" then some "u2404"
    else if mentions osVersion "22.04" then some "u2204"
    else if mentions osVersion "26.04" then some "u2604"
    else if isRelease osVersion "12" then some "debian12"
    else if isRelease osVersion "13" then some "debian13"
    else none := by
  have whole (word : String) (ver : List Char) : ver = word.toList ∨ Str.contains word.toList ver = true ↔
      Str.contains word.toList ver = true := by
    exact ⟨fun h => h.elim (fun eq => Str.contains_iff.mpr (eq ▸ List.infix_rfl)) id, .inr⟩
  dsimp only [detectAptSuite, Option.getD_some]
  simp only [whole]
  unfold mentions isRelease
  split_ifs <;> simp_all [starts]

theorem ubuntuSuite_eq_iff : ubuntuSuite os osVersion = detectAptSuite (some osVersion) ↔ UbuntuTold os osVersion := by
  rw [detected_suite, ubuntuTold_iff]
  unfold ubuntuSuite
  simp only [List.forall_mem_cons, List.not_mem_nil, false_implies, implies_true, and_true]
  generalize mentions os "24.04" = a, mentions os "22.04" = b, mentions os "26.04" = c,
    mentions osVersion "24.04" = d, mentions osVersion "22.04" = e, mentions osVersion "26.04" = f,
    isRelease osVersion "12" = g, isRelease osVersion "13" = h
  grind

theorem debianSuite_eq_iff : debianSuite os osVersion = detectAptSuite (some osVersion) ↔ DebianTold os osVersion := by
  have twelve : isRelease osVersion "12" = true → tellsDebian os osVersion "12" "bookworm" = true :=
    fun release => by simp [tellsDebian, mentions_of_isRelease release]
  have thirteen : isRelease osVersion "13" = true → tellsDebian os osVersion "13" "trixie" = true :=
    fun release => by simp [tellsDebian, mentions_of_isRelease release]
  rw [detected_suite, debianTold_iff]
  unfold debianSuite
  simp only [List.forall_mem_cons, List.not_mem_nil, false_implies, implies_true, and_true]
  generalize tellsDebian os osVersion "12" "bookworm" = a, tellsDebian os osVersion "13" "trixie" = b,
    mentions osVersion "24.04" = d, mentions osVersion "22.04" = e, mentions osVersion "26.04" = f,
    isRelease osVersion "12" = g, isRelease osVersion "13" = h at *
  grind

/-- Who begins with a word mentions it, so the upgrades never see more than the enrollment. -/
theorem formats_agree_iff : (mapOsToDistro (osNameFromSysinfo os osVersion)).map (·.1) =
    (detectDistroId none (some os)).bind repoFormat ↔ NamedFirst os := by
  have ubuntu : starts os "ubuntu" → mentions os "ubuntu" := mentions_of_starts
  have debian : starts os "debian" → mentions os "debian" := mentions_of_starts
  have fedora : starts os "fedora" → mentions os "fedora" := mentions_of_starts
  have alma : starts os "almalinux" → mentions os "alma" := fun begins =>
    Str.contains_iff.mpr (List.IsInfix.trans (by decide +kernel) (Str.contains_iff.mp (mentions_of_starts begins)))
  have alpine : starts os "alpine" → mentions os "alpine" := mentions_of_starts
  have arch : starts os "arch" → mentions os "arch" := mentions_of_starts
  rw [stored_format, detected_format, namedFirst_iff]
  simp only [List.forall_mem_cons, List.not_mem_nil, false_implies, implies_true, and_true]
  generalize starts os "ubuntu" = a, starts os "debian" = b, starts os "fedora" = c, starts os "almalinux" = d,
    starts os "alpine" = e, starts os "arch" = f, mentions os "ubuntu" = a', mentions os "debian" = b',
    mentions os "fedora" = c', mentions os "alma" = d', mentions os "alpine" = e', mentions os "arch" = f' at *
  grind

/-- The suite only counts where the packages are those of `apt`. -/
theorem suites_agree_iff : (∀ suite, mapOsToDistro (osNameFromSysinfo os osVersion) = some ("apt", suite) →
    suite = detectAptSuite (some osVersion)) ↔ VersionTold os osVersion := by
  rw [mapOsToDistro_stored, versionTold_iff, ← ubuntuSuite_eq_iff, ← debianSuite_eq_iff]
  by_cases ubuntu : starts os "ubuntu" = true
  · simp [ubuntu]
  by_cases debian : starts os "debian" = true
  · simp [ubuntu, debian]
  -- the other formats are told apart from apt by their names
  · simp only [ubuntu, debian, Bool.false_eq_true, if_false, false_implies, implies_true, and_true, iff_true]
    intro suite
    split_ifs <;> simp

theorem mapsAgree_iff (os osVersion : String) :
    MapsAgree os osVersion ↔ NamedFirst os ∧ VersionTold os osVersion := by
  rw [← @formats_agree_iff os osVersion, ← suites_agree_iff]
  exact ⟨fun agree => ⟨agree.distro, agree.suite⟩, fun agree => ⟨agree.1, agree.2⟩⟩

/-- Upgrades find the packages of Debian 13, and the enrollment does not know the suite. -/
theorem trixie_defaults : ¬ ∀ os osVersion, MapsAgree os osVersion := by
  intro all
  have suite := (all "Debian GNU/Linux" "13 (trixie)").suite (some "debian13") (by decide +kernel)
  exact absurd suite (by decide +kernel)

end PatchManager.SuiteMaps
