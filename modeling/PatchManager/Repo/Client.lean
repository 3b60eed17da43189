import PatchManager.Text.Str

/-! # Package managers as clients

Which file a package manager fetches first, given the text that configures a repository: the release
of a suite, the metadata of a `baseurl`, the index of an architecture, the database that the
section is named after.
-/

namespace PatchManager.Client

/-- The value on the first line that begins with the key. -/
def setting (key text : List Char) : Option (List Char) :=
  ((text.splitOn '\n').find? (key.isPrefixOf ·)).map (·.drop key.length)

/-- The entry is one line: type, options, address, suite and at least one component. -/
def aptIndex (sources : List Char) : Option (List Char) :=
  match Str.words (Str.splitNext '\n' sources) with
  | type :: _ :: uri :: suite :: _ :: _ =>
    if type = "deb".toList then some (uri ++ "/dists/".toList ++ suite ++ "/Release".toList) else none
  | _ => none

def dnfIndex (sources : List Char) : Option (List Char) :=
  (setting "baseurl=".toList sources).map fun url =>
    Str.trimEndMatches (· = '/') url ++ "/repodata/repomd.xml".toList

def apkIndex (arch sources : List Char) : Option (List Char) :=
  some (Str.splitNext '\n' sources ++ "/".toList ++ arch ++ "/APKINDEX.tar.gz".toList)

/-- The variables of `Server` are the name of the section and the architecture. -/
def pacmanIndex (arch sources : List Char) : Option (List Char) := do
  let name ← setting "[".toList sources
  let server ← setting "Server = ".toList sources
  let repo := Str.splitNext ']' name
  return Str.replace "$arch".toList arch (Str.replace "$repo".toList repo server) ++ "/".toList ++ repo ++ ".db".toList

/-- The package manager of a distribution, for a machine of the given architecture. -/
def index (distroId arch sources : String) : Option (List Char) :=
  if distroId = "ubuntu" ∨ distroId = "debian" then aptIndex sources.toList
  else if distroId = "fedora" ∨ distroId = "almalinux" then dnfIndex sources.toList
  else if distroId = "alpine" then apkIndex arch.toList sources.toList
  else if distroId = "arch" then pacmanIndex arch.toList sources.toList
  else none

theorem aptIndex_eq_some {sources options uri : List Char} {rest : List (List Char)} {location : List Char}
    (line : Str.words (Str.splitNext '\n' sources) = "deb".toList :: options :: uri :: rest) :
    aptIndex sources = some location ↔ ∃ suite component more, rest = suite :: component :: more ∧
      location = uri ++ "/dists/".toList ++ suite ++ "/Release".toList := by
  unfold aptIndex
  rw [line]
  cases rest with
  | nil => simp
  | cons suite rest =>
    cases rest with
    | nil => simp
    | cons component more => simp [eq_comm]

theorem setting_first {key value : List Char} (after : List Char) (line : '\n' ∉ key ++ value) :
    setting key (key ++ value ++ '\n' :: after) = some value := by
  have begins : key.isPrefixOf (key ++ value) = true := List.isPrefixOf_iff_prefix.mpr (List.prefix_append key value)
  rw [setting, List.splitOn_append_cons_self_of_not_mem line, List.find?_cons_of_pos begins]
  simp

/-- The line that sets the key stands after lines that do not. -/
theorem setting_line {key value before : List Char} (after : List Char)
    (absent : (before.splitOn '\n').find? (key.isPrefixOf ·) = none) (line : '\n' ∉ key ++ value) :
    setting key (before ++ '\n' :: (key ++ value ++ '\n' :: after)) = some value := by
  have begins : key.isPrefixOf (key ++ value) = true := List.isPrefixOf_iff_prefix.mpr (List.prefix_append key value)
  rw [setting, List.splitOn_append_cons_self, List.splitOn_append_cons_self_of_not_mem line, List.find?_append,
    absent, Option.none_or, List.find?_cons_of_pos begins]
  simp

end PatchManager.Client
