import PatchManager.Text.Str
import Mathlib.Tactic.SplitIfs

/-! # Distributions

What `models.rs` of the core crate knows of the distributions whose agents update themselves from
the repository of the manager: how they are recognised, and what such a host is told.
-/

namespace PatchManager

/-- What an agent is told of the repository. -/
structure RepoConfig where
  gpgPublicKey : String
  sourcesConfig : String
  distroId : String
  keyringPath : String
  apkRsaPublicKey : Option String
deriving DecidableEq, Repr

def dnfCodename : String := "el9"

def apkCodename : String := "v3.21"

def detectDistroId (osFamily osName : Option String) : Option String :=
  let os := Str.toAsciiLowercase (osFamily.getD "").toList
  let name := Str.toAsciiLowercase (osName.getD "").toList
  let mentioned (word : String) : Bool := Str.contains word.toList os || Str.contains word.toList name
  if mentioned "ubuntu" then some "ubuntu"
  else if mentioned "debian" then some "debian"
  else if mentioned "fedora" then some "fedora"
  else if mentioned "alma" then some "almalinux"
  else if mentioned "alpine" then some "alpine"
  else if mentioned "arch" then some "arch"
  else none

def detectAptSuite (osVersion : Option String) : Option String :=
  let ver := Str.toAsciiLowercase (osVersion.getD "").toList
  if ver = "24.04".toList ∨ Str.contains "24.04".toList ver then some "u2404"
  else if ver = "22.04".toList ∨ Str.contains "22.04".toList ver then some "u2204"
  else if ver = "26.04".toList ∨ Str.contains "26.04".toList ver then some "u2604"
  else if ver = "12".toList ∨ "12.".toList.isPrefixOf ver then some "debian12"
  else if ver = "13".toList ∨ "13.".toList.isPrefixOf ver then some "debian13"
  else none

/-- The text that configures the package manager, and where the key of the repository goes. -/
def generateDistroConfig (distroId repoUrlBase : String) (suite : Option String) : Option (String × String) :=
  let base := String.ofList (Str.trimEndMatches (· = '/') repoUrlBase.toList)
  if distroId = "ubuntu" ∨ distroId = "debian" then
    let suite := suite.getD (if distroId = "debian" then "debian12" else "u2404")
    some ("deb [signed-by=/etc/apt/keyrings/lpa-repo.gpg] " ++ base ++ "/apt " ++ suite ++ " main",
      "/etc/apt/keyrings/lpa-repo.gpg")
  else if distroId = "fedora" ∨ distroId = "almalinux" then
    some ("[lpa-repo]\nname=Linux Patch API Repo\nbaseurl=" ++ base ++ "/dnf/" ++ dnfCodename ++
        "/\nenabled=1\nrepo_gpgcheck=1\ngpgcheck=0\ngpgkey=file:///etc/pki/rpm-gpg/lpa-repo.gpg\n",
      "/etc/pki/rpm-gpg/lpa-repo.gpg")
  else if distroId = "alpine" then
    some (base ++ "/apk/" ++ apkCodename, "/etc/apk/keys/lpa-repo.rsa.pub")
  else if distroId = "arch" then
    some ("[lpa-repo]\nServer = " ++ base ++ "/pacman/$repo\nSigLevel = Required DatabaseOptional\n",
      "/etc/pacman.d/gnupg/lpa-repo.gpg")
  else none

/-- A distribution that is recognised is one with a configuration. -/
theorem generateDistroConfig_of_detected {osFamily osName : Option String} {distroId : String}
    (detected : detectDistroId osFamily osName = some distroId) (repoUrlBase : String)
    (suite : Option String) : (generateDistroConfig distroId repoUrlBase suite).isSome = true := by
  have known : distroId = "ubuntu" ∨ distroId = "debian" ∨ distroId = "fedora" ∨ distroId = "almalinux" ∨
      distroId = "alpine" ∨ distroId = "arch" := by
    dsimp only [detectDistroId] at detected
    split_ifs at detected <;> cases detected <;> decide
  rcases known with rfl | rfl | rfl | rfl | rfl | rfl <;> rfl

end PatchManager
