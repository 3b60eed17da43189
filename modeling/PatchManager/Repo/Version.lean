import PatchManager.Text.Str
import Mathlib.Algebra.Group.Nat.Defs

/-! # Versions

`version.rs` of the core crate: versions are compared part by part.
-/

namespace PatchManager

/-- An epoch in front is left out, and so are empty parts. -/
def splitVersion (version : List Char) : List (List Char) :=
  let withoutEpoch := match Str.splitOnce [':'] version with
    | some (epoch, rest) => if epoch ≠ [] ∧ epoch.all Char.isDigit then rest else version
    | none => version
  (withoutEpoch.splitOnP (· ∈ ['.', '-', '_', '+'])).filter (· ≠ [])

def compareParts (a b : List Char) : Ordering :=
  match Str.parseUnsigned (2 ^ 64) a, Str.parseUnsigned (2 ^ 64) b with
  | some m, some n => compare m n
  | _, _ => compare (String.ofList a) (String.ofList b)

/-- Parts that are missing count as `0`. -/
def compareVersions (a b : String) : Ordering :=
  let aParts := splitVersion a.toList
  let bParts := splitVersion b.toList
  (List.range (max aParts.length bParts.length)).foldr
    (fun i rest => (compareParts (aParts.getD i ['0']) (bParts.getD i ['0'])).then rest) .eq

example : compareVersions "2.6.10" "2.6.9" = .gt := by decide +kernel

end PatchManager
