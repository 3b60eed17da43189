import PatchManager.Bytes.Slices
import PatchManager.Text.Str
import PatchManager.Text.Utf8

/-! # Archives of Debian packages

`parse_ar` of `repo_metadata.rs`.  A `.deb` is an `ar` archive: a magic line, and for each member a
header of 60 bytes and its contents.
-/

namespace PatchManager

open PatchManager.Bytes

structure ArEntry where
  name : String
  data : List UInt8
deriving DecidableEq

/-- `!<arch>\n`. -/
def arMagic : List UInt8 := [0x21, 0x3C, 0x61, 0x72, 0x63, 0x68, 0x3E, 0x0A]

structure ArState where
  pos : Nat
  entries : List ArEntry

/-- The member at `pos`, whose header is in bounds. -/
def arMember (data : List UInt8) (s : ArState) : Outcome (ArState ⊕ List ArEntry) := do
  let header ← slice data s.pos (← add s.pos 60)
  let name := Str.trim (Utf8.fromUtf8Lossy (← slice header 0 16))
  let sizeStr := Str.trim (Utf8.fromUtf8Lossy (← slice header 48 58))
  match Str.parseUnsigned (2 ^ 64) sizeStr with
  | none => return .inr s.entries
  | some size =>
    let pos ← add s.pos 60
    if (← add pos size) > data.length then return .inr s.entries
    else
      let content ← slice data pos (← add pos size)
      let pos ← add pos size
      let pos ← if size % 2 = 1 then add pos 1 else pure pos
      return .inl ⟨pos, s.entries ++ [⟨.ofList name, content⟩]⟩

/-- A round of the loop of `parse_ar`. -/
def arRound (data : List UInt8) (s : ArState) : Outcome (ArState ⊕ List ArEntry) := do
  if (← add s.pos 60) ≤ data.length then arMember data s else return .inr s.entries

def parseAr (data : List UInt8) : Outcome (List ArEntry) := do
  if data.length < 8 then return []
  else if (← slice data 0 8) ≠ arMagic then return []
  else Outcome.loop (arRound data) (data.length + 1) ⟨8, []⟩

example : parseAr (arMagic ++ Utf8.encode "x/              0           0     0     100644  1         `\nab".toList) =
    .ok [⟨"x/", [0x61]⟩] := by
  rw [String.toList_ofList]
  decide

end PatchManager
