import PatchManager.Bytes.Slices

/-! # Concatenated gzip streams

`find_gzip_stream_boundaries` of `repo_metadata.rs`.  An `.apk` is a few gzip streams one after the
other; where one ends, the decoder knows that has read it.
-/

namespace PatchManager

open PatchManager.Bytes

/-- `flate2::bufread::GzDecoder`: it reads the header when it is made, and its `read` takes from the
buffered reader what it needs of a finite stream. -/
structure GzDecoder where
  State : Type
  new : BufReader → State
  /-- `read` into a buffer: the number of bytes it has put there -/
  read : State → Except String Nat × State
  intoInner : State → BufReader
  /-- how many bytes there are still to be read -/
  left : State → Nat
  new_uses : ∀ r, ∃ n, BufReader.Uses r n (intoInner (new r))
  read_uses : ∀ s, ∃ n, BufReader.Uses (intoInner s) n (intoInner (read s).2)
  read_left : ∀ s n, (read s).1 = .ok (n + 1) → left (read s).2 < left s

namespace GzDecoder

variable (D : GzDecoder)

/-- A round of the loop that reads a stream to its end or to an error. -/
def drainRound (s : D.State) : Outcome (D.State ⊕ D.State) :=
  match (D.read s).1 with
  | .ok 0 => .ok (.inr (D.read s).2)
  | .ok (_ + 1) => .ok (.inl (D.read s).2)
  | .error _ => .ok (.inr (D.read s).2)

def drain (s : D.State) : Outcome D.State := Outcome.loop D.drainRound (D.left s + 1) s

/-- How many bytes of the slice the decoder has consumed when it is done. -/
def consumed (bytes : List UInt8) : Outcome Nat := do
  let inner := D.intoInner (← D.drain (D.new (.new bytes)))
  return inner.position - inner.buffer.length

end GzDecoder

structure ScanState where
  pos : Nat
  offsets : List Nat

/-- `data[pos] == 0x1f && data[pos + 1] == 0x8b`. -/
def gzipMagicAt (data : List UInt8) (pos : Nat) : Outcome Bool := do
  if (← index data pos) = 0x1F then return (← index data (← add pos 1)) = 0x8B else return false

/-- The stream at `pos`, whose header passes. -/
def gzipStream (D : GzDecoder) (data : List UInt8) (s : ScanState) : Outcome (ScanState ⊕ List Nat) := do
  let consumed ← D.consumed (← slice data s.pos data.length)
  if consumed = 0 then return .inl ⟨← add s.pos 1, s.offsets ++ [s.pos]⟩
  else return .inl ⟨← add s.pos consumed, s.offsets ++ [s.pos]⟩

/-- A round of the loop of `find_gzip_stream_boundaries`. -/
def gzipRound (D : GzDecoder) (data : List UInt8) (s : ScanState) : Outcome (ScanState ⊕ List Nat) := do
  if (← add s.pos 10) ≤ data.length then
    if ← gzipMagicAt data s.pos then
      if (← index data (← add s.pos 2)) ≠ 8 then return .inl ⟨← add s.pos 1, s.offsets⟩
      else
        let flg ← index data (← add s.pos 3)
        if flg &&& 0xE0 ≠ 0 then return .inl ⟨← add s.pos 1, s.offsets⟩ else gzipStream D data s
    else return .inl ⟨← add s.pos 1, s.offsets⟩
  else return .inr s.offsets

def findGzipStreamBoundaries (D : GzDecoder) (data : List UInt8) : Outcome (List Nat) := do
  let offsets ← Outcome.loop (gzipRound D data) (data.length + 1) ⟨0, []⟩
  if offsets = [] then .fails "No gzip streams found in data" else return offsets

end PatchManager
