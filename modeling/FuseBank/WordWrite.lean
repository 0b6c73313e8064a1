import FuseBank.Controller

/-!
Verified word writes. Each of the two rows behind a word is read, its missing bits get one
program pulse each, and a margin read confirms that the requested bits hold. Bits that were set
before, or by accident, do not count as errors, and the write fails only when both rows do.
-/

namespace FuseBank

def maxRowErrors : Nat := 2

structure RowReport where
  before : Word
  /-- The bits that got a pulse. -/
  programmed : Word
  margin : Word
  verified : Bool
deriving DecidableEq

structure WriteReport where
  word : Word
  value : Word
  low : RowReport
  high : RowReport
deriving DecidableEq

namespace WriteReport

def rows (r : WriteReport) : List (Row × RowReport) := [(.low, r.low), (.high, r.high)]

def errorCount (r : WriteReport) : Nat := (r.rows.filter fun x => !x.2.verified).length

def programmedBits (r : WriteReport) : List (Row × Nat) :=
  r.rows.flatMap fun x => x.2.programmed.bits.map fun bit => (x.1, bit)

end WriteReport

namespace Controller

def writeRow (c : Controller) (word value : Word) (row : Row) (failed : Nat) : Operation RowReport := do
  let index := Address.physicalWord word row
  Routine.note .debug .wordWrite s!"Program physical word addr #{index.toNat}"
  let before ← c.readPhysical index .array
  let missing := value &&& ~~~before
  missing.bits.forM fun bit => c.programBit word (BitVec.ofNat 32 bit) row
  let margin ← c.readPhysical index .margin
  Routine.note .debug .wordWrite
    s!"write_word(): val={Text.Hex.marked value.toNat} new_value={Text.Hex.marked margin.toNat}"
  let verified := decide (margin.Covers value)
  if !verified then
    Routine.note .error .wordWrite s!"eFUSE program bits check failed ({failed + 1})"
  return ⟨before, missing, margin, verified⟩

/-- Programs the bits of `value` that the word lacks. Bits programmed before a failure stay. -/
def writeWord (c : Controller) (word value : Word) : Operation WriteReport := do
  let low ← c.writeRow word value .low 0
  let high ← c.writeRow word value .high (if low.verified then 0 else 1)
  let report : WriteReport := ⟨word, value, low, high⟩
  refresh
  if report.errorCount ≥ maxRowErrors then throw (.verifyFailed word report.errorCount)
  return report

end Controller

end FuseBank
