import FuseBank.Address
import FuseBank.Hardware

/-!
The register sequences of the fuse controller: waiting for the macro, power and refresh, one
program pulse, reading a physical row, and reading the shadow registers under the clock.
Verified word writes are in `FuseBank.WordWrite`.
-/

namespace FuseBank

inductive ReadMode where
  | array
  | margin
deriving DecidableEq

namespace ReadMode

def command : ReadMode → Word
  | array => Mode.arrayRead ||| Mode.execute
  | margin => Mode.marginRead ||| Mode.execute

def name : ReadMode → String
  | array => "Array"
  | margin => "Margin"

def ofWord (w : Word) : Operation ReadMode :=
  if w = 0 then pure array
  else if w = 1 then pure margin
  else do
    Routine.note .error .rowRead s!"Unsupported eFUSE read type {w.toNat}"
    throw (.unsupportedReadMode w)

end ReadMode

structure Controller where
  pollLimit : Nat
  pollLimit_pos : 0 < pollLimit

namespace Controller

/-- A limit of zero acts as one. -/
def ofLimit (limit : Word) : Controller := ⟨max limit.toNat 1, by omega⟩

def isBusy : Routine Bool := do
  let status ← Routine.readRegister Offset.status
  return status.getLsbD 0

def poll (limit : Nat) : Nat → Operation Unit
  | 0 => do
    Routine.note .error .poll s!"eFUSE still busy after {limit} status polls"
    throw (.timeout limit)
  | remaining + 1 => do
    if ← isBusy then poll limit remaining else return

def waitReady (c : Controller) : Operation Unit := poll c.pollLimit c.pollLimit

def power (up : Bool) : Routine Unit :=
  Routine.setBits Offset.mode (if up then Mode.execute else Mode.powerDown ||| Mode.execute)

def refresh : Routine Unit := Routine.writeRegister Offset.mode Mode.refreshCommand

/-- Runs `body` with the clock on and switches it off again, whatever `body` returns. If the
clock does not come on, `body` is not run. -/
def withClock {α : Type} (body : Operation α) : Operation α :=
  ExceptT.mk (Routine.enable fun
    | .error e => do
      Routine.note .error .clockScope s!"eFUSE clock failed to enable: {e.message}"
      return .error e
    | .ok () => do
      let result ← body.run
      Routine.disable (.done result))

def programBit (c : Controller) (word bit : Word) (row : Row) : Operation Unit := do
  c.waitReady
  Routine.writeRegister Offset.address (Address.compose word bit row)
  Routine.writeRegister Offset.mode (Mode.program ||| Mode.execute)

def readPhysical (c : Controller) (index : Word) (mode : ReadMode) : Operation Word := do
  power true
  c.waitReady
  Routine.writeRegister Offset.address index
  Routine.writeRegister Offset.mode mode.command
  c.waitReady
  Routine.readRegister Offset.readData

def ValidAddress (addr : Word) : Prop := addr.toNat < fuseBytes ∧ addr.toNat % 4 = 0

instance (addr : Word) : Decidable (ValidAddress addr) := inferInstanceAs (Decidable (_ ∧ _))

def checkAddress (addr : Word) : Operation Unit :=
  if ValidAddress addr then pure () else throw (.badAddress addr)

def readShadow (addr : Word) : Operation Word := do
  checkAddress addr
  withClock (Routine.readRegister (Offset.shadow + addr.toNat))

def readWords (offset : Nat) : Nat → Routine (List Word)
  | 0 => return []
  | count + 1 => do
    let word ← Routine.readRegister offset
    let words ← readWords (offset + 4) count
    return word :: words

/-- Fills a buffer from the shadow registers, starting at byte address `addr`. At most the whole
fuse space is read; the part of the buffer to be filled is cleared first, and the range is
checked before the clock is touched. Answers the number of bytes, and the buffer afterwards. -/
def readBuffer (addr : Word) (buffer : List Byte) : Routine (Except DeviceError Nat × List Byte) :=
  let count := min buffer.length fuseBytes
  let cleared := List.replicate count 0 ++ buffer.drop count
  let last := addr.toNat + (count - 1) / 4 * 4
  if count = 0 then return (.ok 0, buffer)
  else if ¬ ValidAddress addr then return (.error (.badAddress addr), cleared)
  else if last ≥ fuseBytes then return (.error (.badAddress (BitVec.ofNat 32 last)), cleared)
  else do
    match ← (withClock (readWords (Offset.shadow + addr.toNat) ((count + 3) / 4))).run with
    | .error e => return (.error e, cleared)
    | .ok words => return (.ok count, (words.flatMap Word.toBytes).take count ++ buffer.drop count)

end Controller

end FuseBank
