import FuseBank.Config
import FuseBank.WordWrite

/-!
The fuse device: a controller and the permission to program. Every operation but the shutdown
brackets its register accesses with the clock, and every operation that programs asks for the
permission first.
-/

namespace FuseBank

structure Device where
  controller : Controller
  programmingEnabled : Bool

namespace Device

def ofConfig (config : Config) : Device := ⟨.ofLimit config.pollLimit, config.programmingEnabled⟩

def start (config : Config) : Routine Device := do
  if config.programmingEnabled then Routine.note .info .device "eFUSE programming is enabled"
  return ofConfig config

def checkProgramming (d : Device) : Operation Unit := do
  if !d.programmingEnabled then
    Routine.note .warn .device "eFUSE write rejected: programming is disabled"
    throw .programmingDisabled

def readShadow (addr : Word) : Operation Word := Controller.readShadow addr

def readBuffer (addr : Word) (buffer : List Byte) : Routine (Except DeviceError Nat × List Byte) :=
  Controller.readBuffer addr buffer

def readPhysical (d : Device) (index : Word) (mode : ReadMode) : Operation Word :=
  Controller.withClock (d.controller.readPhysical index mode)

def programBit (d : Device) (word bit : Word) (row : Row) : Operation Unit := do
  d.checkProgramming
  Controller.withClock (d.controller.programBit word bit row)

def writeWord (d : Device) (word value : Word) : Operation WriteReport := do
  d.checkProgramming
  Controller.withClock (d.controller.writeWord word value)

def outcomeText : Except DeviceError WriteReport → String
  | .ok report => s!"Ok({report.errorCount})"
  | .error e => s!"Err({e.record})"

/-- Writes the word at byte address `addr` and makes the shadow registers show it. The power-up,
the refresh and the wait follow whatever the word write returns; its error comes first. -/
def write (d : Device) (addr value : Word) : Operation WriteReport := do
  Routine.note .debug .device
    s!"write(): {Text.Hex.marked addr.toNat} = {Text.Hex.marked value.toNat}"
  d.checkProgramming
  Controller.checkAddress addr
  Controller.withClock do
    let outcome ← Operation.attempt (d.controller.writeWord (addr / 4) value)
    Routine.note .debug .device s!"write(): ret={outcomeText outcome}"
    Controller.power true
    Controller.refresh
    let settled ← Operation.attempt d.controller.waitReady
    let report ← Operation.ofOutcome outcome
    Operation.ofOutcome settled
    return report

def shutdown : Routine Unit := do
  Controller.power false
  Routine.note .info .device "eFUSE powered down"

end Device

end FuseBank
