import FuseBank.Address
import FuseBank.Hardware

/-!
An emulated fuse macro behind the controller's register window: 128 rows whose bits can only be
set, the shadow registers, the command register and the busy bit, with bits that never take a
pulse and bits that fail a margin read. The macro's own clock gates the shadow registers.
-/

namespace FuseBank

structure MacroClock where
  /-- The clock has been handed out; until then the shadow registers are always readable. -/
  attached : Bool := false
  enabled : Bool := false
  failing : Bool := false
  enableCount : Word := 0
  disableCount : Word := 0
deriving DecidableEq

abbrev Rows := Vector Word 128

/-- What the shadow registers show of the rows after a refresh: each word is the union of the
two rows behind it. -/
def Rows.words (rows : Rows) : Vector Word 64 :=
  Vector.ofFn fun i => rows[2 * i.val] ||| rows[2 * i.val + 1]

structure FuseMacro where
  rows : Rows
  shadow : Vector Word 64
  stuck : Rows
  weak : Rows
  address : Word
  readData : Word
  oneWay : Word
  powered : Bool
  busyPolls : Word
  busyRemaining : Word
  hang : Bool
  pulses : List Word
  clock : MacroClock

namespace FuseMacro

def ofRows (rows : Rows) : FuseMacro where
  rows := rows
  shadow := rows.words
  stuck := Vector.replicate 128 0
  weak := Vector.replicate 128 0
  address := 0
  readData := 0
  oneWay := 0
  powered := true
  busyPolls := 0
  busyRemaining := 0
  hang := false
  pulses := []
  clock := {}

def blank : FuseMacro := ofRows (Vector.replicate 128 0)

def attachClock (m : FuseMacro) : FuseMacro := { m with clock := { m.clock with attached := true } }

/-- Sends a program pulse to the bit that the address register names. The pulse is recorded even
where it has no effect. -/
def pulse (m : FuseMacro) : FuseMacro × List Log.Entry :=
  let target := Address.fields m.address
  let row := target.rowIndex
  let m := { m with pulses := m.pulses ++ [m.address &&& 0xfff] }
  if m.powered then
    let taken := target.mask &&& ~~~(m.stuck[row])
    ({ m with rows := m.rows.set row (m.rows[row] ||| taken) },
      [⟨.trace, .fuseMacro,
        s!"efuse: program row {row.val} mask {Text.Hex.marked target.mask.toNat}"⟩])
  else (m, [⟨.trace, .fuseMacro, "efuse: program pulse on powered-down macro dropped"⟩])

/-- Carries out a write to the command register. Without the execute bit nothing happens; of
several commands in one write the first in the order refresh, power-down, program, array read,
margin read is carried out, and a command with none of these bits powers the macro up. -/
def command (m : FuseMacro) (value : Word) : FuseMacro × List Log.Entry :=
  let asks (mask : Word) : Bool := value &&& mask ≠ 0
  let traced (text : String) : List Log.Entry := [⟨.trace, .fuseMacro, text⟩]
  if !asks Mode.execute then
    (m, traced s!"efuse: mode write {Text.Hex.marked value.toNat} without CMD ignored")
  else
    let m := { m with busyRemaining := m.busyPolls }
    let row := Address.readRow m.address
    if asks Mode.refresh then ({ m with shadow := m.rows.words }, traced "efuse: refresh")
    else if asks Mode.powerDown then ({ m with powered := false }, traced "efuse: power down")
    else if asks Mode.program then m.pulse
    else if asks Mode.arrayRead then
      let data := if m.powered then m.rows[row] else 0
      ({ m with readData := data },
        traced s!"efuse: array read row {row.val} = {Text.Hex.marked data.toNat}")
    else if asks Mode.marginRead then
      let data := if m.powered then m.rows[row] &&& ~~~(m.weak[row]) else 0
      ({ m with readData := data },
        traced s!"efuse: margin read row {row.val} = {Text.Hex.marked data.toNat}")
    else ({ m with powered := true }, traced "efuse: power up")

def status (m : FuseMacro) : Word × FuseMacro :=
  if m.hang then (Status.busy, m)
  else if m.busyRemaining = 0 then (Status.idle, m)
  else (Status.busy, { m with busyRemaining := m.busyRemaining - 1 })

/-- The shadow registers cannot be read while a clock is handed out and off. -/
def shadowGated (m : FuseMacro) : Bool := m.clock.attached && !m.clock.enabled

private def replying {α : Type} (value : α) (m : FuseMacro) (log : List Log.Entry) : Reply FuseMacro α :=
  { result := .ok value, state := m, log := log }

def readRegister (offset : Nat) (m : FuseMacro) : Reply FuseMacro Word :=
  if offset = Offset.mode then replying 0 m []
  else if offset = Offset.address then replying m.address m []
  else if offset = Offset.readData then replying m.readData m []
  else if offset = Offset.status then
    let (value, m) := m.status
    replying value m []
  else if offset = Offset.oneWay then replying m.oneWay m []
  else if h : Offset.shadow ≤ offset ∧ offset < Offset.shadowEnd then
    if m.shadowGated then
      replying 0 m [⟨.trace, .fuseMacro,
        s!"efuse: shadow read at {Text.Hex.marked offset} with clock gated"⟩]
    else
      have : (offset - Offset.shadow) / 4 < 64 := by
        simp only [Offset.shadowEnd, Offset.shadow, fuseBytes] at h ⊢
        omega
      replying m.shadow[(offset - Offset.shadow) / 4] m []
  else
    replying 0 m [⟨.trace, .fuseMacro,
      s!"efuse: read of unmodelled offset {Text.Hex.marked offset}"⟩]

def writeRegister (offset : Nat) (value : Word) (m : FuseMacro) : Reply FuseMacro Unit :=
  if offset = Offset.mode then
    let (m, log) := m.command value
    replying () m log
  else if offset = Offset.address then replying () { m with address := value } []
  else if offset = Offset.oneWay then replying () { m with oneWay := value } []
  else
    let what := Text.Hex.marked value.toNat
    replying () m [⟨.trace, .fuseMacro,
      s!"efuse: write {what} to unmodelled offset {Text.Hex.marked offset}"⟩]

def bus : Bus FuseMacro := ⟨readRegister, writeRegister⟩

def enableClock (m : FuseMacro) : Reply FuseMacro (Except DeviceError Unit) :=
  if m.clock.failing then
    { result := .ok (.error (.clock "emulated clk_efuse unavailable")), state := m }
  else
    let log := [⟨.trace, .macroClock, "efuse: clock on"⟩]
    let m := { m with clock := { m.clock with enabled := true } }
    if m.clock.enableCount = BitVec.allOnes 32 then
      { result := .error .overflow, state := m, log := log }
    else
      { result := .ok (.ok ()), log := log,
        state := { m with clock := { m.clock with enableCount := m.clock.enableCount + 1 } } }

def disableClock (m : FuseMacro) : Reply FuseMacro Unit :=
  let log := [⟨.trace, .macroClock, "efuse: clock off"⟩]
  let m := { m with clock := { m.clock with enabled := false } }
  if m.clock.disableCount = BitVec.allOnes 32 then
    { result := .error .overflow, state := m, log := log }
  else
    { result := .ok (), log := log,
      state := { m with clock := { m.clock with disableCount := m.clock.disableCount + 1 } } }

def gate : Gate FuseMacro := ⟨enableClock, disableClock⟩

def hardware : Hardware FuseMacro := ⟨bus, gate⟩

def ungated : Hardware FuseMacro := ⟨bus, .alwaysOn FuseMacro⟩

private def setAt (rows : Rows) (index : Nat) (value : Word) : Except Fault Rows :=
  if h : index < 128 then .ok (rows.set index value) else .error .noSuchIndex

/-- Overwrites a row without a pulse, as if it had been programmed before power-up. -/
def setRow (m : FuseMacro) (index : Nat) (value : Word) : Except Fault FuseMacro :=
  (setAt m.rows index value).map fun rows => { m with rows }

def setStuck (m : FuseMacro) (index : Nat) (mask : Word) : Except Fault FuseMacro :=
  (setAt m.stuck index mask).map fun stuck => { m with stuck }

def setWeak (m : FuseMacro) (index : Nat) (mask : Word) : Except Fault FuseMacro :=
  (setAt m.weak index mask).map fun weak => { m with weak }

def row (m : FuseMacro) (index : Nat) : Except Fault Word :=
  if h : index < 128 then .ok m.rows[index] else .error .noSuchIndex

def word (m : FuseMacro) (index : Nat) : Except Fault Word :=
  if h : index < 64 then .ok m.rows.words[index] else .error .noSuchIndex

end FuseMacro

end FuseBank
