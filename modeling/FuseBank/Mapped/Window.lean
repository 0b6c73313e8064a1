import FuseBank.Config
import FuseBank.Hardware
import FuseBank.Mapped.Memory

/-!
The controller in physical memory: a window of registers mapped from `/dev/mem`, and a clock gate
that sets and clears one bit of a clock register. A mapping starts at a page, so the pages from
the one that holds the first register are mapped. What the system answers to that is not known
here: it is asked for, and may be anything.
-/

namespace FuseBank

/-- The answers of the system to one mapping of physical memory: to opening it, to the question for
the page size, which is signed, and to mapping so many bytes from a page on, with their place. -/
structure MappingAnswers where
  opened : Except SystemError Unit
  sysconf : BitVec 64
  mmap : (length page : Nat) → Except Errno (BitVec 64)

namespace MappingAnswers

def pageSize (answers : MappingAnswers) : Nat :=
  if answers.sysconf.msb then 4096 else max answers.sysconf.toNat 1

theorem pageSize_pos (answers : MappingAnswers) : 0 < answers.pageSize := by
  unfold pageSize
  split <;> omega

theorem pageSize_lt (answers : MappingAnswers) : answers.pageSize < 0x8000000000000000 := by
  unfold pageSize
  split
  · decide
  · rename_i positive
    have small := BitVec.toNat_lt_of_msb_false (Bool.eq_false_iff.2 positive)
    omega

def refusing (errno : Errno) : MappingAnswers where
  opened := .error (.code errno)
  sysconf := 4096
  mmap _ _ := .error errno

end MappingAnswers

/-- A range of physical memory whose registers can be accessed, mapped in pages of a size. -/
structure Window where
  addr : BitVec 64
  len : Nat
  pageSize : Nat
deriving DecidableEq

namespace Window

def addressLimit : Nat := 0x10000000000000000

def offsetLimit : Nat := 0x8000000000000000

/-- The page that holds the first register. The mapping begins there. -/
def page (w : Window) : Nat := w.addr.toNat - w.addr.toNat % w.pageSize

def start (w : Window) : Nat := w.addr.toNat % w.pageSize

def extent (w : Window) : Nat := w.start + w.len

theorem page_add_start (w : Window) : w.page + w.start = w.addr.toNat :=
  Nat.sub_add_cancel (Nat.mod_le _ _)

def place (w : Window) (mmap : (length page : Nat) → Except Errno (BitVec 64)) : Except Errno Window :=
  if w.extent = 0 then .error Errno.invalidArgument
  else if w.page ≥ offsetLimit then .error Errno.valueTooLarge
  else match mmap w.extent w.page with
    | .error errno => .error errno
    | .ok pointer => if pointer = 0 then .error Errno.outOfMemory else .ok w

def map (answers : MappingAnswers) (addr len : BitVec 64) : Except Fault (Except DeviceError Window) :=
  match answers.opened with
  | .error e => .ok (.error (.mapping addr e))
  | .ok () =>
    let w : Window := ⟨addr, len.toNat, answers.pageSize⟩
    if w.extent ≥ addressLimit then .error .overflow
    else .ok ((w.place answers.mmap).mapError fun errno => .mapping addr (.code errno))

def mappedEntry (w : Window) : Log.Entry :=
  ⟨.debug, .mapping,
    s!"Mapped {Text.Hex.marked w.addr.toNat}+{Text.Hex.marked w.len} from /dev/mem"⟩

/-- Physical address of the register at `offset`, by its place in the mapping. -/
def locate (w : Window) (offset : Nat) : Except Fault Nat :=
  if offset % 4 ≠ 0 then .error (.outsideWindow offset)
  else if offset + 4 ≥ addressLimit then .error .overflow
  else if offset + 4 ≤ w.len then .ok (w.page + (w.start + offset))
  else .error (.outsideWindow offset)

def read (w : Window) (offset : Nat) (m : Memory) : Reply Memory Word :=
  { result := (w.locate offset).map m.readWord, state := m }

def write (w : Window) (offset : Nat) (value : Word) (m : Memory) : Reply Memory Unit :=
  match w.locate offset with
  | .error f => { result := .error f, state := m }
  | .ok addr => { result := .ok (), state := m.writeWord addr value }

def bus (w : Window) : Bus Memory := ⟨w.read, w.write⟩

end Window

structure RegisterClock where
  window : Window
  mask : Word
deriving DecidableEq

namespace RegisterClock

def enable (c : RegisterClock) (m : Memory) : Reply Memory (Except DeviceError Unit) :=
  match c.window.locate 0 with
  | .error f => { result := .error f, state := m }
  | .ok addr =>
    let m := m.writeWord addr (m.readWord addr ||| c.mask)
    if m.readWord addr &&& c.mask = 0 then
      { result := .ok (.error (.clock s!"enable bit {Text.Hex.marked c.mask.toNat} did not latch")),
        state := m }
    else { result := .ok (.ok ()), state := m }

def disable (c : RegisterClock) (m : Memory) : Reply Memory Unit :=
  match c.window.locate 0 with
  | .error f => { result := .error f, state := m }
  | .ok addr => { result := .ok (), state := m.writeWord addr (m.readWord addr &&& ~~~c.mask) }

def gate (c : RegisterClock) : Gate Memory := ⟨c.enable, c.disable⟩

def map (answers : MappingAnswers) (clock : ClockBit) :
    Except Fault (Except DeviceError RegisterClock) :=
  match Window.map answers clock.register 4 with
  | .error f => .error f
  | .ok (.error e) => .ok (.error e)
  | .ok (.ok window) =>
    if clock.bit.toNat ≥ 32 then .error .overflow
    else .ok (.ok ⟨window, 1#32 <<< clock.bit.toNat⟩)

end RegisterClock

structure MappedController where
  window : Window
  clock : Option RegisterClock

/-- How mapping ended, with the log lines of the mappings made. -/
structure Mapping where
  result : Except Fault (Except DeviceError MappedController)
  log : List Log.Entry := []

namespace MappedController

def map (forRegisters forClock : MappingAnswers) (config : Config) : Mapping :=
  match Window.map forRegisters config.baseAddress config.windowSize with
  | .error f => { result := .error f }
  | .ok (.error e) => { result := .ok (.error e) }
  | .ok (.ok window) =>
    match config.clock with
    | none => { result := .ok (.ok ⟨window, none⟩), log := [window.mappedEntry] }
    | some bit =>
      match RegisterClock.map forClock bit with
      | .error f => { result := .error f, log := [window.mappedEntry] }
      | .ok (.error e) => { result := .ok (.error e), log := [window.mappedEntry] }
      | .ok (.ok clock) =>
        { result := .ok (.ok ⟨window, some clock⟩),
          log := [window.mappedEntry, clock.window.mappedEntry] }

def gate (c : MappedController) : Gate Memory :=
  match c.clock with
  | none => .alwaysOn Memory
  | some clock => clock.gate

def hardware (c : MappedController) : Hardware Memory := ⟨c.window.bus, c.gate⟩

end MappedController

end FuseBank
