import FuseBank.Hardware

/-!
A scripted register file. Reads of a register follow a script while it lasts and show the
register after that; the clock fails on chosen requests.
-/

namespace FuseBank

structure RegisterFile where
  registers : List (Nat × Word) := []
  scripts : List (Nat × List Word) := []
  readOnly : List Nat := []
  /-- Numbers, from zero, of the requests to enable the clock that fail. -/
  failingEnables : List Nat := []
  enables : Nat := 0
  disables : Nat := 0

namespace RegisterFile

private def insert {α : Type} (key : Nat) (value : α) : List (Nat × α) → List (Nat × α)
  | [] => [(key, value)]
  | (k, v) :: rest =>
    if key < k then (key, value) :: (k, v) :: rest
    else if key = k then (key, value) :: rest
    else (k, v) :: insert key value rest

def set (f : RegisterFile) (offset : Nat) (value : Word) : RegisterFile :=
  { f with registers := insert offset value f.registers }

def script (f : RegisterFile) (offset : Nat) : List Word := (f.scripts.lookup offset).getD []

def extend (f : RegisterFile) (offset : Nat) (values : List Word) : RegisterFile :=
  { f with scripts := insert offset (f.script offset ++ values) f.scripts }

def remaining (f : RegisterFile) : List (Nat × List Word) := f.scripts.filter fun s => !s.2.isEmpty

def readRegister (offset : Nat) (f : RegisterFile) : Reply RegisterFile Word :=
  match f.script offset with
  | value :: rest =>
    { result := .ok value, state := { f with scripts := insert offset rest f.scripts } }
  | [] => { result := .ok ((f.registers.lookup offset).getD 0), state := f }

def writeRegister (offset : Nat) (value : Word) (f : RegisterFile) : Reply RegisterFile Unit :=
  { result := .ok (), state := if offset ∈ f.readOnly then f else f.set offset value }

def enableClock (f : RegisterFile) : Reply RegisterFile (Except DeviceError Unit) :=
  let answer : Except DeviceError Unit :=
    if f.enables ∈ f.failingEnables then .error (.clock s!"scripted failure {f.enables}")
    else .ok ()
  { result := .ok answer, state := { f with enables := f.enables + 1 } }

def disableClock (f : RegisterFile) : Reply RegisterFile Unit :=
  { result := .ok (), state := { f with disables := f.disables + 1 } }

def hardware : Hardware RegisterFile := ⟨⟨readRegister, writeRegister⟩, ⟨enableClock, disableClock⟩⟩

end RegisterFile

end FuseBank
