import FuseBank.OpenFile

/-!
Calls on a device and on the files opened on it, as data. A session keeps the offsets of the open
files; `Session.perform` turns a call into the routine that serves it.
-/

namespace FuseBank

inductive FileCall where
  | tell
  | seek (target : BitVec 64)
  | read (buffer : List Byte)
  | write (data : List Byte)
  | control (request : Word) (argument : List Byte)

/-- A call on the device. File numbers wrap around the open files; where none is open, a call
on a file opens one first. -/
inductive Call where
  | programmingEnabled
  | readShadow (addr : Word)
  | readBuffer (addr : Word) (buffer : List Byte)
  | readPhysical (index mode : Word)
  | programBit (word bit : Word) (row : Row)
  | writeWord (word value : Word)
  | write (addr value : Word)
  | openFile
  | onFile (file : Nat) (call : FileCall)

inductive Answer where
  | nothing
  | flag (value : Bool)
  | number (value : Nat)
  | report (value : WriteReport)

structure Response where
  result : Except DeviceError Answer
  buffer : Option (List Byte) := none
  offset : Option Nat := none

structure Session where
  device : Device
  files : List OpenFile := []

namespace Session

/-- The session in which a call finds the file that it needs. -/
def prepared (s : Session) : Call → Session
  | .onFile _ _ => if s.files.isEmpty then { s with files := [{}] } else s
  | _ => s

private def respond {α : Type} (s : Session) (answer : α → Answer) (op : Operation α) :
    Routine (Response × Session) := do
  let outcome ← op.run
  return ({ result := outcome.map answer }, s)

def performOnFile (s : Session) (number : Nat) (call : FileCall) : Routine (Response × Session) := do
  let index := number % s.files.length
  let file := s.files.getD index {}
  let moved (f : OpenFile) : Session := { s with files := s.files.set index f }
  let transferred (t : Transfer) (answer : Nat → Answer) (shown : Bool) : Response × Session :=
    ({ result := t.result.map answer, buffer := if shown then some t.buffer else none,
       offset := some t.file.offset }, moved t.file)
  match call with
  | .tell => return ({ result := .ok .nothing, offset := some file.offset }, s)
  | .seek target => return ({ result := .ok .nothing, offset := some target.toNat }, moved ⟨target⟩)
  | .read buffer => return transferred (← file.read buffer) .number true
  | .write data => return transferred (← file.write s.device data) .number false
  | .control request argument =>
    return transferred (← file.control s.device request argument) (fun _ => .nothing) true

def perform (s : Session) (call : Call) : Routine (Response × Session) :=
  let s := s.prepared call
  match call with
  | .programmingEnabled =>
    return ({ result := .ok (.flag s.device.programmingEnabled) }, s)
  | .readShadow addr => s.respond (fun w => .number w.toNat) (Device.readShadow addr)
  | .readBuffer addr buffer => do
    let (outcome, buffer) ← Device.readBuffer addr buffer
    return ({ result := outcome.map .number, buffer := some buffer }, s)
  | .readPhysical index mode =>
    s.respond (fun w => .number w.toNat) do s.device.readPhysical index (← ReadMode.ofWord mode)
  | .programBit word bit row => s.respond (fun _ => .nothing) (s.device.programBit word bit row)
  | .writeWord word value => s.respond .report (s.device.writeWord word value)
  | .write addr value => s.respond .report (s.device.write addr value)
  | .openFile =>
    return ({ result := .ok (.number s.files.length) }, { s with files := s.files ++ [{}] })
  | .onFile number call => s.performOnFile number call

end Session

end FuseBank
