import FuseBank.OpenFile

/-!
The commands of the tool on a device that is in use: the routine of each, and the lines that it
prints. A command that fails prints nothing.
-/

namespace FuseBank.Cli

inductive Command where
  | read (addr : Word)
  | dump
  | write (addr value : Word)
  | readRow (row : Word) (margin : Bool)
deriving DecidableEq

namespace Command

inductive Failure where
  | device (error : DeviceError)
  | rowOutOfRange (row : Word)
deriving DecidableEq

def Failure.message : Failure → String
  | device error => error.message
  | rowOutOfRange row => s!"physical row {row.toNat} out of range (0..{fuseRows})"

def wordsPerLine : Nat := 4

def bytesPerLine : Nat := 4 * wordsPerLine

def dumpLine (line : Nat) (words : List Word) : String :=
  Text.Hex.pair (line * bytesPerLine) ++ ":" ++ String.join (words.map fun w => " " ++ Text.Hex.word w)

/-- The whole words of the bytes, four on each line after the byte offset of the first. The lines are
numbered from `line` on. -/
def dumpLines (line : Nat) (bytes : List Byte) : List String :=
  if bytes.isEmpty then []
  else dumpLine line (Word.listOfBytes (bytes.take bytesPerLine)) ::
    dumpLines (line + 1) (bytes.drop bytesPerLine)
termination_by bytes.length
decreasing_by
  have some_bytes : bytes.length ≠ 0 := by simpa using ‹¬bytes.isEmpty = true›
  simp only [List.length_drop, bytesPerLine, wordsPerLine]
  omega

def rowLine (row : Row) (r : RowReport) : String :=
  let before := Text.Hex.markedWord r.before
  let pulsed := Text.Hex.markedWord r.programmed
  s!"row {row.name}: before {before} pulsed {pulsed} margin {Text.Hex.markedWord r.margin}"

def writtenLine (addr value : Word) (r : WriteReport) : String :=
  let verified := s!"{r.rows.length - r.errorCount} of {r.rows.length} rows verified"
  s!"wrote {Text.Hex.markedWord value} to 0x{Text.Hex.pair addr.toNat} ({verified})"

/-- Reads on after the first `filled` bytes, until the buffer is full or nothing more comes. -/
def fill (file : OpenFile) (buffer : List Byte) (filled : Nat) :
    Routine (Except DeviceError (List Byte)) :=
  if filled < fuseBytes then do
    let t ← file.read (buffer.drop filled)
    match t.result with
    | .error e => return .error e
    | .ok count =>
      if count = 0 then return .ok (buffer.take filled)
      else fill t.file (buffer.take filled ++ t.buffer) (filled + count)
  else return .ok (buffer.take filled)
termination_by fuseBytes - filled

private def failed (e : DeviceError) : Routine (Except Failure (List String)) :=
  return .error (.device e)

def perform (d : Device) : Command → Routine (Except Failure (List String))
  | read addr => do
    let file : OpenFile := {}
    let t ← file.control d readRequest (AddressedWord.encode ⟨addr, 0⟩)
    match t.result with
    | .error e => failed e
    | .ok _ =>
      let value := (AddressedWord.decode? t.buffer).elim 0 (·.1.value)
      return .ok [Text.Hex.markedWord value]
  | dump => do
    match ← fill {} (List.replicate fuseBytes 0) 0 with
    | .error e => failed e
    | .ok bytes => return .ok (dumpLines 0 bytes)
  | write addr value => do
    match ← (d.write addr value).run with
    | .error e => failed e
    | .ok report =>
      report.rows.forM fun (row, r) => Routine.note .info .toolCommand (rowLine row r)
      return .ok [writtenLine addr value report]
  | readRow row margin => do
    if row.toNat ≥ fuseRows then return .error (.rowOutOfRange row)
    match ← (d.readPhysical row (if margin then .margin else .array)).run with
    | .error e => failed e
    | .ok value => return .ok [Text.Hex.markedWord value]

end Command

end FuseBank.Cli
