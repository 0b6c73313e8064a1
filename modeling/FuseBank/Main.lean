import FuseBank.Cli.Tool

/-!
The tool on the real system. Files are accessed as they are; physical memory cannot be mapped from
here, so only emulated macros can be used.
-/

namespace FuseBank

private def errnoOf? : IO.Error → Option Nat
  | .noFileOrDirectory _ code _ | .permissionDenied _ code _ | .resourceExhausted _ code _
  | .inappropriateType _ code _ | .alreadyExists _ code _ | .invalidArgument _ code _ =>
    some code.toNat
  | .hardwareFault code _ | .resourceBusy code _ | .unsupportedOperation code _
  | .unsatisfiedConstraints code _ | .otherError code _ => some code.toNat
  | _ => none

private def systemError (e : IO.Error) : SystemError :=
  match errnoOf? e with
  | some code => .code code
  | none => .invalidData (toString e)

private def reported {α : Type} (action : IO α) : IO (Except SystemError α) := do
  match ← action.toBaseIO with
  | .ok a => return .ok a
  | .error e => return .error (systemError e)

instance : Host IO where
  fileExists path := do
    match ← (IO.FS.realPath path).toBaseIO with
    | .ok _ => return true
    | .error _ => return false
  readFile path := reported do
    let content ← IO.FS.readBinFile path
    return content.toList.map fun b => BitVec.ofNat 8 b.toNat
  writeFile path content := reported do
    IO.FS.writeBinFile path (ByteArray.mk (content.map fun b => b.toNat.toUInt8).toArray)
  mapping := return .refusing Errno.notImplemented
  memory := return {}
  closeMemory _ := return

private def usage : String := "\n".intercalate [
  "Usage: efusectl [--config PATH] [--emulate PATH] [--enable-programming] [-v]... COMMAND",
  "Commands: read ADDR, dump, write ADDR VALUE, phys-read [--margin] ROW"]

private def printLine (threshold : Log.Level) : Cli.Line → IO Unit
  | .text line => IO.println line
  | .log entry => if entry.shownAt threshold then IO.println entry.render else return

end FuseBank

open FuseBank

def main (arguments : List String) : IO UInt32 := do
  match Cli.parse arguments with
  | .error .rejected => IO.eprintln usage; return 2
  | .error .help => IO.println usage; return 0
  | .error .version => IO.println Cli.versionLine; return 0
  | .ok invocation =>
    let outcome ← (Cli.run invocation : IO Cli.Outcome)
    outcome.lines.forM (printLine (Cli.thresholdOf invocation.verbosity))
    IO.eprint outcome.errorText
    return outcome.exitStatus.toUInt32
