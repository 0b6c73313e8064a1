import FuseBank.Cli.Arguments
import FuseBank.Config.Decode
import FuseBank.Emulation.Image
import FuseBank.Host

/-!
The tool: it reads the configuration, takes the hardware or an emulated macro into use, serves
one command, and powers the macro down. An emulated macro is saved afterwards, whatever became of
the command, and a failure to save comes before the command's own.
-/

namespace FuseBank.Cli

inductive Line where
  | text (line : String)
  | log (entry : Log.Entry)
deriving DecidableEq

namespace Line

def text? : Line → Option String
  | text line => some line
  | log _ => none

def entry? : Line → Option Log.Entry
  | text _ => none
  | log entry => some entry

def split (text : String) : List String :=
  (((text ++ "\n").replace "\r\n" "\n").splitOn "\n").dropLast

/-- What is seen of a line at a threshold. A log message with line ends in it, such as a file name
may bring along, goes on in lines without level and source. -/
def shown (threshold : Log.Level) : Line → List Line
  | text line => [text line]
  | log entry =>
    if entry.shownAt threshold then
      match split entry.message with
      | first :: rest => log { entry with message := first } :: rest.map text
      | [] => [log entry]
    else []

end Line

inductive Failure where
  | config (error : Config.LoadError)
  | command (failure : Command.Failure)
  | file (error : SystemError)
  | fault (fault : Fault)
deriving DecidableEq

namespace Failure

def message : Failure → String
  | config e => e.message
  | command f => f.message
  | file e => e.message
  | fault f => f.message?.getD "arithmetic overflow"

def cause? : Failure → Option SystemError
  | config e => e.cause?
  | command (.device e) => e.cause?
  | _ => none

def report (f : Failure) : String :=
  let cause := f.cause?.elim "" fun e => ": " ++ e.message
  s!"efusectl: {f.message}{cause}\n"

/-- Failures of the device end the tool with their error number. -/
def exitStatus : Failure → Nat
  | command (.device e) => e.errno
  | fault _ => 101
  | _ => 1

end Failure

structure Outcome where
  lines : List Line := []
  result : Except Failure Unit := .ok ()

namespace Outcome

def failed (f : Failure) (lines : List Line := []) : Outcome := ⟨lines, .error f⟩

def after (earlier : List Line) (o : Outcome) : Outcome := { o with lines := earlier ++ o.lines }

def texts (o : Outcome) : List String := o.lines.filterMap Line.text?

def output (o : Outcome) (threshold : Log.Level) : List Line := o.lines.flatMap (Line.shown threshold)

def exitStatus (o : Outcome) : Nat :=
  match o.result with
  | .ok () => 0
  | .error f => f.exitStatus

def errorText (o : Outcome) : String :=
  match o.result with
  | .ok () => ""
  | .error f => f.report

end Outcome

def thresholdOf (verbosity : Nat) : Log.Level :=
  match verbosity with
  | 0 => .warn
  | 1 => .debug
  | _ => .trace

private def logged {σ α : Type} (r : Run σ α) : List Line := r.logLines.map .log

/-- Takes the device into use, serves a command, and powers the macro down. -/
def serve {σ : Type} (hw : Hardware σ) (config : Config) (command : Command) (s : σ) : Outcome × σ :=
  let serving := (do command.perform (← Device.start config)).run hw s
  match serving.result with
  | .error f => (.failed (.fault f) (logged serving), serving.state)
  | .ok answer =>
    let (texts, result) : List String × Except Failure Unit := match answer with
      | .ok texts => (texts, .ok ())
      | .error f => ([], .error (.command f))
    let closing := Device.shutdown.run hw serving.state
    let lines := logged serving ++ texts.map .text ++ logged closing
    match closing.result with
    | .error f => (.failed (.fault f) lines, closing.state)
    | .ok () => (⟨lines, result⟩, closing.state)

section

variable {m : Type → Type} [Monad m] [Host m]

def openMacro (path : String) : m (Except SystemError (FuseMacro × List Line)) := do
  if ← Host.fileExists path then
    return (← FuseMacro.load path).map fun fuses => (fuses, [])
  else
    return .ok (.blank, [.log ⟨.info, .tool, s!"Creating blank eFUSE image {path}"⟩])

def runEmulated (path : String) (config : Config) (command : Command) : m Outcome := do
  match ← openMacro path with
  | .error e => return .failed (.file e)
  | .ok (fuses, lines) =>
    let (outcome, fuses) := serve FuseMacro.hardware config command fuses.attachClock
    let outcome := outcome.after lines
    if let .error (.fault _) := outcome.result then return outcome
    match ← fuses.save path with
    | .error e => return { outcome with result := .error (.file e) }
    | .ok () => return outcome

def runHardware (config : Config) (command : Command) : m Outcome := do
  let mapping := MappedController.map (← Host.mapping) (← Host.mapping) config
  let lines := mapping.log.map Line.log
  match mapping.result with
  | .error f => return .failed (.fault f) lines
  | .ok (.error e) => return .failed (.command (.device e)) lines
  | .ok (.ok controller) =>
    let base := Text.Hex.marked config.baseAddress.toNat
    let lines := lines ++ [.log ⟨.info, .tool, s!"Mapped eFUSE controller at {base}"⟩]
    let (outcome, memory) := serve controller.hardware config command (← Host.memory)
    Host.closeMemory memory
    return outcome.after lines

def loadConfig (path : Option String) : m (Except Config.LoadError Config) :=
  match path with
  | none => return .ok {}
  | some path => Config.load path

def run (i : Invocation) : m Outcome := do
  match ← loadConfig i.config with
  | .error e => return .failed (.config e)
  | .ok config =>
    let config := if i.enableProgramming then config.withProgramming true else config
    match config.check with
    | some flaw => return .failed (.config (.invalid flaw))
    | none =>
      match i.emulate with
      | some path => runEmulated path config i.command
      | none => runHardware config i.command

end

def versionLine : String := "efusectl 0.1.0"

end FuseBank.Cli
