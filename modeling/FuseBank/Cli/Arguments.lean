import FuseBank.Cli.Command

/-!
Arguments of the tool. Options may stand before the command and after it, on two levels of their
own: within a level an option may be given once only (verbosity counts), and what is given after
the command wins over what is given before it. Arguments are read one by one; the first fault, or
the first request for help or the version, ends the reading.
-/

namespace FuseBank.Cli

inductive Stop where
  | rejected
  | help
  | version
deriving DecidableEq

structure Options where
  config : Option String := none
  emulate : Option String := none
  enableProgramming : Bool := false
  verbosity : Option Nat := none
deriving DecidableEq

structure Invocation where
  command : Command
  config : Option String := none
  emulate : Option String := none
  enableProgramming : Bool := false
  verbosity : Nat := 0
deriving DecidableEq

inductive CommandName where
  | read
  | dump
  | write
  | readRow
deriving DecidableEq

namespace CommandName

def ofString? : String → Option CommandName
  | "read" => some read
  | "dump" => some dump
  | "write" => some write
  | "phys-read" => some readRow
  | _ => none

def operandCount : CommandName → Nat
  | read => 1
  | dump => 0
  | write => 2
  | readRow => 1

end CommandName

inductive PathOption where
  | config
  | emulate
deriving DecidableEq

def PathOption.ofString? : String → Option PathOption
  | "config" => some config
  | "emulate" => some emulate
  | _ => none

structure Reading where
  before : Options := {}
  command : Option CommandName := none
  after : Options := {}
  operands : List Word := []
  margin : Bool := false
  pending : Option PathOption := none
  operandsOnly : Bool := false
  topics : Option (List String) := none

/-- A number: hexadecimal after `0x`, else decimal; a plus sign may stand before the digits. -/
def number? (text : String) : Option Word :=
  let (base, digits) := match text.toList with
    | '0' :: 'x' :: rest => (16, rest)
    | '0' :: 'X' :: rest => (16, rest)
    | cs => (10, cs)
  let digits := match digits with
    | '+' :: rest => rest
    | cs => cs
  let value := digits.foldlM (fun n c =>
    match Text.Hex.digitValue? c with
    | some d => if d < base then some (base * n + d) else none
    | none => none) 0
  match value with
  | some n => if digits.isEmpty ∨ n ≥ 0x100000000 then none else some (BitVec.ofNat 32 n)
  | none => none

namespace Reading

def inCommand (r : Reading) : Bool := r.command.isSome

def options (r : Reading) : Options := if r.inCommand then r.after else r.before

def setOptions (r : Reading) (o : Options) : Reading :=
  if r.inCommand then { r with after := o } else { r with before := o }

/-- Gives an option its path, once and not empty. -/
def setPath (r : Reading) (option : PathOption) (path : String) : Except Stop Reading :=
  let o := r.options
  let given := match option with
    | .config => o.config
    | .emulate => o.emulate
  if path.isEmpty ∨ given.isSome then .error .rejected
  else .ok (r.setOptions (match option with
    | .config => { o with config := some path }
    | .emulate => { o with emulate := some path }))

def countVerbosity (r : Reading) : Reading :=
  let o := r.options
  r.setOptions { o with verbosity := some (o.verbosity.getD 0 + 1) }

def setFlag (r : Reading) (name : String) : Except Stop Reading :=
  if name = "enable-programming" then
    if r.options.enableProgramming then .error .rejected
    else .ok (r.setOptions { r.options with enableProgramming := true })
  else if name = "verbose" then .ok r.countVerbosity
  else if name = "margin" ∧ r.command = some .readRow then
    if r.margin then .error .rejected else .ok { r with margin := true }
  else if name = "help" then .error .help
  else if name = "version" ∧ !r.inCommand then .error .version
  else .error .rejected

def long (r : Reading) (name : String) : Except Stop Reading :=
  match name.splitOn "=" with
  | [name] =>
    match PathOption.ofString? name with
    | some option => .ok { r with pending := some option }
    | none => r.setFlag name
  | name :: value =>
    match PathOption.ofString? name with
    | some option => r.setPath option (String.intercalate "=" value)
    | none => .error .rejected
  | [] => .error .rejected

def short (r : Reading) (letter : Char) : Except Stop Reading :=
  if letter = 'v' then .ok r.countVerbosity
  else if letter = 'h' then .error .help
  else if letter = 'V' ∧ !r.inCommand then .error .version
  else .error .rejected

def word (r : Reading) (text : String) : Except Stop Reading :=
  match r.command with
  | none =>
    if r.operandsOnly then .error .rejected
    else if text = "help" then .ok { r with topics := some [] }
    else match CommandName.ofString? text with
      | some name => .ok { r with command := some name }
      | none => .error .rejected
  | some name =>
    if r.operands.length ≥ name.operandCount then .error .rejected
    else match number? text with
      | some n => .ok { r with operands := r.operands ++ [n] }
      | none => .error .rejected

def topic (r : Reading) (text : String) : List String → Except Stop Reading
  | [] =>
    if text = "help" ∨ (CommandName.ofString? text).isSome then .ok { r with topics := some [text] }
    else .error .rejected
  | _ :: _ => .error .rejected

def step (r : Reading) (argument : String) : Except Stop Reading :=
  if let some topics := r.topics then r.topic argument topics
  else if r.operandsOnly then r.word argument
  else match r.pending, argument.toList with
    | some _, '-' :: _ :: _ => .error .rejected
    | some option, _ => { r with pending := none }.setPath option argument
    | none, ['-', '-'] => .ok { r with operandsOnly := true }
    | none, '-' :: '-' :: name => r.long (String.ofList name)
    | none, '-' :: letter :: letters => (letter :: letters).foldlM short r
    | none, _ => r.word argument

def command? (r : Reading) : Option Command :=
  match r.command, r.operands with
  | some .read, [addr] => some (.read addr)
  | some .dump, [] => some .dump
  | some .write, [addr, value] => some (.write addr value)
  | some .readRow, [row] => some (.readRow row r.margin)
  | _, _ => none

def finish (r : Reading) : Except Stop Invocation :=
  if r.topics.isSome then .error .help
  else match r.pending, r.command? with
  | none, some command => .ok {
      command
      config := r.after.config <|> r.before.config
      emulate := r.after.emulate <|> r.before.emulate
      enableProgramming := r.after.enableProgramming || r.before.enableProgramming
      verbosity := (r.after.verbosity <|> r.before.verbosity).getD 0 }
  | _, _ => .error .rejected

end Reading

def parse (arguments : List String) : Except Stop Invocation := do
  let reading ← arguments.foldlM Reading.step {}
  reading.finish

end FuseBank.Cli
