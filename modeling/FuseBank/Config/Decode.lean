import FuseBank.Config
import FuseBank.Host
import FuseBank.Toml.Document

/-!
Configurations from TOML. A field that the document does not give has its default; a field that
it does not know, or whose value has the wrong type or range, makes the whole document
malformed. What can be decoded is then checked against the rules of `Config.Flaw`.
-/

namespace FuseBank.Config

inductive LoadError where
  | unreadable (path : String) (source : SystemError)
  | malformed
  | invalid (flaw : Flaw)
deriving DecidableEq

namespace LoadError

def message : LoadError → String
  | unreadable path source => s!"failed to read {path}: {source.message}"
  | malformed => "failed to parse configuration: malformed document"
  | invalid flaw => flaw.message

def cause? : LoadError → Option SystemError
  | unreadable _ source => some source
  | _ => none

end LoadError

open Toml (Value Entries)

def unsigned? (width : Nat) : Value → Option (BitVec width)
  | .integer (.ofNat n) => if n < Nat.pow 2 width then some (BitVec.ofNat width n) else none
  | _ => none

def boolean? : Value → Option Bool
  | .boolean b => some b
  | _ => none

/-- A clock bit is a table of exactly its two fields, or an array that starts with them. -/
def clockBit? : Value → Option ClockBit
  | .table _ entries => do
    if entries.any fun e => e.1 ∉ ["register", "bit"] then none
    let register ← entries.lookup "register" >>= unsigned? 64
    let bit ← entries.lookup "bit" >>= unsigned? 8
    some ⟨register, bit⟩
  | .array (register :: bit :: _) => do some ⟨← unsigned? 64 register, ← unsigned? 8 bit⟩
  | _ => none

def fieldNames : List String :=
  ["base_address", "window_size", "programming_enabled", "ready_poll_limit", "clock"]

def field? {α : Type} (entries : Entries) (name : String) (read : Value → Option α) (default : α) :
    Option α :=
  match entries.lookup name with
  | none => some default
  | some v => read v

def decode? (entries : Entries) : Option Config := do
  if entries.any fun e => e.1 ∉ fieldNames then none
  let defaults : Config := {}
  some {
    baseAddress := ← field? entries "base_address" (unsigned? 64) defaults.baseAddress
    windowSize := ← field? entries "window_size" (unsigned? 64) defaults.windowSize
    programmingEnabled :=
      ← field? entries "programming_enabled" boolean? defaults.programmingEnabled
    pollLimit := ← field? entries "ready_poll_limit" (unsigned? 32) defaults.pollLimit
    clock := ← field? entries "clock" (fun v => (clockBit? v).map some) defaults.clock }

def ofEntries (entries : Entries) : Except LoadError Config :=
  match decode? entries with
  | none => .error .malformed
  | some config =>
    match config.check with
    | some flaw => .error (.invalid flaw)
    | none => .ok config

def ofText (text : String) : Except LoadError Config :=
  match Toml.Document.parse text with
  | none => .error .malformed
  | some entries => ofEntries entries

def ofFile (path : String) (content : Except SystemError (List Byte)) : Except LoadError Config :=
  match content with
  | .error source => .error (.unreadable path source)
  | .ok bytes =>
    match String.fromUTF8? (ByteArray.mk (bytes.map fun b => b.toNat.toUInt8).toArray) with
    | none =>
      .error (.unreadable path (.invalidData "stream did not contain valid UTF-8"))
    | some text => ofText text

def load {m : Type → Type} [Monad m] [Host m] (path : String) : m (Except LoadError Config) := do
  return ofFile path (← Host.readFile path)

end FuseBank.Config
