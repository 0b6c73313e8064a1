/-!
Log lines: a level, the part of the program that speaks, and a message. A line is shown when
its level is at least as severe as the threshold.
-/

namespace FuseBank.Log

inductive Level where
  | error
  | warn
  | info
  | debug
  | trace
deriving DecidableEq

namespace Level

def rank : Level → Nat
  | error => 1
  | warn => 2
  | info => 3
  | debug => 4
  | trace => 5

def name : Level → String
  | error => "ERROR"
  | warn => "WARN"
  | info => "INFO"
  | debug => "DEBUG"
  | trace => "TRACE"

end Level

inductive Source where
  | poll
  | clockScope
  | rowRead
  | wordWrite
  | device
  | charDevice
  | mapping
  | fuseMacro
  | macroClock
  | tool
  | toolCommand
deriving DecidableEq

def Source.name : Source → String
  | poll => "efuse_driver::handshake"
  | clockScope => "efuse_driver::controller"
  | rowRead => "efuse_driver::phys"
  | wordWrite => "efuse_driver::writer"
  | device => "efuse_driver::device"
  | charDevice => "efuse_driver::transport"
  | mapping => "efuse_driver::mmio"
  | fuseMacro => "efuse_emulator_periph::efuse"
  | macroClock => "efuse_emulator_periph::clock"
  | tool => "efusectl"
  | toolCommand => "efusectl::commands"

structure Entry where
  level : Level
  source : Source
  message : String
deriving DecidableEq

namespace Entry

def shownAt (threshold : Level) (e : Entry) : Bool := e.level.rank ≤ threshold.rank

def render (e : Entry) : String := s!"{e.level.name} [{e.source.name}] {e.message}"

end Entry

end FuseBank.Log
