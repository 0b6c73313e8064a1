import FuseBank.Word

/-!
The register map of the fuse controller: byte offsets from the controller base, the bits of the
registers, and the sizes of the fuse array behind them.
-/

namespace FuseBank

def defaultBase : BitVec 64 := 0x03050000

def defaultWindowSize : BitVec 64 := 0x1000

def fuseBytes : Nat := 256

def fuseWords : Nat := 64

/-- Physical rows of the array; two of them back each word. -/
def fuseRows : Nat := 128

theorem fuseBytes_eq : fuseBytes = 4 * fuseWords := rfl

namespace Offset

def mode : Nat := 0x0
def address : Nat := 0x4
def readData : Nat := 0xc
def status : Nat := 0x10
def oneWay : Nat := 0x14
def shadow : Nat := 0x100
def shadowEnd : Nat := shadow + fuseBytes

end Offset

namespace Mode

-- a command is carried out when it is written with `execute`
def arrayRead : Word := 0x01
def marginRead : Word := 0x02
def program : Word := 0x04
def powerDown : Word := 0x08
def execute : Word := 0x10
def refresh : Word := 0x20

def refreshCommand : Word := 0x30

end Mode

namespace Status

-- values of the busy bit
def idle : Word := 0
def busy : Word := 1

end Status

end FuseBank
