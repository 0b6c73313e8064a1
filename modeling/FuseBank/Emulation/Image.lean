import FuseBank.Emulation.FuseMacro
import FuseBank.Host

/-!
The image file of an emulated macro: its rows as little-endian words, and nothing else.
-/

namespace FuseBank.FuseMacro

def imageBytes : Nat := 512

def image (m : FuseMacro) : List Byte := m.rows.toList.flatMap Word.toBytes

/-- The macro after reset with the rows of an image. Only an image of the exact size is taken;
`name` is the file's name in the refusal. -/
def ofImage (name : String) (bytes : List Byte) : Except SystemError FuseMacro :=
  if bytes.length ≠ imageBytes then
    .error (.invalidData s!"{name}: expected {imageBytes} bytes, found {bytes.length}")
  else
    let words := Word.listOfBytes bytes
    .ok (ofRows (Vector.ofFn fun i => words.getD i.val 0))

section

variable {m : Type → Type} [Monad m] [Host m]

def load (path : String) : m (Except SystemError FuseMacro) := do
  match ← Host.readFile path with
  | .error e => return .error e
  | .ok bytes => return ofImage path bytes

def save (fuses : FuseMacro) (path : String) : m (Except SystemError Unit) :=
  Host.writeFile path fuses.image

end

end FuseBank.FuseMacro
