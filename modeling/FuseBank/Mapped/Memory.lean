import FuseBank.Word
import Std.Data.HashMap

/-!
Plain byte-addressed memory; bytes that were never written are zero. A word occupies four bytes,
the least significant first. `readWord_writeWord`, `readWord_writeWord_of_disjoint` and
`readByte_writeWord_of_outside` are the facts about reading after a write.
-/

namespace FuseBank

structure Memory where
  bytes : Std.HashMap Nat Byte := {}

namespace Memory

def readByte (m : Memory) (addr : Nat) : Byte := m.bytes.getD addr 0
def writeByte (m : Memory) (addr : Nat) (b : Byte) : Memory := ⟨m.bytes.insert addr b⟩

theorem readByte_writeByte (m : Memory) (a x : Nat) (b : Byte) :
    (m.writeByte a b).readByte x = if a = x then b else m.readByte x := by
  simp [readByte, writeByte, Std.HashMap.getD_insert]

def readWord (m : Memory) (addr : Nat) : Word :=
  Word.ofBytes (m.readByte addr) (m.readByte (addr + 1)) (m.readByte (addr + 2))
    (m.readByte (addr + 3))

def writeWord (m : Memory) (addr : Nat) (w : Word) : Memory :=
  (((m.writeByte addr (w.byteAt 0)).writeByte (addr + 1) (w.byteAt 1)).writeByte (addr + 2)
    (w.byteAt 2)).writeByte (addr + 3) (w.byteAt 3)

theorem readWord_writeWord (m : Memory) (a : Nat) (w : Word) : (m.writeWord a w).readWord a = w := by
  simp [readWord, writeWord, readByte_writeByte, Word.ofBytes_toBytes]

theorem readWord_writeWord_of_disjoint (m : Memory) {a b : Nat} (w : Word)
    (h : a + 4 ≤ b ∨ b + 4 ≤ a) : (m.writeWord a w).readWord b = m.readWord b := by
  simp only [readWord, writeWord, readByte_writeByte]
  grind

theorem readByte_writeWord_of_outside (m : Memory) {a x : Nat} (w : Word) (h : x < a ∨ a + 4 ≤ x) :
    (m.writeWord a w).readByte x = m.readByte x := by
  simp only [writeWord, readByte_writeByte]
  rw [if_neg (by omega), if_neg (by omega), if_neg (by omega), if_neg (by omega)]

end Memory

end FuseBank
