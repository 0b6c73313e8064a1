import FuseBank.Registers

/-!
Addresses of the array. A word of the fuse space is kept in two physical rows; the address
register names one bit of one row as `bit` (five bits), `word` (six bits) and `row` (one bit),
highest first. `fields_compose` says that these fields are read back from a composed address.
-/

namespace FuseBank

inductive Row where
  | low
  | high
deriving DecidableEq

namespace Row

def toBit : Row → BitVec 1
  | low => 0
  | high => 1

def ofBit (b : BitVec 1) : Row := if b = 0 then low else high

theorem ofBit_toBit (r : Row) : ofBit r.toBit = r := by cases r <;> rfl

def index : Row → Nat
  | low => 0
  | high => 1

def name : Row → String
  | low => "Low"
  | high => "High"

end Row

structure FuseBit where
  bit : BitVec 5
  word : BitVec 6
  row : Row
deriving DecidableEq

namespace Address

/-- The address of one fuse. Only the low five bits of the bit number and the low six bits of
the word number take part, so a word past 63 names one below it. -/
def compose (word bit : Word) (row : Row) : Word :=
  (bit.setWidth 5 ++ word.setWidth 6 ++ row.toBit).setWidth 32

/-- The row number that array and margin reads expect in the address register. -/
def physicalWord (word : Word) (row : Row) : Word :=
  (word.setWidth 6 ++ row.toBit).setWidth 32

def fields (address : Word) : FuseBit where
  bit := address.extractLsb' 7 5
  word := address.extractLsb' 1 6
  row := Row.ofBit (address.extractLsb' 0 1)

def readRow (address : Word) : Fin 128 := Fin.ofNat 128 address.toNat

end Address

namespace FuseBit

def rowIndex (f : FuseBit) : Fin 128 :=
  ⟨2 * f.word.toNat + f.row.index, by have := f.word.isLt; cases f.row <;> simp [Row.index] <;> omega⟩

def mask (f : FuseBit) : Word := 1#32 <<< f.bit.toNat

end FuseBit

theorem Address.fields_compose (word bit : Word) (row : Row) :
    fields (compose word bit row) = ⟨bit.setWidth 5, word.setWidth 6, row⟩ := by
  simp only [fields, compose, FuseBit.mk.injEq]
  refine ⟨?_, ?_, ?_⟩
  · ext i hi
    simp only [BitVec.getElem_extractLsb', BitVec.getLsbD_setWidth, BitVec.getLsbD_append,
      BitVec.getElem_setWidth]
    grind
  · ext i hi
    simp only [BitVec.getElem_extractLsb', BitVec.getLsbD_setWidth, BitVec.getLsbD_append,
      BitVec.getElem_setWidth]
    grind
  · have h : (BitVec.setWidth 32 (bit.setWidth 5 ++ word.setWidth 6 ++ row.toBit)).extractLsb' 0 1 =
        row.toBit := by
      ext i hi
      simp only [BitVec.getElem_extractLsb', BitVec.getLsbD_setWidth, BitVec.getLsbD_append]
      grind
    rw [h, Row.ofBit_toBit]

end FuseBank
