/-!
Register words, their bits in ascending order, and their little-endian byte layout.
`ofBytes_toBytes` and `toBytes_ofBytes` say that the layout loses nothing in either direction.
-/

namespace FuseBank

abbrev Word := BitVec 32
abbrev Byte := BitVec 8

namespace Word

def bits (w : Word) : List Nat := (List.range 32).filter fun i => w.getLsbD i

theorem mem_bits (w : Word) (i : Nat) : i ∈ w.bits ↔ w.getLsbD i = true := by
  simp only [bits, List.mem_filter, List.mem_range, and_iff_right_iff_imp]
  intro h
  exact BitVec.lt_of_getLsbD h

/-- Every bit of `need` is set in `w`. -/
def Covers (w need : Word) : Prop := need &&& w = need

instance (w need : Word) : Decidable (w.Covers need) := inferInstanceAs (Decidable (_ = _))

def byteAt (w : Word) (i : Nat) : Byte := w.extractLsb' (8 * i) 8

def toBytes (w : Word) : List Byte := [w.byteAt 0, w.byteAt 1, w.byteAt 2, w.byteAt 3]

theorem toBytes_length (w : Word) : w.toBytes.length = 4 := rfl

def ofBytes (b0 b1 b2 b3 : Byte) : Word := b3 ++ b2 ++ b1 ++ b0

theorem ofBytes_toBytes (w : Word) :
    ofBytes (w.byteAt 0) (w.byteAt 1) (w.byteAt 2) (w.byteAt 3) = w := by
  apply BitVec.eq_of_getLsbD_eq
  intro i hi
  simp only [ofBytes, byteAt, BitVec.getLsbD_append, BitVec.getLsbD_extractLsb']
  by_cases h0 : i < 8
  · simp [h0]
  by_cases h1 : i - 8 < 8
  · have position : 8 + (i - 8) = i := by omega
    simp [h0, h1, position]
  by_cases h2 : i - 8 - 8 < 8
  · have position : 16 + (i - 8 - 8) = i := by omega
    simp [h0, h1, h2, position]
  · have position : 24 + (i - 8 - 8 - 8) = i := by omega
    have h3 : i - 8 - 8 - 8 < 8 := by omega
    simp [h0, h1, h2, h3, position]

theorem toBytes_ofBytes (b0 b1 b2 b3 : Byte) : (ofBytes b0 b1 b2 b3).toBytes = [b0, b1, b2, b3] := by
  simp only [toBytes, byteAt, ofBytes, List.cons.injEq, and_true]
  refine ⟨?_, ?_, ?_, ?_⟩ <;> ext i hi <;>
    simp only [BitVec.getElem_extractLsb', BitVec.getLsbD_append]
  · simp [hi]
  · simp [hi]
  · have past : ¬ 8 * 2 + i - 8 < 8 := by omega
    have rest : 8 * 2 + i - 8 - 8 = i := by omega
    rw [if_neg (by omega), if_neg past, rest, if_pos hi, BitVec.getLsbD_eq_getElem hi]
  · have past : ¬ 8 * 3 + i - 8 - 8 < 8 := by omega
    have rest : 8 * 3 + i - 8 - 8 - 8 = i := by omega
    rw [if_neg (by omega), if_neg (by omega), if_neg past, rest, BitVec.getLsbD_eq_getElem hi]

/-- Little-endian words of a byte string; at most three bytes that fill no word are left out. -/
def listOfBytes : List Byte → List Word
  | b0 :: b1 :: b2 :: b3 :: rest => ofBytes b0 b1 b2 b3 :: listOfBytes rest
  | _ => []

theorem listOfBytes_flatMap_toBytes (ws : List Word) : listOfBytes (ws.flatMap toBytes) = ws := by
  induction ws with
  | nil => rfl
  | cons w ws ih =>
    simp only [List.flatMap_cons, toBytes, List.cons_append, List.nil_append, listOfBytes]
    rw [ofBytes_toBytes]
    exact congrArg (w :: ·) ih

end Word

end FuseBank
