import FuseBank.Word

/-!
Lowercase hexadecimal text: the shortest form of a number, and the fixed-width forms in which
words and line offsets are printed. `value?_fixed` reads a fixed-width form back.
-/

namespace FuseBank.Text.Hex

def digit (n : Nat) : Char := if n < 10 then Char.ofNat (48 + n) else Char.ofNat (87 + n)

def digitValue? (c : Char) : Option Nat :=
  if '0' ≤ c ∧ c ≤ '9' then some (c.toNat - 48)
  else if 'a' ≤ c ∧ c ≤ 'f' then some (c.toNat - 87)
  else if 'A' ≤ c ∧ c ≤ 'F' then some (c.toNat - 55)
  else none

theorem digitValue?_digit : ∀ n < 16, digitValue? (digit n) = some n := by decide

def fixed : Nat → Nat → List Char
  | 0, _ => []
  | width + 1, n => fixed width (n / 16) ++ [digit (n % 16)]

theorem length_fixed (width n : Nat) : (fixed width n).length = width := by
  induction width generalizing n with
  | zero => rfl
  | succ width ih => simp [fixed, ih]

def value? (cs : List Char) : Option Nat :=
  cs.foldlM (fun acc c => (digitValue? c).map (16 * acc + ·)) 0

theorem value?_fixed (width n : Nat) : value? (fixed width n) = some (n % Nat.pow 16 width) := by
  induction width generalizing n with
  | zero => simp [fixed, value?, Nat.mod_one]
  | succ width ih =>
    have hd := digitValue?_digit (n % 16) (Nat.mod_lt _ (by decide))
    unfold value? at ih ⊢
    simp only [fixed, List.foldlM_append, ih, List.foldlM_cons, List.foldlM_nil, hd]
    simp only [Option.map_some, Option.bind_eq_bind, Option.bind_some, Option.pure_def,
      Option.some.injEq]
    change _ = n % 16 ^ (width + 1)
    rw [Nat.pow_succ', Nat.mod_mul, Nat.add_comm]
    rfl

def shortest (n : Nat) : String := String.ofList (Nat.toDigits 16 n)

def marked (n : Nat) : String := "0x" ++ shortest n

/-- Two digits, or as many as the number needs. -/
def pair (n : Nat) : String :=
  if n < 256 then String.ofList (fixed 2 n) else shortest n

def word (w : Word) : String := String.ofList (fixed 8 w.toNat)

def markedWord (w : Word) : String := "0x" ++ word w

def bytes (bs : List Byte) : String := String.ofList (bs.flatMap fun b => fixed 2 b.toNat)

def bytes? : List Char → Option (List Byte)
  | [] => some []
  | [_] => none
  | hi :: lo :: rest => do
    let h ← digitValue? hi
    let l ← digitValue? lo
    let bs ← bytes? rest
    pure (BitVec.ofNat 8 (16 * h + l) :: bs)

end FuseBank.Text.Hex
