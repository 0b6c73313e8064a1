import FuseBank.Text.Hex
import FuseBank.Toml.Scanner

/-!
TOML's integers and floats. Integers are those of 64 bits with a sign. Of a float only the
literal is kept, but one that would round up to infinity is refused.
-/

namespace FuseBank.Toml.Number

open Scanner

def minInteger : Int := -0x8000000000000000
def maxInteger : Int := 0x7fffffffffffffff

def wellGrouped (afterDigit : Bool) : List Char → Bool
  | [] => afterDigit
  | c :: cs => if c = '_' then afterDigit && wellGrouped false cs else wellGrouped true cs

/-- Digits of a class, in groups set apart by single underscores; the digits alone are kept. -/
def grouped (p : Char → Bool) : Scanner (List Char) := do
  let cs ← many fun c => p c ∨ c = '_'
  if !wellGrouped false cs then failure
  return cs.filter (· ≠ '_')

def sign : Scanner Bool := do
  match ← peek with
  | some '-' => char '-'; return true
  | some '+' => char '+'; return false
  | _ => return false

def decimalDigits : Scanner (List Char) := do
  let digits ← grouped isDigit
  if digits.length > 1 ∧ digits.head? = some '0' then failure
  return digits

def valueOf (base : Nat) (digits : List Char) : Nat :=
  digits.foldl (fun n c => base * n + (Text.Hex.digitValue? c).getD 0) 0

def checked (n : Int) : Scanner Int := if minInteger ≤ n ∧ n ≤ maxInteger then return n else failure

def isHexDigit (c : Char) : Bool := (Text.Hex.digitValue? c).isSome
def isOctalDigit (c : Char) : Bool := '0' ≤ c ∧ c ≤ '7'
def isBinaryDigit (c : Char) : Bool := c = '0' ∨ c = '1'

def marked (mark : String) (p : Char → Bool) (base : Nat) : Scanner Int := do
  word mark
  let digits ← grouped p
  checked (valueOf base digits)

def decimal : Scanner Int := do
  let negative ← sign
  let n : Int := valueOf 10 (← decimalDigits)
  checked (if negative then -n else n)

def integer : Scanner Int :=
  marked "0x" isHexDigit 16 <|> marked "0o" isOctalDigit 8 <|> marked "0b" isBinaryDigit 2 <|> decimal

def infinityBound : Nat := Nat.pow 2 1024 - Nat.pow 2 970

/-- Whether `mantissa * 10 ^ exponent` rounds to infinity. The number of digits decides unless
the value has 309 digits before the point. -/
def overflows (mantissa : Nat) (exponent : Int) : Bool :=
  if mantissa = 0 then false
  else
    let places := ((Nat.toDigits 10 mantissa).length : Int) + exponent
    if places > 309 then true
    else if places < 309 then false
    else if 0 ≤ exponent then infinityBound ≤ mantissa * Nat.pow 10 exponent.toNat
    else infinityBound * Nat.pow 10 (-exponent).toNat ≤ mantissa

def exponent : Scanner Int := do
  let _ ← one fun c => c = 'e' ∨ c = 'E'
  let negative ← sign
  let n : Int := valueOf 10 (← grouped isDigit)
  return if negative then -n else n

def fraction : Scanner (List Char) := do
  char '.'
  grouped isDigit

def finiteFloat : Scanner Unit := do
  let negative ← sign
  let whole ← decimalDigits
  let places ← fraction <|> pure []
  let power ← if places.isEmpty then exponent else exponent <|> pure 0
  if !negative && overflows (valueOf 10 (whole ++ places)) (power - places.length) then failure

def specialFloat : Scanner Unit := do
  let _ ← sign
  word "inf" <|> word "nan"

def float : Scanner (List Char) := literal (finiteFloat <|> specialFloat)

end FuseBank.Toml.Number
