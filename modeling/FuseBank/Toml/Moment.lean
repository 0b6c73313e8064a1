import FuseBank.Toml.Scanner

/-!
TOML's dates and times: a date, a time, or a date with a time and perhaps an offset. The days of
each month are checked; a minute may have a sixty-first second.
-/

namespace FuseBank.Toml.Moment

open Scanner

def isLeapYear (year : Nat) : Bool := year % 4 = 0 ∧ (year % 100 ≠ 0 ∨ year % 400 = 0)

def daysInMonth (year month : Nat) : Nat :=
  if month = 2 then if isLeapYear year then 29 else 28
  else if month ∈ [4, 6, 9, 11] then 30
  else 31

def field (digits least greatest : Nat) : Scanner Nat := do
  let cs ← exactly isDigit digits
  let n := cs.foldl (fun n c => 10 * n + (c.toNat - 48)) 0
  if n < least ∨ greatest < n then failure
  return n

def date : Scanner Unit := do
  let year ← field 4 0 9999
  char '-'
  let month ← field 2 1 12
  char '-'
  let _ ← field 2 1 (daysInMonth year month)

def time : Scanner Unit := do
  let _ ← field 2 0 23
  char ':'
  let _ ← field 2 0 59
  char ':'
  let _ ← field 2 0 60
  (do char '.'; let _ ← atLeastOne isDigit) <|> pure ()

def offset : Scanner Unit := do
  let mark ← one fun c => c ∈ ['Z', 'z', '+', '-']
  if mark = '+' ∨ mark = '-' then
    let _ ← field 2 0 23
    char ':'
    let _ ← field 2 0 59

def moment : Scanner (List Char) :=
  literal ((do
    date
    (do
      let _ ← one fun c => c ∈ ['T', 't', ' ']
      time
      offset <|> pure ()) <|> pure ()) <|> time)

end FuseBank.Toml.Moment
