/-!
Reading characters off the front of a text, and the small pieces of TOML: blanks, line ends,
comments. A scanner that fails takes nothing, so that `<|>` tries its alternatives from the same
place.
-/

namespace FuseBank.Toml

abbrev Scanner := StateT (List Char) Option

namespace Scanner

def peek : Scanner (Option Char) := fun cs => some (cs.head?, cs)

def atEnd : Scanner Bool := fun cs => some (cs.isEmpty, cs)

def one (p : Char → Bool) : Scanner Char
  | c :: cs => if p c then some (c, cs) else none
  | [] => none

def char (c : Char) : Scanner Unit := do
  let _ ← one (· = c)

def many (p : Char → Bool) : Scanner (List Char) := fun cs => some (cs.takeWhile p, cs.dropWhile p)

def atLeastOne (p : Char → Bool) : Scanner (List Char) := do
  let cs ← many p
  if cs.isEmpty then failure
  return cs

def exactly (p : Char → Bool) : Nat → Scanner (List Char)
  | 0 => return []
  | n + 1 => do
    let c ← one p
    let cs ← exactly p n
    return c :: cs

def word (text : String) : Scanner Unit := text.toList.forM char

def literal {α : Type} (s : Scanner α) : Scanner (List Char) := do
  let before ← get
  let _ ← s
  let after ← get
  return before.take (before.length - after.length)

end Scanner

open Scanner

def isBlank (c : Char) : Bool := c = ' ' ∨ c = '\t'

def isDigit (c : Char) : Bool := '0' ≤ c ∧ c ≤ '9'

def isCommentChar (c : Char) : Bool := c = '\t' ∨ (' ' ≤ c ∧ c ≠ '\x7f')

def isBareKeyChar (c : Char) : Bool :=
  isDigit c ∨ ('A' ≤ c ∧ c ≤ 'Z') ∨ ('a' ≤ c ∧ c ≤ 'z') ∨ c = '_' ∨ c = '-'

def blanks : Scanner Unit := do
  let _ ← many isBlank

def newline : Scanner Unit := char '\n' <|> word "\r\n"

def comment : Scanner Unit := do
  char '#'
  let _ ← many isCommentChar

def lineEnd : Scanner Unit := do
  blanks
  comment <|> pure ()
  if ← atEnd then return
  newline

/-- Drops blanks, line ends and comments; `inComment` if a comment is going on. -/
def dropGap (inComment : Bool) : List Char → List Char
  | [] => []
  | c :: rest =>
    if inComment && isCommentChar c then dropGap true rest
    else if isBlank c || c = '\n' then dropGap false rest
    else if c = '\r' ∧ rest.head? = some '\n' then dropGap false rest
    else if c = '#' then dropGap true rest
    else c :: rest

def gap : Scanner Unit := modify (dropGap false)

end FuseBank.Toml
