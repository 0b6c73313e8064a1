import FuseBank.Text.Hex
import FuseBank.Toml.Scanner

/-!
TOML's four kinds of quoted text: on one line or on many, and with escapes or without. The
scanners here start after the opening quotes and take the closing ones.
-/

namespace FuseBank.Toml.Quoted

def scalar? (digits : List Char) : Option Char := do
  let n ← Text.Hex.value? digits
  if n.isValidChar then some (Char.ofNat n) else none

def isPlain (c : Char) : Bool := c = '\t' ∨ (' ' ≤ c ∧ c ≠ '"' ∧ c ≠ '\\' ∧ c ≠ '\x7f')

def isLiteral (c : Char) : Bool := c = '\t' ∨ (' ' ≤ c ∧ c ≠ '\'' ∧ c ≠ '\x7f')

def escaped? : Char → Option Char
  | 'b' => some '\x08'
  | 't' => some '\t'
  | 'n' => some '\n'
  | 'f' => some '\x0c'
  | 'r' => some '\r'
  | '"' => some '"'
  | '\\' => some '\\'
  | _ => none

private def prepend (c : Char) : Option (List Char × List Char) → Option (List Char × List Char)
  | some (text, rest) => some (c :: text, rest)
  | none => none

def basic : List Char → Option (List Char × List Char)
  | [] => none
  | '"' :: rest => some ([], rest)
  | '\\' :: 'u' :: a :: b :: c :: d :: rest => do prepend (← scalar? [a, b, c, d]) (basic rest)
  | '\\' :: 'U' :: a :: b :: c :: d :: e :: f :: g :: h :: rest => do
    prepend (← scalar? [a, b, c, d, e, f, g, h]) (basic rest)
  | '\\' :: c :: rest => do prepend (← escaped? c) (basic rest)
  | c :: rest => if isPlain c then prepend c (basic rest) else none

def plain : List Char → Option (List Char × List Char)
  | [] => none
  | '\'' :: rest => some ([], rest)
  | c :: rest => if isLiteral c then prepend c (plain rest) else none

/-- Up to two quotes that belong to the text although they follow three closing ones. -/
def trailing (quote : Char) : List Char → List Char × List Char
  | a :: b :: rest =>
    if a = quote then if b = quote then ([quote, quote], rest) else ([quote], b :: rest)
    else ([], a :: b :: rest)
  | [a] => if a = quote then ([quote], []) else ([], [a])
  | [] => ([], [])

def endsLine (cs : List Char) : Bool :=
  match cs.dropWhile isBlank with
  | '\n' :: _ => true
  | '\r' :: '\n' :: _ => true
  | _ => false

/-- Text with escapes on many lines. After a backslash at the end of a line, blanks and line
ends are skipped. -/
def basicLines (skipping : Bool) : List Char → Option (List Char × List Char)
  | [] => none
  | '"' :: '"' :: '"' :: rest => some (trailing '"' rest)
  | '\n' :: rest => if skipping then basicLines true rest else prepend '\n' (basicLines false rest)
  | '\r' :: '\n' :: rest =>
    if skipping then basicLines true rest else prepend '\n' (basicLines false rest)
  | '\\' :: 'u' :: a :: b :: c :: d :: rest => do
    prepend (← scalar? [a, b, c, d]) (basicLines false rest)
  | '\\' :: 'U' :: a :: b :: c :: d :: e :: f :: g :: h :: rest => do
    prepend (← scalar? [a, b, c, d, e, f, g, h]) (basicLines false rest)
  | '\\' :: c :: rest =>
    match escaped? c with
    | some e => prepend e (basicLines false rest)
    | none => if endsLine (c :: rest) then basicLines true (c :: rest) else none
  | c :: rest =>
    if skipping && isBlank c then basicLines true rest
    else if isPlain c || c = '"' then prepend c (basicLines false rest)
    else none

def plainLines : List Char → Option (List Char × List Char)
  | [] => none
  | '\'' :: '\'' :: '\'' :: rest => some (trailing '\'' rest)
  | '\n' :: rest => prepend '\n' (plainLines rest)
  | '\r' :: '\n' :: rest => prepend '\n' (plainLines rest)
  | c :: rest => if isLiteral c || c = '\'' then prepend c (plainLines rest) else none

def afterOpening : List Char → List Char
  | '\n' :: rest => rest
  | '\r' :: '\n' :: rest => rest
  | cs => cs

def key : Scanner (List Char)
  | '"' :: rest => basic rest
  | '\'' :: rest => plain rest
  | _ => none

def value : Scanner (List Char)
  | '"' :: '"' :: '"' :: rest => basicLines false (afterOpening rest)
  | '\'' :: '\'' :: '\'' :: rest => plainLines (afterOpening rest)
  | cs => key cs

end FuseBank.Toml.Quoted
