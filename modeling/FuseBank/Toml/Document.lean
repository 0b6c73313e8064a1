import FuseBank.Toml.Moment
import FuseBank.Toml.Number
import FuseBank.Toml.Quoted
import FuseBank.Toml.Value

/-!
TOML documents: keys, values, and the lines that build up the document's table. `Document.parse`
takes a whole text or nothing.
-/

namespace FuseBank.Toml

open Scanner

/-- A dotted key has fewer parts than this, and values are nested less deep. -/
def nestingLimit : Nat := 80

def simpleKey : Scanner String := do
  match ← peek with
  | some '"' | some '\'' => return String.ofList (← Quoted.key)
  | _ => return String.ofList (← atLeastOne isBareKeyChar)

def furtherParts : Nat → Scanner (List String)
  | 0 => return []
  | n + 1 => do
    blanks
    match ← peek with
    | some '.' =>
      char '.'
      blanks
      let part ← simpleKey
      let parts ← furtherParts n
      return part :: parts
    | _ => return []

def dottedKey : Scanner (List String × String) := do
  blanks
  let first ← simpleKey
  let parts ← furtherParts (nestingLimit - 1)
  if parts.length + 1 ≥ nestingLimit then failure
  match (first :: parts).getLast? with
  | some last => return ((first :: parts).dropLast, last)
  | none => failure

def scalar : Scanner Value := do
  match ← peek with
  | some '"' | some '\'' => return .text (← Quoted.value)
  | some 't' => word "true"; return .boolean true
  | some 'f' => word "false"; return .boolean false
  | _ =>
    (Value.moment <$> Moment.moment) <|> (Value.float <$> Number.float) <|>
      (Value.integer <$> Number.integer)

mutual

/-- A value inside `depth` arrays and tables in braces. -/
def value : Nat → Nat → Scanner Value
  | 0, _ => failure
  | fuel + 1, depth => do
    match ← peek with
    | some '[' =>
      if depth + 1 ≥ nestingLimit then failure
      char '['
      return .array (← items fuel (depth + 1))
    | some '{' =>
      if depth + 1 ≥ nestingLimit then failure
      char '{'
      blanks
      match ← peek with
      | some '}' => char '}'; return .table .braces []
      | _ => return .table .braces (← pairs fuel (depth + 1) [])
    | _ => scalar

def items : Nat → Nat → Scanner (List Value)
  | 0, _ => failure
  | fuel + 1, depth => do
    gap
    match ← peek with
    | some ']' => char ']'; return []
    | _ =>
      let first ← value fuel depth
      gap
      match ← peek with
      | some ',' => char ','; return first :: (← items fuel depth)
      | _ => char ']'; return [first]

def pairs : Nat → Nat → Entries → Scanner Entries
  | 0, _, _ => failure
  | fuel + 1, depth, before => do
    let (path, key) ← dottedKey
    char '='
    blanks
    let v ← value fuel depth
    let entries ← (before.assign path key v : Option Entries)
    blanks
    match ← peek with
    | some ',' => char ','; pairs fuel depth entries
    | _ => char '}'; return entries

end

/-- A document as far as it has been read: its entries, and the path to the table of the latest
header. -/
structure Document where
  entries : Entries := []
  path : List String := []

namespace Document

def assignLine (d : Document) : Scanner Document := do
  let (path, key) ← dottedKey
  char '='
  blanks
  let fuel := 2 * (← get).length + 2
  let v ← value fuel 0
  lineEnd
  let entries ← d.entries.update (fun es => es.assign path key v) d.path
  return { d with entries }

def headerLine (d : Document) : Scanner Document := do
  char '['
  let listed ← (do char '['; return true) <|> return false
  let (path, key) ← dottedKey
  char ']'
  if listed then char ']'
  lineEnd
  let entries ← if listed then d.entries.openListed path key else d.entries.openTable path key
  return { entries, path := path ++ [key] }

def lines : Nat → Document → Scanner Document
  | 0, d => return d
  | fuel + 1, d => do
    blanks
    if ← atEnd then return d
    match ← peek with
    | some '#' => comment; lineEnd; lines fuel d
    | some '[' => lines fuel (← d.headerLine)
    | some '\n' | some '\r' => newline; lines fuel d
    | _ => lines fuel (← d.assignLine)

def parse (text : String) : Option Entries := do
  let cs := match text.toList with
    | '\ufeff' :: rest => rest
    | cs => cs
  let (d, rest) ← (lines (cs.length + 1) {}).run cs
  if rest.isEmpty then some d.entries else none

end Document

end FuseBank.Toml
