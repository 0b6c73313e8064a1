/-!
TOML values, and the rules by which keys and headers build up a document's tables. A table
remembers how it came to be, because that decides what may still be added to it.
-/

namespace FuseBank.Toml

/-- How a table came to be. -/
inductive Origin where
  | header
  | implied
  | dotted
  | braces
deriving DecidableEq

/-- A TOML value. Floats and moments of time are kept as they are written. -/
inductive Value where
  | text (chars : List Char)
  | integer (n : Int)
  | float (literal : List Char)
  | boolean (b : Bool)
  | moment (literal : List Char)
  | array (items : List Value)
  | table (origin : Origin) (entries : List (String × Value))
  | tables (items : List (List (String × Value)))

abbrev Entries := List (String × Value)

namespace Entries

def replace (es : Entries) (key : String) (v : Value) : Entries :=
  es.map fun e => if e.1 = key then (key, v) else e

def add (es : Entries) (key : String) (v : Value) : Option Entries :=
  if es.any (·.1 = key) then none else some (es ++ [(key, v)])

/-- Adds a value under a dotted key, which consists of `path` and `key`. The tables on the path
come from dotted keys themselves, or are made; a table that a header implies may be passed
through, but not be added to. -/
def assign (es : Entries) : List String → String → Value → Option Entries
  | [], key, v => es.add key v
  | part :: rest, key, v =>
    match es.lookup part with
    | none => do
      let inner ← assign [] rest key v
      some (es ++ [(part, .table .dotted inner)])
    | some (.table origin inner) =>
      if origin = .dotted ∨ (origin = .implied ∧ rest ≠ []) then do
        let inner ← assign inner rest key v
        some (es.replace part (.table origin inner))
      else none
    | some (.tables items) =>
      if rest = [] then none
      else do
        let last ← items.getLast?
        let last ← assign last rest key v
        some (es.replace part (.tables (items.dropLast ++ [last])))
    | some _ => none

/-- Changes the table that a header's path leads to, making the tables on the way that are
missing. The path goes through the last table of a list of tables. -/
def update (es : Entries) (change : Entries → Option Entries) : List String → Option Entries
  | [] => change es
  | part :: rest =>
    match es.lookup part with
    | none => do
      let inner ← update [] change rest
      some (es ++ [(part, .table .implied inner)])
    | some (.table origin inner) =>
      if origin = .braces then none
      else do
        let inner ← update inner change rest
        some (es.replace part (.table origin inner))
    | some (.tables items) => do
      let last ← items.getLast?
      let last ← update last change rest
      some (es.replace part (.tables (items.dropLast ++ [last])))
    | some _ => none

def openTable (es : Entries) (path : List String) (key : String) : Option Entries :=
  es.update (fun parent =>
    match parent.lookup key with
    | none => some (parent ++ [(key, .table .header [])])
    | some (.table .implied inner) => some (parent.replace key (.table .header inner))
    | some _ => none) path

def openListed (es : Entries) (path : List String) (key : String) : Option Entries :=
  es.update (fun parent =>
    match parent.lookup key with
    | none => some (parent ++ [(key, .tables [[]])])
    | some (.tables items) => some (parent.replace key (.tables (items ++ [[]])))
    | some _ => none) path

end Entries

end FuseBank.Toml
