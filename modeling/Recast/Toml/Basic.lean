-- TOML values, and the rules by which the lines of a document add to its
-- tables. A table can be written in one go, but also line by line; how it
-- came to be decides what later lines may still do with it.

namespace Recast

/-- How a table came to be. -/
inductive Toml.Origin
  /-- Written as a value, in braces. -/
  | inline
  /-- Named by a header. -/
  | header
  /-- Only named on the way to a table further in. -/
  | implied
  /-- Named on the way to a key with dots. -/
  | dotted
deriving Repr, DecidableEq, Inhabited

inductive Toml
  | text (s : String)
  | bool (b : Bool)
  | int (n : Int)
  /-- A number with a point or an exponent, as it is written. -/
  | float (lexeme : String)
  /-- A date, a time of day, or both, as it is written. -/
  | moment (lexeme : String)
  | array (items : List Toml)
  | table (origin : Toml.Origin) (entries : List (String × Toml))
  /-- The tables of headers with double brackets. -/
  | tables (elements : List (List (String × Toml)))
deriving Repr, Inhabited

namespace Toml

/-- The entries of a table, in order. No key comes twice. -/
abbrev Entries := List (String × Toml)

/-- The entries with another value for a key that is there. -/
def replace (key : String) (value : Toml) : Entries → Entries
  | [] => []
  | (k, v) :: rest => if k = key then (k, value) :: rest else (k, v) :: replace key value rest

/-- The elements with the last one changed. -/
def alterLast (f : Entries → Option Entries) : List Entries → Option (List Entries)
  | [] => none
  | [es] => (f es).map ([·])
  | es :: rest => (alterLast f rest).map (es :: ·)

/-! ## Keys and values -/

/-- Gives a key a value. The keys in front of its dots name tables that
were made in the same way, or are made now. The key itself must be new. -/
def assign (key : String) (value : Toml) : List String → Entries → Option Entries
  | [], es => if (es.lookup key).isSome then none else some (es ++ [(key, value)])
  | k :: ks, es =>
    match es.lookup k with
    | none => (assign key value ks []).map fun sub => es ++ [(k, .table .dotted sub)]
    | some (.table .dotted sub) =>
      (assign key value ks sub).map fun sub => replace k (.table .dotted sub) es
    | some (.table .implied sub) =>
      if ks.isEmpty then none
      else (assign key value ks sub).map fun sub => replace k (.table .implied sub) es
    | some (.tables elements) =>
      if ks.isEmpty then none
      else (alterLast (assign key value ks) elements).map fun els => replace k (.tables els) es
    | some _ => none

/-! ## Headers -/

/-- Changes the table at the end of a header's keys. Tables that are
missing on the way are implied, and of tables with double brackets the
last one is meant. -/
def enter (f : Entries → Option Entries) : List String → Entries → Option Entries
  | [], es => f es
  | k :: ks, es =>
    match es.lookup k with
    | none => (enter f ks []).map fun sub => es ++ [(k, .table .implied sub)]
    | some (.table .inline _) => none
    | some (.table origin sub) =>
      (enter f ks sub).map fun sub => replace k (.table origin sub) es
    | some (.tables elements) =>
      (alterLast (enter f ks) elements).map fun els => replace k (.tables els) es
    | some _ => none

/-- A header names a table that is new, or was only implied before. -/
def openTable (key : String) (es : Entries) : Option Entries :=
  match es.lookup key with
  | none => some (es ++ [(key, .table .header [])])
  | some (.table .implied sub) => some (replace key (.table .header sub) es)
  | some _ => none

/-- A header with double brackets begins the next of its tables. -/
def openElement (key : String) (es : Entries) : Option Entries :=
  match es.lookup key with
  | none => some (es ++ [(key, .tables [[]])])
  | some (.tables elements) => some (replace key (.tables (elements ++ [[]])) es)
  | some _ => none

end Toml

end Recast
