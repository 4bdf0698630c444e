-- JSON values. A number is kept as it is written, and an object keeps
-- all its fields in order, also when a key comes twice: what a repeated
-- key means is for the reader of the value to say.

namespace Recast

inductive Json
  | null
  | bool (b : Bool)
  /-- A number, as it is written. -/
  | number (lexeme : String)
  | text (s : String)
  | array (items : List Json)
  | object (fields : List (String × Json))
  /-- A well formed value that holds half of a surrogate pair, in a text
  or in a key, and so stands for no data. -/
  | unreadable
deriving Repr, BEq, Inhabited

namespace Json

def ofNat (n : Nat) : Json := .number (Nat.repr n)

def ofInt (n : Int) : Json :=
  .number (if n < 0 then "-" ++ Nat.repr n.natAbs else Nat.repr n.natAbs)

/-- The value, or null. -/
def ofOption (f : α → Json) : Option α → Json
  | none => .null
  | some a => f a

/-- An object with one field. -/
def tagged (tag : String) (payload : Json) : Json := .object [(tag, payload)]

end Json

end Recast
