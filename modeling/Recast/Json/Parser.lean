-- From tokens to a JSON value. The containers that are still open are
-- kept in a list, so a value may be nested to any depth.
import Recast.Json.Scan

namespace Recast.Json

/-- A container that is still open, its parts with the newest first. -/
inductive Frame
  | array (items : List Json)
  /-- An object; `none` once it has an unreadable key. -/
  | object (fields : Option (List (String × Json)))
  /-- An object that waits for the value of a key. -/
  | slot (fields : Option (List (String × Json))) (name : Option String)

/-- What may come next, inside the open containers. -/
inductive State
  /-- A value, or the end of the array if that has just been opened. -/
  | value (frames : List Frame) (mayClose : Bool)
  /-- A key, or the end of the object if that has just been opened. -/
  | key (frames : List Frame) (mayClose : Bool)
  | colon (frames : List Frame)
  /-- A comma, or the end of the container. -/
  | after (frames : List Frame)
  | finished (j : Json)

namespace State

/-- A value is complete. -/
def complete (frames : List Frame) (j : Json) : Option State :=
  match frames with
  | [] => some (.finished j)
  | .array items :: rest => some (.after (.array (j :: items) :: rest))
  | .slot fields name :: rest =>
    some (.after (.object (do return (← name, j) :: (← fields)) :: rest))
  | .object _ :: _ => none

/-- The innermost array ends. -/
def closeArray : List Frame → Option State
  | .array items :: rest => complete rest (.array items.reverse)
  | _ => none

/-- The innermost object ends. -/
def closeObject : List Frame → Option State
  | .object (some fields) :: rest => complete rest (.object fields.reverse)
  | .object none :: rest => complete rest .unreadable
  | _ => none

def step : State → Token → Option State
  | .value o _, .null => complete o .null
  | .value o _, .bool b => complete o (.bool b)
  | .value o _, .number n => complete o (.number n)
  | .value o _, .text (some s) => complete o (.text s)
  | .value o _, .text none => complete o .unreadable
  | .value o _, .openBracket => some (.value (.array [] :: o) true)
  | .value o _, .openBrace => some (.key (.object (some []) :: o) true)
  | .value o true, .closeBracket => closeArray o
  | .key (.object fields :: o) _, .text name => some (.colon (.slot fields name :: o))
  | .key o true, .closeBrace => closeObject o
  | .colon o, .colon => some (.value o false)
  | .after (.array items :: o), .comma => some (.value (.array items :: o) false)
  | .after (.object fields :: o), .comma => some (.key (.object fields :: o) false)
  | .after o, .closeBracket => closeArray o
  | .after o, .closeBrace => closeObject o
  | _, _ => none

end State

/-- The value that a list of tokens writes. -/
def ofTokens? (tokens : List Token) : Option Json :=
  match tokens.foldlM State.step (.value [] false) with
  | some (.finished j) => some j
  | _ => none

/-- The value that a text writes. -/
def parse? (s : String) : Option Json := (tokens? s).bind ofTokens?

end Recast.Json
