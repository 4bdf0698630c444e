-- Cutting a text at a separator, and joining the parts again. The cut
-- keeps empty parts, so joining gives the text back.

namespace Recast.Text

/-- The parts of a list of characters between the separators. There is
always one part more than there are separators. -/
def splitChars (sep : Char) : List Char → List (List Char)
  | [] => [[]]
  | c :: cs =>
    if c = sep then [] :: splitChars sep cs
    else
      match splitChars sep cs with
      | [] => [[c]]
      | part :: parts => (c :: part) :: parts

/-- The parts of a text between the separators, empty parts included. -/
def splitOn (sep : Char) (s : String) : List String :=
  (splitChars sep s.toList).map String.ofList

/-- The parts, one after the other, with `sep` between each two. -/
def joinWith (sep : String) : List String → String
  | [] => ""
  | [part] => part
  | part :: parts => part ++ sep ++ joinWith sep parts

/-- Whether `c` is one of the characters of the text. -/
def hasChar (c : Char) (s : String) : Bool := s.toList.contains c

theorem splitChars_ne_nil (sep : Char) (cs : List Char) : splitChars sep cs ≠ [] := by
  cases cs with
  | nil => simp [splitChars]
  | cons c cs =>
    by_cases h : c = sep
    · simp [splitChars, h]
    · simp only [splitChars, h, if_false]
      split <;> simp

end Recast.Text
