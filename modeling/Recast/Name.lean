-- Names in the two languages. A qualified name is a list of words with
-- dots between them. The target language writes the first letter of
-- namespaces and methods in upper case.
import Recast.Text.Split
import Recast.Text.Uppercase

namespace Recast

/-! ## Qualified names -/

/-- The last word of a dotted name. -/
def simpleName (qualified : String) : String :=
  ((Text.splitOn '.' qualified).getLast?).getD qualified

/-- Everything before the last dot, or nothing if there is no dot. -/
def ownerName (qualified : String) : String :=
  Text.joinWith "." (Text.splitOn '.' qualified).dropLast

/-! ## The naming of the target language -/

/-- The name with its first character in upper case. -/
def pascalCase (name : String) : String :=
  match name.toList with
  | [] => ""
  | c :: cs => String.ofList (Text.upper c ++ cs)

/-- The words of a package that hold at least one character. -/
def packageWords (package : String) : List String :=
  (Text.splitOn '.' package).filter (· ≠ "")

/-- The namespace of a package: its words, each in pascal case. -/
def namespaceOfPackage (package : String) : String :=
  Text.joinWith "." ((packageWords package).map pascalCase)

/-! ## Keys of members -/

/-- The key of the member `name` of the type `owner`. Members have keys
of their own, so a method never meets a nested type of the same name. -/
def memberKey (owner name : String) : String := owner ++ "#" ++ name

/-- The key of a method that is given by its dotted identity. -/
def memberKeyOfBinding (binding : String) : String :=
  memberKey (ownerName binding) (simpleName binding)

end Recast
