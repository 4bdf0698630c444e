-- The types and methods of the source platform that every unit may use
-- without any unit declaring them.
import Recast.Target

namespace Recast.Builtin

/-- A type that is a keyword of the target language. -/
def keyword (name : String) : TargetRef := .type none name

def inSpace (space name : String) : TargetRef := .type (some space) name

/-- The types of the platform by their identities. -/
def types : List (String × TargetRef) := [
  ("boolean", keyword "bool"),
  ("java.lang.Boolean", keyword "bool"),
  ("byte", keyword "sbyte"),
  ("java.lang.Byte", keyword "sbyte"),
  ("char", keyword "char"),
  ("java.lang.Character", keyword "char"),
  ("short", keyword "short"),
  ("java.lang.Short", keyword "short"),
  ("int", keyword "int"),
  ("java.lang.Integer", keyword "int"),
  ("long", keyword "long"),
  ("java.lang.Long", keyword "long"),
  ("float", keyword "float"),
  ("java.lang.Float", keyword "float"),
  ("double", keyword "double"),
  ("java.lang.Double", keyword "double"),
  ("java.lang.String", keyword "string"),
  ("java.lang.Object", keyword "object"),
  ("java.lang.Exception", inSpace "System" "Exception"),
  ("java.lang.RuntimeException", inSpace "System" "Exception"),
  ("java.lang.Throwable", inSpace "System" "Exception"),
  ("java.lang.IllegalArgumentException", inSpace "System" "ArgumentException"),
  ("java.lang.IllegalStateException", inSpace "System" "InvalidOperationException"),
  ("java.lang.UnsupportedOperationException", inSpace "System" "NotSupportedException"),
  ("java.lang.Math", inSpace "System" "Math"),
  ("java.lang.StringBuilder", inSpace "System.Text" "StringBuilder"),
  ("java.util.List", inSpace "System.Collections.Generic" "IList"),
  ("java.util.ArrayList", inSpace "System.Collections.Generic" "List"),
  ("java.util.Map", inSpace "System.Collections.Generic" "IDictionary"),
  ("java.util.HashMap", inSpace "System.Collections.Generic" "Dictionary"),
  ("java.lang.Iterable", inSpace "System.Collections.Generic" "IEnumerable")]

/-- The names of the platform's methods by their dotted identities. -/
def members : List (String × String) := [
  ("java.lang.Object.toString", "ToString"),
  ("java.lang.Object.equals", "Equals"),
  ("java.lang.Object.hashCode", "GetHashCode"),
  ("java.lang.StringBuilder.append", "Append"),
  ("java.lang.Math.max", "Max"),
  ("java.lang.Math.min", "Min"),
  ("java.lang.Math.abs", "Abs")]

def type? (identity : String) : Option TargetRef := types.lookup identity

def member? (identity : String) : Option String := members.lookup identity

end Recast.Builtin
