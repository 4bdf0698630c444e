-- Statements of the target language. Each brace has a line of its own,
-- and each level is four blanks to the right of the one around it.
import Recast.CSharp.Expr
import Recast.Stmt

namespace Recast.CSharp

/-- The blanks at the start of a line (`write_indent`). -/
def indent (level : Nat) : String := String.ofList (List.replicate (4 * level) ' ')

/-- A local variable, without the semicolon (`write_local`). -/
def declareText (name : String) (ty : TypeRef) (init : Option Expr) : String :=
  typeText ty ++ " " ++ name ++ initText init

/-- A part of a for header before its first semicolon (`write_stmt_inline`).
Of most statements nothing is printed there. -/
def forPartText : Stmt → String
  | .declare name ty init => declareText name ty init
  | .expr e => exprText e
  | _ => ""

/-- The parts of a for header, with commas between them. -/
def forPartTexts : List Stmt → String
  | [] => ""
  | [s] => forPartText s
  | s :: ss => forPartText s ++ ", " ++ forPartTexts ss

/-- The level of a statement under a control statement, as `write_nested` has
it: a block stays where it is, and any other statement is moved to the right. -/
def bodyLevel (level : Nat) : Stmt → Nat
  | .block _ => level
  | _ => level + 1

/-- The first line of a control statement. -/
def headText (keyword inside : String) : String := keyword ++ " (" ++ inside ++ ")\n"

/-- The line of a statement that ends with a semicolon. -/
def endedText (text : String) : String := text ++ ";\n"

/-- Lines in braces, where the blanks before the first brace are there
already. -/
def bracedText (level : Nat) (lines : String) : String :=
  "\x7b\n" ++ lines ++ indent level ++ "\x7d\n"

/-- The line of something that could not be recast. -/
def untranslated (note : String) : String := "// untranslated: " ++ note ++ "\n"

mutual

/-- A statement whose first line has its blanks already (`write_stmt`, and
`write_if` for the branches). -/
def stmtAfterIndent (level : Nat) : Stmt → String
  | .expr e => endedText (exprText e)
  | .declare name ty init => endedText (declareText name ty init)
  | .block body => bracedText level (stmtTexts (level + 1) body)
  | .ifElse test consequent alternate =>
    headText "if" (exprText test) ++
      indent (bodyLevel level consequent) ++
      stmtAfterIndent (bodyLevel level consequent) consequent ++
      (match alternate with
        | none => ""
        | some (.ifElse test' consequent' alternate') =>
          indent level ++ "else " ++
            stmtAfterIndent level (.ifElse test' consequent' alternate')
        | some s =>
          indent level ++ "else\n" ++ indent (bodyLevel level s) ++
            stmtAfterIndent (bodyLevel level s) s)
  | .whileLoop test body =>
    headText "while" (exprText test) ++ indent (bodyLevel level body) ++
      stmtAfterIndent (bodyLevel level body) body
  | .forLoop init test update body =>
    headText "for" (forPartTexts init ++ "; " ++ optExprText test ++ "; " ++ exprTexts update) ++
      indent (bodyLevel level body) ++ stmtAfterIndent (bodyLevel level body) body
  | .forEach variableName ty iterable body =>
    headText "foreach" (typeText ty ++ " " ++ variableName ++ " in " ++ exprText iterable) ++
      indent (bodyLevel level body) ++ stmtAfterIndent (bodyLevel level body) body
  | .returns none => endedText "return"
  | .returns (some e) => endedText ("return " ++ exprText e)
  | .breakLoop => endedText "break"
  | .continueLoop => endedText "continue"
  | .throws value => endedText ("throw " ++ exprText value)
  | .tryCatch body catches cleanup =>
    "try\n" ++ indent level ++ bracedText level (stmtTexts (level + 1) body) ++
      catchTexts level catches ++
      (match cleanup with
        | none => ""
        | some ss =>
          indent level ++ "finally\n" ++ indent level ++ bracedText level (stmtTexts (level + 1) ss))
  | .labeled label body _ => label ++ ":\n" ++ indent level ++ stmtAfterIndent level body
  | .placeholder note => untranslated note

/-- Statements one after the other, each on its own lines. -/
def stmtTexts (level : Nat) : List Stmt → String
  | [] => ""
  | s :: ss => indent level ++ stmtAfterIndent level s ++ stmtTexts level ss

def catchTexts (level : Nat) : List CatchClause → String
  | [] => ""
  | ⟨param, ty, body⟩ :: cs =>
    indent level ++ headText "catch" (typeText ty ++ " " ++ param) ++ indent level ++
      bracedText level (stmtTexts (level + 1) body) ++ catchTexts level cs

end

/-- A statement on lines of its own. -/
def stmtText (level : Nat) (s : Stmt) : String := indent level ++ stmtAfterIndent level s

/-- Statements in braces (`write_body`). -/
def bodyText (level : Nat) (body : List Stmt) : String :=
  indent level ++ bracedText level (stmtTexts (level + 1) body)

end Recast.CSharp
