-- Statements. A labeled statement stands only in source trees.
import Recast.Expr

namespace Recast

mutual

inductive Stmt
  | expr (e : Expr)
  /-- A local variable. -/
  | declare (name : String) (ty : TypeRef) (init : Option Expr)
  | block (body : List Stmt)
  | ifElse (test : Expr) (consequent : Stmt) (alternate : Option Stmt)
  | whileLoop (test : Expr) (body : Stmt)
  | forLoop (init : List Stmt) (test : Option Expr) (update : List Expr) (body : Stmt)
  | forEach (variableName : String) (ty : TypeRef) (iterable : Expr) (body : Stmt)
  | returns (value : Option Expr)
  | breakLoop
  | continueLoop
  | throws (value : Expr)
  | tryCatch (body : List Stmt) (catches : List CatchClause) (cleanup : Option (List Stmt))
  | labeled (label : String) (body : Stmt) (span : Span)
  | placeholder (note : String)

structure CatchClause where
  param : String
  ty : TypeRef
  body : List Stmt

end

instance : Inhabited Stmt := ⟨.breakLoop⟩

end Recast
