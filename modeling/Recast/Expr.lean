-- Expressions. One tree serves both languages; an anonymous class stands
-- only in source trees, and a placeholder is what recasting leaves where
-- a construct has no counterpart.
import Recast.Number.Binary64
import Recast.Span
import Recast.TypeRef

namespace Recast

inductive Literal
  | null
  | bool (b : Bool)
  | int (n : Int64)
  | float (x : Number.Binary64)
  | char (c : Char)
  | string (s : String)
deriving Repr, DecidableEq, Inhabited

inductive BinaryOp
  | add | sub | mul | div | mod
  | eq | ne | lt | le | gt | ge
  | and | or
  | bitAnd | bitOr | bitXor | shl | shr
deriving Repr, DecidableEq, Inhabited

inductive UnaryOp
  | neg | not | bitNot
deriving Repr, DecidableEq, Inhabited

inductive Expr
  | literal (value : Literal)
  /-- A local variable, a parameter or a field of the object itself. -/
  | ident (name : String)
  | self
  /-- A type that stands where a value does, as in a static call. -/
  | type (ty : TypeRef)
  | field (object : Expr) (name : String)
  /-- A call. The binding is the dotted identity of the method, if known. -/
  | call (target : Option Expr) (method : String) (binding : Option String) (args : List Expr)
  | new (ty : TypeRef) (args : List Expr)
  | binary (left : Expr) (op : BinaryOp) (right : Expr)
  | unary (op : UnaryOp) (operand : Expr)
  | assign (target value : Expr)
  | conditional (test consequent alternate : Expr)
  | cast (ty : TypeRef) (operand : Expr)
  | instanceOf (operand : Expr) (ty : TypeRef)
  | anonymousClass (ty : TypeRef) (span : Span)
  | placeholder (note : String)
deriving Repr, BEq, Inhabited

namespace Expr

def int (n : Int64) : Expr := .literal (.int n)

def string (s : String) : Expr := .literal (.string s)

def bool (b : Bool) : Expr := .literal (.bool b)

def null : Expr := .literal .null

/-- A call of a method by its name alone. -/
def callByName (target : Option Expr) (method : String) (args : List Expr) : Expr :=
  .call target method none args

/-- A call of a method whose identity is known. -/
def callBound (target : Option Expr) (binding : String) (args : List Expr) : Expr :=
  .call target (simpleName binding) (some binding) args

end Expr

end Recast
