-- Types and expressions of the target language. Binary expressions, the
-- conditional, casts and instance tests stand in brackets, so no order
-- of the operators is needed for them.
import Recast.CSharp.Literal

namespace Recast.CSharp

/-! ## Types -/

/-- The brackets of the array dimensions. -/
def dimsText (dims : UInt8) : String := String.join (List.replicate dims.toNat "[]")

mutual

/-- A type (`write_type_ref`). -/
def typeText : TypeRef → String
  | ⟨name, args, dims⟩ =>
    name ++ (if args.isEmpty then "" else "<" ++ typeTexts args ++ ">") ++ dimsText dims

/-- Types with commas between them. -/
def typeTexts : List TypeRef → String
  | [] => ""
  | [t] => typeText t
  | t :: ts => typeText t ++ ", " ++ typeTexts ts

end

/-! ## Operators -/

/-- The sign of an operator (`binary_op`). -/
def binarySign : BinaryOp → String
  | .add => "+"
  | .sub => "-"
  | .mul => "*"
  | .div => "/"
  | .mod => "%"
  | .eq => "=="
  | .ne => "!="
  | .lt => "<"
  | .le => "<="
  | .gt => ">"
  | .ge => ">="
  | .and => "&&"
  | .or => "||"
  | .bitAnd => "&"
  | .bitOr => "|"
  | .bitXor => "^"
  | .shl => "<<"
  | .shr => ">>"

def unarySign : UnaryOp → String
  | .neg => "-"
  | .not => "!"
  | .bitNot => "~"

/-! ## Expressions -/

/-- What stands in the place of an anonymous class. -/
def anonymousText (ty : TypeRef) : String := "null /* anonymous " ++ typeText ty ++ " */"

/-- What stands in the place of an expression that could not be recast. -/
def placeholderText (note : String) : String := "default /* untranslated: " ++ note ++ " */"

mutual

/-- An expression (`write_expr`). -/
def exprText : Expr → String
  | .literal value => literalText value
  | .ident name => name
  | .self => "this"
  | .type ty => typeText ty
  | .field object name => exprText object ++ "." ++ name
  | .call none method _ args => method ++ "(" ++ exprTexts args ++ ")"
  | .call (some target) method _ args =>
    exprText target ++ "." ++ method ++ "(" ++ exprTexts args ++ ")"
  | .new ty args => "new " ++ typeText ty ++ "(" ++ exprTexts args ++ ")"
  | .binary left op right =>
    "(" ++ exprText left ++ " " ++ binarySign op ++ " " ++ exprText right ++ ")"
  | .unary op operand => unarySign op ++ exprText operand
  | .assign target value => exprText target ++ " = " ++ exprText value
  | .conditional test consequent alternate =>
    "(" ++ exprText test ++ " ? " ++ exprText consequent ++ " : " ++ exprText alternate ++ ")"
  | .cast ty operand => "((" ++ typeText ty ++ ")" ++ exprText operand ++ ")"
  | .instanceOf operand ty => "(" ++ exprText operand ++ " is " ++ typeText ty ++ ")"
  | .anonymousClass ty _ => anonymousText ty
  | .placeholder note => placeholderText note

/-- Expressions with commas between them (`write_args`). -/
def exprTexts : List Expr → String
  | [] => ""
  | [e] => exprText e
  | e :: es => exprText e ++ ", " ++ exprTexts es

end

/-- The expression, or nothing. -/
def optExprText : Option Expr → String
  | none => ""
  | some e => exprText e

/-- What follows a name that is given a value. -/
def initText : Option Expr → String
  | none => ""
  | some e => " = " ++ exprText e

end Recast.CSharp
