-- Recasting types, expressions and statements, as `UnitContext` does it. The
-- shape of a body stays; names of types and methods are replaced, and constructs
-- without a counterpart leave a placeholder and a warning. Parts are recast from
-- left to right, so that the warnings come in the order of the text. Tracing is
-- left out.
import Recast.Recasting.Notes

namespace Recast.Recasting

/-! ## Types -/

mutual

/-- The type with its printed name (`type_ref`). Its arguments are recast after
the name, and the dimensions stay. -/
def typeRef (scope : Scope) : TypeRef → Noting TypeRef
  | ⟨name, args, dims⟩ => do
    return ⟨← typeName scope name, ← typeRefs scope args, dims⟩

def typeRefs (scope : Scope) : List TypeRef → Noting (List TypeRef)
  | [] => pure []
  | t :: ts => do return (← typeRef scope t) :: (← typeRefs scope ts)

end

/-! ## Expressions -/

mutual

/-- An expression (`expr`). The target and the arguments of a call are recast in
this order; the name of the method between them notes nothing. An anonymous class
is lost with all that it holds. -/
def expr (scope : Scope) : Expr → Noting Expr
  | .literal value => pure (.literal value)
  | .ident name => pure (.ident name)
  | .self => pure .self
  | .type ty => do return .type (← typeRef scope ty)
  | .field object name => do return .field (← expr scope object) name
  | .call target method binding args => do
    let target ← match target with
      | none => pure none
      | some e => some <$> expr scope e
    let method := match binding with
      | some identity => scope.memberName identity
      | none => pascalCase method
    return .call target method none (← exprs scope args)
  | .new ty args => do return .new (← typeRef scope ty) (← exprs scope args)
  | .binary left op right => do return .binary (← expr scope left) op (← expr scope right)
  | .unary op operand => do return .unary op (← expr scope operand)
  | .assign target value => do return .assign (← expr scope target) (← expr scope value)
  | .conditional test consequent alternate => do
    return .conditional (← expr scope test) (← expr scope consequent) (← expr scope alternate)
  | .cast ty operand => do return .cast (← typeRef scope ty) (← expr scope operand)
  | .instanceOf operand ty => do return .instanceOf (← expr scope operand) (← typeRef scope ty)
  | .anonymousClass ty span => do
    let loss := Loss.anonymousClass ty.simpleName
    warn span loss
    return .placeholder loss.note
  | .placeholder note => pure (.placeholder note)

def exprs (scope : Scope) : List Expr → Noting (List Expr)
  | [] => pure []
  | e :: es => do return (← expr scope e) :: (← exprs scope es)

end

/-- The expression, if there is one. -/
def optExpr (scope : Scope) : Option Expr → Noting (Option Expr)
  | none => pure none
  | some e => some <$> expr scope e

/-! ## Statements -/

mutual

/-- A statement (`stmt`). A label is lost, and the statement behind it stands in a
block behind the placeholder. -/
def stmt (scope : Scope) : Stmt → Noting Stmt
  | .expr e => do return .expr (← expr scope e)
  | .declare name ty init => do
    return .declare name (← typeRef scope ty) (← optExpr scope init)
  | .block body => do return .block (← stmts scope body)
  | .ifElse test consequent alternate => do
    let test ← expr scope test
    let consequent ← stmt scope consequent
    match alternate with
    | none => return .ifElse test consequent none
    | some s => return .ifElse test consequent (some (← stmt scope s))
  | .whileLoop test body => do return .whileLoop (← expr scope test) (← stmt scope body)
  | .forLoop init test update body => do
    return .forLoop (← stmts scope init) (← optExpr scope test) (← exprs scope update)
      (← stmt scope body)
  | .forEach variableName ty iterable body => do
    return .forEach variableName (← typeRef scope ty) (← expr scope iterable) (← stmt scope body)
  | .returns value => do return .returns (← optExpr scope value)
  | .breakLoop => pure .breakLoop
  | .continueLoop => pure .continueLoop
  | .throws value => do return .throws (← expr scope value)
  | .tryCatch body catches cleanup => do
    let body ← stmts scope body
    let catches ← catchClauses scope catches
    match cleanup with
    | none => return .tryCatch body catches none
    | some ss => return .tryCatch body catches (some (← stmts scope ss))
  | .labeled label body span => do
    warn span (.label label)
    return .block [.placeholder (Loss.label label).note, ← stmt scope body]
  | .placeholder note => pure (.placeholder note)

/-- The statements of a block (`block`). -/
def stmts (scope : Scope) : List Stmt → Noting (List Stmt)
  | [] => pure []
  | s :: ss => do return (← stmt scope s) :: (← stmts scope ss)

/-- The clauses behind a try. The type of each is recast before its body. -/
def catchClauses (scope : Scope) : List CatchClause → Noting (List CatchClause)
  | [] => pure []
  | ⟨param, ty, body⟩ :: cs => do
    let ty ← typeRef scope ty
    let body ← stmts scope body
    return ⟨param, ty, body⟩ :: (← catchClauses scope cs)

end

end Recast.Recasting
