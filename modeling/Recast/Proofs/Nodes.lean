-- The nodes of trees: the expressions, statements and methods that stand
-- somewhere in a unit. A statement is listed with its place, and what stands
-- in a node is listed behind it; only a method comes behind its body.
import Recast.Recasting.Unit

namespace Recast

/-! ## The places of statements -/

/-- The rows that statements stand in. -/
inductive Row
  | block
  | methodBody
  | constructorBody
  | loopInit
  | tryBody
  | catchBody
  | cleanup
deriving Repr, DecidableEq

inductive Spot
  /-- In a row, with so many statements before it. -/
  | inRow (row : Row) (index : Nat)
  | thenBranch
  | elseBranch
  /-- The body of a loop with a test, a counter or a collection. -/
  | loopBody
  | behindLabel
deriving Repr, DecidableEq

/-! ## Nodes -/

inductive Node
  | expr (e : Expr)
  | stmt (spot : Spot) (s : Stmt)
  /-- A method, in source units alone. -/
  | method (m : Source.MethodDecl)
  /-- A placeholder in the place of a member, in target units alone. -/
  | gap (note : String)

mutual

def Expr.nodes : Expr → List Node
  | .literal value => [.expr (.literal value)]
  | .ident name => [.expr (.ident name)]
  | .self => [.expr .self]
  | .type ty => [.expr (.type ty)]
  | .field object name => .expr (.field object name) :: object.nodes
  | .call none method binding args => .expr (.call none method binding args) :: exprNodes args
  | .call (some target) method binding args =>
    .expr (.call (some target) method binding args) :: (target.nodes ++ exprNodes args)
  | .new ty args => .expr (.new ty args) :: exprNodes args
  | .binary left op right => .expr (.binary left op right) :: (left.nodes ++ right.nodes)
  | .unary op operand => .expr (.unary op operand) :: operand.nodes
  | .assign target value => .expr (.assign target value) :: (target.nodes ++ value.nodes)
  | .conditional test consequent alternate =>
    .expr (.conditional test consequent alternate) ::
      (test.nodes ++ (consequent.nodes ++ alternate.nodes))
  | .cast ty operand => .expr (.cast ty operand) :: operand.nodes
  | .instanceOf operand ty => .expr (.instanceOf operand ty) :: operand.nodes
  | .anonymousClass ty span => [.expr (.anonymousClass ty span)]
  | .placeholder note => [.expr (.placeholder note)]

def exprNodes : List Expr → List Node
  | [] => []
  | e :: es => e.nodes ++ exprNodes es

end

def optExprNodes : Option Expr → List Node
  | none => []
  | some e => e.nodes

mutual

def Stmt.nodes (spot : Spot) : Stmt → List Node
  | .expr e => .stmt spot (.expr e) :: e.nodes
  | .declare name ty init => .stmt spot (.declare name ty init) :: optExprNodes init
  | .block body => .stmt spot (.block body) :: stmtNodes .block 0 body
  | .ifElse test consequent none =>
    .stmt spot (.ifElse test consequent none) :: (test.nodes ++ consequent.nodes .thenBranch)
  | .ifElse test consequent (some alternate) =>
    .stmt spot (.ifElse test consequent (some alternate)) ::
      (test.nodes ++ (consequent.nodes .thenBranch ++ alternate.nodes .elseBranch))
  | .whileLoop test body =>
    .stmt spot (.whileLoop test body) :: (test.nodes ++ body.nodes .loopBody)
  | .forLoop init test update body =>
    .stmt spot (.forLoop init test update body) :: (stmtNodes .loopInit 0 init ++
      (optExprNodes test ++ (exprNodes update ++ body.nodes .loopBody)))
  | .forEach variableName ty iterable body =>
    .stmt spot (.forEach variableName ty iterable body) ::
      (iterable.nodes ++ body.nodes .loopBody)
  | .returns value => .stmt spot (.returns value) :: optExprNodes value
  | .breakLoop => [.stmt spot .breakLoop]
  | .continueLoop => [.stmt spot .continueLoop]
  | .throws value => .stmt spot (.throws value) :: value.nodes
  | .tryCatch body catches none =>
    .stmt spot (.tryCatch body catches none) :: (stmtNodes .tryBody 0 body ++ catchNodes catches)
  | .tryCatch body catches (some cleanup) =>
    .stmt spot (.tryCatch body catches (some cleanup)) ::
      (stmtNodes .tryBody 0 body ++ (catchNodes catches ++ stmtNodes .cleanup 0 cleanup))
  | .labeled label body span =>
    .stmt spot (.labeled label body span) :: body.nodes .behindLabel
  | .placeholder note => [.stmt spot (.placeholder note)]

/-- The nodes of a row of statements, with so many statements before them. -/
def stmtNodes (row : Row) (before : Nat) : List Stmt → List Node
  | [] => []
  | s :: ss => s.nodes (.inRow row before) ++ stmtNodes row (before + 1) ss

def catchNodes : List CatchClause → List Node
  | [] => []
  | ⟨_, _, body⟩ :: cs => stmtNodes .catchBody 0 body ++ catchNodes cs

end

def optStmtNodes (row : Row) (before : Nat) : Option (List Stmt) → List Node
  | none => []
  | some ss => stmtNodes row before ss

/-! ## The nodes of units -/

namespace Source

/-- Nothing in a native method is recast. In a synchronized method the first
place is kept for its lock. -/
def MethodDecl.nodes (m : MethodDecl) : List Node :=
  if m.has .native then [.method m]
  else optStmtNodes .methodBody (if m.has .synchronized then 1 else 0) m.body ++ [.method m]

mutual

/-- Nothing in an annotation type is recast. -/
def TypeDecl.nodes : TypeDecl → List Node
  | ⟨_, kind, _, _, _, _, members, _⟩ =>
    match kind with
    | .annotationType => []
    | _ => memberNodes members

def Member.nodes : Member → List Node
  | .field f => optExprNodes f.init
  | .method m => m.nodes
  | .constructor m => optStmtNodes .constructorBody 0 m.body
  | .type decl => decl.nodes

def memberNodes : List Member → List Node
  | [] => []
  | m :: ms => m.nodes ++ memberNodes ms

end

end Source

def SourceUnit.nodes (u : SourceUnit) : List Node := u.types.flatMap (·.nodes)

namespace Target

mutual

def TypeDecl.nodes : TypeDecl → List Node
  | ⟨_, _, _, _, _, members⟩ => memberNodes members

def Member.nodes : Member → List Node
  | .field _ _ _ init => optExprNodes init
  | .method _ _ _ _ body => optStmtNodes .methodBody 0 body
  | .constructor _ _ _ body => stmtNodes .constructorBody 0 body
  | .type decl => decl.nodes
  | .placeholder note => [.gap note]

def memberNodes : List Member → List Node
  | [] => []
  | m :: ms => m.nodes ++ memberNodes ms

end

end Target

def TargetUnit.nodes (u : TargetUnit) : List Node := u.types.flatMap (·.nodes)

/-! ## Kinds of nodes -/

namespace Node

/-- The warning about a node that has no counterpart. -/
def warning? : Node → Option Warning
  | .method m =>
    if m.has .native then some ⟨m.span, .nativeMethod m.name⟩
    else if m.has .synchronized then some ⟨m.span, .synchronizedMethod m.name⟩
    else none
  | .stmt _ (.labeled label _ span) => some ⟨span, .label label⟩
  | .expr (.anonymousClass ty span) => some ⟨span, .anonymousClass ty.simpleName⟩
  | _ => none

def isPlaceholder : Node → Bool
  | .gap _ => true
  | .stmt _ (.placeholder _) => true
  | .expr (.placeholder _) => true
  | _ => false

/-- A synchronized method without a body, and so without a place for a note
about its lock. -/
def isBareLock : Node → Bool
  | .method m => !m.has .native && m.has .synchronized && m.body.isNone
  | _ => false

/-- The node may stand in a target unit: it is no labeled statement, no
anonymous class and no call with a binding. -/
def inTarget : Node → Bool
  | .stmt _ (.labeled _ _ _) => false
  | .expr (.anonymousClass _ _) => false
  | .expr (.call _ _ binding _) => binding.isNone
  | _ => true

end Node

end Recast
