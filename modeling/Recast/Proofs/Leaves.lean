-- The leaves of trees, from left to right: names, types, methods, operators
-- and literals, and the constructs that are lost. Here is told what the
-- leaves of source trees and of target trees are, what recasting makes of
-- each, and what it notes there.
import Recast.Recasting.Unit

namespace Recast

/-! ## References to types -/

mutual

/-- The reference and those in its arguments, outer ones first. -/
def TypeRef.parts : TypeRef → List TypeRef
  | ⟨name, args, dims⟩ => ⟨name, args, dims⟩ :: TypeRef.allParts args

def TypeRef.allParts : List TypeRef → List TypeRef
  | [] => []
  | t :: ts => t.parts ++ TypeRef.allParts ts

end

/-- The identities that a reference names. -/
def TypeRef.identities (t : TypeRef) : List String := t.parts.map (·.name)

mutual

/-- The reference with other names. Arguments stay where they are and the
dimensions stay. -/
def TypeRef.rename (f : String → String) : TypeRef → TypeRef
  | ⟨name, args, dims⟩ => ⟨f name, TypeRef.renameAll f args, dims⟩

def TypeRef.renameAll (f : String → String) : List TypeRef → List TypeRef
  | [] => []
  | t :: ts => t.rename f :: TypeRef.renameAll f ts

end

/-! ## Leaves -/

/-- A leaf of a tree. A construct that is lost is a leaf of source trees
alone. -/
inductive Leaf
  | literal (value : Literal)
  /-- The name of a variable, of a parameter or of a field. -/
  | name (name : String)
  | self
  | unary (op : UnaryOp)
  | binary (op : BinaryOp)
  | type (ref : TypeRef)
  /-- A method that is called. -/
  | call (method : String) (binding : Option String)
  /-- A method of the type at `path`, with its dotted identity in source
  trees. -/
  | method (path name : String) (binding : Option String)
  | lost (warning : Warning)

mutual

def Expr.leaves : Expr → List Leaf
  | .literal value => [.literal value]
  | .ident name => [.name name]
  | .self => [.self]
  | .type ty => [.type ty]
  | .field object name => object.leaves ++ [.name name]
  | .call none method binding args => .call method binding :: exprLeaves args
  | .call (some target) method binding args =>
    target.leaves ++ .call method binding :: exprLeaves args
  | .new ty args => .type ty :: exprLeaves args
  | .binary left op right => left.leaves ++ .binary op :: right.leaves
  | .unary op operand => .unary op :: operand.leaves
  | .assign target value => target.leaves ++ value.leaves
  | .conditional test consequent alternate =>
    test.leaves ++ (consequent.leaves ++ alternate.leaves)
  | .cast ty operand => .type ty :: operand.leaves
  | .instanceOf operand ty => operand.leaves ++ [.type ty]
  | .anonymousClass ty span => [.lost ⟨span, .anonymousClass ty.simpleName⟩]
  | .placeholder _ => []

def exprLeaves : List Expr → List Leaf
  | [] => []
  | e :: es => e.leaves ++ exprLeaves es

end

def optExprLeaves : Option Expr → List Leaf
  | none => []
  | some e => e.leaves

mutual

def Stmt.leaves : Stmt → List Leaf
  | .expr e => e.leaves
  | .declare name ty init => .name name :: .type ty :: optExprLeaves init
  | .block body => stmtLeaves body
  | .ifElse test consequent none => test.leaves ++ consequent.leaves
  | .ifElse test consequent (some alternate) =>
    test.leaves ++ (consequent.leaves ++ alternate.leaves)
  | .whileLoop test body => test.leaves ++ body.leaves
  | .forLoop init test update body =>
    stmtLeaves init ++ (optExprLeaves test ++ (exprLeaves update ++ body.leaves))
  | .forEach variableName ty iterable body =>
    .name variableName :: .type ty :: (iterable.leaves ++ body.leaves)
  | .returns value => optExprLeaves value
  | .breakLoop => []
  | .continueLoop => []
  | .throws value => value.leaves
  | .tryCatch body catches none => stmtLeaves body ++ catchLeaves catches
  | .tryCatch body catches (some cleanup) =>
    stmtLeaves body ++ (catchLeaves catches ++ stmtLeaves cleanup)
  | .labeled label body span => .lost ⟨span, .label label⟩ :: body.leaves
  | .placeholder _ => []

def stmtLeaves : List Stmt → List Leaf
  | [] => []
  | s :: ss => s.leaves ++ stmtLeaves ss

def catchLeaves : List CatchClause → List Leaf
  | [] => []
  | ⟨param, ty, body⟩ :: cs => .name param :: .type ty :: (stmtLeaves body ++ catchLeaves cs)

end

def optStmtLeaves : Option (List Stmt) → List Leaf
  | none => []
  | some ss => stmtLeaves ss

/-! ## The leaves of source units -/

namespace Source

def FieldDecl.leaves (f : FieldDecl) : List Leaf := .type f.ty :: optExprLeaves f.init

def paramLeaves (ps : List Param) : List Leaf := ps.map (.type ·.ty)

/-- A method of the type with identity `owner`. Nothing in a native method
is recast. -/
def MethodDecl.leaves (owner path : String) (m : MethodDecl) : List Leaf :=
  if m.has .native then [.lost ⟨m.span, .nativeMethod m.name⟩]
  else
    .method path m.name (some (owner ++ "." ++ m.name)) :: (optStmtLeaves m.body ++
      ((if m.has .synchronized then [.lost ⟨m.span, .synchronizedMethod m.name⟩] else []) ++
        (paramLeaves m.params ++ m.returnType.toList.map .type)))

def MethodDecl.constructorLeaves (m : MethodDecl) : List Leaf :=
  paramLeaves m.params ++ optStmtLeaves m.body

mutual

/-- The leaves of a type, given its identity and its path in the target.
Annotation types have none. -/
def TypeDecl.leaves (identity path : String) : TypeDecl → List Leaf
  | ⟨_, kind, _, base, interfaces, _, members, _⟩ =>
    match kind with
    | .annotationType => []
    | _ => (base.toList ++ interfaces).map .type ++ memberLeaves identity path members

def Member.leaves (identity path : String) : Member → List Leaf
  | .field f => f.leaves
  | .method m => m.leaves identity path
  | .constructor m => m.constructorLeaves
  | .type decl => decl.leaves (identity ++ "." ++ decl.name) (path ++ "." ++ decl.name)

def memberLeaves (identity path : String) : List Member → List Leaf
  | [] => []
  | m :: ms => m.leaves identity path ++ memberLeaves identity path ms

end

theorem TypeDecl.leaves_of_kind (identity path : String) {decl : TypeDecl}
    (h : decl.kind ≠ .annotationType) : decl.leaves identity path =
      (decl.base.toList ++ decl.interfaces).map .type ++
        memberLeaves identity path decl.members := by
  obtain ⟨name, kind, modifiers, base, interfaces, constants, members, span⟩ := decl
  cases kind with
  | annotationType => exact absurd rfl h
  | classType => simp [leaves]
  | interfaceType => simp [leaves]
  | enumType => simp [leaves]

theorem TypeDecl.leaves_of_annotationType (identity path : String) {decl : TypeDecl}
    (h : decl.kind = .annotationType) : decl.leaves identity path = [] := by
  obtain ⟨name, kind, modifiers, base, interfaces, constants, members, span⟩ := decl
  cases h
  simp [leaves]

end Source

def SourceUnit.leaves (u : SourceUnit) : List Leaf :=
  u.types.flatMap fun decl => decl.leaves (u.qualify decl.name) decl.name

/-! ## The leaves of target units -/

namespace Target

def paramLeaves (ps : List Param) : List Leaf := ps.map (.type ·.ty)

mutual

def TypeDecl.leaves (path : String) : TypeDecl → List Leaf
  | ⟨_, _, _, bases, _, members⟩ => bases.map .type ++ memberLeaves path members

def Member.leaves (path : String) : Member → List Leaf
  | .field _ ty _ init => .type ty :: optExprLeaves init
  | .method name params returnType _ body =>
    .method path name none ::
      (optStmtLeaves body ++ (paramLeaves params ++ returnType.toList.map .type))
  | .constructor _ params _ body => paramLeaves params ++ stmtLeaves body
  | .type decl => decl.leaves (path ++ "." ++ decl.name)
  | .placeholder _ => []

def memberLeaves (path : String) : List Member → List Leaf
  | [] => []
  | m :: ms => m.leaves path ++ memberLeaves path ms

end

end Target

def TargetUnit.leaves (u : TargetUnit) : List Leaf :=
  u.types.flatMap fun decl => decl.leaves decl.name

/-! ## What leaves become -/

namespace Recasting

theorem kind?_eq_none {kind : Source.TypeKind} : kind? kind = none ↔ kind = .annotationType := by
  cases kind <;> simp [kind?]

/-- The printed name of a type. -/
def Scope.nameOf (scope : Scope) (identity : String) : String :=
  match scope.type? identity with
  | none => simpleName identity
  | some ref => ref.name

/-- The namespace that a unit must name to use a type, if there is one. -/
def Scope.needed? (scope : Scope) (identity : String) : Option String :=
  (scope.type? identity).bind fun ref => ref.space.filter fun space => scope.space ≠ some space

/-- The printed name of a method. -/
def Scope.methodName (scope : Scope) (name : String) : Option String → String
  | some identity => scope.memberName identity
  | none => pascalCase name

/-- What a leaf becomes. -/
def Scope.leaf? (scope : Scope) : Leaf → Option Leaf
  | .literal value => some (.literal value)
  | .name name => some (.name name)
  | .self => some .self
  | .unary op => some (.unary op)
  | .binary op => some (.binary op)
  | .type ref => some (.type (ref.rename scope.nameOf))
  | .call method binding => some (.call (scope.methodName method binding) none)
  | .method path name binding => some (.method path (scope.methodName name binding) none)
  | .lost _ => none

/-- The notes with more namespaces. -/
def Notes.needing (notes : Notes) (spaces : List String) : Notes :=
  { notes with usings := spaces.foldl .insert notes.usings }

theorem Notes.needing_needing (notes : Notes) (spaces spaces' : List String) :
    (notes.needing spaces).needing spaces' = notes.needing (spaces ++ spaces') := by
  simp [needing]

/-- What is noted at a leaf. -/
def Notes.meet (scope : Scope) (notes : Notes) : Leaf → Notes
  | .type ref => notes.needing (ref.identities.filterMap scope.needed?)
  | .lost warning => { notes with warnings := notes.warnings ++ [warning] }
  | _ => notes

/-- The notes after some leaves. -/
def Notes.after (scope : Scope) (notes : Notes) (leaves : List Leaf) : Notes :=
  leaves.foldl (.meet scope) notes

@[simp] theorem Notes.after_nil (scope : Scope) (notes : Notes) : notes.after scope [] = notes := rfl

@[simp] theorem Notes.after_append (scope : Scope) (notes : Notes) (leaves leaves' : List Leaf) :
    notes.after scope (leaves ++ leaves') = (notes.after scope leaves).after scope leaves' :=
  List.foldl_append

@[simp] theorem Notes.after_cons (scope : Scope) (notes : Notes) (leaf : Leaf)
    (leaves : List Leaf) :
    notes.after scope (leaf :: leaves) = (notes.meet scope leaf).after scope leaves := rfl

/-- The leaves that some leaves become. -/
def Scope.recastLeaves (scope : Scope) (leaves : List Leaf) : List Leaf :=
  leaves.filterMap scope.leaf?

@[simp] theorem Scope.recastLeaves_nil (scope : Scope) : scope.recastLeaves [] = [] := rfl

@[simp] theorem Scope.recastLeaves_append (scope : Scope) (leaves leaves' : List Leaf) :
    scope.recastLeaves (leaves ++ leaves') =
      scope.recastLeaves leaves ++ scope.recastLeaves leaves' :=
  List.filterMap_append

@[simp] theorem Scope.recastLeaves_cons (scope : Scope) (leaf : Leaf) (leaves : List Leaf) :
    scope.recastLeaves (leaf :: leaves) =
      (scope.leaf? leaf).toList ++ scope.recastLeaves leaves := by
  unfold recastLeaves
  cases h : scope.leaf? leaf <;> simp [h]

theorem Scope.recastLeaves_types (scope : Scope) (ts : List TypeRef) :
    scope.recastLeaves (ts.map .type) = (TypeRef.renameAll scope.nameOf ts).map .type := by
  induction ts with
  | nil => rfl
  | cons t ts ih => simp [Scope.leaf?, TypeRef.renameAll, ih]

end Recasting

end Recast
