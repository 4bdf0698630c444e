-- Outlines: what is left of a type without the names that a binding gives,
-- without types and without modifiers. Its members stand in it in their order,
-- and of each piece of code its tokens. Recasting keeps outlines.
import Recast.Proofs.Counterparts
import Recast.Proofs.Unit

namespace Recast

/-! ## Tokens -/

/-- A piece of code that is recast as it is. Types and names of methods are
not among these, and neither are blocks and labels. -/
inductive Token
  | literal (value : Literal)
  | ident (name : String)
  | self
  | field (name : String)
  | unary (op : UnaryOp)
  | binary (op : BinaryOp)
  | localName (name : String)
  | loopVariable (name : String)
  | caught (param : String)
  /-- A call with so many arguments. -/
  | call (args : Nat)
  | new (args : Nat)
  | assign
  | conditional
  | cast
  | instanceOf
  | ifElse
  /-- What comes behind it is done or taken instead. -/
  | alternate
  | whileLoop
  | forLoop
  | returns
  | breakLoop
  | continueLoop
  | throws
  | tryCatch
  | cleanup
deriving Repr, DecidableEq

mutual

/-- The tokens of an expression, in the order in which it is read. An anonymous
class has none, as little as the placeholder that it becomes. -/
def Expr.tokens : Expr → List Token
  | .literal value => [.literal value]
  | .ident name => [.ident name]
  | .self => [.self]
  | .type _ => []
  | .field object name => object.tokens ++ [.field name]
  | .call none _ _ args => .call args.length :: exprTokens args
  | .call (some target) _ _ args => target.tokens ++ .call args.length :: exprTokens args
  | .new _ args => .new args.length :: exprTokens args
  | .binary left op right => left.tokens ++ .binary op :: right.tokens
  | .unary op operand => .unary op :: operand.tokens
  | .assign target value => target.tokens ++ .assign :: value.tokens
  | .conditional test consequent alternate =>
    test.tokens ++ .conditional :: (consequent.tokens ++ .alternate :: alternate.tokens)
  | .cast _ operand => .cast :: operand.tokens
  | .instanceOf operand _ => operand.tokens ++ [.instanceOf]
  | .anonymousClass _ _ => []
  | .placeholder _ => []

def exprTokens : List Expr → List Token
  | [] => []
  | e :: es => e.tokens ++ exprTokens es

end

def optExprTokens : Option Expr → List Token
  | none => []
  | some e => e.tokens

mutual

def Stmt.tokens : Stmt → List Token
  | .expr e => e.tokens
  | .declare name _ init => .localName name :: optExprTokens init
  | .block body => stmtTokens body
  | .ifElse test consequent none => .ifElse :: (test.tokens ++ consequent.tokens)
  | .ifElse test consequent (some alternate) =>
    .ifElse :: (test.tokens ++ (consequent.tokens ++ .alternate :: alternate.tokens))
  | .whileLoop test body => .whileLoop :: (test.tokens ++ body.tokens)
  | .forLoop init test update body =>
    .forLoop :: (stmtTokens init ++ (optExprTokens test ++ (exprTokens update ++ body.tokens)))
  | .forEach variableName _ iterable body =>
    .loopVariable variableName :: (iterable.tokens ++ body.tokens)
  | .returns value => .returns :: optExprTokens value
  | .breakLoop => [.breakLoop]
  | .continueLoop => [.continueLoop]
  | .throws value => .throws :: value.tokens
  | .tryCatch body catches none => .tryCatch :: (stmtTokens body ++ catchTokens catches)
  | .tryCatch body catches (some cleanup) =>
    .tryCatch :: (stmtTokens body ++ (catchTokens catches ++ .cleanup :: stmtTokens cleanup))
  | .labeled _ body _ => body.tokens
  | .placeholder _ => []

def stmtTokens : List Stmt → List Token
  | [] => []
  | s :: ss => s.tokens ++ stmtTokens ss

def catchTokens : List CatchClause → List Token
  | [] => []
  | ⟨param, _, body⟩ :: cs => .caught param :: (stmtTokens body ++ catchTokens cs)

end

/-! ## Outlines -/

inductive Outline
  | field (name : String) (init : Option (List Token))
  | method (params : List String) (body : Option (List Token))
  | constructor (params : List String) (body : List Token)
  | type (name : String) (kind : Source.TypeKind) (constants : List String)
      (members : List Outline)
  | placeholder (note : String)

namespace Source

/-- For a native method there is a placeholder that names it. -/
def MethodDecl.outline (m : MethodDecl) : Outline :=
  if m.has .native then .placeholder (Loss.nativeMethod m.name).note
  else .method (m.params.map (·.name)) (m.body.map stmtTokens)

mutual

/-- An annotation type has no outline. -/
def TypeDecl.outline? : TypeDecl → Option Outline
  | ⟨name, kind, _, _, _, constants, members, _⟩ =>
    if kind = .annotationType then none
    else some (.type name kind constants (memberOutlines members))

def Member.outline? : Member → Option Outline
  | .field f => some (.field f.name (f.init.map (·.tokens)))
  | .method m => some m.outline
  | .constructor m =>
    some (.constructor (m.params.map (·.name)) ((m.body.map stmtTokens).getD []))
  | .type decl => decl.outline?

/-- The outlines of the members, without the annotation types. -/
def memberOutlines : List Member → List Outline
  | [] => []
  | m :: ms => m.outline?.toList ++ memberOutlines ms

end

end Source

namespace Target

def TypeKind.source : TypeKind → Source.TypeKind
  | .classType => .classType
  | .interfaceType => .interfaceType
  | .enumType => .enumType

mutual

def TypeDecl.outline : TypeDecl → Outline
  | ⟨name, kind, _, _, constants, members⟩ =>
    .type name kind.source constants (memberOutlines members)

def Member.outline : Member → Outline
  | .field name _ _ init => .field name (init.map (·.tokens))
  | .method _ params _ _ body => .method (params.map (·.name)) (body.map stmtTokens)
  | .constructor _ params _ body => .constructor (params.map (·.name)) (stmtTokens body)
  | .type decl => decl.outline
  | .placeholder note => .placeholder note

def memberOutlines : List Member → List Outline
  | [] => []
  | m :: ms => m.outline :: memberOutlines ms

end

end Target

namespace Recasting

/-! ## Code keeps its tokens -/

theorem length_exprs (scope : Scope) (es : List Expr) : (scope.exprs es).length = es.length := by
  induction es with
  | nil => rfl
  | cons e es ih => simp [Scope.exprs, ih]

mutual

theorem tokens_expr (scope : Scope) : ∀ e : Expr, (scope.expr e).tokens = e.tokens
  | .literal _ => rfl
  | .ident _ => rfl
  | .self => rfl
  | .type _ => rfl
  | .field object name => by simp [Scope.expr, Expr.tokens, tokens_expr scope object]
  | .call none method binding args => by
    simp [Scope.expr, Expr.tokens, length_exprs, tokens_exprs scope args]
  | .call (some target) method binding args => by
    simp [Scope.expr, Expr.tokens, length_exprs, tokens_expr scope target,
      tokens_exprs scope args]
  | .new ty args => by simp [Scope.expr, Expr.tokens, length_exprs, tokens_exprs scope args]
  | .binary left op right => by
    simp [Scope.expr, Expr.tokens, tokens_expr scope left, tokens_expr scope right]
  | .unary op operand => by simp [Scope.expr, Expr.tokens, tokens_expr scope operand]
  | .assign target value => by
    simp [Scope.expr, Expr.tokens, tokens_expr scope target, tokens_expr scope value]
  | .conditional test consequent alternate => by
    simp [Scope.expr, Expr.tokens, tokens_expr scope test, tokens_expr scope consequent,
      tokens_expr scope alternate]
  | .cast ty operand => by simp [Scope.expr, Expr.tokens, tokens_expr scope operand]
  | .instanceOf operand ty => by simp [Scope.expr, Expr.tokens, tokens_expr scope operand]
  | .anonymousClass _ _ => rfl
  | .placeholder _ => rfl

theorem tokens_exprs (scope : Scope) : ∀ es : List Expr,
    exprTokens (scope.exprs es) = exprTokens es
  | [] => rfl
  | e :: es => by simp [Scope.exprs, exprTokens, tokens_expr scope e, tokens_exprs scope es]

end

theorem tokens_optExpr (scope : Scope) : ∀ e? : Option Expr,
    optExprTokens (scope.optExpr e?) = optExprTokens e?
  | none => rfl
  | some e => tokens_expr scope e

mutual

theorem tokens_stmt (scope : Scope) : ∀ s : Stmt, (scope.stmt s).tokens = s.tokens
  | .expr e => by simp [Scope.stmt, Stmt.tokens, tokens_expr scope e]
  | .declare name ty init => by simp [Scope.stmt, Stmt.tokens, tokens_optExpr scope init]
  | .block body => by simp [Scope.stmt, Stmt.tokens, tokens_stmts scope body]
  | .ifElse test consequent none => by
    simp [Scope.stmt, Stmt.tokens, tokens_expr scope test, tokens_stmt scope consequent]
  | .ifElse test consequent (some alternate) => by
    simp [Scope.stmt, Stmt.tokens, tokens_expr scope test, tokens_stmt scope consequent,
      tokens_stmt scope alternate]
  | .whileLoop test body => by
    simp [Scope.stmt, Stmt.tokens, tokens_expr scope test, tokens_stmt scope body]
  | .forLoop init test update body => by
    simp [Scope.stmt, Stmt.tokens, tokens_stmts scope init, tokens_optExpr scope test,
      tokens_exprs scope update, tokens_stmt scope body]
  | .forEach variableName ty iterable body => by
    simp [Scope.stmt, Stmt.tokens, tokens_expr scope iterable, tokens_stmt scope body]
  | .returns value => by simp [Scope.stmt, Stmt.tokens, tokens_optExpr scope value]
  | .breakLoop => rfl
  | .continueLoop => rfl
  | .throws value => by simp [Scope.stmt, Stmt.tokens, tokens_expr scope value]
  | .tryCatch body catches none => by
    simp [Scope.stmt, Stmt.tokens, tokens_stmts scope body, tokens_catches scope catches]
  | .tryCatch body catches (some cleanup) => by
    simp [Scope.stmt, Stmt.tokens, tokens_stmts scope body, tokens_catches scope catches,
      tokens_stmts scope cleanup]
  | .labeled label body span => by
    -- The label becomes a block and a placeholder, and neither has tokens.
    simp [Scope.stmt, Stmt.tokens, stmtTokens, tokens_stmt scope body]
  | .placeholder _ => rfl

theorem tokens_stmts (scope : Scope) : ∀ ss : List Stmt,
    stmtTokens (scope.stmts ss) = stmtTokens ss
  | [] => rfl
  | s :: ss => by simp [Scope.stmts, stmtTokens, tokens_stmt scope s, tokens_stmts scope ss]

theorem tokens_catches (scope : Scope) : ∀ cs : List CatchClause,
    catchTokens (scope.catches cs) = catchTokens cs
  | [] => rfl
  | ⟨param, ty, body⟩ :: cs => by
    simp [Scope.catches, catchTokens, tokens_stmts scope body, tokens_catches scope cs]

end

theorem tokens_optStmts (scope : Scope) : ∀ ss? : Option (List Stmt),
    (scope.optStmts ss?).map stmtTokens = ss?.map stmtTokens
  | none => rfl
  | some ss => congrArg some (tokens_stmts scope ss)

/-- The note about the lock has no tokens. -/
theorem tokens_body (scope : Scope) (m : Source.MethodDecl) :
    (scope.body m).map stmtTokens = m.body.map stmtTokens := by
  rw [← tokens_optStmts scope m.body]
  unfold Scope.body
  split
  · cases scope.optStmts m.body <;> rfl
  · rfl

/-! ## Types keep their outlines -/

theorem names_params (scope : Scope) (ps : List Source.Param) :
    (scope.params ps).map (·.name) = ps.map (·.name) := by
  simp [Scope.params, Function.comp_def]

theorem outline_field (scope : Scope) (f : Source.FieldDecl) :
    some (scope.field f).outline = (Source.Member.field f).outline? := by
  unfold Scope.field Target.Member.outline Source.Member.outline?
  cases f.init with
  | none => rfl
  | some e => simp [Scope.optExpr, tokens_expr]

theorem outline_method (scope : Scope) (owner : String) (inInterface : Bool)
    (m : Source.MethodDecl) : (scope.method owner inInterface m).outline = m.outline := by
  unfold Scope.method Source.MethodDecl.outline
  cases m.has .native with
  | true => rfl
  | false => simp [Target.Member.outline, names_params, tokens_body]

theorem outline_construct (scope : Scope) (typeName : String) (m : Source.MethodDecl) :
    some (scope.construct typeName m).outline = (Source.Member.constructor m).outline? := by
  unfold Scope.construct Target.Member.outline Source.Member.outline?
  rw [names_params, ← tokens_optStmts scope]
  cases scope.optStmts m.body <;> rfl

mutual

theorem outline_typeDecl (scope : Scope) (identity : String) : ∀ decl : Source.TypeDecl,
    (scope.typeDecl identity decl).map (·.outline) = decl.outline?
  | ⟨name, kind, modifiers, base, interfaces, constants, declared, span⟩ => by
    cases kind with
    | annotationType => rfl
    | classType | interfaceType | enumType =>
      simp [Scope.typeDecl, kind?, Source.TypeDecl.outline?, Target.TypeDecl.outline,
        Target.TypeKind.source, outline_members scope identity name _ declared]

theorem outline_members (scope : Scope) (owner typeName : String) (inInterface : Bool) :
    ∀ declared : List Source.Member,
    Target.memberOutlines (scope.members owner typeName inInterface declared) =
      Source.memberOutlines declared
  | [] => rfl
  | .field f :: rest => by
    simp [Scope.members, Target.memberOutlines, Source.memberOutlines, ← outline_field scope,
      outline_members scope owner typeName inInterface rest]
  | .method m :: rest => by
    simp [Scope.members, Target.memberOutlines, Source.memberOutlines, Source.Member.outline?,
      outline_method, outline_members scope owner typeName inInterface rest]
  | .constructor m :: rest => by
    simp [Scope.members, Target.memberOutlines, Source.memberOutlines,
      ← outline_construct scope typeName, outline_members scope owner typeName inInterface rest]
  | .type decl :: rest => by
    have hrest := outline_members scope owner typeName inInterface rest
    simp only [Scope.members, Source.memberOutlines, Source.Member.outline?,
      ← outline_typeDecl scope (owner ++ "." ++ decl.name) decl, ← hrest]
    cases scope.typeDecl (owner ++ "." ++ decl.name) decl <;> rfl

end

end Recasting

/-- The types of a target unit are those of the unit that are no annotation
types, in their order and with their outlines. So each keeps its constants and
the order of its members; only annotation types are left out, and a placeholder
stands in the place of each native method. Every initial value and every body keeps its
tokens in their order. -/
theorem recasting_keeps_outlines {u : SourceUnit} {bindings : Bindings} {target : TargetUnit}
    (h : (u.recast bindings).result = .ok target) :
    target.types.map (·.outline) = u.types.filterMap (·.outline?) := by
  rw [(u.recast_gives h).1]
  unfold Recasting.Scope.typeDecls
  rw [List.map_filterMap]
  congr 1
  funext decl
  exact Recasting.outline_typeDecl _ _ decl

/-- An enumeration with an annotation type, a native method, a constructor
without a body, and a synchronized method that counts in a labeled loop. -/
def countingUnit : SourceUnit :=
  ⟨"Mode", none, [], [{ Source.TypeDecl.empty "Mode" .enumType with
    constants := ["on", "off"],
    members := [
      .type (.empty "Kept" .annotationType),
      .fieldOf "size" (.named "int"),
      .method ⟨"poll", [], none, [.native], none, .none⟩,
      .constructor ⟨"Mode", [⟨"size", .named "int"⟩], none, [], none, .none⟩,
      .method ⟨"count", [], none, [.synchronized], some [
        .labeled "all" (.forLoop [.declare "i" (.named "int") (some (.int 0))]
          (some (.binary (.ident "i") .lt (.field .self "size")))
          [.assign (.ident "i") (.binary (.ident "i") .add (.int 1))]
          (.tryCatch [.expr (.call none "go" (some "Mode.go") [.ident "i"])]
            [⟨"e", .named "Error", [.breakLoop]⟩] (some [.returns none]))) .none],
        .none⟩] }], []⟩

theorem a_labeled_loop_keeps_its_tokens :
    countingUnit.types.filterMap (·.outline?) =
      [.type "Mode" .enumType ["on", "off"] [
        .field "size" none, .placeholder (Loss.nativeMethod "poll").note, .constructor ["size"] [],
        .method [] (some [.forLoop, .localName "i", .literal (.int 0), .ident "i", .binary .lt,
          .self, .field "size", .ident "i", .assign, .ident "i", .binary .add, .literal (.int 1),
          .tryCatch, .call 1, .ident "i", .caught "e", .breakLoop, .cleanup, .returns])]] ∧
    ∃ target, (countingUnit.recast .empty).result = .ok target ∧
      target.types.map (·.outline) = countingUnit.types.filterMap (·.outline?) := by
  have htarget := congrArg Recasting.Outcome.result
    (SourceUnit.recast_of_bound (u := countingUnit) (b := .empty) (by decide +kernel))
  exact ⟨rfl, _, htarget, recasting_keeps_outlines htarget⟩

end Recast
