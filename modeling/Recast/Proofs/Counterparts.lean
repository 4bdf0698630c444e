-- What trees become, told as functions on trees. Recasting a tree gives the
-- tree that these functions give, whatever was noted before, and it notes
-- the warnings about the nodes of the tree, in their order.
import Recast.Proofs.Nodes
import Recast.Proofs.Reading

namespace Recast

namespace Recasting

/-! ## Expressions and statements -/

mutual

def Scope.expr (scope : Scope) : Expr → Expr
  | .literal value => .literal value
  | .ident name => .ident name
  | .self => .self
  | .type ty => .type (ty.rename scope.nameOf)
  | .field object name => .field (scope.expr object) name
  | .call none method binding args =>
    .call none (scope.methodName method binding) none (scope.exprs args)
  | .call (some target) method binding args =>
    .call (some (scope.expr target)) (scope.methodName method binding) none (scope.exprs args)
  | .new ty args => .new (ty.rename scope.nameOf) (scope.exprs args)
  | .binary left op right => .binary (scope.expr left) op (scope.expr right)
  | .unary op operand => .unary op (scope.expr operand)
  | .assign target value => .assign (scope.expr target) (scope.expr value)
  | .conditional test consequent alternate =>
    .conditional (scope.expr test) (scope.expr consequent) (scope.expr alternate)
  | .cast ty operand => .cast (ty.rename scope.nameOf) (scope.expr operand)
  | .instanceOf operand ty => .instanceOf (scope.expr operand) (ty.rename scope.nameOf)
  | .anonymousClass ty _ => .placeholder (Loss.anonymousClass ty.simpleName).note
  | .placeholder note => .placeholder note

def Scope.exprs (scope : Scope) : List Expr → List Expr
  | [] => []
  | e :: es => scope.expr e :: scope.exprs es

end

def Scope.optExpr (scope : Scope) : Option Expr → Option Expr
  | none => none
  | some e => some (scope.expr e)

mutual

def Scope.stmt (scope : Scope) : Stmt → Stmt
  | .expr e => .expr (scope.expr e)
  | .declare name ty init => .declare name (ty.rename scope.nameOf) (scope.optExpr init)
  | .block body => .block (scope.stmts body)
  | .ifElse test consequent none => .ifElse (scope.expr test) (scope.stmt consequent) none
  | .ifElse test consequent (some alternate) =>
    .ifElse (scope.expr test) (scope.stmt consequent) (some (scope.stmt alternate))
  | .whileLoop test body => .whileLoop (scope.expr test) (scope.stmt body)
  | .forLoop init test update body =>
    .forLoop (scope.stmts init) (scope.optExpr test) (scope.exprs update) (scope.stmt body)
  | .forEach variableName ty iterable body =>
    .forEach variableName (ty.rename scope.nameOf) (scope.expr iterable) (scope.stmt body)
  | .returns value => .returns (scope.optExpr value)
  | .breakLoop => .breakLoop
  | .continueLoop => .continueLoop
  | .throws value => .throws (scope.expr value)
  | .tryCatch body catches none => .tryCatch (scope.stmts body) (scope.catches catches) none
  | .tryCatch body catches (some cleanup) =>
    .tryCatch (scope.stmts body) (scope.catches catches) (some (scope.stmts cleanup))
  | .labeled label body _ => .block [.placeholder (Loss.label label).note, scope.stmt body]
  | .placeholder note => .placeholder note

def Scope.stmts (scope : Scope) : List Stmt → List Stmt
  | [] => []
  | s :: ss => scope.stmt s :: scope.stmts ss

def Scope.catches (scope : Scope) : List CatchClause → List CatchClause
  | [] => []
  | ⟨param, ty, body⟩ :: cs =>
    ⟨param, ty.rename scope.nameOf, scope.stmts body⟩ :: scope.catches cs

end

def Scope.optStmts (scope : Scope) : Option (List Stmt) → Option (List Stmt)
  | none => none
  | some ss => some (scope.stmts ss)

/-! ## Members and types -/

def Scope.params (scope : Scope) (ps : List Source.Param) : List Target.Param :=
  ps.map fun p => ⟨p.name, p.ty.rename scope.nameOf⟩

def Scope.field (scope : Scope) (f : Source.FieldDecl) : Target.Member :=
  .field f.name (f.ty.rename scope.nameOf) (f.modifiers.filterMap fieldModifier?)
    (scope.optExpr f.init)

def Scope.body (scope : Scope) (m : Source.MethodDecl) : Option (List Stmt) :=
  if m.has .synchronized then
    (scope.optStmts m.body).map (.placeholder (Loss.synchronizedMethod m.name).note :: ·)
  else scope.optStmts m.body

def Scope.method (scope : Scope) (owner : String) (inInterface : Bool) (m : Source.MethodDecl) :
    Target.Member :=
  if m.has .native then .placeholder (Loss.nativeMethod m.name).note
  else
    .method (scope.memberName (owner ++ "." ++ m.name)) (scope.params m.params)
      (m.returnType.map (·.rename scope.nameOf))
      (if inInterface then [] else m.modifiers.filterMap methodModifier?) (scope.body m)

def Scope.construct (scope : Scope) (typeName : String) (m : Source.MethodDecl) : Target.Member :=
  .constructor typeName (scope.params m.params) (m.modifiers.filterMap methodModifier?)
    ((scope.optStmts m.body).getD [])

mutual

def Scope.typeDecl (scope : Scope) (identity : String) : Source.TypeDecl → Option Target.TypeDecl
  | ⟨name, kind, modifiers, base, interfaces, constants, declared, _⟩ =>
    match kind? kind with
    | none => none
    | some kind =>
      some ⟨name, kind, modifiers.filterMap typeModifier?,
        TypeRef.renameAll scope.nameOf (base.toList ++ interfaces), constants,
        scope.members identity name (kind == .interfaceType) declared⟩

def Scope.members (scope : Scope) (owner typeName : String) (inInterface : Bool) :
    List Source.Member → List Target.Member
  | [] => []
  | .field f :: rest => scope.field f :: scope.members owner typeName inInterface rest
  | .method m :: rest =>
    scope.method owner inInterface m :: scope.members owner typeName inInterface rest
  | .constructor m :: rest =>
    scope.construct typeName m :: scope.members owner typeName inInterface rest
  | .type decl :: rest =>
    ((scope.typeDecl (owner ++ "." ++ decl.name) decl).map .type).toList ++
      scope.members owner typeName inInterface rest

end

def Scope.typeDecls (scope : Scope) (qualify : String → String) (decls : List Source.TypeDecl) :
    List Target.TypeDecl :=
  decls.filterMap fun decl => scope.typeDecl (qualify decl.name) decl

/-! ## Steps that give a tree -/

variable {α β : Type} {scope : Scope} {warnings warnings' : List Warning}

/-- The step gives `a` and notes these warnings, whatever was noted before. -/
def Gives (x : Noting α) (a : α) (warnings : List Warning) : Prop :=
  ∀ notes, (x.run notes).1 = a ∧ (x.run notes).2.warnings = notes.warnings ++ warnings

namespace Gives

theorem pure (a : α) : Gives (Pure.pure a) a [] := fun _ => ⟨rfl, (List.append_nil _).symm⟩

theorem bind {x : Noting α} {f : α → Noting β} {a : α} {b : β} (hx : Gives x a warnings)
    (hf : Gives (f a) b warnings') : Gives (x >>= f) b (warnings ++ warnings') := by
  intro notes
  obtain ⟨hresult, hnotes⟩ := hx notes
  obtain ⟨hresult', hnotes'⟩ := hf (x.run notes).2
  rw [← hresult] at hresult' hnotes'
  refine ⟨hresult', ?_⟩
  rw [← List.append_assoc, ← hnotes]
  exact hnotes'

/-- A last step that only puts the result together. -/
theorem map {x : Noting α} {a : α} (f : α → β) (hx : Gives x a warnings) :
    Gives (x >>= fun a => Pure.pure (f a)) (f a) warnings := by
  intro notes
  obtain ⟨hresult, hnotes⟩ := hx notes
  exact ⟨congrArg f hresult, hnotes⟩

theorem some {x : Noting α} {a : α} (hx : Gives x a warnings) :
    Gives (Option.some <$> x) (Option.some a) warnings := by
  intro notes
  obtain ⟨hresult, hnotes⟩ := hx notes
  exact ⟨congrArg Option.some hresult, hnotes⟩

theorem warn (span : Span) (loss : Loss) : Gives (Recasting.warn span loss) () [⟨span, loss⟩] :=
  fun _ => ⟨rfl, rfl⟩

theorem of_eq {x : Noting α} {a : α} (hx : Gives x a warnings) (h : warnings = warnings') :
    Gives x a warnings' := h ▸ hx

end Gives

theorem gives_typeRef (scope : Scope) (t : TypeRef) :
    Gives (typeRef scope t) (t.rename scope.nameOf) [] := by
  intro notes
  rw [run_typeRef]
  exact ⟨rfl, (List.append_nil _).symm⟩

theorem gives_typeRefs (scope : Scope) (ts : List TypeRef) :
    Gives (typeRefs scope ts) (TypeRef.renameAll scope.nameOf ts) [] := by
  intro notes
  rw [run_typeRefs]
  exact ⟨rfl, (List.append_nil _).symm⟩

/-- The warnings about some nodes. -/
def warningsOf (nodes : List Node) : List Warning := nodes.filterMap Node.warning?

@[simp] theorem warningsOf_nil : warningsOf [] = [] := rfl

@[simp] theorem warningsOf_append (nodes nodes' : List Node) :
    warningsOf (nodes ++ nodes') = warningsOf nodes ++ warningsOf nodes' := List.filterMap_append

@[simp] theorem warningsOf_cons (node : Node) (nodes : List Node) :
    warningsOf (node :: nodes) = node.warning?.toList ++ warningsOf nodes := by
  unfold warningsOf
  cases h : node.warning? <;> simp [h]

mutual

theorem gives_expr (scope : Scope) : ∀ e : Expr,
    Gives (expr scope e) (scope.expr e) (warningsOf e.nodes)
  | .literal _ => .pure _
  | .ident _ => .pure _
  | .self => .pure _
  | .type ty => (gives_typeRef scope ty).map _
  | .field object name => by
    refine ((gives_expr scope object).map _).of_eq ?_
    simp [Expr.nodes, Node.warning?]
  | .call none method binding args => by
    cases binding with
    | none | some identity =>
      refine ((gives_exprs scope args).map _).of_eq ?_
      simp [Expr.nodes, Node.warning?]
  | .call (some target) method binding args => by
    cases binding with
    | none | some identity =>
      refine ((gives_expr scope target).some.bind ((gives_exprs scope args).map _)).of_eq ?_
      simp [Expr.nodes, Node.warning?]
  | .new ty args => by
    refine ((gives_typeRef scope ty).bind ((gives_exprs scope args).map _)).of_eq ?_
    simp [Expr.nodes, Node.warning?]
  | .binary left op right => by
    refine ((gives_expr scope left).bind ((gives_expr scope right).map _)).of_eq ?_
    simp [Expr.nodes, Node.warning?]
  | .unary op operand => by
    refine ((gives_expr scope operand).map _).of_eq ?_
    simp [Expr.nodes, Node.warning?]
  | .assign target value => by
    refine ((gives_expr scope target).bind ((gives_expr scope value).map _)).of_eq ?_
    simp [Expr.nodes, Node.warning?]
  | .conditional test consequent alternate => by
    refine ((gives_expr scope test).bind ((gives_expr scope consequent).bind
      ((gives_expr scope alternate).map _))).of_eq ?_
    simp [Expr.nodes, Node.warning?]
  | .cast ty operand => by
    refine ((gives_typeRef scope ty).bind ((gives_expr scope operand).map _)).of_eq ?_
    simp [Expr.nodes, Node.warning?]
  | .instanceOf operand ty => by
    refine ((gives_expr scope operand).bind ((gives_typeRef scope ty).map _)).of_eq ?_
    simp [Expr.nodes, Node.warning?]
  | .anonymousClass ty span => (Gives.warn span _).map _
  | .placeholder _ => .pure _

theorem gives_exprs (scope : Scope) : ∀ es : List Expr,
    Gives (exprs scope es) (scope.exprs es) (warningsOf (exprNodes es))
  | [] => .pure _
  | e :: es => by
    refine ((gives_expr scope e).bind ((gives_exprs scope es).map _)).of_eq ?_
    simp [exprNodes]

end

theorem gives_optExpr (scope : Scope) : ∀ e? : Option Expr,
    Gives (optExpr scope e?) (scope.optExpr e?) (warningsOf (optExprNodes e?))
  | none => .pure _
  | some e => (gives_expr scope e).some

mutual

theorem gives_stmt (scope : Scope) (spot : Spot) : ∀ s : Stmt,
    Gives (stmt scope s) (scope.stmt s) (warningsOf (s.nodes spot))
  | .expr e => by
    refine ((gives_expr scope e).map _).of_eq ?_
    simp [Stmt.nodes, Node.warning?]
  | .declare name ty init => by
    refine ((gives_typeRef scope ty).bind ((gives_optExpr scope init).map _)).of_eq ?_
    simp [Stmt.nodes, Node.warning?]
  | .block body => by
    refine ((gives_stmts scope .block 0 body).map _).of_eq ?_
    simp [Stmt.nodes, Node.warning?]
  | .ifElse test consequent none => by
    refine ((gives_expr scope test).bind ((gives_stmt scope .thenBranch consequent).map _)).of_eq ?_
    simp [Stmt.nodes, Node.warning?]
  | .ifElse test consequent (some alternate) => by
    refine ((gives_expr scope test).bind ((gives_stmt scope .thenBranch consequent).bind
      ((gives_stmt scope .elseBranch alternate).map _))).of_eq ?_
    simp [Stmt.nodes, Node.warning?]
  | .whileLoop test body => by
    refine ((gives_expr scope test).bind ((gives_stmt scope .loopBody body).map _)).of_eq ?_
    simp [Stmt.nodes, Node.warning?]
  | .forLoop init test update body => by
    refine ((gives_stmts scope .loopInit 0 init).bind ((gives_optExpr scope test).bind
      ((gives_exprs scope update).bind ((gives_stmt scope .loopBody body).map _)))).of_eq ?_
    simp [Stmt.nodes, Node.warning?]
  | .forEach variableName ty iterable body => by
    refine ((gives_typeRef scope ty).bind ((gives_expr scope iterable).bind
      ((gives_stmt scope .loopBody body).map _))).of_eq ?_
    simp [Stmt.nodes, Node.warning?]
  | .returns value => by
    refine ((gives_optExpr scope value).map _).of_eq ?_
    simp [Stmt.nodes, Node.warning?]
  | .breakLoop => .pure _
  | .continueLoop => .pure _
  | .throws value => by
    refine ((gives_expr scope value).map _).of_eq ?_
    simp [Stmt.nodes, Node.warning?]
  | .tryCatch body catches none => by
    refine ((gives_stmts scope .tryBody 0 body).bind ((gives_catches scope catches).map _)).of_eq ?_
    simp [Stmt.nodes, Node.warning?]
  | .tryCatch body catches (some cleanup) => by
    refine ((gives_stmts scope .tryBody 0 body).bind ((gives_catches scope catches).bind
      ((gives_stmts scope .cleanup 0 cleanup).map _))).of_eq ?_
    simp [Stmt.nodes, Node.warning?]
  | .labeled label body span => by
    refine ((Gives.warn span _).bind ((gives_stmt scope .behindLabel body).map _)).of_eq ?_
    simp [Stmt.nodes, Node.warning?]
  | .placeholder _ => .pure _

theorem gives_stmts (scope : Scope) (row : Row) (before : Nat) : ∀ ss : List Stmt,
    Gives (stmts scope ss) (scope.stmts ss) (warningsOf (stmtNodes row before ss))
  | [] => .pure _
  | s :: ss => by
    refine ((gives_stmt scope (.inRow row before) s).bind
      ((gives_stmts scope row (before + 1) ss).map _)).of_eq ?_
    simp [stmtNodes]

theorem gives_catches (scope : Scope) : ∀ cs : List CatchClause,
    Gives (catchClauses scope cs) (scope.catches cs) (warningsOf (catchNodes cs))
  | [] => .pure _
  | ⟨param, ty, body⟩ :: cs => by
    refine ((gives_typeRef scope ty).bind ((gives_stmts scope .catchBody 0 body).bind
      ((gives_catches scope cs).map _))).of_eq ?_
    simp [catchNodes]

end

/-! ## Members, types and units -/

theorem gives_params (scope : Scope) : ∀ ps : List Source.Param,
    Gives (params scope ps) (scope.params ps) []
  | [] => .pure _
  | p :: ps => by
    have hparam : Gives (param scope p) ⟨p.name, p.ty.rename scope.nameOf⟩ [] :=
      (gives_typeRef scope p.ty).map _
    exact hparam.bind ((gives_params scope ps).map _)

theorem gives_optTypeRef (scope : Scope) : ∀ ty? : Option TypeRef,
    Gives (optTypeRef scope ty?) (ty?.map (·.rename scope.nameOf)) []
  | none => .pure _
  | some ty => (gives_typeRef scope ty).some

theorem gives_field (scope : Scope) (f : Source.FieldDecl) :
    Gives (field scope f) (scope.field f) (warningsOf (optExprNodes f.init)) :=
  (gives_typeRef scope f.ty).bind ((gives_optExpr scope f.init).map _)

/-- The lock of a synchronized method is lost behind its body. -/
theorem gives_lock {m : Source.MethodDecl} (h : m.has .native = false)
    (body : Option (List Stmt)) :
    Gives
      (if m.has .synchronized then do
          warn m.span (.synchronizedMethod m.name)
          return body.map (Stmt.placeholder (Loss.synchronizedMethod m.name).note :: ·)
        else return body)
      (if m.has .synchronized then
          body.map (.placeholder (Loss.synchronizedMethod m.name).note :: ·)
        else body)
      (warningsOf [.method m]) := by
  cases hlock : m.has .synchronized with
  | true =>
    refine ((Gives.warn m.span _).map _).of_eq ?_
    simp [Node.warning?, h, hlock]
  | false =>
    refine (Gives.pure body).of_eq ?_
    simp [Node.warning?, h, hlock]

theorem gives_methodBody (scope : Scope) (before : Nat) {m : Source.MethodDecl}
    (h : m.has .native = false) :
    Gives (methodBody scope m) (scope.body m)
      (warningsOf (optStmtNodes .methodBody before m.body ++ [.method m])) := by
  rw [warningsOf_append]
  unfold methodBody Scope.body
  cases m.body with
  | none => exact gives_lock h none
  | some ss => exact (gives_stmts scope .methodBody before ss).some.bind (gives_lock h _)

theorem gives_method (scope : Scope) (owner : String) (inInterface : Bool)
    (m : Source.MethodDecl) :
    Gives (method scope owner inInterface m) (scope.method owner inInterface m)
      (warningsOf m.nodes) := by
  unfold method Scope.method Source.MethodDecl.nodes
  cases hnative : m.has .native with
  | true =>
    refine ((Gives.warn m.span _).map _).of_eq ?_
    simp [Node.warning?, hnative]
  | false =>
    refine ((gives_methodBody scope (if m.has .synchronized then 1 else 0) hnative).bind
      ((gives_params scope m.params).bind
        ((gives_optTypeRef scope m.returnType).map _))).of_eq ?_
    simp

theorem gives_construct (scope : Scope) (typeName : String) (m : Source.MethodDecl) :
    Gives (construct scope typeName m) (scope.construct typeName m)
      (warningsOf (optStmtNodes .constructorBody 0 m.body)) := by
  refine (gives_params scope m.params).bind ?_
  unfold Scope.construct
  cases m.body with
  | none => exact .pure _
  | some ss => exact (gives_stmts scope .constructorBody 0 ss).map _

mutual

theorem gives_typeDecl (scope : Scope) (identity : String) : ∀ decl : Source.TypeDecl,
    Gives (typeDecl scope identity decl) (scope.typeDecl identity decl) (warningsOf decl.nodes)
  | ⟨name, kind, modifiers, base, interfaces, constants, declared, span⟩ => by
    cases kind with
    | annotationType => exact .pure _
    | classType | interfaceType | enumType =>
      exact (gives_typeRefs scope _).bind ((gives_members scope identity name _ declared).map _)

theorem gives_members (scope : Scope) (owner typeName : String) (inInterface : Bool) :
    ∀ declared : List Source.Member,
    Gives (members scope owner typeName inInterface declared)
      (scope.members owner typeName inInterface declared) (warningsOf (Source.memberNodes declared))
  | [] => .pure _
  | .field f :: rest => by
    refine ((gives_field scope f).bind
      ((gives_members scope owner typeName inInterface rest).map _)).of_eq ?_
    simp [Source.memberNodes, Source.Member.nodes]
  | .method m :: rest => by
    refine ((gives_method scope owner inInterface m).bind
      ((gives_members scope owner typeName inInterface rest).map _)).of_eq ?_
    simp [Source.memberNodes, Source.Member.nodes]
  | .constructor m :: rest => by
    refine ((gives_construct scope typeName m).bind
      ((gives_members scope owner typeName inInterface rest).map _)).of_eq ?_
    simp [Source.memberNodes, Source.Member.nodes]
  | .type decl :: rest => by
    have hdecl := gives_typeDecl scope (owner ++ "." ++ decl.name) decl
    have hrest := gives_members scope owner typeName inInterface rest
    unfold Scope.members members
    rw [Source.memberNodes, Source.Member.nodes, warningsOf_append]
    refine hdecl.bind ?_
    cases scope.typeDecl (owner ++ "." ++ decl.name) decl with
    | none => exact hrest.map _
    | some decl' => exact hrest.map _

end

theorem gives_typeDecls (scope : Scope) (qualify : String → String) :
    ∀ decls : List Source.TypeDecl,
    Gives (typeDecls scope qualify decls) (scope.typeDecls qualify decls)
      (warningsOf (decls.flatMap (·.nodes)))
  | [] => .pure _
  | decl :: rest => by
    have hdecl := gives_typeDecl scope (qualify decl.name) decl
    have hrest := gives_typeDecls scope qualify rest
    unfold Scope.typeDecls typeDecls
    rw [List.flatMap_cons, warningsOf_append, List.filterMap_cons]
    refine hdecl.bind ?_
    cases scope.typeDecl (qualify decl.name) decl with
    | none => exact hrest.map _
    | some decl' => exact hrest.map _

end Recasting

/-- A unit that comes through has become what the functions on trees give, and
the warnings are those about its nodes. -/
theorem SourceUnit.recast_gives {u : SourceUnit} {bindings : Bindings} {target : TargetUnit}
    (h : (u.recast bindings).result = .ok target) :
    target.types =
        Recasting.Scope.typeDecls ⟨(u.recast bindings).bindings, u.space⟩ u.qualify u.types ∧
      (u.recast bindings).warnings = Recasting.warningsOf u.nodes := by
  cases hbind : (bindings.bindAll u.declarations).2 with
  | some e =>
    rw [recast_of_refused hbind] at h
    cases h
  | none =>
    rw [recast_of_bound hbind] at h ⊢
    cases h
    exact Recasting.gives_typeDecls ⟨_, u.space⟩ u.qualify u.types .empty

end Recast
