-- Trees whose leaves become the same. What a tree becomes depends on the scope
-- only through its leaves: if two scopes make the same of every leaf, they make
-- the same of the tree. What the scopes make of other leaves does not matter.
import Recast.Proofs.Counterparts

namespace Recast.Recasting.Scope

variable {scope scope' : Scope} {leaves leaves' : List Leaf}

/-- Both scopes make the same of the leaves. -/
def SameAt (scope scope' : Scope) (leaves : List Leaf) : Prop :=
  ∀ leaf ∈ leaves, scope.leaf? leaf = scope'.leaf? leaf

@[simp] theorem sameAt_append : scope.SameAt scope' (leaves ++ leaves') ↔
    scope.SameAt scope' leaves ∧ scope.SameAt scope' leaves' :=
  List.forall_mem_append

@[simp] theorem sameAt_cons {leaf : Leaf} : scope.SameAt scope' (leaf :: leaves) ↔
    scope.leaf? leaf = scope'.leaf? leaf ∧ scope.SameAt scope' leaves :=
  List.forall_mem_cons

/-! ## Leaves -/

theorem rename_of_leaf? {t : TypeRef} (h : scope.leaf? (.type t) = scope'.leaf? (.type t)) :
    t.rename scope.nameOf = t.rename scope'.nameOf :=
  Leaf.type.inj (Option.some.inj h)

theorem methodName_of_call {method : String} {binding : Option String}
    (h : scope.leaf? (.call method binding) = scope'.leaf? (.call method binding)) :
    scope.methodName method binding = scope'.methodName method binding :=
  (Leaf.call.inj (Option.some.inj h)).1

theorem SameAt.renameAll {ts : List TypeRef} (h : scope.SameAt scope' (ts.map .type)) :
    TypeRef.renameAll scope.nameOf ts = TypeRef.renameAll scope'.nameOf ts := by
  induction ts with
  | nil => rfl
  | cons t ts ih =>
    rw [List.map_cons, sameAt_cons] at h
    rw [TypeRef.renameAll, TypeRef.renameAll, rename_of_leaf? h.1, ih h.2]

/-! ## Expressions and statements -/

mutual

theorem SameAt.expr : ∀ {e : Expr}, scope.SameAt scope' e.leaves → scope.expr e = scope'.expr e
  | .literal _, _ | .ident _, _ | .self, _ | .placeholder _, _ | .anonymousClass _ _, _ => by
    simp only [Scope.expr]
  | .type ty, h => by
    simp only [Expr.leaves, sameAt_cons] at h
    simp only [Scope.expr, rename_of_leaf? h.1]
  | .field object name, h => by
    simp only [Expr.leaves, sameAt_append] at h
    simp only [Scope.expr, h.1.expr]
  | .call none method binding args, h => by
    simp only [Expr.leaves, sameAt_cons] at h
    simp only [Scope.expr, methodName_of_call h.1, h.2.exprs]
  | .call (some target) method binding args, h => by
    simp only [Expr.leaves, sameAt_append, sameAt_cons] at h
    simp only [Scope.expr, h.1.expr, methodName_of_call h.2.1, h.2.2.exprs]
  | .new ty args, h => by
    simp only [Expr.leaves, sameAt_cons] at h
    simp only [Scope.expr, rename_of_leaf? h.1, h.2.exprs]
  | .binary left op right, h => by
    simp only [Expr.leaves, sameAt_append, sameAt_cons] at h
    simp only [Scope.expr, h.1.expr, h.2.2.expr]
  | .unary op operand, h => by
    simp only [Expr.leaves, sameAt_cons] at h
    simp only [Scope.expr, h.2.expr]
  | .assign target value, h => by
    simp only [Expr.leaves, sameAt_append] at h
    simp only [Scope.expr, h.1.expr, h.2.expr]
  | .conditional test consequent alternate, h => by
    simp only [Expr.leaves, sameAt_append] at h
    simp only [Scope.expr, h.1.expr, h.2.1.expr, h.2.2.expr]
  | .cast ty operand, h => by
    simp only [Expr.leaves, sameAt_cons] at h
    simp only [Scope.expr, rename_of_leaf? h.1, h.2.expr]
  | .instanceOf operand ty, h => by
    simp only [Expr.leaves, sameAt_append, sameAt_cons] at h
    simp only [Scope.expr, h.1.expr, rename_of_leaf? h.2.1]

theorem SameAt.exprs : ∀ {es : List Expr}, scope.SameAt scope' (exprLeaves es) →
    scope.exprs es = scope'.exprs es
  | [], _ => by simp only [Scope.exprs]
  | e :: es, h => by
    simp only [exprLeaves, sameAt_append] at h
    simp only [Scope.exprs, h.1.expr, h.2.exprs]

end

theorem SameAt.optExpr : ∀ {e? : Option Expr}, scope.SameAt scope' (optExprLeaves e?) →
    scope.optExpr e? = scope'.optExpr e?
  | none, _ => rfl
  | some _, h => congrArg some h.expr

mutual

theorem SameAt.stmt : ∀ {s : Stmt}, scope.SameAt scope' s.leaves → scope.stmt s = scope'.stmt s
  | .breakLoop, _ | .continueLoop, _ | .placeholder _, _ => by simp only [Scope.stmt]
  | .expr e, h | .throws e, h => by
    simp only [Stmt.leaves] at h
    simp only [Scope.stmt, h.expr]
  | .returns value, h => by
    simp only [Stmt.leaves] at h
    simp only [Scope.stmt, h.optExpr]
  | .declare name ty init, h => by
    simp only [Stmt.leaves, sameAt_cons] at h
    simp only [Scope.stmt, rename_of_leaf? h.2.1, h.2.2.optExpr]
  | .block body, h => by
    simp only [Stmt.leaves] at h
    simp only [Scope.stmt, h.stmts]
  | .ifElse test consequent none, h => by
    simp only [Stmt.leaves, sameAt_append] at h
    simp only [Scope.stmt, h.1.expr, h.2.stmt]
  | .ifElse test consequent (some alternate), h => by
    simp only [Stmt.leaves, sameAt_append] at h
    simp only [Scope.stmt, h.1.expr, h.2.1.stmt, h.2.2.stmt]
  | .whileLoop test body, h => by
    simp only [Stmt.leaves, sameAt_append] at h
    simp only [Scope.stmt, h.1.expr, h.2.stmt]
  | .forLoop init test update body, h => by
    simp only [Stmt.leaves, sameAt_append] at h
    simp only [Scope.stmt, h.1.stmts, h.2.1.optExpr, h.2.2.1.exprs, h.2.2.2.stmt]
  | .forEach variableName ty iterable body, h => by
    simp only [Stmt.leaves, sameAt_cons, sameAt_append] at h
    simp only [Scope.stmt, rename_of_leaf? h.2.1, h.2.2.1.expr, h.2.2.2.stmt]
  | .tryCatch body catches none, h => by
    simp only [Stmt.leaves, sameAt_append] at h
    simp only [Scope.stmt, h.1.stmts, h.2.catches]
  | .tryCatch body catches (some cleanup), h => by
    simp only [Stmt.leaves, sameAt_append] at h
    simp only [Scope.stmt, h.1.stmts, h.2.1.catches, h.2.2.stmts]
  | .labeled label body span, h => by
    simp only [Stmt.leaves, sameAt_cons] at h
    simp only [Scope.stmt, h.2.stmt]

theorem SameAt.stmts : ∀ {ss : List Stmt}, scope.SameAt scope' (stmtLeaves ss) →
    scope.stmts ss = scope'.stmts ss
  | [], _ => by simp only [Scope.stmts]
  | s :: ss, h => by
    simp only [stmtLeaves, sameAt_append] at h
    simp only [Scope.stmts, h.1.stmt, h.2.stmts]

theorem SameAt.catches : ∀ {cs : List CatchClause}, scope.SameAt scope' (catchLeaves cs) →
    scope.catches cs = scope'.catches cs
  | [], _ => by simp only [Scope.catches]
  | ⟨param, ty, body⟩ :: cs, h => by
    simp only [catchLeaves, sameAt_cons, sameAt_append] at h
    simp only [Scope.catches, rename_of_leaf? h.2.1, h.2.2.1.stmts, h.2.2.2.catches]

end

theorem SameAt.optStmts : ∀ {ss? : Option (List Stmt)}, scope.SameAt scope' (optStmtLeaves ss?) →
    scope.optStmts ss? = scope'.optStmts ss?
  | none, _ => rfl
  | some _, h => congrArg some h.stmts

/-! ## Members and types -/

theorem SameAt.params {ps : List Source.Param}
    (h : scope.SameAt scope' (Source.paramLeaves ps)) : scope.params ps = scope'.params ps := by
  unfold Scope.params
  refine List.map_congr_left ?_
  intro p hp
  rw [rename_of_leaf? (h (.type p.ty) (List.mem_map_of_mem hp))]

theorem SameAt.returnType {ty? : Option TypeRef}
    (h : scope.SameAt scope' (ty?.toList.map .type)) :
    ty?.map (·.rename scope.nameOf) = ty?.map (·.rename scope'.nameOf) := by
  cases ty? with
  | none => rfl
  | some ty => exact congrArg some (rename_of_leaf? (sameAt_cons.mp h).1)

theorem SameAt.field {f : Source.FieldDecl} (h : scope.SameAt scope' f.leaves) :
    scope.field f = scope'.field f := by
  rw [Source.FieldDecl.leaves, sameAt_cons] at h
  simp only [Scope.field, rename_of_leaf? h.1, h.2.optExpr]

theorem SameAt.method {owner path : String} {inInterface : Bool} {m : Source.MethodDecl}
    (h : scope.SameAt scope' (m.leaves owner path)) :
    scope.method owner inInterface m = scope'.method owner inInterface m := by
  unfold Source.MethodDecl.leaves at h
  unfold Scope.method
  split
  · rfl
  · rename_i hnative
    rw [if_neg hnative] at h
    simp only [sameAt_cons, sameAt_append] at h
    obtain ⟨hname, hbody, _, hparams, hreturn⟩ := h
    have hmember : scope.memberName (owner ++ "." ++ m.name) =
        scope'.memberName (owner ++ "." ++ m.name) :=
      (Leaf.method.inj (Option.some.inj hname)).2.1
    simp only [Scope.body, hmember, hbody.optStmts, hparams.params, hreturn.returnType]

theorem SameAt.construct {typeName : String} {m : Source.MethodDecl}
    (h : scope.SameAt scope' m.constructorLeaves) :
    scope.construct typeName m = scope'.construct typeName m := by
  unfold Source.MethodDecl.constructorLeaves at h
  rw [sameAt_append] at h
  simp only [Scope.construct, h.1.params, h.2.optStmts]

mutual

theorem SameAt.typeDecl {identity path : String} : ∀ {decl : Source.TypeDecl},
    scope.SameAt scope' (decl.leaves identity path) →
    scope.typeDecl identity decl = scope'.typeDecl identity decl
  | ⟨name, kind, modifiers, base, interfaces, constants, declared, span⟩, h => by
    by_cases hkind : kind = .annotationType
    · subst hkind
      rfl
    · rw [Source.TypeDecl.leaves_of_kind identity path hkind, sameAt_append] at h
      simp only [Scope.typeDecl, h.1.renameAll, h.2.members]

theorem SameAt.members {owner path typeName : String} {inInterface : Bool} :
    ∀ {declared : List Source.Member},
    scope.SameAt scope' (Source.memberLeaves owner path declared) →
    scope.members owner typeName inInterface declared =
      scope'.members owner typeName inInterface declared
  | [], _ => by simp only [Scope.members]
  | .field f :: rest, h => by
    simp only [Source.memberLeaves, Source.Member.leaves, sameAt_append] at h
    simp only [Scope.members, h.1.field, h.2.members]
  | .method m :: rest, h => by
    simp only [Source.memberLeaves, Source.Member.leaves, sameAt_append] at h
    simp only [Scope.members, h.1.method, h.2.members]
  | .constructor m :: rest, h => by
    simp only [Source.memberLeaves, Source.Member.leaves, sameAt_append] at h
    simp only [Scope.members, h.1.construct, h.2.members]
  | .type decl :: rest, h => by
    simp only [Source.memberLeaves, Source.Member.leaves, sameAt_append] at h
    simp only [Scope.members, h.1.typeDecl, h.2.members]

end

theorem SameAt.typeDecls {qualify : String → String} {decls : List Source.TypeDecl}
    (h : scope.SameAt scope'
      (decls.flatMap fun decl => decl.leaves (qualify decl.name) decl.name)) :
    scope.typeDecls qualify decls = scope'.typeDecls qualify decls := by
  unfold Scope.typeDecls
  induction decls with
  | nil => rfl
  | cons decl rest ih =>
    rw [List.flatMap_cons, sameAt_append] at h
    rw [List.filterMap_cons, List.filterMap_cons, h.1.typeDecl, ih h.2]

end Recast.Recasting.Scope
