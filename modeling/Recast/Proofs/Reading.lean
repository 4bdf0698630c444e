-- Recasting goes over the leaves of a unit once, in their order. Each leaf
-- becomes a leaf of the target unit or is lost, and the namespaces and the
-- warnings that are noted on the way are those of the leaves.
import Recast.Proofs.Actions
import Recast.Proofs.Bindings
import Recast.Proofs.Leaves

namespace Recast

namespace Recasting

/-! ## Steps that go over leaves -/

variable {α β : Type} {scope : Scope} {leaves leaves' : List Leaf} {P : α → Prop} {Q : β → Prop}

/-- The step goes over the leaves: from all notes it gives a result with
`P`, and it notes what stands at the leaves. -/
def Reads (scope : Scope) (leaves : List Leaf) (x : Noting α) (P : α → Prop) : Prop :=
  ∀ notes, P (x.run notes).1 ∧ (x.run notes).2 = notes.after scope leaves

namespace Reads

theorem pure {a : α} (h : P a) : Reads scope [] (Pure.pure a) P := fun _ => ⟨h, rfl⟩

theorem bind {x : Noting α} {f : α → Noting β} (hx : Reads scope leaves x P)
    (hf : ∀ a, P a → Reads scope leaves' (f a) Q) : Reads scope (leaves ++ leaves') (x >>= f) Q := by
  intro notes
  obtain ⟨hresult, hnotes⟩ := hx notes
  obtain ⟨hresult', hnotes'⟩ := hf _ hresult (x.run notes).2
  refine ⟨hresult', ?_⟩
  rw [Notes.after_append, ← hnotes]
  exact hnotes'

theorem weaken {x : Noting α} {P' : α → Prop} (hx : Reads scope leaves x P)
    (h : ∀ a, P a → P' a) : Reads scope leaves x P' := by
  intro notes
  obtain ⟨hresult, hnotes⟩ := hx notes
  exact ⟨h _ hresult, hnotes⟩

/-- A last step that only puts the result together. -/
theorem map {x : Noting α} {f : α → β} (hx : Reads scope leaves x P)
    (hf : ∀ a, P a → Q (f a)) : Reads scope leaves (x >>= fun a => Pure.pure (f a)) Q := by
  intro notes
  obtain ⟨hresult, hnotes⟩ := hx notes
  exact ⟨hf _ hresult, hnotes⟩

theorem some {x : Noting α} (hx : Reads scope leaves x P) :
    Reads scope leaves (Option.some <$> x) fun a? => ∃ a, a? = Option.some a ∧ P a := by
  intro notes
  obtain ⟨hresult, hnotes⟩ := hx notes
  exact ⟨⟨_, rfl, hresult⟩, hnotes⟩

/-- At most leaves nothing is noted. -/
theorem skip {leaf : Leaf} (h : ∀ notes : Notes, notes.meet scope leaf = notes) {x : Noting α}
    (hx : Reads scope leaves x P) : Reads scope (leaf :: leaves) x P := by
  intro notes
  rw [Notes.after_cons, h]
  exact hx notes

theorem warn (span : Span) (loss : Loss) :
    Reads scope [.lost ⟨span, loss⟩] (Recasting.warn span loss) fun _ => True :=
  fun _ => ⟨trivial, rfl⟩

end Reads

/-! ## Types -/

theorem run_typeName (scope : Scope) (identity : String) (notes : Notes) :
    (typeName scope identity).run notes =
      (scope.nameOf identity, notes.needing (scope.needed? identity).toList) := by
  unfold typeName Scope.nameOf Scope.needed?
  cases scope.type? identity with
  | none => rfl
  | some ref =>
    dsimp only [Option.bind_some]
    cases ref.space with
    | none => rfl
    | some space =>
      by_cases hown : scope.space = some space
      · simp only [hown, if_true, Option.filter, decide_not, decide_true, Bool.not_true]
        rfl
      · simp only [hown, if_false, Option.filter, decide_not, decide_false, Bool.not_false]
        rfl

mutual

theorem run_typeRef (scope : Scope) : ∀ (t : TypeRef) (notes : Notes),
    (typeRef scope t).run notes = (t.rename scope.nameOf, notes.meet scope (.type t))
  | ⟨name, args, dims⟩, notes => by
    have hargs := run_typeRefs scope args (notes.needing (scope.needed? name).toList)
    unfold typeRef
    rw [run_bind_of (run_typeName scope name notes), run_bind_of hargs]
    rw [Notes.needing_needing]
    simp only [Notes.meet, TypeRef.identities, TypeRef.parts, List.map_cons, List.filterMap_cons]
    cases scope.needed? name <;> rfl

theorem run_typeRefs (scope : Scope) : ∀ (ts : List TypeRef) (notes : Notes),
    (typeRefs scope ts).run notes = (TypeRef.renameAll scope.nameOf ts,
      notes.needing (((TypeRef.allParts ts).map (·.name)).filterMap scope.needed?))
  | [], _ => rfl
  | t :: ts, notes => by
    have hrest := run_typeRefs scope ts (notes.meet scope (.type t))
    unfold typeRefs
    rw [run_bind_of (run_typeRef scope t notes), run_bind_of hrest]
    simp only [Notes.meet, Notes.needing_needing, TypeRef.identities, TypeRef.allParts,
      List.map_append, List.filterMap_append]
    rfl

end

theorem reads_typeRef (scope : Scope) (t : TypeRef) :
    Reads scope [.type t] (typeRef scope t) (· = t.rename scope.nameOf) := by
  intro notes
  rw [run_typeRef]
  exact ⟨rfl, rfl⟩

theorem reads_typeRefs (scope : Scope) : ∀ ts : List TypeRef,
    Reads scope (ts.map .type) (typeRefs scope ts) (· = TypeRef.renameAll scope.nameOf ts)
  | [] => .pure rfl
  | t :: ts => by
    refine (reads_typeRef scope t).bind fun t' ht => ?_
    refine (reads_typeRefs scope ts).map fun ts' hts => ?_
    rw [ht, hts]
    rfl

/-! ## Expressions -/

mutual

theorem reads_expr (scope : Scope) : ∀ e : Expr,
    Reads scope e.leaves (expr scope e) (·.leaves = scope.recastLeaves e.leaves)
  | .literal _ => .skip (fun _ => rfl) (.pure rfl)
  | .ident _ => .skip (fun _ => rfl) (.pure rfl)
  | .self => .skip (fun _ => rfl) (.pure rfl)
  | .type ty => (reads_typeRef scope ty).map fun ty' hty => by rw [hty]; rfl
  | .field object name => by
    refine (reads_expr scope object).bind fun object' hobject => ?_
    refine .skip (fun _ => rfl) (.pure ?_)
    simp [Expr.leaves, hobject, Scope.leaf?]
  | .call none method binding args => by
    refine .skip (fun _ => rfl) ((reads_exprs scope args).map fun args' hargs => ?_)
    cases binding <;> simp [Expr.leaves, hargs, Scope.leaf?, Scope.methodName]
  | .call (some target) method binding args => by
    refine (reads_expr scope target).some.bind ?_
    rintro _ ⟨target', rfl, htarget⟩
    refine .skip (fun _ => rfl) ((reads_exprs scope args).map fun args' hargs => ?_)
    cases binding <;> simp [Expr.leaves, htarget, hargs, Scope.leaf?, Scope.methodName]
  | .new ty args => by
    refine (reads_typeRef scope ty).bind fun ty' hty => ?_
    refine (reads_exprs scope args).map fun args' hargs => ?_
    simp [Expr.leaves, hty, hargs, Scope.leaf?]
  | .binary left op right => by
    refine (reads_expr scope left).bind fun left' hleft => ?_
    refine .skip (fun _ => rfl) ((reads_expr scope right).map fun right' hright => ?_)
    simp [Expr.leaves, hleft, hright, Scope.leaf?]
  | .unary op operand => by
    refine .skip (fun _ => rfl) ((reads_expr scope operand).map fun operand' hoperand => ?_)
    simp [Expr.leaves, hoperand, Scope.leaf?]
  | .assign target value => by
    refine (reads_expr scope target).bind fun target' htarget => ?_
    refine (reads_expr scope value).map fun value' hvalue => ?_
    simp [Expr.leaves, htarget, hvalue]
  | .conditional test consequent alternate => by
    refine (reads_expr scope test).bind fun test' htest => ?_
    refine (reads_expr scope consequent).bind fun consequent' hconsequent => ?_
    refine (reads_expr scope alternate).map fun alternate' halternate => ?_
    simp [Expr.leaves, htest, hconsequent, halternate]
  | .cast ty operand => by
    refine (reads_typeRef scope ty).bind fun ty' hty => ?_
    refine (reads_expr scope operand).map fun operand' hoperand => ?_
    simp [Expr.leaves, hty, hoperand, Scope.leaf?]
  | .instanceOf operand ty => by
    refine (reads_expr scope operand).bind fun operand' hoperand => ?_
    refine (reads_typeRef scope ty).map fun ty' hty => ?_
    simp [Expr.leaves, hty, hoperand, Scope.leaf?]
  | .anonymousClass ty span => (Reads.warn span _).map fun _ _ => rfl
  | .placeholder _ => .pure rfl

theorem reads_exprs (scope : Scope) : ∀ es : List Expr,
    Reads scope (exprLeaves es) (exprs scope es) (exprLeaves · = scope.recastLeaves (exprLeaves es))
  | [] => .pure rfl
  | e :: es => by
    refine (reads_expr scope e).bind fun e' he => ?_
    refine (reads_exprs scope es).map fun es' hes => ?_
    simp [exprLeaves, he, hes]

end

theorem reads_optExpr (scope : Scope) : ∀ e? : Option Expr,
    Reads scope (optExprLeaves e?) (optExpr scope e?)
      (optExprLeaves · = scope.recastLeaves (optExprLeaves e?))
  | none => .pure rfl
  | some e => by
    intro notes
    obtain ⟨⟨e', he, hleaves⟩, hnotes⟩ := (reads_expr scope e).some notes
    refine ⟨?_, hnotes⟩
    dsimp only [optExpr]
    rw [he]
    exact hleaves

/-! ## Statements -/

mutual

theorem reads_stmt (scope : Scope) : ∀ s : Stmt,
    Reads scope s.leaves (stmt scope s) (·.leaves = scope.recastLeaves s.leaves)
  | .expr e => (reads_expr scope e).map fun _ he => he
  | .declare name ty init => by
    refine .skip (fun _ => rfl) ((reads_typeRef scope ty).bind fun ty' hty => ?_)
    refine (reads_optExpr scope init).map fun init' hinit => ?_
    simp [Stmt.leaves, hty, hinit, Scope.leaf?]
  | .block body => (reads_stmts scope body).map fun _ hbody => hbody
  | .ifElse test consequent none => by
    refine (reads_expr scope test).bind fun test' htest => ?_
    refine (reads_stmt scope consequent).map fun consequent' hconsequent => ?_
    simp [Stmt.leaves, htest, hconsequent]
  | .ifElse test consequent (some alternate) => by
    refine (reads_expr scope test).bind fun test' htest => ?_
    refine (reads_stmt scope consequent).bind fun consequent' hconsequent => ?_
    refine (reads_stmt scope alternate).map fun alternate' halternate => ?_
    simp [Stmt.leaves, htest, hconsequent, halternate]
  | .whileLoop test body => by
    refine (reads_expr scope test).bind fun test' htest => ?_
    refine (reads_stmt scope body).map fun body' hbody => ?_
    simp [Stmt.leaves, htest, hbody]
  | .forLoop init test update body => by
    refine (reads_stmts scope init).bind fun init' hinit => ?_
    refine (reads_optExpr scope test).bind fun test' htest => ?_
    refine (reads_exprs scope update).bind fun update' hupdate => ?_
    refine (reads_stmt scope body).map fun body' hbody => ?_
    simp [Stmt.leaves, hinit, htest, hupdate, hbody]
  | .forEach variableName ty iterable body => by
    refine .skip (fun _ => rfl) ((reads_typeRef scope ty).bind fun ty' hty => ?_)
    refine (reads_expr scope iterable).bind fun iterable' hiterable => ?_
    refine (reads_stmt scope body).map fun body' hbody => ?_
    simp [Stmt.leaves, hty, hiterable, hbody, Scope.leaf?]
  | .returns value => (reads_optExpr scope value).map fun _ hvalue => hvalue
  | .breakLoop => .pure rfl
  | .continueLoop => .pure rfl
  | .throws value => (reads_expr scope value).map fun _ hvalue => hvalue
  | .tryCatch body catches none => by
    refine (reads_stmts scope body).bind fun body' hbody => ?_
    refine (reads_catchClauses scope catches).map fun catches' hcatches => ?_
    simp [Stmt.leaves, hbody, hcatches]
  | .tryCatch body catches (some cleanup) => by
    refine (reads_stmts scope body).bind fun body' hbody => ?_
    refine (reads_catchClauses scope catches).bind fun catches' hcatches => ?_
    refine (reads_stmts scope cleanup).map fun cleanup' hcleanup => ?_
    simp [Stmt.leaves, hbody, hcatches, hcleanup]
  | .labeled label body span => by
    refine (Reads.warn span _).bind fun _ _ => ?_
    refine (reads_stmt scope body).map fun body' hbody => ?_
    simp [Stmt.leaves, stmtLeaves, hbody, Scope.leaf?]
  | .placeholder _ => .pure rfl

theorem reads_stmts (scope : Scope) : ∀ ss : List Stmt,
    Reads scope (stmtLeaves ss) (stmts scope ss) (stmtLeaves · = scope.recastLeaves (stmtLeaves ss))
  | [] => .pure rfl
  | s :: ss => by
    refine (reads_stmt scope s).bind fun s' hs => ?_
    refine (reads_stmts scope ss).map fun ss' hss => ?_
    simp [stmtLeaves, hs, hss]

theorem reads_catchClauses (scope : Scope) : ∀ cs : List CatchClause,
    Reads scope (catchLeaves cs) (catchClauses scope cs)
      (catchLeaves · = scope.recastLeaves (catchLeaves cs))
  | [] => .pure rfl
  | ⟨param, ty, body⟩ :: cs => by
    refine .skip (fun _ => rfl) ((reads_typeRef scope ty).bind fun ty' hty => ?_)
    refine (reads_stmts scope body).bind fun body' hbody => ?_
    refine (reads_catchClauses scope cs).map fun cs' hcs => ?_
    simp [catchLeaves, hty, hbody, hcs, Scope.leaf?]

end

/-! ## Members -/

theorem reads_params (scope : Scope) : ∀ ps : List Source.Param,
    Reads scope (Source.paramLeaves ps) (params scope ps)
      (Target.paramLeaves · = scope.recastLeaves (Source.paramLeaves ps))
  | [] => .pure rfl
  | p :: ps => by
    have hparam : Reads scope [.type p.ty] (param scope p) (·.ty = p.ty.rename scope.nameOf) :=
      (reads_typeRef scope p.ty).map fun _ hty => hty
    refine hparam.bind fun p' hp => ?_
    refine (reads_params scope ps).map fun ps' hps => ?_
    simp only [Target.paramLeaves, Source.paramLeaves] at hps
    simp [Target.paramLeaves, Source.paramLeaves, hp, hps, Scope.leaf?]

theorem reads_optTypeRef (scope : Scope) : ∀ ty? : Option TypeRef,
    Reads scope (ty?.toList.map .type) (optTypeRef scope ty?)
      (·.toList.map .type = scope.recastLeaves (ty?.toList.map .type))
  | none => .pure rfl
  | some ty => by
    intro notes
    obtain ⟨⟨ty', hty', rfl⟩, hnotes⟩ := (reads_typeRef scope ty).some notes
    refine ⟨?_, hnotes⟩
    dsimp only [optTypeRef]
    rw [hty']
    rfl

theorem reads_field (scope : Scope) (path : String) (f : Source.FieldDecl) :
    Reads scope f.leaves (field scope f) (·.leaves path = scope.recastLeaves f.leaves) := by
  refine (reads_typeRef scope f.ty).bind fun ty' hty => ?_
  refine (reads_optExpr scope f.init).map fun init' hinit => ?_
  simp [Target.Member.leaves, Source.FieldDecl.leaves, hty, hinit, Scope.leaf?]

/-- The lock of a synchronized method is lost behind its body. -/
theorem reads_lock (scope : Scope) (m : Source.MethodDecl) (body : Option (List Stmt)) :
    Reads scope
      (if m.has .synchronized then [.lost ⟨m.span, .synchronizedMethod m.name⟩] else [])
      (if m.has .synchronized then do
          warn m.span (.synchronizedMethod m.name)
          return body.map (Stmt.placeholder (Loss.synchronizedMethod m.name).note :: ·)
        else return body)
      (optStmtLeaves · = optStmtLeaves body) := by
  split
  · refine (Reads.warn m.span _).map fun _ _ => ?_
    cases body <;> simp [optStmtLeaves, stmtLeaves, Stmt.leaves]
  · exact .pure rfl

theorem reads_methodBody (scope : Scope) (m : Source.MethodDecl) :
    Reads scope
      (optStmtLeaves m.body ++
        if m.has .synchronized then [.lost ⟨m.span, .synchronizedMethod m.name⟩] else [])
      (methodBody scope m) (optStmtLeaves · = scope.recastLeaves (optStmtLeaves m.body)) := by
  unfold methodBody
  cases m.body with
  | none => exact reads_lock scope m none
  | some ss =>
    refine (reads_stmts scope ss).some.bind ?_
    rintro _ ⟨ss', rfl, hss⟩
    exact (reads_lock scope m (some ss')).weaken fun _ hbody => hbody.trans hss

theorem reads_method (scope : Scope) (owner path : String) (inInterface : Bool)
    (m : Source.MethodDecl) :
    Reads scope (m.leaves owner path) (method scope owner inInterface m)
      (·.leaves path = scope.recastLeaves (m.leaves owner path)) := by
  unfold Source.MethodDecl.leaves method
  split
  · exact (Reads.warn m.span _).map fun _ _ => rfl
  · rw [← List.append_assoc (optStmtLeaves m.body)]
    refine .skip (fun _ => rfl) ((reads_methodBody scope m).bind fun body' hbody => ?_)
    refine (reads_params scope m.params).bind fun params' hparams => ?_
    refine (reads_optTypeRef scope m.returnType).map fun returnType' hreturnType => ?_
    -- in the target tree the lost lock has no leaf
    have hlock : scope.recastLeaves
        (if m.has .synchronized then [.lost ⟨m.span, .synchronizedMethod m.name⟩] else []) = [] := by
      split <;> simp [Scope.leaf?]
    simp [Target.Member.leaves, hbody, hparams, hreturnType, hlock, Scope.leaf?, Scope.methodName]

theorem reads_construct (scope : Scope) (typeName path : String) (m : Source.MethodDecl) :
    Reads scope m.constructorLeaves (construct scope typeName m)
      (·.leaves path = scope.recastLeaves m.constructorLeaves) := by
  refine (reads_params scope m.params).bind fun params' hparams => ?_
  unfold Source.MethodDecl.constructorLeaves
  cases m.body with
  | none =>
    refine .pure ?_
    simp [Target.Member.leaves, hparams, optStmtLeaves, stmtLeaves]
  | some ss =>
    refine (reads_stmts scope ss).map fun ss' hss => ?_
    simp [Target.Member.leaves, hparams, hss, optStmtLeaves]

/-! ## Types and units -/

/-- A type has no counterpart, and then it has no leaves, or it has one of
the same name and with the same leaves, recast. -/
def Counterpart (scope : Scope) (identity path : String) (decl : Source.TypeDecl)
    (decl? : Option Target.TypeDecl) : Prop :=
  (decl? = none ∧ decl.leaves identity path = []) ∨
    ∃ decl', decl? = some decl' ∧ decl'.name = decl.name ∧
      decl'.leaves path = scope.recastLeaves (decl.leaves identity path)

mutual

theorem reads_typeDecl (scope : Scope) (identity path : String) : ∀ decl : Source.TypeDecl,
    Reads scope (decl.leaves identity path) (typeDecl scope identity decl)
      (Counterpart scope identity path decl)
  | ⟨name, kind, modifiers, base, interfaces, constants, declared, span⟩ => by
    cases hkind : kind? kind with
    | none =>
      obtain rfl := kind?_eq_none.mp hkind
      rw [Source.TypeDecl.leaves_of_annotationType identity path rfl]
      exact .pure (Or.inl ⟨rfl, Source.TypeDecl.leaves_of_annotationType identity path rfl⟩)
    | some kind' =>
      have hother : kind ≠ .annotationType := by
        rintro rfl
        cases hkind
      unfold Counterpart typeDecl
      rw [Source.TypeDecl.leaves_of_kind identity path hother, hkind]
      refine (reads_typeRefs scope (base.toList ++ interfaces)).bind fun bases' hbases => ?_
      refine (reads_members scope identity path name (kind' == .interfaceType) declared).map
        fun declared' hdeclared => ?_
      refine Or.inr ⟨_, rfl, rfl, ?_⟩
      rw [Scope.recastLeaves_append, ← hdeclared, scope.recastLeaves_types, ← hbases,
        Target.TypeDecl.leaves]

theorem reads_members (scope : Scope) (owner path typeName : String) (inInterface : Bool) :
    ∀ declared : List Source.Member,
    Reads scope (Source.memberLeaves owner path declared)
      (members scope owner typeName inInterface declared)
      (Target.memberLeaves path · = scope.recastLeaves (Source.memberLeaves owner path declared))
  | [] => .pure rfl
  | .field f :: rest => by
    refine (reads_field scope path f).bind fun f' hf => ?_
    refine (reads_members scope owner path typeName inInterface rest).map fun rest' hrest => ?_
    simp [Target.memberLeaves, Source.memberLeaves, Source.Member.leaves, hf, hrest]
  | .method m :: rest => by
    refine (reads_method scope owner path inInterface m).bind fun m' hm => ?_
    refine (reads_members scope owner path typeName inInterface rest).map fun rest' hrest => ?_
    simp [Target.memberLeaves, Source.memberLeaves, Source.Member.leaves, hm, hrest]
  | .constructor m :: rest => by
    refine (reads_construct scope typeName path m).bind fun m' hm => ?_
    refine (reads_members scope owner path typeName inInterface rest).map fun rest' hrest => ?_
    simp [Target.memberLeaves, Source.memberLeaves, Source.Member.leaves, hm, hrest]
  | .type decl :: rest => by
    refine (reads_typeDecl scope (owner ++ "." ++ decl.name) (path ++ "." ++ decl.name)
      decl).bind fun decl? hdecl => ?_
    rcases hdecl with ⟨rfl, hnone⟩ | ⟨decl', rfl, hname, hdecl⟩
    · refine (reads_members scope owner path typeName inInterface rest).map fun rest' hrest => ?_
      simp [Source.memberLeaves, Source.Member.leaves, hnone, hrest]
    · refine (reads_members scope owner path typeName inInterface rest).map fun rest' hrest => ?_
      simp [Target.memberLeaves, Target.Member.leaves, Source.memberLeaves, Source.Member.leaves,
        hname, hdecl, hrest]

end

theorem reads_typeDecls (scope : Scope) (qualify : String → String) :
    ∀ decls : List Source.TypeDecl,
    Reads scope (decls.flatMap fun decl => decl.leaves (qualify decl.name) decl.name)
      (typeDecls scope qualify decls)
      (fun decls' => decls'.flatMap (fun decl => decl.leaves decl.name) =
        scope.recastLeaves (decls.flatMap fun decl => decl.leaves (qualify decl.name) decl.name))
  | [] => .pure rfl
  | decl :: rest => by
    refine (reads_typeDecl scope (qualify decl.name) decl.name decl).bind fun decl? hdecl => ?_
    rcases hdecl with ⟨rfl, hnone⟩ | ⟨decl', rfl, hname, hdecl⟩
    · refine (reads_typeDecls scope qualify rest).map fun rest' hrest => ?_
      simp [hnone, hrest]
    · refine (reads_typeDecls scope qualify rest).map fun rest' hrest => ?_
      simp [hname, hdecl, hrest]

end Recasting

namespace SourceUnit

open Recasting

/-- The leaves of a unit become the leaves of its target unit. -/
theorem leaves_targetOf (u : SourceUnit) (bound : Bindings) :
    (u.targetOf bound).leaves = Scope.recastLeaves ⟨bound, u.space⟩ u.leaves :=
  (reads_typeDecls ⟨bound, u.space⟩ u.qualify u.types .empty).1

/-- What recasting notes is told by the leaves of the unit. -/
theorem notes_recastTypes (u : SourceUnit) (bound : Bindings) :
    (u.recastTypes bound).2 = Notes.empty.after ⟨bound, u.space⟩ u.leaves :=
  (reads_typeDecls ⟨bound, u.space⟩ u.qualify u.types .empty).2

end SourceUnit

end Recast
