-- Recasting goes node by node. Every node of a unit becomes a node of the
-- target unit, and with some comes a placeholder; nothing else stands in the
-- target unit. What a unit becomes can therefore be told and counted at its
-- single nodes.
import Recast.Proofs.Counterparts
import Recast.Proofs.Unit

namespace Recast

/-- What stands behind a label comes behind the note about it, in a block. -/
def Spot.recast : Spot → Spot
  | .behindLabel => .inRow .block 1
  | spot => spot

/-! ## What nodes become -/

/-- The placeholders that are put in for a node: before what stood behind a
label, before the body of a synchronized method, and for a native method. -/
def Node.notes : Node → List Node
  | .stmt _ (.labeled label _ _) => [.stmt (.inRow .block 0) (.placeholder (Loss.label label).note)]
  | .method m =>
    if m.has .native then [.gap (Loss.nativeMethod m.name).note]
    else if m.has .synchronized && m.body.isSome then
      [.stmt (.inRow .methodBody 0) (.placeholder (Loss.synchronizedMethod m.name).note)]
    else []
  | _ => []

namespace Recasting

/-- The node itself in the target unit. Methods are no nodes there. -/
def Scope.node (scope : Scope) : Node → List Node
  | .expr e => [.expr (scope.expr e)]
  | .stmt spot s => [.stmt spot.recast (scope.stmt s)]
  | .method _ => []
  | .gap note => [.gap note]

/-- All that comes from a node, without what comes from the nodes in it. -/
def Scope.counterparts (scope : Scope) (node : Node) : List Node := scope.node node ++ node.notes

@[simp] theorem counterparts_expr (scope : Scope) (e : Expr) :
    scope.counterparts (.expr e) = [.expr (scope.expr e)] := rfl

@[simp] theorem counterparts_stmt (scope : Scope) (spot : Spot) (s : Stmt) :
    scope.counterparts (.stmt spot s) =
      .stmt spot.recast (scope.stmt s) :: (Node.stmt spot s).notes := rfl

@[simp] theorem counterparts_method (scope : Scope) (m : Source.MethodDecl) :
    scope.counterparts (.method m) = (Node.method m).notes := rfl

mutual

theorem nodes_expr (scope : Scope) : ∀ e : Expr,
    (scope.expr e).nodes = e.nodes.flatMap scope.counterparts
  | .literal _ => rfl
  | .ident _ => rfl
  | .self => rfl
  | .type _ => rfl
  | .field object name => by simp [Scope.expr, Expr.nodes, nodes_expr scope object]
  | .call none method binding args => by simp [Scope.expr, Expr.nodes, nodes_exprs scope args]
  | .call (some target) method binding args => by
    simp [Scope.expr, Expr.nodes, nodes_expr scope target, nodes_exprs scope args]
  | .new ty args => by simp [Scope.expr, Expr.nodes, nodes_exprs scope args]
  | .binary left op right => by
    simp [Scope.expr, Expr.nodes, nodes_expr scope left, nodes_expr scope right]
  | .unary op operand => by simp [Scope.expr, Expr.nodes, nodes_expr scope operand]
  | .assign target value => by
    simp [Scope.expr, Expr.nodes, nodes_expr scope target, nodes_expr scope value]
  | .conditional test consequent alternate => by
    simp [Scope.expr, Expr.nodes, nodes_expr scope test, nodes_expr scope consequent,
      nodes_expr scope alternate]
  | .cast ty operand => by simp [Scope.expr, Expr.nodes, nodes_expr scope operand]
  | .instanceOf operand ty => by simp [Scope.expr, Expr.nodes, nodes_expr scope operand]
  | .anonymousClass _ _ => rfl
  | .placeholder _ => rfl

theorem nodes_exprs (scope : Scope) : ∀ es : List Expr,
    exprNodes (scope.exprs es) = (exprNodes es).flatMap scope.counterparts
  | [] => rfl
  | e :: es => by simp [Scope.exprs, exprNodes, nodes_expr scope e, nodes_exprs scope es]

end

theorem nodes_optExpr (scope : Scope) : ∀ e? : Option Expr,
    optExprNodes (scope.optExpr e?) = (optExprNodes e?).flatMap scope.counterparts
  | none => rfl
  | some e => nodes_expr scope e

mutual

theorem nodes_stmt (scope : Scope) (spot : Spot) : ∀ s : Stmt,
    (scope.stmt s).nodes spot.recast = (s.nodes spot).flatMap scope.counterparts
  | .expr e => by simp [Scope.stmt, Stmt.nodes, Node.notes, nodes_expr scope e]
  | .declare name ty init => by simp [Scope.stmt, Stmt.nodes, Node.notes, nodes_optExpr scope init]
  | .block body => by simp [Scope.stmt, Stmt.nodes, Node.notes, nodes_stmts scope .block 0 body]
  | .ifElse test consequent none => by
    have hconsequent := nodes_stmt scope .thenBranch consequent
    simp only [Spot.recast] at hconsequent
    simp [Scope.stmt, Stmt.nodes, Node.notes, nodes_expr scope test, hconsequent]
  | .ifElse test consequent (some alternate) => by
    have hconsequent := nodes_stmt scope .thenBranch consequent
    have halternate := nodes_stmt scope .elseBranch alternate
    simp only [Spot.recast] at hconsequent halternate
    simp [Scope.stmt, Stmt.nodes, Node.notes, nodes_expr scope test, hconsequent, halternate]
  | .whileLoop test body => by
    have hbody := nodes_stmt scope .loopBody body
    simp only [Spot.recast] at hbody
    simp [Scope.stmt, Stmt.nodes, Node.notes, nodes_expr scope test, hbody]
  | .forLoop init test update body => by
    have hbody := nodes_stmt scope .loopBody body
    simp only [Spot.recast] at hbody
    simp [Scope.stmt, Stmt.nodes, Node.notes, nodes_stmts scope .loopInit 0 init,
      nodes_optExpr scope test, nodes_exprs scope update, hbody]
  | .forEach variableName ty iterable body => by
    have hbody := nodes_stmt scope .loopBody body
    simp only [Spot.recast] at hbody
    simp [Scope.stmt, Stmt.nodes, Node.notes, nodes_expr scope iterable, hbody]
  | .returns value => by simp [Scope.stmt, Stmt.nodes, Node.notes, nodes_optExpr scope value]
  | .breakLoop => rfl
  | .continueLoop => rfl
  | .throws value => by simp [Scope.stmt, Stmt.nodes, Node.notes, nodes_expr scope value]
  | .tryCatch body catches none => by
    simp [Scope.stmt, Stmt.nodes, Node.notes, nodes_stmts scope .tryBody 0 body,
      nodes_catches scope catches]
  | .tryCatch body catches (some cleanup) => by
    simp [Scope.stmt, Stmt.nodes, Node.notes, nodes_stmts scope .tryBody 0 body,
      nodes_catches scope catches, nodes_stmts scope .cleanup 0 cleanup]
  | .labeled label body span => by
    have hbody := nodes_stmt scope .behindLabel body
    simp only [Spot.recast] at hbody
    simp [Scope.stmt, Stmt.nodes, stmtNodes, Node.notes, hbody]
  | .placeholder _ => rfl

theorem nodes_stmts (scope : Scope) (row : Row) (before : Nat) : ∀ ss : List Stmt,
    stmtNodes row before (scope.stmts ss) = (stmtNodes row before ss).flatMap scope.counterparts
  | [] => rfl
  | s :: ss => by
    have hs := nodes_stmt scope (.inRow row before) s
    simp only [Spot.recast] at hs
    simp [Scope.stmts, stmtNodes, hs, nodes_stmts scope row (before + 1) ss]

theorem nodes_catches (scope : Scope) : ∀ cs : List CatchClause,
    catchNodes (scope.catches cs) = (catchNodes cs).flatMap scope.counterparts
  | [] => rfl
  | ⟨param, ty, body⟩ :: cs => by
    simp [Scope.catches, catchNodes, nodes_stmts scope .catchBody 0 body, nodes_catches scope cs]

end

theorem nodes_optStmts (scope : Scope) (row : Row) (before : Nat) : ∀ ss? : Option (List Stmt),
    optStmtNodes row before (scope.optStmts ss?) =
      (optStmtNodes row before ss?).flatMap scope.counterparts
  | none => rfl
  | some ss => nodes_stmts scope row before ss

/-! ## Members, types and units -/

/-- The note about the lock stands before the body, and the method is listed
behind it. -/
theorem nodes_method (scope : Scope) (owner : String) (inInterface : Bool)
    (m : Source.MethodDecl) :
    (scope.method owner inInterface m).nodes.Perm (m.nodes.flatMap scope.counterparts) := by
  unfold Scope.method Source.MethodDecl.nodes
  cases hnative : m.has .native with
  | true => simp [Target.Member.nodes, Node.notes, hnative]
  | false =>
    simp only [Bool.false_eq_true, if_false, Target.Member.nodes, Scope.body, List.flatMap_append]
    cases hlock : m.has .synchronized with
    | false => simp [nodes_optStmts, Node.notes, hnative, hlock]
    | true =>
      cases hbody : m.body with
      | none => simp [Scope.optStmts, optStmtNodes, Node.notes, hnative, hbody]
      | some ss =>
        have hnote := (List.perm_append_singleton
          (Node.stmt (.inRow .methodBody 0) (.placeholder (Loss.synchronizedMethod m.name).note))
          ((stmtNodes .methodBody 1 ss).flatMap scope.counterparts)).symm
        simpa [Scope.optStmts, optStmtNodes, stmtNodes, Stmt.nodes, nodes_stmts,
          Node.notes, hnative, hlock, hbody] using hnote

theorem nodes_construct (scope : Scope) (typeName : String) (m : Source.MethodDecl) :
    (scope.construct typeName m).nodes =
      (optStmtNodes .constructorBody 0 m.body).flatMap scope.counterparts := by
  rw [← nodes_optStmts]
  unfold Scope.construct
  cases m.body <;> rfl

/-- An annotation type has no counterpart and no nodes. -/
def optTypeNodes : Option Target.TypeDecl → List Node
  | none => []
  | some decl => decl.nodes

mutual

theorem nodes_typeDecl (scope : Scope) (identity : String) : ∀ decl : Source.TypeDecl,
    (optTypeNodes (scope.typeDecl identity decl)).Perm (decl.nodes.flatMap scope.counterparts)
  | ⟨name, kind, modifiers, base, interfaces, constants, declared, span⟩ => by
    cases kind with
    | annotationType => exact List.Perm.nil
    | classType | interfaceType | enumType =>
      simp only [Scope.typeDecl, kind?, optTypeNodes, Target.TypeDecl.nodes, Source.TypeDecl.nodes]
      exact nodes_members scope identity name _ declared

theorem nodes_members (scope : Scope) (owner typeName : String) (inInterface : Bool) :
    ∀ declared : List Source.Member,
    (Target.memberNodes (scope.members owner typeName inInterface declared)).Perm
      ((Source.memberNodes declared).flatMap scope.counterparts)
  | [] => List.Perm.nil
  | .field f :: rest => by
    have hrest := nodes_members scope owner typeName inInterface rest
    simp only [Scope.members, Target.memberNodes, Source.memberNodes, Source.Member.nodes,
      List.flatMap_append, Scope.field, Target.Member.nodes, nodes_optExpr]
    exact hrest.append_left _
  | .method m :: rest => by
    have hrest := nodes_members scope owner typeName inInterface rest
    simp only [Scope.members, Target.memberNodes, Source.memberNodes, Source.Member.nodes,
      List.flatMap_append]
    exact (nodes_method scope owner inInterface m).append hrest
  | .constructor m :: rest => by
    have hrest := nodes_members scope owner typeName inInterface rest
    simp only [Scope.members, Target.memberNodes, Source.memberNodes, Source.Member.nodes,
      List.flatMap_append, nodes_construct]
    exact hrest.append_left _
  | .type decl :: rest => by
    have hrest := nodes_members scope owner typeName inInterface rest
    have hdecl := nodes_typeDecl scope (owner ++ "." ++ decl.name) decl
    simp only [Scope.members, Source.memberNodes, Source.Member.nodes, List.flatMap_append]
    cases hcounterpart : scope.typeDecl (owner ++ "." ++ decl.name) decl with
    | none =>
      rw [hcounterpart] at hdecl
      exact hdecl.append hrest
    | some decl' =>
      rw [hcounterpart] at hdecl
      simp only [Option.map_some, Option.toList_some, List.singleton_append, Target.memberNodes,
        Target.Member.nodes]
      exact hdecl.append hrest

end

theorem nodes_typeDecls (scope : Scope) (qualify : String → String)
    (decls : List Source.TypeDecl) :
    ((scope.typeDecls qualify decls).flatMap (·.nodes)).Perm
      ((decls.flatMap (·.nodes)).flatMap scope.counterparts) := by
  induction decls with
  | nil => exact List.Perm.nil
  | cons decl rest ih =>
    have hdecl := nodes_typeDecl scope (qualify decl.name) decl
    unfold Scope.typeDecls at ih ⊢
    rw [List.flatMap_cons, List.flatMap_append, List.filterMap_cons]
    cases hcounterpart : scope.typeDecl (qualify decl.name) decl with
    | none =>
      rw [hcounterpart] at hdecl
      exact hdecl.append ih
    | some decl' =>
      rw [hcounterpart] at hdecl
      exact hdecl.append ih

end Recasting

/-- The nodes of a target unit are those that the nodes of the unit become. -/
theorem SourceUnit.nodes_of_recast {u : SourceUnit} {bindings : Bindings} {target : TargetUnit}
    (h : (u.recast bindings).result = .ok target) :
    target.nodes.Perm
      (u.nodes.flatMap (Recasting.Scope.counterparts ⟨(u.recast bindings).bindings, u.space⟩)) := by
  unfold TargetUnit.nodes
  rw [(u.recast_gives h).1]
  exact Recasting.nodes_typeDecls _ _ _

/-! ## The form of target units -/

namespace Recasting

theorem inTarget_node {scope : Scope} {node node' : Node} (h : node' ∈ scope.node node) :
    node'.inTarget = true := by
  cases node with
  | expr e =>
    cases List.mem_singleton.mp h
    fun_cases Scope.expr scope e <;> rfl
  | stmt spot s =>
    cases List.mem_singleton.mp h
    fun_cases Scope.stmt scope s <;> rfl
  | method m => cases h
  | gap note =>
    cases List.mem_singleton.mp h
    rfl

/-- No statement but a placeholder becomes one. -/
theorem eq_placeholder_of_stmt {scope : Scope} {s : Stmt} {note : String}
    (h : scope.stmt s = .placeholder note) : s = .placeholder note := by
  revert h
  fun_cases Scope.stmt scope s <;> intro h <;> cases h
  rfl

theorem placeholder_of_node {scope : Scope} {node : Node} {spot : Spot} {note : String}
    (h : Node.stmt spot (.placeholder note) ∈ scope.node node) :
    ∃ spot, node = .stmt spot (.placeholder note) := by
  cases node with
  | expr e => cases List.mem_singleton.mp h
  | stmt spot s =>
    obtain ⟨-, hs⟩ := Node.stmt.inj (List.mem_singleton.mp h)
    exact ⟨spot, congrArg _ (eq_placeholder_of_stmt hs.symm)⟩
  | method m => cases h
  | gap note => cases List.mem_singleton.mp h

end Recasting

/-- A note stands in the place of a member, or it is the first statement of a
block or of a method. -/
theorem Node.notes_cases {node node' : Node} (h : node' ∈ node.notes) :
    (∃ note, node' = .gap note) ∨ ∃ spot note, node' = .stmt spot (.placeholder note) ∧
      (spot = .inRow .block 0 ∨ spot = .inRow .methodBody 0) := by
  unfold notes at h
  split at h
  · exact Or.inr ⟨_, _, List.mem_singleton.mp h, Or.inl rfl⟩
  · split at h
    · exact Or.inl ⟨_, List.mem_singleton.mp h⟩
    · split at h
      · exact Or.inr ⟨_, _, List.mem_singleton.mp h, Or.inr rfl⟩
      · cases h
  · cases h

theorem Node.inTarget_of_notes {node node' : Node} (h : node' ∈ node.notes) :
    node'.inTarget = true := by
  obtain ⟨note, rfl⟩ | ⟨spot, note, rfl, -⟩ := notes_cases h
  · rfl
  · rfl

/-- No labeled statement, no anonymous class and no call with a binding stands
in a target unit. If no placeholder stands among the statements of the unit, as
far as it is recast, then every placeholder among those of the target unit is
the first statement of a block or of a method. So it is never the whole of a
branch or of the body of a loop. -/
theorem target_units_are_in_normal_form {u : SourceUnit} {bindings : Bindings}
    {target : TargetUnit} (h : (u.recast bindings).result = .ok target) :
    (∀ node ∈ target.nodes, node.inTarget = true) ∧
    ((∀ spot note, .stmt spot (.placeholder note) ∉ u.nodes) →
      ∀ spot note, .stmt spot (.placeholder note) ∈ target.nodes →
        spot = .inRow .block 0 ∨ spot = .inRow .methodBody 0) := by
  have hnodes := u.nodes_of_recast h
  refine ⟨?_, ?_⟩
  · intro node' hnode'
    obtain ⟨node, _, hnode⟩ := List.mem_flatMap.mp (hnodes.mem_iff.mp hnode')
    rcases List.mem_append.mp hnode with hkept | hnote
    · exact Recasting.inTarget_node hkept
    · exact Node.inTarget_of_notes hnote
  · intro hnone spot note hplaceholder
    obtain ⟨node, hmem, hnode⟩ := List.mem_flatMap.mp (hnodes.mem_iff.mp hplaceholder)
    rcases List.mem_append.mp hnode with hkept | hnote
    · obtain ⟨spot', rfl⟩ := Recasting.placeholder_of_node hkept
      exact absurd hmem (hnone spot' note)
    · obtain ⟨_, hgap⟩ | ⟨spot', note', hstmt, hspot⟩ := Node.notes_cases hnote
      · cases hgap
      · cases hstmt
        exact hspot

/-- A class with two synchronized methods, one without a body, a native method,
and a labeled call as the body of a loop. -/
def lockedUnit : SourceUnit :=
  SourceUnit.ofClass "A" "A" [
    .lossyField,
    .method ⟨"poll", [], none, [.native], some [.labeled "off" .breakLoop .none], ⟨3, 1, 1⟩⟩,
    .method ⟨"wait", [], none, [.synchronized], none, ⟨4, 1, 1⟩⟩,
    .method ⟨"run", [], none, [.synchronized],
      some [.whileLoop (.ident "on")
        (.labeled "outer" (.expr (.call none "go" (some "A.go") [])) ⟨6, 1, 1⟩)], ⟨5, 1, 1⟩⟩]

/-- The note about the label is in the body of a loop, in a block of its own,
and the one about the lock is at the start of the method. -/
theorem a_labeled_loop_body_becomes_a_block :
    (∀ spot note, .stmt spot (.placeholder note) ∉ lockedUnit.nodes) ∧
    ∃ target, (lockedUnit.recast .empty).result = .ok target ∧
      .stmt (.inRow .block 0) (.placeholder (Loss.label "outer").note) ∈ target.nodes ∧
      .stmt (.inRow .methodBody 0) (.placeholder (Loss.synchronizedMethod "run").note) ∈
        target.nodes ∧
      (∀ node ∈ target.nodes, node.inTarget = true) ∧
      ∀ spot note, .stmt spot (.placeholder note) ∈ target.nodes →
        spot = .inRow .block 0 ∨ spot = .inRow .methodBody 0 := by
  have hnone : ∀ spot note, .stmt spot (.placeholder note) ∉ lockedUnit.nodes := by
    intro spot note hmem
    have hcount : lockedUnit.nodes.countP Node.isPlaceholder = 0 := by decide +kernel
    exact List.countP_eq_zero.mp hcount _ hmem rfl
  have htarget := congrArg Recasting.Outcome.result
    (SourceUnit.recast_of_bound (u := lockedUnit) (b := .empty) (by decide +kernel))
  obtain ⟨hform, hfirst⟩ := target_units_are_in_normal_form htarget
  exact ⟨hnone, _, htarget, List.mem_of_getElem? (i := 6) rfl, List.mem_of_getElem? (i := 2) rfl,
    hform, hfirst hnone⟩

/-! ## Warnings and placeholders -/

namespace Recasting

theorem count_expr (scope : Scope) (e : Expr) :
    (scope.counterparts (.expr e)).countP Node.isPlaceholder =
      (Node.expr e).warning?.toList.length + [Node.expr e].countP Node.isPlaceholder := by
  unfold Scope.counterparts Scope.node
  fun_cases Scope.expr scope e <;> rfl

theorem count_stmt (scope : Scope) (spot : Spot) (s : Stmt) :
    (scope.counterparts (.stmt spot s)).countP Node.isPlaceholder =
      (Node.stmt spot s).warning?.toList.length + [Node.stmt spot s].countP Node.isPlaceholder := by
  unfold Scope.counterparts Scope.node
  fun_cases Scope.stmt scope s <;> rfl

/-- A warning comes with a placeholder, unless there is no place for one. -/
theorem count_method (scope : Scope) (m : Source.MethodDecl) :
    (scope.counterparts (.method m)).countP Node.isPlaceholder +
        [Node.method m].countP Node.isBareLock = (Node.method m).warning?.toList.length := by
  cases hnative : m.has .native with
  | true =>
    simp [Node.notes, Node.isPlaceholder, Node.isBareLock,
      Node.warning?, hnative]
  | false =>
    cases hlock : m.has .synchronized with
    | false =>
      simp [Node.notes, Node.isBareLock, Node.warning?, hnative,
        hlock]
    | true =>
      cases hbody : m.body <;>
        simp [Node.notes, Node.isPlaceholder, Node.isBareLock,
          Node.warning?, hnative, hlock, hbody]

theorem count_counterparts (scope : Scope) (nodes : List Node) :
    (nodes.flatMap scope.counterparts).countP Node.isPlaceholder + nodes.countP Node.isBareLock =
      (warningsOf nodes).length + nodes.countP Node.isPlaceholder := by
  induction nodes with
  | nil => rfl
  | cons node nodes ih =>
    have hnode : (scope.counterparts node).countP Node.isPlaceholder +
        [node].countP Node.isBareLock =
        node.warning?.toList.length + [node].countP Node.isPlaceholder := by
      cases node with
      | expr e => exact count_expr scope e
      | stmt spot s => exact count_stmt scope spot s
      | method m => exact count_method scope m
      | gap note => rfl
    rw [List.flatMap_cons, List.countP_append, warningsOf_cons, List.length_append,
      ← List.singleton_append, List.countP_append, List.countP_append]
    omega

end Recasting

/-- The warnings of a unit that comes through are those about its nodes, one
for each native method, each synchronized method that is not native, each
labeled statement and each anonymous class, in their order and with their
spans. The placeholders of the target unit, with the synchronized methods that
have no body, are as many as the warnings and the placeholders that were
there before. -/
theorem warnings_and_placeholders_add_up {u : SourceUnit} {bindings : Bindings}
    {target : TargetUnit} (h : (u.recast bindings).result = .ok target) :
    (u.recast bindings).warnings = u.nodes.filterMap Node.warning? ∧
    target.nodes.countP Node.isPlaceholder + u.nodes.countP Node.isBareLock =
      (u.recast bindings).warnings.length + u.nodes.countP Node.isPlaceholder := by
  have hwarnings := (u.recast_gives h).2
  refine ⟨hwarnings, ?_⟩
  rw [hwarnings, (u.nodes_of_recast h).countP_eq]
  exact Recasting.count_counterparts _ _

/-- The warning about the lock comes behind the one about the label in its
method, and the method without a body has a warning and no placeholder. -/
theorem a_lock_is_told_behind_its_body :
    lockedUnit.nodes.filterMap Node.warning? =
      [⟨⟨0, 1, 1⟩, .anonymousClass "T"⟩, ⟨⟨3, 1, 1⟩, .nativeMethod "poll"⟩,
        ⟨⟨4, 1, 1⟩, .synchronizedMethod "wait"⟩, ⟨⟨6, 1, 1⟩, .label "outer"⟩,
        ⟨⟨5, 1, 1⟩, .synchronizedMethod "run"⟩] ∧
    ∃ target, (lockedUnit.recast .empty).result = .ok target ∧
      (lockedUnit.recast .empty).warnings = lockedUnit.nodes.filterMap Node.warning? ∧
      lockedUnit.nodes.countP Node.isBareLock = 1 ∧
      target.nodes.countP Node.isPlaceholder + lockedUnit.nodes.countP Node.isBareLock =
        (lockedUnit.recast .empty).warnings.length +
          lockedUnit.nodes.countP Node.isPlaceholder := by
  have htarget := congrArg Recasting.Outcome.result
    (SourceUnit.recast_of_bound (u := lockedUnit) (b := .empty) (by decide +kernel))
  obtain ⟨hwarnings, hcount⟩ := warnings_and_placeholders_add_up htarget
  exact ⟨rfl, _, htarget, hwarnings, by decide +kernel, hcount⟩

end Recast
