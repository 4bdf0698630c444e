-- The namespaces that a target unit uses. They are those of the types that the
-- unit mentions: in its declarations, in its code, and in the arguments of other
-- types. Here is told which types these are, without going through the unit leaf
-- by leaf.
import Recast.Proofs.Nodes
import Recast.Proofs.Places
import Recast.Proofs.References

namespace Recast

/-! ## Types that are mentioned -/

namespace Source

/-- The types that a member names outside of code. A native method is not recast,
and the types in a type are listed at places of their own. -/
def Member.signature : Member → List TypeRef
  | .field f => [f.ty]
  | .method m => if m.has .native then [] else m.params.map (·.ty) ++ m.returnType.toList
  | .constructor m => m.params.map (·.ty)
  | .type _ => []

/-- What a type extends and implements, and what its members name. -/
def TypeDecl.signature (decl : TypeDecl) : List TypeRef :=
  decl.base.toList ++ decl.interfaces ++ decl.members.flatMap (·.signature)

end Source

/-- The types that stand directly at a node of code. -/
def Node.types : Node → List TypeRef
  | .stmt _ (.declare _ ty _) => [ty]
  | .stmt _ (.forEach _ ty _ _) => [ty]
  | .stmt _ (.tryCatch _ catches _) => catches.map (·.ty)
  | .expr (.type ty) => [ty]
  | .expr (.new ty _) => [ty]
  | .expr (.cast ty _) => [ty]
  | .expr (.instanceOf _ ty) => [ty]
  | _ => []

/-- The unit mentions the type. Annotation types have no place, and there are no
nodes in a native method or in an anonymous class. -/
inductive SourceUnit.Mentions (u : SourceUnit) : TypeRef → Prop
  | declaration {place : Source.Place} {t : TypeRef} (hplace : place ∈ u.places)
    (h : t ∈ place.decl.signature) : Mentions u t
  | code {node : Node} {t : TypeRef} (hnode : node ∈ u.nodes) (h : t ∈ node.types) : Mentions u t
  | argument {t arg : TypeRef} (h : Mentions u t) (harg : arg ∈ t.args) : Mentions u arg

/-! ## Types in code -/

/-- The types that stand at some nodes. -/
def typesAt (nodes : List Node) : List TypeRef := nodes.flatMap Node.types

@[simp] theorem typesAt_nil : typesAt [] = [] := rfl

@[simp] theorem typesAt_cons (node : Node) (nodes : List Node) :
    typesAt (node :: nodes) = node.types ++ typesAt nodes := List.flatMap_cons

@[simp] theorem typesAt_append (nodes nodes' : List Node) :
    typesAt (nodes ++ nodes') = typesAt nodes ++ typesAt nodes' := List.flatMap_append

variable {t : TypeRef}

mutual

theorem type_mem_expr : ∀ e : Expr, .type t ∈ e.leaves ↔ t ∈ typesAt e.nodes
  | .literal _ => by simp [Expr.leaves, Expr.nodes, Node.types]
  | .ident _ => by simp [Expr.leaves, Expr.nodes, Node.types]
  | .self => by simp [Expr.leaves, Expr.nodes, Node.types]
  | .type ty => by simp [Expr.leaves, Expr.nodes, Node.types]
  | .field object name => by simp [Expr.leaves, Expr.nodes, Node.types, type_mem_expr object]
  | .call none method binding args => by
    simp [Expr.leaves, Expr.nodes, Node.types, type_mem_exprs args]
  | .call (some target) method binding args => by
    simp [Expr.leaves, Expr.nodes, Node.types, type_mem_expr target, type_mem_exprs args]
  | .new ty args => by simp [Expr.leaves, Expr.nodes, Node.types, type_mem_exprs args]
  | .binary left op right => by
    simp [Expr.leaves, Expr.nodes, Node.types, type_mem_expr left, type_mem_expr right]
  | .unary op operand => by simp [Expr.leaves, Expr.nodes, Node.types, type_mem_expr operand]
  | .assign target value => by
    simp [Expr.leaves, Expr.nodes, Node.types, type_mem_expr target, type_mem_expr value]
  | .conditional test consequent alternate => by
    simp [Expr.leaves, Expr.nodes, Node.types, type_mem_expr test, type_mem_expr consequent,
      type_mem_expr alternate]
  | .cast ty operand => by simp [Expr.leaves, Expr.nodes, Node.types, type_mem_expr operand]
  | .instanceOf operand ty => by
    simp [Expr.leaves, Expr.nodes, Node.types, type_mem_expr operand, or_comm]
  | .anonymousClass _ _ => by simp [Expr.leaves, Expr.nodes, Node.types]
  | .placeholder _ => by simp [Expr.leaves, Expr.nodes, Node.types]

theorem type_mem_exprs : ∀ es : List Expr, .type t ∈ exprLeaves es ↔ t ∈ typesAt (exprNodes es)
  | [] => by simp [exprLeaves, exprNodes]
  | e :: es => by simp [exprLeaves, exprNodes, type_mem_expr e, type_mem_exprs es]

end

theorem type_mem_optExpr : ∀ e? : Option Expr,
    .type t ∈ optExprLeaves e? ↔ t ∈ typesAt (optExprNodes e?)
  | none => by simp [optExprLeaves, optExprNodes]
  | some e => type_mem_expr e

mutual

theorem type_mem_stmt (spot : Spot) : ∀ s : Stmt, .type t ∈ s.leaves ↔ t ∈ typesAt (s.nodes spot)
  | .expr e => by simp [Stmt.leaves, Stmt.nodes, Node.types, type_mem_expr e]
  | .declare name ty init => by
    simp [Stmt.leaves, Stmt.nodes, Node.types, type_mem_optExpr init]
  | .block body => by simp [Stmt.leaves, Stmt.nodes, Node.types, type_mem_stmts .block 0 body]
  | .ifElse test consequent none => by
    simp [Stmt.leaves, Stmt.nodes, Node.types, type_mem_expr test,
      type_mem_stmt .thenBranch consequent]
  | .ifElse test consequent (some alternate) => by
    simp [Stmt.leaves, Stmt.nodes, Node.types, type_mem_expr test,
      type_mem_stmt .thenBranch consequent, type_mem_stmt .elseBranch alternate]
  | .whileLoop test body => by
    simp [Stmt.leaves, Stmt.nodes, Node.types, type_mem_expr test, type_mem_stmt .loopBody body]
  | .forLoop init test update body => by
    simp [Stmt.leaves, Stmt.nodes, Node.types, type_mem_stmts .loopInit 0 init,
      type_mem_optExpr test, type_mem_exprs update, type_mem_stmt .loopBody body]
  | .forEach variableName ty iterable body => by
    simp [Stmt.leaves, Stmt.nodes, Node.types, type_mem_expr iterable,
      type_mem_stmt .loopBody body]
  | .returns value => by simp [Stmt.leaves, Stmt.nodes, Node.types, type_mem_optExpr value]
  | .breakLoop => by simp [Stmt.leaves, Stmt.nodes, Node.types]
  | .continueLoop => by simp [Stmt.leaves, Stmt.nodes, Node.types]
  | .throws value => by simp [Stmt.leaves, Stmt.nodes, Node.types, type_mem_expr value]
  | .tryCatch body catches none => by
    simp [Stmt.leaves, Stmt.nodes, Node.types, type_mem_stmts .tryBody 0 body,
      type_mem_catches catches, or_left_comm]
  | .tryCatch body catches (some cleanup) => by
    simp [Stmt.leaves, Stmt.nodes, Node.types, type_mem_stmts .tryBody 0 body,
      type_mem_catches catches, type_mem_stmts .cleanup 0 cleanup, or_left_comm, or_assoc]
  | .labeled label body span => by
    simp [Stmt.leaves, Stmt.nodes, Node.types, type_mem_stmt .behindLabel body]
  | .placeholder _ => by simp [Stmt.leaves, Stmt.nodes, Node.types]

theorem type_mem_stmts (row : Row) (before : Nat) : ∀ ss : List Stmt,
    .type t ∈ stmtLeaves ss ↔ t ∈ typesAt (stmtNodes row before ss)
  | [] => by simp [stmtLeaves, stmtNodes]
  | s :: ss => by
    simp [stmtLeaves, stmtNodes, type_mem_stmt (.inRow row before) s,
      type_mem_stmts row (before + 1) ss]

/-- The caught types stand at the node of the whole statement. -/
theorem type_mem_catches : ∀ cs : List CatchClause,
    .type t ∈ catchLeaves cs ↔ t ∈ cs.map (·.ty) ∨ t ∈ typesAt (catchNodes cs)
  | [] => by simp [catchLeaves, catchNodes]
  | ⟨param, ty, body⟩ :: cs => by
    simp [catchLeaves, catchNodes, type_mem_stmts .catchBody 0 body, type_mem_catches cs,
      or_left_comm, or_assoc]

end

theorem type_mem_optStmts (row : Row) (before : Nat) : ∀ ss? : Option (List Stmt),
    .type t ∈ optStmtLeaves ss? ↔ t ∈ typesAt (optStmtNodes row before ss?)
  | none => by simp [optStmtLeaves, optStmtNodes]
  | some ss => type_mem_stmts row before ss

/-! ## Types in declarations -/

namespace Source

theorem type_mem_paramLeaves (ps : List Param) :
    .type t ∈ paramLeaves ps ↔ t ∈ ps.map (·.ty) := by
  simp [paramLeaves]

theorem type_mem_field (f : FieldDecl) : .type t ∈ f.leaves ↔
    t ∈ (Member.field f).signature ∨ t ∈ typesAt (Member.field f).nodes := by
  simp [FieldDecl.leaves, Member.signature, Member.nodes, type_mem_optExpr]

theorem type_mem_method (owner path : String) (m : MethodDecl) : .type t ∈ m.leaves owner path ↔
    t ∈ (Member.method m).signature ∨ t ∈ typesAt (Member.method m).nodes := by
  unfold MethodDecl.leaves Member.signature Member.nodes MethodDecl.nodes
  cases hnative : m.has .native with
  | true => simp [Node.types, hnative]
  | false =>
    have hlock : .type t ∉ (if m.has .synchronized then
        [Leaf.lost ⟨m.span, .synchronizedMethod m.name⟩] else []) := by
      split <;> simp
    simp [Node.types, hnative, type_mem_paramLeaves, hlock,
      type_mem_optStmts .methodBody (if m.has .synchronized then 1 else 0) m.body, or_comm]

theorem type_mem_constructor (m : MethodDecl) : .type t ∈ m.constructorLeaves ↔
    t ∈ (Member.constructor m).signature ∨ t ∈ typesAt (Member.constructor m).nodes := by
  simp [MethodDecl.constructorLeaves, Member.signature, Member.nodes, type_mem_paramLeaves,
    type_mem_optStmts .constructorBody 0 m.body]

theorem memberPlaces_cons (path : List String) (member : Member) (rest : List Member) :
    memberPlaces path (member :: rest) = memberPlaces path [member] ++ memberPlaces path rest := by
  cases member <;> simp [memberPlaces]

mutual

/-- The types at the leaves of a type are those in its declarations and those in
its code. -/
theorem TypeDecl.type_mem_leaves (around : List String) (identity path : String) :
    ∀ decl : TypeDecl, .type t ∈ decl.leaves identity path ↔
      (∃ place ∈ decl.places around, t ∈ place.decl.signature) ∨ t ∈ typesAt decl.nodes
  | ⟨name, kind, modifiers, base, interfaces, constants, members, span⟩ => by
    cases kind with
    | annotationType => simp [TypeDecl.leaves, TypeDecl.places, TypeDecl.nodes]
    | classType | interfaceType | enumType =>
      simp [TypeDecl.leaves, TypeDecl.places, TypeDecl.nodes, TypeDecl.signature,
        type_mem_memberLeaves (around ++ [name]) identity path members, or_assoc]

theorem Member.type_mem_leaves (around : List String) (identity path : String) :
    ∀ member : Member, .type t ∈ member.leaves identity path ↔ t ∈ member.signature ∨
      (∃ place ∈ memberPlaces around [member], t ∈ place.decl.signature) ∨ t ∈ typesAt member.nodes
  | .field f => by simpa [Member.leaves, memberPlaces] using type_mem_field f
  | .method m => by simpa [Member.leaves, memberPlaces] using type_mem_method identity path m
  | .constructor m => by simpa [Member.leaves, memberPlaces] using type_mem_constructor m
  | .type decl => by
    have hdecl := decl.type_mem_leaves around (identity ++ "." ++ decl.name) (path ++ "." ++ decl.name)
    simpa [Member.leaves, memberPlaces, Member.signature, Member.nodes] using hdecl

theorem type_mem_memberLeaves (around : List String) (identity path : String) :
    ∀ members : List Member, .type t ∈ memberLeaves identity path members ↔
      t ∈ members.flatMap (·.signature) ∨
        (∃ place ∈ memberPlaces around members, t ∈ place.decl.signature) ∨
          t ∈ typesAt (memberNodes members)
  | [] => by simp [memberLeaves, memberPlaces, memberNodes]
  | member :: rest => by
    rw [memberLeaves, memberNodes, memberPlaces_cons, List.mem_append,
      member.type_mem_leaves around identity path, type_mem_memberLeaves around identity path rest,
      List.flatMap_cons, typesAt_append]
    simp only [List.mem_append, or_and_right, exists_or]
    refine iff_of_eq ?_
    ac_rfl

end

end Source

/-! ## Arguments of types -/

theorem TypeRef.self_mem_parts (s : TypeRef) : s ∈ s.parts := by
  cases s with
  | mk name args dims =>
    rw [parts]
    exact List.mem_cons_self

theorem TypeRef.allParts_eq (ss : List TypeRef) : allParts ss = ss.flatMap (·.parts) := by
  induction ss with
  | nil => rfl
  | cons s ss ih => rw [allParts, ih, List.flatMap_cons]

mutual

/-- The arguments of a part of a type are parts of the type. -/
theorem TypeRef.arg_mem_parts {arg : TypeRef} (harg : arg ∈ t.args) : ∀ s : TypeRef,
    t ∈ s.parts → arg ∈ s.parts
  | ⟨name, args, dims⟩, ht => by
    rw [parts] at ht ⊢
    rcases List.mem_cons.mp ht with rfl | ht
    · rw [allParts_eq]
      exact List.mem_cons_of_mem _ (List.mem_flatMap.mpr ⟨arg, harg, arg.self_mem_parts⟩)
    · exact List.mem_cons_of_mem _ (TypeRef.arg_mem_allParts harg args ht)

theorem TypeRef.arg_mem_allParts {arg : TypeRef} (harg : arg ∈ t.args) : ∀ ss : List TypeRef,
    t ∈ allParts ss → arg ∈ allParts ss
  | [], ht => by cases ht
  | s :: ss, ht => by
    rw [allParts] at ht ⊢
    rcases List.mem_append.mp ht with ht | ht
    · exact List.mem_append_left _ (TypeRef.arg_mem_parts harg s ht)
    · exact List.mem_append_right _ (TypeRef.arg_mem_allParts harg ss ht)

end

namespace SourceUnit

variable {u : SourceUnit}

mutual

theorem Mentions.part : ∀ {s : TypeRef}, u.Mentions s → t ∈ s.parts → u.Mentions t
  | ⟨name, args, dims⟩, h, ht => by
    rw [TypeRef.parts] at ht
    rcases List.mem_cons.mp ht with rfl | ht
    · exact h
    · exact Mentions.parts (fun s hs => h.argument hs) ht

theorem Mentions.parts : ∀ {ss : List TypeRef}, (∀ s ∈ ss, u.Mentions s) →
    t ∈ TypeRef.allParts ss → u.Mentions t
  | [], _, ht => by cases ht
  | s :: ss, h, ht => by
    obtain ⟨hs, hss⟩ := List.forall_mem_cons.mp h
    rw [TypeRef.allParts] at ht
    rcases List.mem_append.mp ht with ht | ht
    · exact Mentions.part hs ht
    · exact Mentions.parts hss ht

end

theorem type_mem_leaves : .type t ∈ u.leaves ↔
    (∃ place ∈ u.places, t ∈ place.decl.signature) ∨ ∃ node ∈ u.nodes, t ∈ node.types := by
  have hnodes : (∃ node ∈ u.nodes, t ∈ node.types) ↔ ∃ decl ∈ u.types, t ∈ typesAt decl.nodes := by
    rw [← List.mem_flatMap, nodes, List.flatMap_assoc, List.mem_flatMap]
    rfl
  have hplaces : (∃ place ∈ u.places, t ∈ place.decl.signature) ↔
      ∃ decl ∈ u.types, ∃ place ∈ decl.places [], t ∈ place.decl.signature := by
    simp only [places, List.mem_flatMap]
    grind
  rw [hnodes, hplaces, leaves, List.mem_flatMap]
  simp only [Source.TypeDecl.type_mem_leaves [], and_or_left, exists_or]

theorem mem_references : t ∈ u.references ↔ ∃ s, .type s ∈ u.leaves ∧ t ∈ s.parts := by
  rw [references, List.mem_flatMap]
  constructor
  · rintro ⟨leaf, hleaf, ht⟩
    cases leaf with
    | type s => exact ⟨s, hleaf, ht⟩
    | _ => cases ht
  · rintro ⟨s, hs, ht⟩
    exact ⟨.type s, hs, ht⟩

/-- The references of a unit are the types that it mentions. -/
theorem mem_references_iff : t ∈ u.references ↔ u.Mentions t := by
  rw [mem_references]
  constructor
  · rintro ⟨s, hs, ht⟩
    refine Mentions.part ?_ ht
    rcases type_mem_leaves.mp hs with ⟨place, hplace, hs⟩ | ⟨node, hnode, hs⟩
    · exact .declaration hplace hs
    · exact .code hnode hs
  · intro h
    induction h with
    | declaration hplace h =>
      exact ⟨_, type_mem_leaves.mpr (Or.inl ⟨_, hplace, h⟩), TypeRef.self_mem_parts _⟩
    | code hnode h =>
      exact ⟨_, type_mem_leaves.mpr (Or.inr ⟨_, hnode, h⟩), TypeRef.self_mem_parts _⟩
    | argument h harg ih =>
      obtain ⟨s, hs, ht⟩ := ih
      exact ⟨s, hs, TypeRef.arg_mem_parts harg s ht⟩

end SourceUnit

/-! ## Usings -/

theorem Recasting.Scope.needed?_eq_some {scope : Recasting.Scope} {identity space : String} :
    scope.needed? identity = some space ↔
      scope.space ≠ some space ∧
        ∃ ref, scope.type? identity = some ref ∧ ref.space = some space := by
  unfold needed?
  simp only [Option.bind_eq_some_iff, Option.filter_eq_some_iff, decide_eq_true_eq]
  grind

/-- The namespaces that a recast unit uses: those of what the mentioned types are
bound to, but for its own. -/
theorem SourceUnit.mem_usings_of_recast {u : SourceUnit} {b : Bindings} {target : TargetUnit}
    (h : (u.recast b).result = .ok target) {space : String} :
    space ∈ target.usings.names ↔ target.space ≠ some space ∧
      ∃ t ref, u.Mentions t ∧
        Recasting.Scope.type? ⟨(u.recast b).bindings, target.space⟩ t.name = some ref ∧
        ref.space = some space := by
  obtain ⟨_, hbindings, htarget⟩ := recast_ok h
  have hspace : target.space = u.space := by
    rw [htarget]
    rfl
  rw [hbindings, hspace, htarget, mem_usings_targetOf]
  simp only [Recasting.Scope.needed?_eq_some, mem_references_iff]
  constructor
  · rintro ⟨t, ht, hother, ref, href, hspace⟩
    exact ⟨hother, t, ref, ht, href, hspace⟩
  · rintro ⟨hother, t, ref, ht, href, hspace⟩
    exact ⟨t, ht, hother, ref, href, hspace⟩

/-- A unit that comes through uses a namespace exactly if it is not its own and
is that of a mentioned type. A name stands for what it is bound to once the unit
has bound all that it declares, or else for a type of the platform. -/
theorem usings_are_the_namespaces_of_the_mentioned_types {u : SourceUnit} {b : Bindings}
    {target : TargetUnit} (h : (u.recast b).result = .ok target) :
    (u.recast b).bindings = b.extend u.declared ∧
      ∀ space, space ∈ target.usings.names ↔ target.space ≠ some space ∧
        ∃ t ref, u.Mentions t ∧
          ((b.extend u.declared).find? t.name).or (Builtin.type? t.name) = some ref ∧
          ref.space = some space := by
  obtain ⟨_, hbindings, _⟩ := SourceUnit.recast_ok h
  rw [u.declarations_eq] at hbindings
  refine ⟨hbindings, fun space => ?_⟩
  rw [← hbindings]
  exact SourceUnit.mem_usings_of_recast h

/-- A class that holds items of another package and itself, catches an exception,
and has a native method that takes a builder. -/
def borrowingUnit : SourceUnit :=
  (SourceUnit.ofClass "User" "User" [
    .fieldOf "items" ((TypeRef.named "java.util.List").withArgs [.named "a.b.Item"]),
    .fieldOf "next" (.named "c.User"),
    .method ⟨"go", [], none, [],
      some [.tryCatch [] [⟨"e", .named "java.lang.Exception", []⟩] none], .none⟩,
    .method ⟨"fill", [⟨"builder", .named "java.lang.StringBuilder"⟩], none, [.native], none,
      .none⟩]).within "c"

/-- A table with the items, and with an exception in place of the platform's. -/
def borrowedTable : Bindings :=
  ⟨[("a.b.Item", .type (some "A.B") "Item"),
    ("java.lang.Exception", .type (some "Faults") "Fault")]⟩

theorem a_unit_uses_what_it_borrows :
    ∃ target, (borrowingUnit.recast borrowedTable).result = .ok target ∧
      "A.B" ∈ target.usings.names ∧ "System.Collections.Generic" ∈ target.usings.names ∧
      "Faults" ∈ target.usings.names ∧ "System" ∉ target.usings.names ∧
      "System.Text" ∉ target.usings.names ∧ "C" ∉ target.usings.names := by
  obtain ⟨target, hok, hspace⟩ : ∃ target,
      (borrowingUnit.recast borrowedTable).result = .ok target ∧ target.space = some "C" :=
    ⟨_, congrArg Recasting.Outcome.result
      (SourceUnit.recast_of_bound (u := borrowingUnit) (b := borrowedTable) (by decide +kernel)),
      by decide +kernel⟩
  have husings := (usings_are_the_namespaces_of_the_mentioned_types hok).2
  -- what the mentioned types are bound to, in the order of the references
  have hspaces : borrowingUnit.references.map (fun t =>
      (((borrowedTable.extend borrowingUnit.declared).find? t.name).or
        (Builtin.type? t.name)).bind (·.space)) =
      [some "System.Collections.Generic", some "A.B", some "C", some "Faults"] := by
    decide +kernel
  have hmem : ∀ space, space ∈ target.usings.names ↔ "C" ≠ space ∧
      some space ∈ [some "System.Collections.Generic", some "A.B", some "C", some "Faults"] := by
    intro space
    rw [husings, hspace, ← hspaces, List.mem_map]
    simp only [← SourceUnit.mem_references_iff, Option.bind_eq_some_iff, ne_eq,
      Option.some.injEq, exists_and_left]
  refine ⟨target, hok, ?_⟩
  simp only [hmem]
  decide

/-! ## Imports -/

/-- Take a unit that comes through, and an import of it that stands for a type in
another namespace. The namespace is used if the unit mentions the imported type, and
it is used only if the unit mentions a type of it. The import itself changes nothing:
with other imports the unit comes out the same, with the same bindings and warnings. -/
theorem an_import_is_used_if_its_namespace_is_mentioned {u : SourceUnit} {b : Bindings}
    {target : TargetUnit} (h : (u.recast b).result = .ok target) :
    let scope : Recasting.Scope := ⟨(u.recast b).bindings, target.space⟩
    (∀ imported ∈ u.imports, ∀ ref space, scope.type? imported = some ref →
      ref.space = some space → target.space ≠ some space →
        ((∃ t, u.Mentions t ∧ t.name = imported) → space ∈ target.usings.names) ∧
        (space ∈ target.usings.names ↔ ∃ t ref', u.Mentions t ∧
          scope.type? t.name = some ref' ∧ ref'.space = some space)) ∧
    ∀ imports, ({ u with imports := imports } : SourceUnit).recast b = u.recast b := by
  intro scope
  refine ⟨?_, fun _ => rfl⟩
  intro imported _ ref space href hspace hother
  have hused : space ∈ target.usings.names ↔ ∃ t ref', u.Mentions t ∧
      scope.type? t.name = some ref' ∧ ref'.space = some space := by
    rw [SourceUnit.mem_usings_of_recast h]
    exact and_iff_right hother
  refine ⟨?_, hused⟩
  rintro ⟨t, ht, rfl⟩
  exact hused.mpr ⟨t, ref, ht, href, hspace⟩

/-- The class that borrows items, with imports of the items and of a type of the
platform that it does not mention. -/
def importingUnit : SourceUnit :=
  { borrowingUnit with imports := ["a.b.Item", "java.lang.Math"] }

theorem one_of_two_imports_is_used :
    ∃ target, (importingUnit.recast borrowedTable).result = .ok target ∧
      "A.B" ∈ target.usings.names ∧ "System" ∉ target.usings.names := by
  have hbound : (borrowedTable.bindAll importingUnit.declarations).2 = none := by decide +kernel
  have hrecast := SourceUnit.recast_of_bound hbound
  obtain ⟨target, hok, hspace⟩ : ∃ target,
      (importingUnit.recast borrowedTable).result = .ok target ∧ target.space = some "C" :=
    ⟨_, congrArg Recasting.Outcome.result hrecast, by decide +kernel⟩
  have hbindings : (importingUnit.recast borrowedTable).bindings =
      borrowedTable.extend importingUnit.declarations := congrArg Recasting.Outcome.bindings hrecast
  have himports := (an_import_is_used_if_its_namespace_is_mentioned hok).1
  rw [hbindings, hspace] at himports
  have hitem := himports "a.b.Item" (by decide) (.type (some "A.B") "Item") "A.B"
    (by decide +kernel) rfl (by decide)
  have hmath := himports "java.lang.Math" (by decide) (.type (some "System") "Math") "System"
    (by decide +kernel) rfl (by decide)
  refine ⟨target, hok, hitem.1 ⟨.named "a.b.Item", ?_, rfl⟩, ?_⟩
  · rw [← SourceUnit.mem_references_iff]
    exact List.mem_of_getElem? (i := 1) rfl
  · rw [hmath.2]
    rintro ⟨t, ref, ht, href, hspace⟩
    rw [← SourceUnit.mem_references_iff] at ht
    have hnone : ∀ t ∈ importingUnit.references, (Recasting.Scope.type?
        ⟨borrowedTable.extend importingUnit.declarations, some "C"⟩ t.name).bind (·.space) ≠
          some "System" := by
      decide +kernel
    exact hnone t ht (by rw [href]; exact hspace)

/-- A class that has an imported type only before the dot of a call. -/
def onlyCallingUnit : SourceUnit :=
  { SourceUnit.ofClass "C" "C" [.method ⟨"go", [], none, [],
      some [.expr (.call (some (.ident "Item")) "make" (some "a.b.Item.make") [])], .none⟩] with
    imports := ["a.b.Item"] }

theorem an_import_that_is_only_called_is_not_used :
    ∃ target, (onlyCallingUnit.recast borrowedTable).result = .ok target ∧
      "a.b.Item" ∈ onlyCallingUnit.imports ∧
      (onlyCallingUnit.recast borrowedTable).bindings.find? "a.b.Item" =
        some (.type (some "A.B") "Item") ∧
      target.space = none ∧ target.usings.names = [] := by
  have hbound : (borrowedTable.bindAll onlyCallingUnit.declarations).2 = none := by decide +kernel
  have hrecast := SourceUnit.recast_of_bound hbound
  refine ⟨_, congrArg Recasting.Outcome.result hrecast, by decide, ?_, ?_, ?_⟩
  · rw [congrArg Recasting.Outcome.bindings hrecast]
    decide +kernel
  · decide +kernel
  · decide +kernel

end Recast
