-- The expressions of statements and of units, and what holds at all parts of
-- an expression.
import Recast.Source
import Recast.Target

namespace Recast.Expr

/-! ## All parts of an expression -/

mutual

/-- The expression and all its parts are of this kind. -/
def all (p : Expr → Bool) : Expr → Bool
  | .literal value => p (.literal value)
  | .ident name => p (.ident name)
  | .self => p .self
  | .type ty => p (.type ty)
  | .field object name => p (.field object name) && object.all p
  | .call none method binding args => p (.call none method binding args) && allOf p args
  | .call (some target) method binding args =>
    p (.call (some target) method binding args) && (target.all p && allOf p args)
  | .new ty args => p (.new ty args) && allOf p args
  | .binary left op right => p (.binary left op right) && (left.all p && right.all p)
  | .unary op operand => p (.unary op operand) && operand.all p
  | .assign target value => p (.assign target value) && (target.all p && value.all p)
  | .conditional test consequent alternate =>
    p (.conditional test consequent alternate) &&
      (test.all p && (consequent.all p && alternate.all p))
  | .cast ty operand => p (.cast ty operand) && operand.all p
  | .instanceOf operand ty => p (.instanceOf operand ty) && operand.all p
  | .anonymousClass ty span => p (.anonymousClass ty span)
  | .placeholder note => p (.placeholder note)

def allOf (p : Expr → Bool) : List Expr → Bool
  | [] => true
  | e :: es => e.all p && allOf p es

end

theorem here_of_all {p : Expr → Bool} {e : Expr} (h : e.all p = true) : p e = true := by
  fun_cases all p e <;> simp_all [all]

mutual

/-- What is so wherever all parts are of one kind is so at all parts. -/
theorem all_mono {p q : Expr → Bool} (hpq : ∀ e : Expr, e.all p = true → q e = true) (e : Expr)
    (h : e.all p = true) : e.all q = true := by
  have here := hpq e h
  cases e with
  | literal | ident | self | type | anonymousClass | placeholder => simpa [all] using here
  | field object name | unary op object | cast ty object | instanceOf object ty =>
    simp only [all, Bool.and_eq_true] at h ⊢
    exact ⟨here, all_mono hpq object h.2⟩
  | binary left op right | assign left right =>
    simp only [all, Bool.and_eq_true] at h ⊢
    exact ⟨here, all_mono hpq left h.2.1, all_mono hpq right h.2.2⟩
  | conditional test consequent alternate =>
    simp only [all, Bool.and_eq_true] at h ⊢
    exact ⟨here, all_mono hpq test h.2.1, all_mono hpq consequent h.2.2.1,
      all_mono hpq alternate h.2.2.2⟩
  | new ty args =>
    simp only [all, Bool.and_eq_true] at h ⊢
    exact ⟨here, allOf_mono hpq args h.2⟩
  | call target method binding args =>
    cases target with
    | none =>
      simp only [all, Bool.and_eq_true] at h ⊢
      exact ⟨here, allOf_mono hpq args h.2⟩
    | some target =>
      simp only [all, Bool.and_eq_true] at h ⊢
      exact ⟨here, all_mono hpq target h.2.1, allOf_mono hpq args h.2.2⟩

theorem allOf_mono {p q : Expr → Bool} (hpq : ∀ e : Expr, e.all p = true → q e = true)
    (es : List Expr) (h : allOf p es = true) : allOf q es = true := by
  match es with
  | [] => rfl
  | e :: es =>
    simp only [allOf, Bool.and_eq_true] at h ⊢
    exact ⟨all_mono hpq e h.1, allOf_mono hpq es h.2⟩

end

end Recast.Expr

namespace Recast

/-! ## The expressions of statements -/

mutual

/-- The expressions that stand in a statement and are no parts of others. -/
def Stmt.exprs : Stmt → List Expr
  | .expr e => [e]
  | .declare _ _ init => init.toList
  | .block body => stmtExprs body
  | .ifElse test consequent none => test :: consequent.exprs
  | .ifElse test consequent (some alternate) => test :: (consequent.exprs ++ alternate.exprs)
  | .whileLoop test body => test :: body.exprs
  | .forLoop init test update body => stmtExprs init ++ (test.toList ++ (update ++ body.exprs))
  | .forEach _ _ iterable body => iterable :: body.exprs
  | .returns value => value.toList
  | .throws value => [value]
  | .tryCatch body catches none => stmtExprs body ++ catchExprs catches
  | .tryCatch body catches (some cleanup) =>
    stmtExprs body ++ (catchExprs catches ++ stmtExprs cleanup)
  | .labeled _ body _ => body.exprs
  | .breakLoop | .continueLoop | .placeholder _ => []

def stmtExprs : List Stmt → List Expr
  | [] => []
  | s :: ss => s.exprs ++ stmtExprs ss

def catchExprs : List CatchClause → List Expr
  | [] => []
  | ⟨_, _, body⟩ :: cs => stmtExprs body ++ catchExprs cs

end

def optStmtExprs : Option (List Stmt) → List Expr
  | none => []
  | some ss => stmtExprs ss

/-! ## The expressions of units -/

namespace Source

mutual

def TypeDecl.exprs : TypeDecl → List Expr
  | ⟨_, _, _, _, _, _, members, _⟩ => memberExprs members

def Member.exprs : Member → List Expr
  | .field decl => decl.init.toList
  | .method decl => optStmtExprs decl.body
  | .constructor decl => optStmtExprs decl.body
  | .type decl => decl.exprs

def memberExprs : List Member → List Expr
  | [] => []
  | m :: ms => m.exprs ++ memberExprs ms

end

end Source

def SourceUnit.exprs (u : SourceUnit) : List Expr := u.types.flatMap (·.exprs)

namespace Target

mutual

def TypeDecl.exprs : TypeDecl → List Expr
  | ⟨_, _, _, _, _, members⟩ => memberExprs members

def Member.exprs : Member → List Expr
  | .field _ _ _ init => init.toList
  | .method _ _ _ _ body => optStmtExprs body
  | .constructor _ _ _ body => stmtExprs body
  | .type decl => decl.exprs
  | .placeholder _ => []

def memberExprs : List Member → List Expr
  | [] => []
  | m :: ms => m.exprs ++ memberExprs ms

end

end Target

def TargetUnit.exprs (u : TargetUnit) : List Expr := u.types.flatMap (·.exprs)

end Recast
