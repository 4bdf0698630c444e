-- Types, expressions and statements are read back from their JSON form. A
-- reader of nested forms may take a number of steps down, and the depth of
-- the form is enough for it.
import Recast.Form.Body
import Recast.Proofs.Json.Readers
import Recast.Proofs.Parts

namespace Recast

/-- No literal with a point. -/
def Expr.notFloat : Expr → Bool
  | .literal (.float _) => false
  | _ => true

namespace Form

open Json.Reader
open Recast.Json (depth itemsDepth fieldsDepth)

/-! ## Spans and type references -/

theorem carries_span (s : Span) : Carries span (writeSpan s) s :=
  carries_record (by simp) (.required (carries_uint64 _) rfl
    (.required (carries_uint64 _) rfl (.required (carries_uint32 _) rfl .pure)))

mutual

theorem carries_typeRefDeep (t : TypeRef) (deep : Nat) (hdeep : (writeTypeRef t).depth ≤ deep) :
    Carries (typeRefDeep deep) (writeTypeRef t) t := by
  obtain ⟨name, args, dims⟩ := t
  have hname := carries_text name
  have hdims := carries_uint8 dims
  simp only [writeTypeRef] at hdeep ⊢
  obtain ⟨deep, rfl⟩ : ∃ k, deep = k + 1 := ⟨deep - 1, by rw [depth] at hdeep; omega⟩
  rw [typeRefDeep, typeRefWith]
  -- an empty list of arguments and zero dimensions are left out
  cases args with
  | nil =>
    by_cases hzero : dims = 0
    · subst hzero
      exact carries_record (by simp) (.required hname rfl (.missing rfl (.missing rfl .pure)))
    · rw [if_neg hzero]
      exact carries_record (by simp)
        (.required hname rfl (.missing rfl (.defaulted hdims rfl .pure)))
  | cons arg args =>
    simp only [List.isEmpty_cons, Bool.false_eq_true, if_false, depth, List.cons_append,
      List.nil_append, fieldsDepth] at hdeep ⊢
    have hargs := carries_typeRefsDeep (arg :: args) deep (by omega)
    by_cases hzero : dims = 0
    · subst hzero
      exact carries_record (by simp)
        (.required hname rfl (.defaulted hargs rfl (.missing rfl .pure)))
    · rw [if_neg hzero]
      exact carries_record (by simp)
        (.required hname rfl (.defaulted hargs rfl (.defaulted hdims rfl .pure)))

theorem carries_typeRefsDeep (ts : List TypeRef) (deep : Nat)
    (hdeep : itemsDepth (writeTypeRefs ts) ≤ deep) :
    Carries (list (typeRefDeep deep)) (.array (writeTypeRefs ts)) ts := by
  cases ts with
  | nil => exact carries_nil
  | cons t ts =>
    rw [writeTypeRefs, itemsDepth] at hdeep
    rw [writeTypeRefs]
    exact (carries_typeRefDeep t deep (by omega)).cons (carries_typeRefsDeep ts deep (by omega))

end

theorem carries_typeRef (t : TypeRef) : Carries typeRef (writeTypeRef t) t :=
  carries_of_deep typeRefDeep (carries_typeRefDeep t)

theorem carries_typeRefs (ts : List TypeRef) :
    Carries (list typeRef) (.array (writeTypeRefs ts)) ts := by
  induction ts with
  | nil => exact carries_nil
  | cons t ts ih => exact (carries_typeRef t).cons ih

theorem writeTypeRef_ne_null (t : TypeRef) : writeTypeRef t ≠ .null := by
  obtain ⟨name, args, dims⟩ := t
  simp [writeTypeRef]

/-! ## Expressions -/

theorem carries_literal {v : Literal} (hv : ∀ x, v ≠ .float x) :
    Carries literal (writeLiteral v) v := by
  cases v with
  | null => exact ⟨rfl, fun _ _ => rfl⟩
  | bool b => exact carries_tagged (fun _ _ => rfl) (carries_bool b).map
  | int n => exact carries_tagged (fun _ _ => rfl) (carries_int64 n).map
  | float x => exact absurd rfl (hv x)
  | char c => exact carries_tagged (fun _ _ => rfl) (carries_char c).map
  | string s => exact carries_tagged (fun _ _ => rfl) (carries_text s).map

theorem carries_binaryOp (op : BinaryOp) :
    Carries (oneOf binaryOps) (.text (tagOf binaryOps op)) op :=
  carries_oneOf (by cases op <;> rfl)

theorem carries_unaryOp (op : UnaryOp) : Carries (oneOf unaryOps) (.text (tagOf unaryOps op)) op :=
  carries_oneOf (by cases op <;> rfl)

theorem writeExpr_ne_null (e : Expr) : writeExpr e ≠ .null := by
  cases e <;> simp [writeExpr, Json.tagged]

-- the readers of forms are unfolded only down to their records
seal Json.Reader.record

mutual

/-- The induction is on the expression. Each part is one step further down
and less deep. -/
theorem carries_exprDeep (e : Expr) (he : e.all Expr.notFloat = true) (deep : Nat)
    (hdeep : (writeExpr e).depth ≤ deep) : Carries (exprDeep deep) (writeExpr e) e := by
  have here := Expr.here_of_all he
  cases deep with
  | zero =>
    cases e with
    | self => exact ⟨rfl, fun _ _ => rfl⟩
    | _ => simp [writeExpr, Json.tagged, depth] at hdeep
  | succ deep =>
    cases e with
    | self => exact ⟨rfl, fun _ _ => rfl⟩
    | literal v =>
      rw [writeExpr]
      refine carries_tagged (fun _ _ => rfl) (Carries.map (carries_literal ?_))
      rintro x rfl
      cases here
    | ident name =>
      rw [writeExpr]
      exact carries_tagged (fun _ _ => rfl) (carries_text name).map
    | type ty =>
      rw [writeExpr]
      exact carries_tagged (fun _ _ => rfl) (carries_typeRef ty).map
    | field object name =>
      simp only [Expr.all, Bool.and_eq_true] at he
      simp only [writeExpr, Json.tagged, depth, fieldsDepth] at hdeep
      have hobject := carries_exprDeep object he.2 deep (by omega)
      rw [writeExpr]
      exact carries_tagged (fun _ _ => rfl) (carries_record (by simp)
        (.required hobject rfl (.required (carries_text name) rfl .pure)))
    | call target method binding args =>
      have hall : (∀ t, target = some t → t.all Expr.notFloat = true) ∧
          Expr.allOf Expr.notFloat args = true := by
        cases target <;> simp_all [Expr.all]
      cases binding with
      | none =>
        simp only [writeExpr, List.cons_append, List.nil_append] at hdeep ⊢
        simp only [Json.tagged, depth, fieldsDepth] at hdeep
        have htarget := carries_optExprDeep target hall.1 deep (by omega)
        have hargs := carries_exprsDeep args hall.2 deep (by omega)
        exact carries_tagged (fun _ _ => rfl) (carries_record (by simp) (.optional htarget rfl
          (.required (carries_text method) rfl (.absent rfl (.defaulted hargs rfl .pure)))))
      | some b =>
        simp only [writeExpr, List.cons_append, List.nil_append] at hdeep ⊢
        simp only [Json.tagged, depth, fieldsDepth] at hdeep
        have htarget := carries_optExprDeep target hall.1 deep (by omega)
        have hbinding := (carries_text b).nullable (by simp)
        have hargs := carries_exprsDeep args hall.2 deep (by omega)
        exact carries_tagged (fun _ _ => rfl) (carries_record (by simp) (.optional htarget rfl
          (.required (carries_text method) rfl
            (.optional hbinding rfl (.defaulted hargs rfl .pure)))))
    | new ty args =>
      simp only [Expr.all, Bool.and_eq_true] at he
      simp only [writeExpr, Json.tagged, depth, fieldsDepth] at hdeep
      have hargs := carries_exprsDeep args he.2 deep (by omega)
      rw [writeExpr]
      exact carries_tagged (fun _ _ => rfl) (carries_record (by simp)
        (.required (carries_typeRef ty) rfl (.defaulted hargs rfl .pure)))
    | binary left op right =>
      simp only [Expr.all, Bool.and_eq_true] at he
      simp only [writeExpr, Json.tagged, depth, fieldsDepth] at hdeep
      have hleft := carries_exprDeep left he.2.1 deep (by omega)
      have hright := carries_exprDeep right he.2.2 deep (by omega)
      rw [writeExpr]
      exact carries_tagged (fun _ _ => rfl) (carries_record (by simp)
        (.required hleft rfl (.required (carries_binaryOp op) rfl (.required hright rfl .pure))))
    | unary op operand =>
      simp only [Expr.all, Bool.and_eq_true] at he
      simp only [writeExpr, Json.tagged, depth, fieldsDepth] at hdeep
      have hoperand := carries_exprDeep operand he.2 deep (by omega)
      rw [writeExpr]
      exact carries_tagged (fun _ _ => rfl) (carries_record (by simp)
        (.required (carries_unaryOp op) rfl (.required hoperand rfl .pure)))
    | assign target value =>
      simp only [Expr.all, Bool.and_eq_true] at he
      simp only [writeExpr, Json.tagged, depth, fieldsDepth] at hdeep
      have htarget := carries_exprDeep target he.2.1 deep (by omega)
      have hvalue := carries_exprDeep value he.2.2 deep (by omega)
      rw [writeExpr]
      exact carries_tagged (fun _ _ => rfl) (carries_record (by simp)
        (.required htarget rfl (.required hvalue rfl .pure)))
    | conditional test consequent alternate =>
      simp only [Expr.all, Bool.and_eq_true] at he
      simp only [writeExpr, Json.tagged, depth, fieldsDepth] at hdeep
      have htest := carries_exprDeep test he.2.1 deep (by omega)
      have hconsequent := carries_exprDeep consequent he.2.2.1 deep (by omega)
      have halternate := carries_exprDeep alternate he.2.2.2 deep (by omega)
      rw [writeExpr]
      exact carries_tagged (fun _ _ => rfl) (carries_record (by simp)
        (.required htest rfl (.required hconsequent rfl (.required halternate rfl .pure))))
    | cast ty operand =>
      simp only [Expr.all, Bool.and_eq_true] at he
      simp only [writeExpr, Json.tagged, depth, fieldsDepth] at hdeep
      have hoperand := carries_exprDeep operand he.2 deep (by omega)
      rw [writeExpr]
      exact carries_tagged (fun _ _ => rfl) (carries_record (by simp)
        (.required (carries_typeRef ty) rfl (.required hoperand rfl .pure)))
    | instanceOf operand ty =>
      simp only [Expr.all, Bool.and_eq_true] at he
      simp only [writeExpr, Json.tagged, depth, fieldsDepth] at hdeep
      have hoperand := carries_exprDeep operand he.2 deep (by omega)
      rw [writeExpr]
      exact carries_tagged (fun _ _ => rfl) (carries_record (by simp)
        (.required hoperand rfl (.required (carries_typeRef ty) rfl .pure)))
    | anonymousClass ty span =>
      rw [writeExpr]
      exact carries_tagged (fun _ _ => rfl) (carries_record (by simp)
        (.required (carries_typeRef ty) rfl (.required (carries_span span) rfl .pure)))
    | placeholder note =>
      rw [writeExpr]
      exact carries_tagged (fun _ _ => rfl) (carries_text note).map

theorem carries_optExprDeep (value : Option Expr)
    (hvalue : ∀ e, value = some e → e.all Expr.notFloat = true) (deep : Nat)
    (hdeep : (writeOptExpr value).depth ≤ deep) :
    Carries (nullable (exprDeep deep)) (writeOptExpr value) value := by
  cases value with
  | none => exact carries_null
  | some e =>
    rw [writeOptExpr] at hdeep ⊢
    exact (carries_exprDeep e (hvalue e rfl) deep hdeep).nullable (writeExpr_ne_null e)

theorem carries_exprsDeep (es : List Expr) (hes : Expr.allOf Expr.notFloat es = true) (deep : Nat)
    (hdeep : itemsDepth (writeExprs es) ≤ deep) :
    Carries (list (exprDeep deep)) (.array (writeExprs es)) es := by
  cases es with
  | nil => exact carries_nil
  | cons e es =>
    rw [Expr.allOf, Bool.and_eq_true] at hes
    rw [writeExprs, itemsDepth] at hdeep
    rw [writeExprs]
    exact (carries_exprDeep e hes.1 deep (by omega)).cons
      (carries_exprsDeep es hes.2 deep (by omega))

end

theorem carries_expr {e : Expr} (he : e.all Expr.notFloat = true) :
    Carries expr (writeExpr e) e :=
  carries_of_deep exprDeep (carries_exprDeep e he)

theorem writeOptExpr_eq (value : Option Expr) :
    writeOptExpr value = .ofOption writeExpr value := by
  cases value <;> rfl

theorem carries_optExpr {value : Option Expr}
    (h : value.toList.all (·.all Expr.notFloat) = true) :
    Carries (nullable expr) (writeOptExpr value) value := by
  rw [writeOptExpr_eq]
  exact carries_ofOption fun e he =>
    ⟨carries_expr (by simpa [he] using h), writeExpr_ne_null e⟩

theorem carries_exprs {es : List Expr} (hes : es.all (·.all Expr.notFloat) = true) :
    Carries (list expr) (.array (writeExprs es)) es := by
  induction es with
  | nil => exact carries_nil
  | cons e es ih =>
    rw [List.all_cons, Bool.and_eq_true] at hes
    exact (carries_expr hes.1).cons (ih hes.2)

/-! ## Statements -/

theorem writeStmt_ne_null (s : Stmt) : writeStmt s ≠ .null := by
  cases s with
  | ifElse test consequent alternate => cases alternate <;> simp [writeStmt, Json.tagged]
  | tryCatch body catches cleanup => cases cleanup <;> simp [writeStmt, Json.tagged]
  | _ => simp [writeStmt, Json.tagged]

mutual

theorem carries_stmtDeep (s : Stmt) (hs : s.exprs.all (·.all Expr.notFloat) = true) (deep : Nat)
    (hdeep : (writeStmt s).depth ≤ deep) : Carries (stmtDeep deep) (writeStmt s) s := by
  cases deep with
  | zero =>
    cases s with
    | breakLoop | continueLoop => exact ⟨rfl, fun _ _ => rfl⟩
    | ifElse test consequent alternate =>
      cases alternate <;> simp [writeStmt, Json.tagged, depth] at hdeep
    | tryCatch body catches cleanup =>
      cases cleanup <;> simp [writeStmt, Json.tagged, depth] at hdeep
    | _ => simp [writeStmt, Json.tagged, depth] at hdeep
  | succ deep =>
    cases s with
    | breakLoop | continueLoop => exact ⟨rfl, fun _ _ => rfl⟩
    | expr e =>
      simp only [Stmt.exprs, List.all_cons, Bool.and_eq_true] at hs
      rw [writeStmt]
      exact carries_tagged (fun _ _ => rfl) (carries_expr hs.1).map
    | declare name ty init =>
      rw [writeStmt]
      exact carries_tagged (fun _ _ => rfl) (carries_record (by simp)
        (.required (carries_text name) rfl (.required (carries_typeRef ty) rfl
          (.optional (carries_optExpr hs) rfl .pure))))
    | block body =>
      simp only [writeStmt, Json.tagged, depth, fieldsDepth] at hdeep
      have hbody := carries_stmtsDeep body hs deep (by omega)
      rw [writeStmt]
      exact carries_tagged (fun _ _ => rfl) hbody.map
    | ifElse test consequent alternate =>
      cases alternate with
      | none =>
        simp only [Stmt.exprs, List.all_cons, Bool.and_eq_true] at hs
        simp only [writeStmt, Json.tagged, depth, fieldsDepth] at hdeep
        have hconsequent := carries_stmtDeep consequent hs.2 deep (by omega)
        rw [writeStmt]
        exact carries_tagged (fun _ _ => rfl) (carries_record (by simp)
          (.required (carries_expr hs.1) rfl (.required hconsequent rfl
            (.optional carries_null rfl .pure))))
      | some alternate =>
        simp only [Stmt.exprs, List.all_cons, List.all_append, Bool.and_eq_true] at hs
        simp only [writeStmt, Json.tagged, depth, fieldsDepth] at hdeep
        have hconsequent := carries_stmtDeep consequent hs.2.1 deep (by omega)
        have halternate := (carries_stmtDeep alternate hs.2.2 deep (by omega)).nullable
          (writeStmt_ne_null alternate)
        rw [writeStmt]
        exact carries_tagged (fun _ _ => rfl) (carries_record (by simp)
          (.required (carries_expr hs.1) rfl (.required hconsequent rfl
            (.optional halternate rfl .pure))))
    | whileLoop test body =>
      simp only [Stmt.exprs, List.all_cons, Bool.and_eq_true] at hs
      simp only [writeStmt, Json.tagged, depth, fieldsDepth] at hdeep
      have hbody := carries_stmtDeep body hs.2 deep (by omega)
      rw [writeStmt]
      exact carries_tagged (fun _ _ => rfl) (carries_record (by simp)
        (.required (carries_expr hs.1) rfl (.required hbody rfl .pure)))
    | forLoop init test update body =>
      simp only [Stmt.exprs, List.all_append, Bool.and_eq_true] at hs
      simp only [writeStmt, Json.tagged, depth, fieldsDepth] at hdeep
      have hinit := carries_stmtsDeep init hs.1 deep (by omega)
      have hbody := carries_stmtDeep body hs.2.2.2 deep (by omega)
      rw [writeStmt]
      exact carries_tagged (fun _ _ => rfl) (carries_record (by simp)
        (.defaulted hinit rfl (.optional (carries_optExpr hs.2.1) rfl
          (.defaulted (carries_exprs hs.2.2.1) rfl (.required hbody rfl .pure)))))
    | forEach variableName ty iterable body =>
      simp only [Stmt.exprs, List.all_cons, Bool.and_eq_true] at hs
      simp only [writeStmt, Json.tagged, depth, fieldsDepth] at hdeep
      have hbody := carries_stmtDeep body hs.2 deep (by omega)
      rw [writeStmt]
      exact carries_tagged (fun _ _ => rfl) (carries_record (by simp)
        (.required (carries_text variableName) rfl (.required (carries_typeRef ty) rfl
          (.required (carries_expr hs.1) rfl (.required hbody rfl .pure)))))
    | returns value =>
      rw [writeStmt]
      exact carries_tagged (fun _ _ => rfl) (carries_optExpr hs).map
    | throws value =>
      simp only [Stmt.exprs, List.all_cons, Bool.and_eq_true] at hs
      rw [writeStmt]
      exact carries_tagged (fun _ _ => rfl) (carries_expr hs.1).map
    | tryCatch body catches cleanup =>
      cases cleanup with
      | none =>
        simp only [Stmt.exprs, List.all_append, Bool.and_eq_true] at hs
        simp only [writeStmt, Json.tagged, depth, fieldsDepth] at hdeep
        have hbody := carries_stmtsDeep body hs.1 deep (by omega)
        have hcatches := carries_catchesDeep catches hs.2 deep (by omega)
        rw [writeStmt]
        exact carries_tagged (fun _ _ => rfl) (carries_record (by simp)
          (.required hbody rfl (.defaulted hcatches rfl (.optional carries_null rfl .pure))))
      | some cleanup =>
        simp only [Stmt.exprs, List.all_append, Bool.and_eq_true] at hs
        simp only [writeStmt, Json.tagged, depth, fieldsDepth] at hdeep
        have hbody := carries_stmtsDeep body hs.1 deep (by omega)
        have hcatches := carries_catchesDeep catches hs.2.1 deep (by omega)
        have hcleanup := (carries_stmtsDeep cleanup hs.2.2 deep (by omega)).nullable (by simp)
        rw [writeStmt]
        exact carries_tagged (fun _ _ => rfl) (carries_record (by simp)
          (.required hbody rfl (.defaulted hcatches rfl (.optional hcleanup rfl .pure))))
    | labeled label body span =>
      simp only [writeStmt, Json.tagged, depth, fieldsDepth] at hdeep
      have hbody := carries_stmtDeep body hs deep (by omega)
      rw [writeStmt]
      exact carries_tagged (fun _ _ => rfl) (carries_record (by simp)
        (.required (carries_text label) rfl (.required hbody rfl
          (.required (carries_span span) rfl .pure))))
    | placeholder note =>
      rw [writeStmt]
      exact carries_tagged (fun _ _ => rfl) (carries_text note).map

theorem carries_stmtsDeep (ss : List Stmt)
    (hss : (stmtExprs ss).all (·.all Expr.notFloat) = true) (deep : Nat)
    (hdeep : itemsDepth (writeStmts ss) ≤ deep) :
    Carries (list (stmtDeep deep)) (.array (writeStmts ss)) ss := by
  cases ss with
  | nil => exact carries_nil
  | cons s ss =>
    rw [stmtExprs, List.all_append, Bool.and_eq_true] at hss
    rw [writeStmts, itemsDepth] at hdeep
    rw [writeStmts]
    exact (carries_stmtDeep s hss.1 deep (by omega)).cons
      (carries_stmtsDeep ss hss.2 deep (by omega))

theorem carries_catchesDeep (cs : List CatchClause)
    (hcs : (catchExprs cs).all (·.all Expr.notFloat) = true) (deep : Nat)
    (hdeep : itemsDepth (writeCatches cs) ≤ deep) :
    Carries (list (catchWith (stmtDeep deep))) (.array (writeCatches cs)) cs := by
  match cs with
  | [] => exact carries_nil
  | ⟨param, ty, body⟩ :: cs =>
    rw [catchExprs, List.all_append, Bool.and_eq_true] at hcs
    simp only [writeCatches, writeCatch, itemsDepth, depth, fieldsDepth] at hdeep
    have hbody := carries_stmtsDeep body hcs.1 deep (by omega)
    have hclause : Carries (catchWith (stmtDeep deep)) (writeCatch ⟨param, ty, body⟩)
        ⟨param, ty, body⟩ := by
      rw [writeCatch]
      exact carries_record (by simp) (.required (carries_text param) rfl
        (.required (carries_typeRef ty) rfl (.required hbody rfl .pure)))
    rw [writeCatches]
    exact hclause.cons (carries_catchesDeep cs hcs.2 deep (by omega))

end

theorem carries_stmt {s : Stmt} (hs : s.exprs.all (·.all Expr.notFloat) = true) :
    Carries stmt (writeStmt s) s :=
  carries_of_deep stmtDeep (carries_stmtDeep s hs)

theorem carries_stmts {ss : List Stmt} (hss : (stmtExprs ss).all (·.all Expr.notFloat) = true) :
    Carries (list stmt) (.array (writeStmts ss)) ss := by
  induction ss with
  | nil => exact carries_nil
  | cons s ss ih =>
    rw [stmtExprs, List.all_append, Bool.and_eq_true] at hss
    rw [writeStmts]
    exact (carries_stmt hss.1).cons (ih hss.2)

end Form

end Recast
