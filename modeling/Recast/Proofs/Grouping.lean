-- How the text of an expression groups its parts. No brackets stand around a
-- sign or an assignment, so an access reaches only the operand right before
-- it, a sign reaches up to the next assignment, and assignments are done
-- from right to left. Two trees with one text are regrouped into one tree.
import Recast.CSharp.Expr
import Recast.Proofs.Parts

namespace Recast.Expr

/-! ## Accesses, signs and assignments -/

/-- What may follow a dot. -/
inductive Access
  | field (name : String)
  | call (method : String) (binding : Option String) (args : List Expr)

/-- The access of a part of `e`. -/
def Access.on (e : Expr) : Access → Expr
  | .field name => .field e name
  | .call method binding args => .call (some e) method binding args

def isAssign : Expr → Bool
  | .assign .. => true
  | _ => false

/-- Neither a sign nor an assignment, so that a dot may follow. -/
def isOperand : Expr → Bool
  | .unary .. | .assign .. => false
  | _ => true

/-- The expression with an access behind its last operand. -/
def onLast (a : Access) : Expr → Expr
  | .unary op operand => .unary op (operand.onLast a)
  | .assign target value => .assign target (value.onLast a)
  | e => a.on e

/-- The expression with a sign before its first operand. -/
def signed (op : UnaryOp) : Expr → Expr
  | .assign target value => .assign (target.signed op) value
  | e => .unary op e

/-- The expression with a value assigned to its last part. -/
def assigned : Expr → Expr → Expr
  | .assign target last, value => .assign target (last.assigned value)
  | e, value => .assign e value

mutual

/-- The expression as its text groups it. -/
def regrouped : Expr → Expr
  | .literal value => .literal value
  | .ident name => .ident name
  | .self => .self
  | .type ty => .type ty
  | .field object name => object.regrouped.onLast (.field name)
  | .call none method binding args => .call none method binding (regroupedAll args)
  | .call (some target) method binding args =>
    target.regrouped.onLast (.call method binding (regroupedAll args))
  | .new ty args => .new ty (regroupedAll args)
  | .binary left op right => .binary left.regrouped op right.regrouped
  | .unary op operand => operand.regrouped.signed op
  | .assign target value => target.regrouped.assigned value.regrouped
  | .conditional test consequent alternate =>
    .conditional test.regrouped consequent.regrouped alternate.regrouped
  | .cast ty operand => .cast ty operand.regrouped
  | .instanceOf operand ty => .instanceOf operand.regrouped ty
  | .anonymousClass ty span => .anonymousClass ty span
  | .placeholder note => .placeholder note

def regroupedAll : List Expr → List Expr
  | [] => []
  | e :: es => e.regrouped :: regroupedAll es

end

/-! ## The laws of grouping -/

theorem not_isAssign {e : Expr} (h : ∀ target value, e = .assign target value → False) :
    e.isAssign = false := by
  cases e with
  | assign target value => exact absurd rfl (h target value)
  | _ => rfl

theorem onLast_of_isOperand {a : Access} {e : Expr} (h : e.isOperand = true) :
    e.onLast a = a.on e := by
  fun_cases onLast a e <;> simp_all [isOperand]

theorem signed_of_not_isAssign {op : UnaryOp} {e : Expr} (h : e.isAssign = false) :
    e.signed op = .unary op e := by
  fun_cases signed op e <;> simp_all [isAssign]

theorem assigned_of_not_isAssign {e value : Expr} (h : e.isAssign = false) :
    e.assigned value = .assign e value := by
  fun_cases assigned e value <;> simp_all [isAssign]

theorem isAssign_on (a : Access) (e : Expr) : (a.on e).isAssign = false := by
  cases a <;> rfl

/-- A sign and an access are put on in either order. -/
theorem signed_onLast (op : UnaryOp) (a : Access) (e : Expr) :
    (e.onLast a).signed op = (e.signed op).onLast a := by
  cases e with
  | assign target value => rfl
  | unary op' operand => rfl
  | _ => exact signed_of_not_isAssign (isAssign_on a _)

theorem signed_assigned (op : UnaryOp) (e value : Expr) :
    (e.assigned value).signed op = (e.signed op).assigned value := by
  cases e <;> rfl

theorem assigned_onLast (a : Access) (e value : Expr) :
    e.assigned (value.onLast a) = (e.assigned value).onLast a := by
  fun_induction assigned e value with
  | case1 value target last ih => rw [assigned, ih, onLast]
  | case2 e value he => rw [assigned_of_not_isAssign (not_isAssign he), onLast]

/-- Assignments go from right to left, however they are grouped. -/
theorem assigned_assigned (e value last : Expr) :
    e.assigned (value.assigned last) = (e.assigned value).assigned last := by
  fun_induction assigned e value with
  | case1 value target tail ih => rw [assigned, ih, assigned]
  | case2 e value he => rw [assigned_of_not_isAssign (not_isAssign he), assigned]

/-! ## Regrouped expressions -/

/-- No sign and no assignment stands where the text would take it apart. -/
def groupedHere : Expr → Bool
  | .field object _ => object.isOperand
  | .call (some target) _ _ _ => target.isOperand
  | .unary _ operand => !operand.isAssign
  | .assign target _ => !target.isAssign
  | _ => true

def grouped (e : Expr) : Bool := e.all groupedHere

theorem isAssign_onLast (a : Access) (e : Expr) : (e.onLast a).isAssign = e.isAssign := by
  cases e with
  | assign target value => rfl
  | unary op operand => rfl
  | _ => exact isAssign_on a _

def Access.argsGrouped : Access → Bool
  | .field _ => true
  | .call _ _ args => allOf groupedHere args

theorem grouped_onLast {a : Access} (ha : a.argsGrouped = true) {e : Expr} (he : e.grouped = true) :
    (e.onLast a).grouped = true := by
  unfold grouped at he ⊢
  fun_induction onLast a e with
  | case1 op operand ih =>
    simp only [all, Bool.and_eq_true, groupedHere, isAssign_onLast] at he ⊢
    exact ⟨he.1, ih he.2⟩
  | case2 target value ih =>
    simp only [all, Bool.and_eq_true, groupedHere] at he ⊢
    exact ⟨he.1, he.2.1, ih he.2.2⟩
  | case3 e hunary hassign =>
    have hoperand : e.isOperand = true := by
      cases e <;> simp_all [isOperand]
    cases a with
    | field name => simp [Access.on, all, groupedHere, hoperand, he]
    | call method binding args =>
      simp only [Access.argsGrouped] at ha
      simp [Access.on, all, groupedHere, hoperand, he, ha]

theorem grouped_signed (op : UnaryOp) {e : Expr} (he : e.grouped = true) :
    (e.signed op).grouped = true := by
  unfold grouped at he ⊢
  fun_induction signed op e with
  | case1 target value ih =>
    simp only [all, Bool.and_eq_true, groupedHere, Bool.not_eq_true'] at he ⊢
    refine ⟨?_, ih he.2.1, he.2.2⟩
    rw [signed_of_not_isAssign he.1]
    rfl
  | case2 e hassign => simp [all, groupedHere, he, not_isAssign hassign]

theorem grouped_assigned {e value : Expr} (he : e.grouped = true) (hvalue : value.grouped = true) :
    (e.assigned value).grouped = true := by
  unfold grouped at he hvalue ⊢
  fun_induction assigned e value with
  | case1 value target last ih =>
    simp only [all, Bool.and_eq_true, groupedHere] at he ⊢
    exact ⟨he.1, he.2.1, ih he.2.2 hvalue⟩
  | case2 e value hassign => simp [all, groupedHere, he, not_isAssign hassign, hvalue]

mutual

theorem grouped_regrouped (e : Expr) : e.regrouped.grouped = true := by
  cases e with
  | literal | ident | self | type | anonymousClass | placeholder => rfl
  | field object name => exact grouped_onLast rfl (grouped_regrouped object)
  | unary op operand => exact grouped_signed op (grouped_regrouped operand)
  | assign target value =>
    exact grouped_assigned (grouped_regrouped target) (grouped_regrouped value)
  | cast ty operand | instanceOf operand ty => exact grouped_regrouped operand
  | binary left op right =>
    have hleft := grouped_regrouped left
    have hright := grouped_regrouped right
    unfold grouped at *
    simp [regrouped, all, groupedHere, hleft, hright]
  | conditional test consequent alternate =>
    have htest := grouped_regrouped test
    have hconsequent := grouped_regrouped consequent
    have halternate := grouped_regrouped alternate
    unfold grouped at *
    simp [regrouped, all, groupedHere, htest, hconsequent, halternate]
  | new ty args => exact grouped_regroupedAll args
  | call target method binding args =>
    cases target with
    | none => exact grouped_regroupedAll args
    | some target =>
      have hargs : (Access.call method binding (regroupedAll args)).argsGrouped = true :=
        grouped_regroupedAll args
      exact grouped_onLast hargs (grouped_regrouped target)

theorem grouped_regroupedAll (es : List Expr) : allOf groupedHere (regroupedAll es) = true := by
  cases es with
  | nil => rfl
  | cons e es =>
    rw [regroupedAll, allOf, Bool.and_eq_true]
    exact ⟨grouped_regrouped e, grouped_regroupedAll es⟩

end

mutual

theorem regrouped_of_grouped (e : Expr) (h : e.grouped = true) : e.regrouped = e := by
  unfold grouped at h
  cases e with
  | literal | ident | self | type | anonymousClass | placeholder => rfl
  | field object name =>
    simp only [all, groupedHere, Bool.and_eq_true] at h
    rw [regrouped, regrouped_of_grouped object h.2, onLast_of_isOperand h.1, Access.on]
  | unary op operand =>
    simp only [all, groupedHere, Bool.and_eq_true, Bool.not_eq_true'] at h
    rw [regrouped, regrouped_of_grouped operand h.2, signed_of_not_isAssign h.1]
  | assign target value =>
    simp only [all, groupedHere, Bool.and_eq_true, Bool.not_eq_true'] at h
    rw [regrouped, regrouped_of_grouped target h.2.1, regrouped_of_grouped value h.2.2,
      assigned_of_not_isAssign h.1]
  | cast ty operand | instanceOf operand ty =>
    simp only [all, groupedHere, Bool.true_and] at h
    rw [regrouped, regrouped_of_grouped operand h]
  | binary left op right =>
    simp only [all, groupedHere, Bool.true_and, Bool.and_eq_true] at h
    rw [regrouped, regrouped_of_grouped left h.1, regrouped_of_grouped right h.2]
  | conditional test consequent alternate =>
    simp only [all, groupedHere, Bool.true_and, Bool.and_eq_true] at h
    rw [regrouped, regrouped_of_grouped test h.1, regrouped_of_grouped consequent h.2.1,
      regrouped_of_grouped alternate h.2.2]
  | new ty args =>
    simp only [all, groupedHere, Bool.true_and] at h
    rw [regrouped, regroupedAll_of_grouped args h]
  | call target method binding args =>
    cases target with
    | none =>
      simp only [all, groupedHere, Bool.true_and] at h
      rw [regrouped, regroupedAll_of_grouped args h]
    | some target =>
      simp only [all, groupedHere, Bool.and_eq_true] at h
      rw [regrouped, regrouped_of_grouped target h.2.1, regroupedAll_of_grouped args h.2.2,
        onLast_of_isOperand h.1, Access.on]

theorem regroupedAll_of_grouped (es : List Expr) (h : allOf groupedHere es = true) :
    regroupedAll es = es := by
  cases es with
  | nil => rfl
  | cons e es =>
    rw [allOf, Bool.and_eq_true] at h
    rw [regroupedAll, regrouped_of_grouped e h.1, regroupedAll_of_grouped es h.2]

end

/-- The trees that their text leaves as they are. -/
theorem regrouped_eq_self_iff {e : Expr} : e.regrouped = e ↔ e.grouped = true :=
  ⟨fun h => h ▸ grouped_regrouped e, regrouped_of_grouped e⟩

/-! ## Texts -/

open CSharp

/-- The text of an access, its dot included. -/
def Access.text : Access → String
  | .field name => "." ++ name
  | .call method _ args => "." ++ method ++ "(" ++ exprTexts args ++ ")"

theorem exprText_onLast (a : Access) (e : Expr) : exprText (e.onLast a) = exprText e ++ a.text := by
  fun_induction onLast a e with
  | case1 op operand ih => simp only [exprText, ih, String.append_assoc]
  | case2 target value ih => simp only [exprText, ih, String.append_assoc]
  | case3 e _ _ =>
    cases a with
    | field name => simp only [Access.on, Access.text, exprText, String.append_assoc]
    | call method binding args =>
      simp only [Access.on, Access.text, exprText, String.append_assoc]

theorem exprText_signed (op : UnaryOp) (e : Expr) :
    exprText (e.signed op) = unarySign op ++ exprText e := by
  fun_induction signed op e with
  | case1 target value ih => simp only [exprText, ih, String.append_assoc]
  | case2 e _ => simp only [exprText]

theorem exprText_assigned (e value : Expr) :
    exprText (e.assigned value) = exprText e ++ " = " ++ exprText value := by
  fun_induction assigned e value with
  | case1 target last value ih => simp only [exprText, ih, String.append_assoc]
  | case2 e value _ => simp only [exprText]

mutual

/-- Regrouping keeps the text. -/
theorem exprText_regrouped (e : Expr) : exprText e.regrouped = exprText e := by
  cases e with
  | literal | ident | self | type | anonymousClass | placeholder => rfl
  | field object name =>
    simp only [regrouped, exprText_onLast, exprText_regrouped object, exprText, Access.text,
      String.append_assoc]
  | unary op operand =>
    simp only [regrouped, exprText_signed, exprText_regrouped operand, exprText]
  | assign target value =>
    simp only [regrouped, exprText_assigned, exprText_regrouped target, exprText_regrouped value,
      exprText]
  | cast ty operand | instanceOf operand ty =>
    simp only [regrouped, exprText, exprText_regrouped operand]
  | binary left op right =>
    simp only [regrouped, exprText, exprText_regrouped left, exprText_regrouped right]
  | conditional test consequent alternate =>
    simp only [regrouped, exprText, exprText_regrouped test, exprText_regrouped consequent,
      exprText_regrouped alternate]
  | new ty args => simp only [regrouped, exprText, exprTexts_regroupedAll args]
  | call target method binding args =>
    cases target with
    | none => simp only [regrouped, exprText, exprTexts_regroupedAll args]
    | some target =>
      simp only [regrouped, exprText_onLast, exprText_regrouped target, Access.text,
        exprTexts_regroupedAll args, exprText, String.append_assoc]

theorem exprTexts_regroupedAll (es : List Expr) : exprTexts (regroupedAll es) = exprTexts es := by
  match es with
  | [] => rfl
  | [e] => simp only [regroupedAll, exprTexts, exprText_regrouped e]
  | e :: e' :: es =>
    have ih := exprTexts_regroupedAll (e' :: es)
    simp only [regroupedAll] at ih
    simp only [regroupedAll, exprTexts, exprText_regrouped e, ih]

end

end Recast.Expr
