-- Texts tell expressions apart. The forms in brackets are never printed
-- alike; accesses, signs and assignments are when they are regrouped alike.
import Recast.Proofs.ReadBack

namespace Recast

namespace CSharp

open Recast.Expr

section

variable {e e' : Expr}

theorem readExpr_whole (he : e.all readableForm = true) :
    Text.Reads readExpr (exprText e).toList (e.regrouped, []) := by
  have hread := @readExpr_exprText e he [] rfl (e.regrouped, [])
    (continues_done (by simp) (by simp))
  rwa [List.append_nil] at hread

theorem exprText_eq_iff (he : e.all readableForm = true) (he' : e'.all readableForm = true) :
    exprText e = exprText e' ↔ e.regrouped = e'.regrouped := by
  constructor
  · intro htext
    have hread := readExpr_whole he
    rw [htext] at hread
    exact (Prod.mk.inj (hread.unique (readExpr_whole he'))).1
  · intro hgroup
    rw [← exprText_regrouped e, hgroup, exprText_regrouped e']

/-- The text of an open form starts with a name or a sign. -/
theorem not_startsWith_digit (e : Expr) (he : e.all openForm = true) (rest : List Char) :
    Text.startsWith Char.isDigit ((exprText e).toList ++ rest) = false := by
  have here := here_of_all he
  have hname : ∀ {name : String} {rest}, isName name = true →
      Text.startsWith Char.isDigit (name.toList ++ rest) = false := by
    intro name rest h
    obtain ⟨c, cs, hs, -, hc, -⟩ := exists_of_isWord (isWord_of_isName h)
    rw [hs]
    exact hc
  cases e with
  | ident name => exact hname here
  | field object name =>
    simp only [all, Bool.and_eq_true] at he
    rw [chars_field]
    exact not_startsWith_digit object he.2 _
  | call target method binding args =>
    cases binding with
    | some binding => simp [openForm] at here
    | none =>
      cases target with
      | none =>
        rw [chars_call]
        exact hname here
      | some target =>
        simp only [all, Bool.and_eq_true] at he
        rw [chars_callOn]
        exact not_startsWith_digit target he.2.1 _
  | unary op operand =>
    rw [chars_unary]
    cases op <;> rfl
  | assign target value =>
    simp only [all, Bool.and_eq_true] at he
    rw [chars_assign]
    exact not_startsWith_digit target he.2.1 _
  | literal | self | type | new | binary | conditional | cast | instanceOf | anonymousClass
  | placeholder => simp [openForm] at here

theorem readable_of_open (he : e.all openForm = true) : e.all readableForm = true := by
  refine all_mono (fun e he => ?_) e he
  have here := here_of_all he
  cases e with
  | unary op operand =>
    simp only [all, Bool.and_eq_true] at he
    have hdigit := not_startsWith_digit operand he.2 []
    rw [List.append_nil] at hdigit
    simp [readableForm, hdigit]
  | call target method binding args =>
    cases binding <;> simp_all [openForm, readableForm, plainForm]
  | _ => simp_all [openForm, readableForm, plainForm]

theorem readable_of_plain (he : e.all plainForm = true) : e.all readableForm = true := by
  refine all_mono (fun e he => ?_) e he
  have here := here_of_all he
  cases e <;> simp_all [readableForm, plainForm]

theorem grouped_of_plain (he : e.all plainForm = true) : e.grouped = true := by
  have hoperand : ∀ e : Expr, e.plainForm = true → e.isOperand = true := by
    intro e h
    cases e <;> simp_all [plainForm, isOperand]
  refine all_mono (fun e he => ?_) e he
  have here := here_of_all he
  cases e with
  | field object name =>
    simp only [all, Bool.and_eq_true] at he
    exact hoperand object (here_of_all he.2)
  | call target method binding args =>
    cases target with
    | none => rfl
    | some target =>
      simp only [all, Bool.and_eq_true] at he
      exact hoperand target (here_of_all he.2.1)
  | unary | assign => simp [plainForm] at here
  | _ => rfl

end

/-- Two expressions of names, accesses, signs and assignments are printed
alike exactly when they are regrouped alike. An expression stays as it is
exactly when nothing in it is taken apart by its text: no access is one of a
sign or of an assignment, no sign stands before an assignment, and nothing is
assigned to an assignment. Such expressions are told apart by their texts. -/
theorem open_forms_are_printed_alike_when_regrouped_alike {e e' : Expr}
    (he : e.all openForm = true) (he' : e'.all openForm = true) :
    (exprText e = exprText e' ↔ e.regrouped = e'.regrouped) ∧
      (e.regrouped = e ↔ e.grouped = true) ∧
      (e.grouped = true → e'.grouped = true → exprText e = exprText e' → e = e') := by
  have halike := exprText_eq_iff (readable_of_open he) (readable_of_open he')
  refine ⟨halike, regrouped_eq_self_iff, ?_⟩
  intro hgrouped hgrouped' htext
  have hregrouped := halike.mp htext
  rwa [regrouped_of_grouped e hgrouped, regrouped_of_grouped e' hgrouped'] at hregrouped

/-- `a = -b.c(d)`, with the minus before the call. -/
def assignedNegation : Expr :=
  .assign (.ident "a") (.unary .neg (.call (some (.ident "b")) "c" none [.ident "d"]))

/-- `a = b = !d`, where `b` is given its value first. -/
def assignedTwice : Expr :=
  .assign (.ident "a") (.assign (.ident "b") (.unary .not (.ident "d")))

theorem signs_and_assignments_in_order_are_told_apart :
    assignedNegation.all openForm = true ∧ assignedTwice.all openForm = true ∧
      assignedNegation.grouped = true ∧ assignedTwice.grouped = true ∧
      exprText assignedNegation ≠ exprText assignedTwice := by
  refine ⟨by decide, by decide, by decide, by decide, fun htext => ?_⟩
  have halike := @open_forms_are_printed_alike_when_regrouped_alike assignedNegation assignedTwice
    (by decide) (by decide)
  have hsame := halike.2.2 (by decide) (by decide) htext
  simp [assignedNegation, assignedTwice] at hsame

/-- An access of a negation is printed like the negation of an access, and
assignments are printed alike from left to right and from right to left. -/
theorem an_access_of_a_negation_is_printed_as_a_negated_access :
    let access : Expr := .field (.unary .neg (.ident "a")) "b"
    let negation : Expr := .unary .neg (.field (.ident "a") "b")
    let fromLeft : Expr := .assign (.assign (.ident "a") (.ident "b")) (.ident "c")
    let fromRight : Expr := .assign (.ident "a") (.assign (.ident "b") (.ident "c"))
    access.all openForm = true ∧ negation.all openForm = true ∧ access ≠ negation ∧
      exprText access = exprText negation ∧
      fromLeft.all openForm = true ∧ fromRight.all openForm = true ∧ fromLeft ≠ fromRight ∧
      exprText fromLeft = exprText fromRight := by
  refine ⟨by decide, by decide, by simp, by decide, by decide, by decide, by simp, by decide⟩

/-- Literals, names, accesses, creations, and the forms that stand in
brackets are told apart by their texts, whatever parts they have. -/
theorem brackets_tell_expressions_apart {e e' : Expr} (he : e.all plainForm = true)
    (he' : e'.all plainForm = true) : exprText e = exprText e' ↔ e = e' := by
  rw [exprText_eq_iff (readable_of_plain he) (readable_of_plain he'),
    regrouped_of_grouped e (grouped_of_plain he), regrouped_of_grouped e' (grouped_of_plain he')]

/-- `((a.b)-1.c)`: a cast to a type with a dotted name. -/
def castOfField : Expr := .cast (.named "a.b") (.field (.literal (.int (-1))) "c")

/-- `((a.b - 1) is c<d, e>[])`: two brackets, and a field behind them. -/
def testOfField : Expr :=
  .instanceOf (.binary (.field (.ident "a") "b") .sub (.literal (.int 1)))
    ⟨"c", [.named "d", .named "e"], 1⟩

theorem a_cast_and_a_test_of_a_field_are_told_apart :
    castOfField.all plainForm = true ∧ testOfField.all plainForm = true ∧
      exprText castOfField ≠ exprText testOfField := by
  refine ⟨by decide, by decide, fun htext => ?_⟩
  have hsame := (@brackets_tell_expressions_apart castOfField testOfField (by decide)
    (by decide)).mp htext
  simp [castOfField, testOfField] at hsame

end CSharp

end Recast
