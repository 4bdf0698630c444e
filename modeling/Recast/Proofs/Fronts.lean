-- How the text of an expression starts. Four forms start with a bracket, and
-- a cast with two, but only behind a cast comes the name of a type and then
-- what may stand behind such a name.
import Recast.Proofs.Grouping
import Recast.Proofs.Literals
import Recast.Proofs.Types

namespace Recast

namespace Expr

/-! ## Forms of expressions -/

/-- The forms that are told apart by their brackets and words, over names of
the target language. -/
def plainForm : Expr → Bool
  | .literal (.float _) => false
  | .literal _ | .self | .binary .. | .conditional .. => true
  | .ident name | .field _ name => CSharp.isName name
  | .call _ method none _ => CSharp.isName method
  | .new ty _ | .cast ty _ | .instanceOf _ ty => ty.identities.all CSharp.isDottedName
  | _ => false

/-- The forms without brackets: names, accesses, signs and assignments. -/
def openForm : Expr → Bool
  | .ident name | .field _ name => CSharp.isName name
  | .call _ method none _ => CSharp.isName method
  | .unary .. | .assign .. => true
  | _ => false

/-- The forms that can be read back together. A minus before a digit would be
read as a part of the number. -/
def readableForm : Expr → Bool
  | .unary op operand =>
    !(op == .neg && Text.startsWith Char.isDigit (CSharp.exprText operand).toList)
  | .assign .. => true
  | e => e.plainForm

end Expr

namespace CSharp

open Recast.Expr

/-! ## Texts as rows of characters -/

section

variable (e e' e'' : Expr) (name method : String) (args : List Expr) (ty : TypeRef)
  (rest : List Char)

theorem chars_field : (exprText (.field e name)).toList ++ rest =
    (exprText e).toList ++ '.' :: (name.toList ++ rest) := by
  simp [exprText]

theorem chars_call : (exprText (.call none method none args)).toList ++ rest =
    method.toList ++ '(' :: ((exprTexts args).toList ++ ')' :: rest) := by
  simp [exprText]

theorem chars_callOn : (exprText (.call (some e) method none args)).toList ++ rest =
    (exprText e).toList ++
      '.' :: (method.toList ++ '(' :: ((exprTexts args).toList ++ ')' :: rest)) := by
  simp [exprText]

theorem chars_new : (exprText (.new ty args)).toList ++ rest =
    "new".toList ++
      ' ' :: ((typeText ty).toList ++ '(' :: ((exprTexts args).toList ++ ')' :: rest)) := by
  simp [exprText]

theorem chars_binary (op : BinaryOp) : (exprText (.binary e op e')).toList ++ rest =
    '(' :: ((exprText e).toList ++
      ' ' :: ((binarySign op).toList ++ ' ' :: ((exprText e').toList ++ ')' :: rest))) := by
  simp [exprText]

theorem chars_unary (op : UnaryOp) : (exprText (.unary op e)).toList ++ rest =
    (unarySign op).toList ++ ((exprText e).toList ++ rest) := by
  simp [exprText]

theorem chars_assign : (exprText (.assign e e')).toList ++ rest =
    (exprText e).toList ++ ' ' :: '=' :: ' ' :: ((exprText e').toList ++ rest) := by
  simp [exprText]

theorem chars_conditional : (exprText (.conditional e e' e'')).toList ++ rest =
    '(' :: ((exprText e).toList ++ ' ' :: '?' :: ' ' :: ((exprText e').toList ++
      ' ' :: ':' :: ' ' :: ((exprText e'').toList ++ ')' :: rest))) := by
  simp [exprText]

theorem chars_cast : (exprText (.cast ty e)).toList ++ rest =
    '(' :: '(' :: ((typeText ty).toList ++ ')' :: ((exprText e).toList ++ ')' :: rest)) := by
  simp [exprText]

theorem chars_instanceOf : (exprText (.instanceOf e ty)).toList ++ rest =
    '(' :: ((exprText e).toList ++
      ' ' :: 'i' :: 's' :: ' ' :: ((typeText ty).toList ++ ')' :: rest)) := by
  simp [exprText]

theorem chars_exprs : (exprTexts (e :: e' :: args)).toList ++ rest =
    (exprText e).toList ++ ',' :: ' ' :: ((exprTexts (e' :: args)).toList ++ rest) := by
  simp [exprTexts]

end

/-! ## The front of a text -/

/-- Behind the name at the front comes what comes only behind the names of
types in brackets. -/
def typeAhead (cs : List Char) : Bool :=
  Text.startsWith (fun c => c == '<' || c == '[' || c == ')') (cs.dropWhile inDotted)

/-- A bracket with a type in it stands at the front. -/
def castAhead : List Char → Bool
  | '(' :: cs => typeAhead cs
  | _ => false

/-- A character with which an expression may start. -/
def opensExpr (c : Char) : Bool :=
  inWord c || c == '(' || c == '-' || c == '!' || c == '~' || c == '\x22' || c == '\x27'

/-- The front of an expression, which is not taken for something else. -/
structure Front (cs : List Char) : Prop where
  opens : Text.startsWith opensExpr cs = true
  noType : typeAhead cs = false
  noCast : castAhead cs = false

theorem typeAhead_append {row rest : List Char} (h : row.all inWord = true) :
    typeAhead (row ++ rest) = typeAhead rest := by
  have hdotted : ∀ c ∈ row, inDotted c = true := by
    intro c hc
    rw [inDotted, List.all_eq_true.mp h c hc, Bool.true_or]
  rw [typeAhead, List.dropWhile_append_of_pos hdotted, typeAhead]

theorem typeAhead_dot {s : String} {rest : List Char} (h : isName s = true) :
    typeAhead ('.' :: (s.toList ++ rest)) = typeAhead rest := by
  have hdot : typeAhead ('.' :: (s.toList ++ rest)) = typeAhead (s.toList ++ rest) := rfl
  rw [hdot, typeAhead_append (all_inWord_of_isWord (isWord_of_isName h))]

namespace Front

theorem of_bracket {cs : List Char} (h : typeAhead cs = false) : Front ('(' :: cs) :=
  ⟨rfl, rfl, h⟩

/-- A sign or a quote. -/
theorem of_mark {c : Char} (hc : c ∈ ['-', '!', '~', '\x22', '\x27']) (cs : List Char) :
    Front (c :: cs) := by
  simp only [List.mem_cons, List.not_mem_nil, or_false] at hc
  rcases hc with rfl | rfl | rfl | rfl | rfl <;> exact ⟨rfl, rfl, rfl⟩

theorem of_row {row rest : List Char} (hne : row ≠ []) (h : row.all inWord = true)
    (hrest : typeAhead rest = false) : Front (row ++ rest) := by
  refine ⟨?_, (typeAhead_append h).trans hrest, ?_⟩
  all_goals
    obtain ⟨c, row, rfl⟩ := List.exists_cons_of_ne_nil hne
    rw [List.all_cons, Bool.and_eq_true] at h
  · simp [opensExpr, h.1]
  · have hc : c ≠ '(' := by
      rintro rfl
      exact absurd h.1 (by decide)
    unfold castAhead
    split
    · rename_i heq
      exact absurd (List.cons.inj heq).1 hc
    · rfl

theorem of_word {s : String} {rest : List Char} (h : isWord s = true)
    (hrest : typeAhead rest = false) : Front (s.toList ++ rest) := by
  obtain ⟨c, cs, hs, -⟩ := exists_of_isWord h
  exact of_row (by simp [hs]) (all_inWord_of_isWord h) hrest

theorem of_literal {v : Literal} (hv : ∀ x, v ≠ .float x) {rest : List Char}
    (hrest : typeAhead rest = false) : Front ((literalText v).toList ++ rest) := by
  cases v with
  | null => exact of_word (by decide) hrest
  | bool b =>
    cases b with
    | true => exact of_word (by decide) hrest
    | false => exact of_word (by decide) hrest
  | int n =>
    rw [literalText, intText]
    by_cases hn : n.toInt < 0
    · rw [if_pos hn, String.toList_append]
      exact of_mark (c := '-') (by decide) _
    · obtain ⟨c, cs, hrepr, -⟩ := Text.exists_repr n.toInt.natAbs
      have hdigits := Text.all_isDigit_repr n.toInt.natAbs
      rw [List.all_eq_true] at hdigits
      rw [if_neg hn]
      exact of_row (by simp [hrepr])
        (List.all_eq_true.mpr fun c hc => inWord_of_isDigit c (hdigits c hc)) hrest
  | float x => exact absurd rfl (hv x)
  | char c =>
    rw [literalText, charText, String.toList_append, String.toList_append]
    exact of_mark (c := '\x27') (by decide) _
  | string s =>
    rw [literalText, stringText, String.toList_append, String.toList_append]
    exact of_mark (c := '\x22') (by decide) _

/-- The induction goes down the first operands; what stands behind them is
no type and no cast either. -/
theorem of_expr (e : Expr) (he : e.all readableForm = true) {rest : List Char}
    (hrest : typeAhead rest = false) : Front ((exprText e).toList ++ rest) := by
  have here := here_of_all he
  cases e with
  | literal v =>
    refine of_literal ?_ hrest
    rintro x rfl
    simp [readableForm, plainForm] at here
  | ident name => exact of_word (isWord_of_isName here) hrest
  | self => exact of_word (s := "this") (by decide) hrest
  | field object name =>
    simp only [all, Bool.and_eq_true] at he
    rw [chars_field]
    exact of_expr object he.2 ((typeAhead_dot here).trans hrest)
  | call target method binding args =>
    cases binding with
    | some binding => simp [readableForm, plainForm] at here
    | none =>
      cases target with
      | none =>
        rw [chars_call]
        exact of_word (isWord_of_isName here) rfl
      | some target =>
        simp only [all, Bool.and_eq_true] at he
        rw [chars_callOn]
        exact of_expr target he.2.1 ((typeAhead_dot here).trans rfl)
  | new ty args =>
    rw [chars_new]
    exact of_word (by decide) rfl
  | binary left op right =>
    simp only [all, Bool.and_eq_true] at he
    rw [chars_binary]
    exact of_bracket (of_expr left he.2.1 rfl).noType
  | unary op operand =>
    rw [chars_unary]
    cases op with
    | neg => exact of_mark (c := '-') (by decide) _
    | not => exact of_mark (c := '!') (by decide) _
    | bitNot => exact of_mark (c := '~') (by decide) _
  | assign target value =>
    simp only [all, Bool.and_eq_true] at he
    rw [chars_assign]
    exact of_expr target he.2.1 rfl
  | conditional test consequent alternate =>
    simp only [all, Bool.and_eq_true] at he
    rw [chars_conditional]
    exact of_bracket (of_expr test he.2.1 rfl).noType
  | cast ty operand =>
    rw [chars_cast]
    exact of_bracket rfl
  | instanceOf operand ty =>
    simp only [all, Bool.and_eq_true] at he
    rw [chars_instanceOf]
    exact of_bracket (of_expr operand he.2 rfl).noType
  | type | anonymousClass | placeholder => simp [readableForm, plainForm] at here

end Front

theorem opens_exprText {e : Expr} (he : e.all readableForm = true) (rest : List Char) :
    Text.startsWith opensExpr ((exprText e).toList ++ rest) = true := by
  have hfront : Front ((exprText e).toList ++ []) := Front.of_expr e he rfl
  rw [List.append_nil] at hfront
  exact Text.startsWith_append rest hfront.opens

theorem typeAhead_typeText {ty : TypeRef} (h : ty.identities.all isDottedName = true)
    (rest : List Char) : typeAhead ((typeText ty).toList ++ ')' :: rest) = true := by
  obtain ⟨name, args, dims⟩ := ty
  simp only [TypeRef.identities, TypeRef.parts, List.map_cons, List.all_cons, Bool.and_eq_true] at h
  have hname : ∀ c ∈ name.toList, inDotted c = true :=
    List.all_eq_true.mp (all_inDotted_of_isDottedName h.1)
  rw [typeText, String.toList_append, String.toList_append, List.append_assoc, List.append_assoc,
    typeAhead, List.dropWhile_append_of_pos hname]
  cases args with
  | cons arg args => simp [inDotted, inWord]
  | nil =>
    unfold dimsText
    cases dims.toNat with
    | zero => rfl
    | succ n =>
      rw [toList_dimsText_cons]
      rfl

end CSharp

end Recast
