-- Texts tell statements apart only as far as their lines do. The blanks in
-- front of a line mean nothing, so an else stands for the nearest if that
-- waits for one, however far to the right its line is printed.
import Recast.CSharp.Stmt
import Recast.Proofs.Branches
import Recast.Proofs.Expressions

namespace Recast

/-! ## Blanks in front of lines -/

namespace Text

/-- The line without the blanks in front of it. -/
def trimmed (line : String) : String := String.ofList (line.toList.dropWhile (· == ' '))

/-- The text without the blanks in front of its lines. -/
def unindent (s : String) : String := joinWith "\n" ((splitOn '\n' s).map trimmed)

theorem unindent_line {line : String} (h : '\n' ∉ line.toList) (rest : String) :
    unindent (line ++ "\n" ++ rest) = trimmed line ++ "\n" ++ unindent rest := by
  have hchars : (line ++ "\n" ++ rest).toList = line.toList ++ '\n' :: rest.toList := by
    simp
  have hsplit : splitOn '\n' (line ++ "\n" ++ rest) = line :: splitOn '\n' rest := by
    unfold splitOn
    rw [hchars, splitChars_eq, splitChars_eq, List.splitOn_append_cons_self,
      List.splitOn_eq_singleton h]
    simp
  have hne : (splitOn '\n' rest).map trimmed ≠ [] := by
    simp [splitOn, splitChars_ne_nil]
  unfold unindent
  rw [hsplit, List.map_cons, joinWith_eq, joinWith_eq, String.intercalate_cons_of_ne_nil hne]

/-- The first line of a text ends at the first break. -/
theorem line_inj {line line' rest rest' : List Char} (h : '\n' ∉ line) (h' : '\n' ∉ line')
    (heq : line ++ '\n' :: rest = line' ++ '\n' :: rest') : line = line' ∧ rest = rest' := by
  have hrow : ∀ {line : List Char}, '\n' ∉ line → line.all (· != '\n') = true := by
    intro line h
    refine List.all_eq_true.mpr fun c hc => bne_iff_ne.mpr ?_
    rintro rfl
    exact h hc
  have htake := congrArg (List.takeWhile (· != '\n')) heq
  have hdrop := congrArg (List.dropWhile (· != '\n')) heq
  rw [takeWhile_row (hrow h) rfl, takeWhile_row (hrow h') rfl] at htake
  rw [dropWhile_row (hrow h) rfl, dropWhile_row (hrow h') rfl] at hdrop
  exact ⟨htake, (List.cons.inj hdrop).2⟩

end Text

namespace CSharp

open Recast.Expr

/-! ## Expressions stand on one line -/

theorem break_not_mem_word {s : String} (h : isWord s = true) : '\n' ∉ s.toList := by
  intro hmem
  exact absurd (List.all_eq_true.mp (all_inWord_of_isWord h) _ hmem) (by decide)

theorem break_not_mem_literalText {v : Literal} (hv : ∀ x, v ≠ .float x) :
    '\n' ∉ (literalText v).toList := by
  cases v with
  | null => decide
  | bool b => cases b <;> decide
  | int n =>
    have hdigits : '\n' ∉ (Nat.repr n.toInt.natAbs).toList := by
      intro hmem
      exact absurd (List.all_eq_true.mp (Text.all_isDigit_repr n.toInt.natAbs) _ hmem) (by decide)
    rw [literalText, intText]
    split
    · rw [String.toList_append, List.mem_append]
      exact fun hmem => hmem.elim (by decide) hdigits
    · exact hdigits
  | float x => exact absurd rfl (hv x)
  | char c =>
    have hchar : '\n' ∉ (escapeChar c).toList := by
      unfold escapeChar
      split <;> simp_all [eq_comm]
    simp [literalText, charText, hchar]
  | string s =>
    have hchar : ∀ c, '\n' ∉ escapeInString c := by
      intro c
      unfold escapeInString
      split <;> simp_all [eq_comm]
    simp [literalText, stringText, escapeString_eq, hchar]

mutual

theorem break_not_mem_typeText (t : TypeRef) (h : t.identities.all isDottedName = true) :
    '\n' ∉ (typeText t).toList := by
  obtain ⟨name, args, dims⟩ := t
  simp only [TypeRef.identities, TypeRef.parts, List.map_cons, List.all_cons, Bool.and_eq_true] at h
  have hname : '\n' ∉ name.toList := by
    intro hmem
    exact absurd (List.all_eq_true.mp (all_inDotted_of_isDottedName h.1) _ hmem) (by decide)
  have hdims : '\n' ∉ (dimsText dims).toList := by
    simp [dimsText]
  have hargs := break_not_mem_typeTexts args h.2
  simp only [typeText, String.toList_append, List.mem_append, hname, hdims, false_or, or_false]
  split <;> simp [hargs]

theorem break_not_mem_typeTexts (ts : List TypeRef)
    (h : ((TypeRef.allParts ts).map (·.name)).all isDottedName = true) :
    '\n' ∉ (typeTexts ts).toList := by
  match ts with
  | [] => simp [typeTexts]
  | [t] =>
    simp only [TypeRef.allParts, List.map_append, List.all_append, Bool.and_eq_true] at h
    exact break_not_mem_typeText t h.1
  | t :: t' :: ts =>
    rw [TypeRef.allParts, List.map_append, List.all_append, Bool.and_eq_true] at h
    simp [typeTexts, break_not_mem_typeText t h.1, break_not_mem_typeTexts (t' :: ts) h.2]

end

theorem break_not_mem_signs : (∀ op, '\n' ∉ (binarySign op).toList) ∧
    ∀ op, '\n' ∉ (unarySign op).toList := by
  constructor <;> intro op <;> cases op <;> decide

mutual

theorem break_not_mem_exprText (e : Expr) (he : e.all readableForm = true) :
    '\n' ∉ (exprText e).toList := by
  have here := here_of_all he
  cases e with
  | literal v =>
    apply break_not_mem_literalText
    rintro x rfl
    simp [readableForm, plainForm] at here
  | ident name => exact break_not_mem_word (isWord_of_isName here)
  | self => decide
  | field object name =>
    simp only [all, Bool.and_eq_true] at he
    simp [exprText, break_not_mem_exprText object he.2, break_not_mem_word (isWord_of_isName here)]
  | call target method binding args =>
    cases binding with
    | some binding => simp [readableForm, plainForm] at here
    | none =>
      have hmethod := break_not_mem_word (isWord_of_isName here)
      cases target with
      | none =>
        simp only [all, Bool.and_eq_true] at he
        simp [exprText, hmethod, break_not_mem_exprTexts args he.2]
      | some target =>
        simp only [all, Bool.and_eq_true] at he
        simp [exprText, hmethod, break_not_mem_exprText target he.2.1,
          break_not_mem_exprTexts args he.2.2]
  | new ty args =>
    simp only [all, Bool.and_eq_true] at he
    simp [exprText, break_not_mem_typeText ty here, break_not_mem_exprTexts args he.2]
  | binary left op right =>
    simp only [all, Bool.and_eq_true] at he
    simp [exprText, break_not_mem_exprText left he.2.1, break_not_mem_signs.1 op,
      break_not_mem_exprText right he.2.2]
  | unary op operand =>
    simp only [all, Bool.and_eq_true] at he
    simp [exprText, break_not_mem_signs.2 op, break_not_mem_exprText operand he.2]
  | assign target value =>
    simp only [all, Bool.and_eq_true] at he
    simp [exprText, break_not_mem_exprText target he.2.1, break_not_mem_exprText value he.2.2]
  | conditional test consequent alternate =>
    simp only [all, Bool.and_eq_true] at he
    simp [exprText, break_not_mem_exprText test he.2.1, break_not_mem_exprText consequent he.2.2.1,
      break_not_mem_exprText alternate he.2.2.2]
  | cast ty operand | instanceOf operand ty =>
    simp only [all, Bool.and_eq_true] at he
    simp [exprText, break_not_mem_typeText ty here, break_not_mem_exprText operand he.2]
  | type | anonymousClass | placeholder => simp [readableForm, plainForm] at here

theorem break_not_mem_exprTexts (es : List Expr) (hes : allOf readableForm es = true) :
    '\n' ∉ (exprTexts es).toList := by
  match es with
  | [] => simp [exprTexts]
  | [e] =>
    rw [allOf, Bool.and_eq_true] at hes
    exact break_not_mem_exprText e hes.1
  | e :: e' :: es =>
    rw [allOf, Bool.and_eq_true] at hes
    simp [exprTexts, break_not_mem_exprText e hes.1, break_not_mem_exprTexts (e' :: es) hes.2]

end

/-! ## First words -/

/-- The words that start a line of a statement. -/
def keywords : List String := ["if", "else", "while", "return"]

def firstWord (cs : List Char) : String := String.ofList (cs.takeWhile inWord)

end CSharp

/-- The forms of expressions that are read back as they are and whose names
do not start a line of another kind. -/
def Expr.lineForm (e : Expr) : Bool :=
  e.readableForm && e.groupedHere &&
    match e with
    | .ident name | .call none name _ _ => !CSharp.keywords.contains name
    | _ => true

namespace CSharp

open Recast.Expr

section

variable {e : Expr}

theorem readable_of_lineForm (he : e.all lineForm = true) : e.all readableForm = true := by
  refine all_mono (fun e he => ?_) e he
  have here := here_of_all he
  simp only [lineForm, Bool.and_eq_true] at here
  exact here.1.1

theorem grouped_of_lineForm (he : e.all lineForm = true) : e.grouped = true := by
  refine all_mono (fun e he => ?_) e he
  have here := here_of_all he
  simp only [lineForm, Bool.and_eq_true] at here
  exact here.1.2

end

theorem firstWord_word {s : String} (h : isWord s = true) {rest : List Char}
    (hrest : Text.startsWith inWord rest = false) : firstWord (s.toList ++ rest) = s := by
  rw [firstWord, Text.takeWhile_row (all_inWord_of_isWord h) hrest, String.ofList_toList]

theorem firstWord_mark {c : Char} (hc : inWord c = false) (cs : List Char) :
    firstWord (c :: cs) ∉ keywords := by
  rw [firstWord, List.takeWhile_cons_of_neg (by simp [hc])]
  decide

theorem firstWord_literalText {v : Literal} (hv : ∀ x, v ≠ .float x) {rest : List Char}
    (hrest : Text.startsWith inWord rest = false) :
    firstWord ((literalText v).toList ++ rest) ∉ keywords := by
  cases v with
  | null =>
    rw [literalText, firstWord_word (by decide) hrest]
    decide
  | bool b =>
    cases b with
    | true | false =>
      rw [literalText, firstWord_word (by decide) hrest]
      decide
  | int n =>
    have hdigits := Text.all_isDigit_repr n.toInt.natAbs
    rw [literalText, intText]
    split
    · rw [String.toList_append]
      exact firstWord_mark (c := '-') rfl _
    · have hrow : (Nat.repr n.toInt.natAbs).toList.all inWord = true :=
        List.all_eq_true.mpr fun c hc =>
          inWord_of_isDigit c (List.all_eq_true.mp hdigits c hc)
      rw [firstWord, Text.takeWhile_row hrow hrest, String.ofList_toList]
      intro hmem
      -- no keyword is made of digits
      have hletters : ∀ word ∈ keywords, word.toList.all Char.isDigit = false := by decide
      rw [hletters _ hmem] at hdigits
      cases hdigits
  | float x => exact absurd rfl (hv x)
  | char c =>
    rw [literalText, charText, String.toList_append, String.toList_append]
    exact firstWord_mark (c := '\x27') rfl _
  | string s =>
    rw [literalText, stringText, String.toList_append, String.toList_append]
    exact firstWord_mark (c := '\x22') rfl _

/-- The induction goes down the first operands. -/
theorem firstWord_exprText (e : Expr) (he : e.all lineForm = true) {rest : List Char}
    (hrest : Text.startsWith inWord rest = false) :
    firstWord ((exprText e).toList ++ rest) ∉ keywords := by
  have here := here_of_all he
  cases e with
  | literal v =>
    refine firstWord_literalText ?_ hrest
    rintro x rfl
    simp [lineForm, readableForm, plainForm] at here
  | ident name =>
    simp only [lineForm, readableForm, plainForm, Bool.and_eq_true] at here
    rw [exprText, firstWord_word (isWord_of_isName here.1.1) hrest]
    simpa using here.2
  | self =>
    rw [exprText, firstWord_word (by decide) hrest]
    decide
  | field object name =>
    simp only [all, Bool.and_eq_true] at he
    rw [chars_field]
    exact firstWord_exprText object he.2 rfl
  | call target method binding args =>
    cases binding with
    | some binding => simp [lineForm, readableForm, plainForm] at here
    | none =>
      cases target with
      | none =>
        simp only [lineForm, readableForm, plainForm, Bool.and_eq_true] at here
        rw [chars_call, firstWord_word (isWord_of_isName here.1.1) rfl]
        simpa using here.2
      | some target =>
        simp only [all, Bool.and_eq_true] at he
        rw [chars_callOn]
        exact firstWord_exprText target he.2.1 rfl
  | new ty args =>
    rw [chars_new, firstWord_word (by decide) rfl]
    decide
  | unary op operand =>
    rw [chars_unary]
    cases op with
    | neg => exact firstWord_mark (c := '-') rfl _
    | not => exact firstWord_mark (c := '!') rfl _
    | bitNot => exact firstWord_mark (c := '~') rfl _
  | assign target value =>
    simp only [all, Bool.and_eq_true] at he
    rw [chars_assign]
    exact firstWord_exprText target he.2.1 rfl
  | binary left op right =>
    rw [chars_binary]
    exact firstWord_mark rfl _
  | conditional test consequent alternate =>
    rw [chars_conditional]
    exact firstWord_mark rfl _
  | cast ty operand =>
    rw [chars_cast]
    exact firstWord_mark rfl _
  | instanceOf operand ty =>
    rw [chars_instanceOf]
    exact firstWord_mark rfl _
  | type | anonymousClass | placeholder => simp [lineForm, readableForm, plainForm] at here

/-! ## Lines -/

namespace Line

/-- The line without its blanks and its end. -/
def text : Line → String
  | .expr e => exprText e ++ ";"
  | .opening => "\x7b"
  | .closing => "\x7d"
  | .test e => "if (" ++ exprText e ++ ")"
  | .loop e => "while (" ++ exprText e ++ ")"
  | .otherwise none => "else"
  | .otherwise (some e) => "else if (" ++ exprText e ++ ")"
  | .returns none => "return;"
  | .returns (some e) => "return " ++ exprText e ++ ";"
  | .other _ => ""

/-- The lines that are looked at, over expressions that can be read back. -/
def readable : Line → Bool
  | .expr e | .test e | .loop e | .otherwise (some e) | .returns (some e) => e.all lineForm
  | .opening | .closing | .otherwise none | .returns none => true
  | .other _ => false

/-- The lines, each with its end. -/
def texts : List Line → String
  | [] => ""
  | l :: ls => l.text ++ "\n" ++ texts ls

theorem texts_append (ls ls' : List Line) : texts (ls ++ ls') = texts ls ++ texts ls' := by
  induction ls with
  | nil => simp [texts]
  | cons l ls ih => simp [texts, ih, String.append_assoc]

/-- The line that starts with a keyword, in so many steps. -/
def readAfter (n : Nat) (word : String) (cs : List Char) : Option Line :=
  if word = "if" then (readExpr n (cs.drop 2)).map (.test ·.1)
  else if word = "while" then (readExpr n (cs.drop 2)).map (.loop ·.1)
  else if word = "else" then
    if cs = [] then some (.otherwise none) else (readExpr n (cs.drop 5)).map (.otherwise ·.1)
  else if cs = [';'] then some (.returns none)
  else (readExpr n (cs.drop 1)).map (.returns ·.1)

/-- The line with this text, in so many steps. -/
def read (n : Nat) (cs : List Char) : Option Line :=
  if firstWord cs ∈ keywords then readAfter n (firstWord cs) (cs.dropWhile inWord)
  else if cs = ['\x7b'] then some .opening
  else if cs = ['\x7d'] then some .closing
  else (readExpr n cs).map (.expr ·.1)

end Line

theorem readExpr_line {e : Expr} (he : e.all lineForm = true) {c : Char}
    (hc : c = ')' ∨ c = ';') : Text.Reads readExpr ((exprText e).toList ++ [c]) (e, [c]) := by
  apply readExpr_exprText e (readable_of_lineForm he)
  · rcases hc with rfl | rfl <;> rfl
  · rw [regrouped_of_grouped e (grouped_of_lineForm he)]
    apply continues_done <;> rcases hc with rfl | rfl <;> simp

namespace Line

theorem read_keyword {word : String} (hmem : word ∈ keywords) {rest : List Char}
    (hrest : Text.startsWith inWord rest = false) (n : Nat) :
    read n (word.toList ++ rest) = readAfter n word rest := by
  have hwords : ∀ word ∈ keywords, isWord word = true := by decide
  have hword := hwords word hmem
  rw [read, firstWord_word hword hrest, if_pos hmem,
    Text.dropWhile_row (all_inWord_of_isWord hword) hrest]

theorem text_expr (e : Expr) : (text (.expr e)).toList = (exprText e).toList ++ [';'] := by
  simp [text]

theorem read_expr {e : Expr} (he : e.all lineForm = true) :
    Text.Reads read (text (.expr e)).toList (.expr e) := by
  have hopens := opens_exprText (readable_of_lineForm he) [';']
  have hword := @firstWord_exprText e he [';'] rfl
  obtain ⟨m, hread⟩ := readExpr_line he (.inr rfl)
  refine ⟨m, fun n hn => ?_⟩
  rw [text_expr]
  generalize (exprText e).toList ++ [';'] = cs at hopens hword hread
  have hbrace : cs ≠ ['\x7b'] ∧ cs ≠ ['\x7d'] := by
    constructor <;> (rintro rfl; exact absurd hopens (by decide))
  rw [read, if_neg hword, if_neg hbrace.1, if_neg hbrace.2, hread n hn]
  rfl

theorem read_text {l : Line} (hl : l.readable = true) : Text.Reads read l.text.toList l := by
  cases l with
  | expr e => exact read_expr hl
  | opening | closing => exact ⟨0, fun n _ => rfl⟩
  | test e =>
    obtain ⟨m, hread⟩ := readExpr_line hl (.inl rfl)
    refine ⟨m, fun n hn => ?_⟩
    have htext : (text (.test e)).toList =
        "if".toList ++ ' ' :: '(' :: ((exprText e).toList ++ [')']) := by
      simp [text]
    rw [htext, read_keyword (by decide) rfl]
    simp [readAfter, hread n hn]
  | loop e =>
    obtain ⟨m, hread⟩ := readExpr_line hl (.inl rfl)
    refine ⟨m, fun n hn => ?_⟩
    have htext : (text (.loop e)).toList =
        "while".toList ++ ' ' :: '(' :: ((exprText e).toList ++ [')']) := by
      simp [text]
    rw [htext, read_keyword (by decide) rfl]
    simp [readAfter, hread n hn]
  | otherwise test =>
    cases test with
    | none => exact ⟨0, fun n _ => rfl⟩
    | some e =>
      obtain ⟨m, hread⟩ := readExpr_line hl (.inl rfl)
      refine ⟨m, fun n hn => ?_⟩
      have htext : (text (.otherwise (some e))).toList =
          "else".toList ++ ' ' :: 'i' :: 'f' :: ' ' :: '(' :: ((exprText e).toList ++ [')']) := by
        simp [text]
      rw [htext, read_keyword (by decide) rfl]
      simp [readAfter, hread n hn]
  | returns value =>
    cases value with
    | none => exact ⟨0, fun n _ => rfl⟩
    | some e =>
      obtain ⟨m, hread⟩ := readExpr_line hl (.inr rfl)
      refine ⟨m, fun n hn => ?_⟩
      have htext : (text (.returns (some e))).toList =
          "return".toList ++ ' ' :: ((exprText e).toList ++ [';']) := by
        simp [text]
      rw [htext, read_keyword (by decide) rfl]
      simp [readAfter, hread n hn]
  | other s => cases hl

/-- A line does not go on in the next one. -/
theorem break_not_mem_text {l : Line} (hl : l.readable = true) : '\n' ∉ l.text.toList := by
  have hexpr : ∀ {e : Expr}, e.all lineForm = true → '\n' ∉ (exprText e).toList := fun he =>
    break_not_mem_exprText _ (readable_of_lineForm he)
  cases l with
  | opening | closing => decide
  | expr e | test e | loop e => simp [text, hexpr hl]
  | otherwise test =>
    cases test with
    | none => decide
    | some e => simp [text, hexpr hl]
  | returns value =>
    cases value with
    | none => decide
    | some e => simp [text, hexpr hl]
  | other s => cases hl

/-- No line starts with blanks of its own. -/
theorem trimmed_indent {l : Line} (hl : l.readable = true) (m : Nat) :
    Text.trimmed (indent m ++ l.text) = l.text := by
  have hblank : Text.startsWith (· == ' ') l.text.toList = false := by
    cases l with
    | expr e =>
      have hopens := opens_exprText (readable_of_lineForm hl) [';']
      rw [text_expr]
      cases hcs : (exprText e).toList ++ [';'] with
      | nil => rfl
      | cons c cs =>
        rw [hcs, Text.startsWith_cons] at hopens
        rw [Text.startsWith_cons, beq_eq_false_iff_ne]
        rintro rfl
        exact absurd hopens (by decide)
    | opening | closing => rfl
    | test e | loop e => simp [text]
    | otherwise test => cases test <;> simp [text]
    | returns value => cases value <;> simp [text]
    | other s => cases hl
  rw [Text.trimmed, String.toList_append, indent, String.toList_ofList,
    Text.dropWhile_row (by simp) hblank, String.ofList_toList]

/-- Lines that can be read back are told apart by their texts. -/
theorem eq_of_texts {ls ls' : List Line} (hls : ls.all readable = true)
    (hls' : ls'.all readable = true) (h : texts ls = texts ls') : ls = ls' := by
  have hchars : ∀ l ls, (texts (l :: ls)).toList = l.text.toList ++ '\n' :: (texts ls).toList := by
    intro l ls
    simp [texts]
  replace h := congrArg String.toList h
  induction ls generalizing ls' with
  | nil =>
    cases ls' with
    | nil => rfl
    | cons l' ls' => simp [texts] at h
  | cons l ls ih =>
    cases ls' with
    | nil => simp [texts] at h
    | cons l' ls' =>
      rw [List.all_cons, Bool.and_eq_true] at hls hls'
      rw [hchars, hchars] at h
      obtain ⟨htext, hrest⟩ :=
        Text.line_inj (break_not_mem_text hls.1) (break_not_mem_text hls'.1) h
      have hread := read_text hls.1
      rw [htext] at hread
      rw [hread.unique (read_text hls'.1), ih hls.2 hls'.2 hrest]

end Line

/-! ## Statements -/

/-- The text is made of these lines, with blanks in front of them. -/
def Indents (text : String) (ls : List Line) : Prop :=
  ∀ rest, Text.unindent (text ++ rest) = Line.texts ls ++ Text.unindent rest

namespace Indents

theorem nil : Indents "" [] := by
  intro rest
  simp [Line.texts]

theorem append {text text' : String} {ls ls' : List Line} (h : Indents text ls)
    (h' : Indents text' ls') : Indents (text ++ text') (ls ++ ls') := by
  intro rest
  rw [String.append_assoc, h, h', Line.texts_append, String.append_assoc]

theorem line {l : Line} (hl : l.readable = true) (m : Nat) :
    Indents (indent m ++ l.text ++ "\n") [l] := by
  intro rest
  have hbreak : '\n' ∉ (indent m ++ l.text).toList := by
    simp [indent, Line.break_not_mem_text hl]
  rw [Text.unindent_line hbreak, Line.trimmed_indent hl]
  simp [Line.texts]

end Indents

theorem all_readable_afterElse (ls : List Line) :
    (Line.afterElse ls).all Line.readable = ls.all Line.readable := by
  unfold Line.afterElse
  split <;> rfl

theorem endedText_eq (text : String) : endedText text = text ++ ";" ++ "\n" :=
  String.toList_injective (by simp [endedText])

theorem headText_eq (keyword inside : String) :
    headText keyword inside = keyword ++ " (" ++ inside ++ ")" ++ "\n" :=
  String.toList_injective (by simp [headText])

theorem bracedText_eq (level : Nat) (lines : String) : bracedText level lines =
    "\x7b" ++ "\n" ++ (lines ++ (indent level ++ "\x7d" ++ "\n")) :=
  String.toList_injective (by simp [bracedText])

/-- The text of the statement is its first line, which has its blanks
already, and its other lines behind it. The first line may stand behind the
word of an else, so it is kept apart. -/
def Starts (level : Nat) (s : Stmt) : Prop :=
  ∃ l ls more, s.lines = l :: ls ∧ stmtAfterIndent level s = l.text ++ "\n" ++ more ∧
    Indents more ls

theorem Starts.indents {level : Nat} {s : Stmt} (h : Starts level s)
    (hs : s.lines.all Line.readable = true) (m : Nat) :
    Indents (indent m ++ stmtAfterIndent level s) s.lines := by
  obtain ⟨l, ls, more, hlines, htext, hmore⟩ := h
  rw [hlines, List.all_cons, Bool.and_eq_true] at hs
  rw [htext, hlines, ← String.append_assoc, ← String.append_assoc]
  exact (Indents.line hs.1 m).append hmore

/-- The part of an if behind its consequent. An if goes on behind the word of
its else, and any other statement starts on a line of its own. -/
def elseText (level : Nat) : Stmt → String
  | .ifElse test consequent alternate =>
    indent level ++ "else " ++ stmtAfterIndent level (.ifElse test consequent alternate)
  | s =>
    indent level ++ "else\n" ++ indent (bodyLevel level s) ++
      stmtAfterIndent (bodyLevel level s) s

theorem stmtAfterIndent_else (level : Nat) (test : Expr) (consequent alternate : Stmt) :
    stmtAfterIndent level (.ifElse test consequent (some alternate)) =
      headText "if" (exprText test) ++ indent (bodyLevel level consequent) ++
        stmtAfterIndent (bodyLevel level consequent) consequent ++ elseText level alternate := by
  fun_cases elseText level alternate with
  | case1 => rw [stmtAfterIndent.eq_5]
  | case2 alternate hnotIf => rw [stmtAfterIndent.eq_6 _ _ _ _ hnotIf]

theorem indents_elseText {s : Stmt} (hs : s.lines.all Line.readable = true)
    (h : ∀ level, Starts level s) (level : Nat) :
    Indents (elseText level s) (Line.afterElse s.lines) := by
  fun_cases elseText level s with
  | case1 test consequent alternate =>
    obtain ⟨l, ls, more, hlines, htext, hmore⟩ := h level
    obtain ⟨ls', hlines'⟩ : ∃ ls',
        (Stmt.ifElse test consequent alternate).lines = .test test :: ls' := by
      cases alternate <;> exact ⟨_, rfl⟩
    obtain ⟨rfl, rfl⟩ := List.cons.inj (hlines.symm.trans hlines')
    rw [hlines, List.all_cons, Bool.and_eq_true] at hs
    have helse := Indents.line (l := .otherwise (some test)) hs.1 level
    have hfirst : indent level ++ "else " ++ (Line.text (.test test) ++ "\n" ++ more) =
        indent level ++ Line.text (.otherwise (some test)) ++ "\n" ++ more :=
      String.toList_injective (by simp [Line.text])
    rw [htext, hfirst, hlines]
    exact helse.append hmore
  | case2 s hnotIf =>
    have helse := Indents.line (l := .otherwise none) rfl level
    have htext : indent level ++ "else\n" =
        indent level ++ Line.text (.otherwise none) ++ "\n" :=
      String.toList_injective (by simp [Line.text])
    have hlines : Line.afterElse s.lines = [.otherwise none] ++ s.lines := by
      fun_cases Stmt.lines s <;> simp_all [Line.afterElse]
    rw [htext, hlines, String.append_assoc]
    exact helse.append ((h (bodyLevel level s)).indents hs _)

mutual

theorem starts_stmt (s : Stmt) (hs : s.lines.all Line.readable = true) (level : Nat) :
    Starts level s := by
  cases s with
  | expr e =>
    refine ⟨.expr e, [], "", rfl, ?_, .nil⟩
    rw [stmtAfterIndent, endedText_eq, Line.text, String.append_empty]
  | block body =>
    simp only [Stmt.lines, List.all_cons, List.all_append, Bool.and_eq_true] at hs
    have hclosing := Indents.line (l := .closing) rfl level
    refine ⟨.opening, _, _, rfl, ?_, (indents_stmtTexts body hs.2.1 (level + 1)).append hclosing⟩
    rw [stmtAfterIndent, bracedText_eq, Line.text, Line.text]
  | ifElse test consequent alternate =>
    cases alternate with
    | none =>
      simp only [Stmt.lines, List.all_cons, Bool.and_eq_true] at hs
      have hbody := (starts_stmt consequent hs.2 (bodyLevel level consequent)).indents hs.2
        (bodyLevel level consequent)
      refine ⟨.test test, _, _, rfl, ?_, hbody⟩
      simp only [stmtAfterIndent, headText_eq, Line.text, String.append_assoc, String.append_empty]
      rfl
    | some alternate =>
      simp only [Stmt.lines, List.all_cons, List.all_append, all_readable_afterElse,
        Bool.and_eq_true] at hs
      have hbody := (starts_stmt consequent hs.2.1 (bodyLevel level consequent)).indents hs.2.1
        (bodyLevel level consequent)
      have helse := indents_elseText hs.2.2 (starts_stmt alternate hs.2.2) level
      refine ⟨.test test, _, _, rfl, ?_, hbody.append helse⟩
      simp only [stmtAfterIndent_else, headText_eq, Line.text, String.append_assoc]
      rfl
  | whileLoop test body =>
    simp only [Stmt.lines, List.all_cons, Bool.and_eq_true] at hs
    have hbody := (starts_stmt body hs.2 (bodyLevel level body)).indents hs.2
      (bodyLevel level body)
    refine ⟨.loop test, _, _, rfl, ?_, hbody⟩
    simp only [stmtAfterIndent, headText_eq, Line.text, String.append_assoc]
    rfl
  | returns value =>
    cases value with
    | none => exact ⟨.returns none, [], "", rfl, rfl, .nil⟩
    | some e =>
      refine ⟨.returns (some e), [], "", rfl, ?_, .nil⟩
      rw [stmtAfterIndent, endedText_eq, Line.text, String.append_empty]
  | _ => simp [Stmt.lines, Line.readable] at hs

theorem indents_stmtTexts (ss : List Stmt) (hss : (Stmt.linesOf ss).all Line.readable = true)
    (level : Nat) : Indents (stmtTexts level ss) (Stmt.linesOf ss) := by
  cases ss with
  | nil => exact Indents.nil
  | cons s ss =>
    rw [Stmt.linesOf, List.all_append, Bool.and_eq_true] at hss
    rw [stmtTexts, Stmt.linesOf]
    exact ((starts_stmt s hss.1 level).indents hss.1 level).append
      (indents_stmtTexts ss hss.2 level)

end

section

variable {s t : Stmt}

theorem unindent_stmtText (hs : s.lines.all Line.readable = true) (level : Nat) :
    Text.unindent (stmtText level s) = Line.texts s.lines := by
  have hlines := (starts_stmt s hs level).indents hs level ""
  have hempty : Text.unindent "" = "" := by decide
  rw [String.append_empty, hempty, String.append_empty] at hlines
  rw [stmtText, hlines]

theorem unindent_eq_iff (hs : s.lines.all Line.readable = true)
    (ht : t.lines.all Line.readable = true) (level level' : Nat) :
    Text.unindent (stmtText level s) = Text.unindent (stmtText level' t) ↔
      s.regrouped = t.regrouped := by
  rw [unindent_stmtText hs, unindent_stmtText ht, ← Stmt.lines_eq_iff]
  exact ⟨Line.eq_of_texts hs ht, congrArg Line.texts⟩

end

/-- Without the blanks in front of their lines, two statements are printed
alike exactly when they are regrouped alike, and regrouping gives each else to
the nearest if that waits for one. A statement stays as it is exactly when no
if waits for an else between another if and its else. Such statements are told
apart by their lines alone. -/
theorem an_else_is_read_with_the_nearest_if {s t : Stmt}
    (hs : s.lines.all Line.readable = true) (ht : t.lines.all Line.readable = true)
    (level level' : Nat) :
    (Text.unindent (stmtText level s) = Text.unindent (stmtText level' t) ↔
        s.regrouped = t.regrouped) ∧
      (s.regrouped = s ↔ s.settled = true) ∧
      (s.settled = true → t.settled = true →
        Text.unindent (stmtText level s) = Text.unindent (stmtText level' t) → s = t) := by
  have halike := unindent_eq_iff hs ht level level'
  refine ⟨halike, Stmt.regrouped_eq_self_iff, ?_⟩
  intro hsettled hsettled' htext
  have hregrouped := halike.mp htext
  rwa [Stmt.regrouped_of_settled hsettled, Stmt.regrouped_of_settled hsettled'] at hregrouped

/-- `if (a) { if (b) x; } else while (c) y;`: the braces keep the else away
from the inner if. -/
def bracedIf : Stmt :=
  .ifElse (.ident "a") (.block [.ifElse (.ident "b") (.expr (.ident "x")) none])
    (some (.whileLoop (.ident "c") (.expr (.ident "y"))))

/-- `if (a) if (b) x; else return -y;`, with the else at the inner if. -/
def nearestElse : Stmt :=
  .ifElse (.ident "a")
    (.ifElse (.ident "b") (.expr (.ident "x")) (some (.returns (some (.unary .neg (.ident "y"))))))
    none

theorem braces_and_nearest_elses_are_told_apart :
    bracedIf.lines.all Line.readable = true ∧ nearestElse.lines.all Line.readable = true ∧
      bracedIf.settled = true ∧ nearestElse.settled = true ∧
      Text.unindent (stmtText 0 bracedIf) ≠ Text.unindent (stmtText 2 nearestElse) := by
  refine ⟨by decide, by decide, by decide, by decide, fun htext => ?_⟩
  have halike := @an_else_is_read_with_the_nearest_if bracedIf nearestElse (by decide)
    (by decide) 0 2
  have hsame := halike.2.2 (by decide) (by decide) htext
  simp [bracedIf, nearestElse] at hsame

/-- An else of the outer if is printed like one of the inner if. -/
theorem an_outer_else_is_printed_as_an_inner_else :
    let inner : Option Stmt → Stmt := .ifElse (.ident "b") (.expr (.ident "x"))
    let outerElse : Stmt := .ifElse (.ident "a") (inner none) (some (.expr (.ident "y")))
    let innerElse : Stmt := .ifElse (.ident "a") (inner (some (.expr (.ident "y")))) none
    outerElse.lines.all Line.readable = true ∧ innerElse.lines.all Line.readable = true ∧
      outerElse ≠ innerElse ∧
      Text.unindent (stmtText 0 outerElse) = Text.unindent (stmtText 0 innerElse) := by
  refine ⟨by decide, by decide, by simp, ?_⟩
  exact (unindent_eq_iff (by decide) (by decide) 0 0).mpr rfl

end CSharp

end Recast
