-- The header of a for loop up to its first semicolon. In the target language it is
-- empty, or one declaration with a type and variables behind it, or a row of
-- expressions. The statements of a loop are printed one by one with commas between
-- them, so that a type stands before each variable, and nothing stands in the place
-- of statements that are no declarations and no expressions.
import Recast.Proofs.Separators

namespace Recast

/-! ## What may stand before the first semicolon -/

/-- A variable of a declaration. -/
structure Declarator where
  name : String
  value : Option Expr

/-- What may stand before the first semicolon of a for header. -/
inductive ForInit
  | nothing
  /-- One type for all the variables. -/
  | declaration (ty : TypeRef) (first : Declarator) (rest : List Declarator)
  | expressions (first : Expr) (rest : List Expr)

/-- The names are those of the target language. -/
def Declarator.spelled (d : Declarator) : Bool :=
  CSharp.isName d.name && d.value.all (·.all Expr.spelledForm)

def ForInit.spelled : ForInit → Bool
  | .nothing => true
  | .declaration ty first rest =>
    ty.identities.all CSharp.isDottedName && (first :: rest).all Declarator.spelled
  | .expressions first rest => (first :: rest).all (·.all Expr.spelledForm)

/-- The statements that it stands for. -/
def ForInit.stmts : ForInit → List Stmt
  | .nothing => []
  | .declaration ty first rest => (first :: rest).map fun d => .declare d.name ty d.value
  | .expressions first rest => (first :: rest).map .expr

namespace Stmt

/-- The statements that a for header has a place for. -/
def isForPart : Stmt → Bool
  | .declare .. | .expr _ => true
  | _ => false

/-- The names of what a for header shows of the statement are those of the target language. -/
def spelledPart : Stmt → Bool
  | .declare name ty value =>
    CSharp.isName name && ty.identities.all CSharp.isDottedName &&
      value.all (·.all Expr.spelledForm)
  | .expr e => e.all Expr.spelledForm
  | _ => true

end Stmt

namespace CSharp

open Recast.Expr

def declaratorText (d : Declarator) : String := d.name ++ initText d.value

/-- The text before the semicolon. -/
def forInitText : ForInit → String
  | .nothing => ""
  | .declaration ty first rest =>
    typeText ty ++ " " ++ Text.joinWith ", " ((first :: rest).map declaratorText)
  | .expressions first rest => exprTexts (first :: rest)

/-- The text between the opening bracket of a for header and the first semicolon
behind it. -/
def initialiser? (text : String) : Option String :=
  match text.toList.dropWhile (· == ' ') with
  | 'f' :: 'o' :: 'r' :: ' ' :: '(' :: inside => (beforeSemicolon .start inside).map String.ofList
  | _ => none

/-! ## The parts between the commas -/

theorem exprTexts_eq (es : List Expr) : exprTexts es = Text.joinWith ", " (es.map exprText) := by
  induction es with
  | nil => rfl
  | cons e es ih =>
    cases es with
    | nil => rfl
    | cons e' es =>
      rw [exprTexts, ih]
      · rfl
      · simp

theorem forPartTexts_eq (ss : List Stmt) :
    forPartTexts ss = Text.joinWith ", " (ss.map forPartText) := by
  induction ss with
  | nil => rfl
  | cons s ss ih =>
    cases ss with
    | nil => rfl
    | cons s' ss =>
      rw [forPartTexts, ih]
      · rfl
      · simp

theorem level_initText {value : Option Expr} (h : value.all (·.all spelledForm) = true) :
    Level (initText value) := by
  cases value with
  | none => exact .inert (by decide)
  | some e => exact Level.append (.inert (by decide)) (level_exprText e h)

theorem level_declaratorText {d : Declarator} (h : d.spelled = true) :
    Level (declaratorText d) := by
  simp only [Declarator.spelled, Bool.and_eq_true] at h
  exact (Level.inert (all_inert_name h.1)).append (level_initText h.2)

/-- Nothing stands in the place of other statements. -/
theorem forPartText_dropped {s : Stmt} (h : s.isForPart = false) : forPartText s = "" := by
  cases s with
  | expr | declare => cases h
  | _ => rfl

theorem level_forPartText {s : Stmt} (h : s.spelledPart = true) : Level (forPartText s) := by
  have hother : s.isForPart = false → Level (forPartText s) := by
    intro hs
    rw [forPartText_dropped hs]
    exact .inert (by decide)
  cases s with
  | expr e => exact level_exprText e h
  | declare name ty value =>
    simp only [Stmt.spelledPart, Bool.and_eq_true] at h
    have htype := (level_typeText h.1.2).append (.inert (s := " ") (by decide))
    exact (htype.append (.inert (all_inert_name h.1.1))).append (level_initText h.2)
  | _ => exact hother rfl

/-- The header of a for loop is read up to its first semicolon. -/
theorem initialiser?_forLoop (level : Nat) {init : List Stmt} (test : Option Expr)
    (update : List Expr) (body : Stmt) (h : init.all Stmt.spelledPart = true) :
    initialiser? (stmtText level (.forLoop init test update body)) = some (forPartTexts init) := by
  have htext : (stmtText level (.forLoop init test update body)).toList =
      List.replicate (4 * level) ' ' ++
        'f' :: 'o' :: 'r' :: ' ' :: '(' :: ((forPartTexts init).toList ++
          ';' :: (" " ++ optExprText test ++ "; " ++ exprTexts update ++ ")\n" ++
            indent (bodyLevel level body) ++
              stmtAfterIndent (bodyLevel level body) body).toList) := by
    rw [stmtText, stmtAfterIndent, headText]
    simp [indent]
  have hblanks : (List.replicate (4 * level) ' ').all (· == ' ') = true := by
    simp
  have hparts : ∀ text ∈ init.map forPartText, Level text := by
    intro text htext
    obtain ⟨s, hs, rfl⟩ := List.mem_map.mp htext
    exact level_forPartText (List.all_eq_true.mp h s hs)
  rw [initialiser?, htext, Text.dropWhile_row hblanks rfl, forPartTexts_eq]
  change Option.map String.ofList (beforeSemicolon .start _) = _
  rw [beforeSemicolon_joinWith hparts, Option.map_some, String.ofList_toList]

/-! ## Declarations and expressions look different -/

/-- A character that is seen of a type from outside of its angle brackets. -/
def inTypeOutline (c : Char) : Bool := inDotted c || c == '<' || c == '[' || c == ']'

/-- Behind what may be a type comes a blank and then a word. -/
def spaced (cs : List Char) : Bool :=
  match cs.dropWhile inTypeOutline with
  | ' ' :: rest => Text.startsWith inWord rest
  | _ => false

/-- A type and a name stand at the front. -/
def declares (cs : List Char) : Bool := spaced (outline .start cs) && firstWord cs != "new"

theorem spaced_cons_of_inType {c : Char} (h : inTypeOutline c = true) (cs : List Char) :
    spaced (c :: cs) = spaced cs := by
  rw [spaced, List.dropWhile_cons_of_pos h, spaced]

theorem spaced_blank (cs : List Char) : spaced (' ' :: cs) = Text.startsWith inWord cs := rfl

theorem spaced_mark {c : Char} (h : inTypeOutline c = false) (hblank : c ≠ ' ') (cs : List Char) :
    spaced (c :: cs) = false := by
  rw [spaced, List.dropWhile_cons_of_neg (by simp [h])]
  split
  · rename_i heq
    exact absurd (List.cons.inj heq).1 hblank
  · rfl

/-- Where no blank comes, nothing is told apart. -/
theorem spaced_append {row rest : List Char} (hrow : ' ' ∉ row) (hrest : spaced rest = false) :
    spaced (row ++ rest) = false := by
  induction row with
  | nil => exact hrest
  | cons c row ih =>
    rw [List.mem_cons, not_or] at hrow
    cases hc : inTypeOutline c with
    | true => rw [List.cons_append, spaced_cons_of_inType hc, ih hrow.2]
    | false => exact spaced_mark hc (Ne.symm hrow.1) _

/-- What may be a type is passed over. -/
theorem spaced_row {row : List Char} (h : row.all inTypeOutline = true) (rest : List Char) :
    spaced (row ++ rest) = spaced rest := by
  rw [spaced, List.dropWhile_append_of_pos (List.all_eq_true.mp h), spaced]

theorem not_mem_of_all {p : Char → Bool} {cs : List Char} (h : cs.all p = true) {d : Char}
    (hd : p d = false) : d ∉ cs := by
  intro hmem
  simp [List.all_eq_true.mp h d hmem] at hd

/-- What is seen of a type from outside is passed over. -/
theorem spaced_behind_type {t : TypeRef} (h : t.identities.all isDottedName = true)
    (rest : List Char) :
    spaced (outline .start ((typeText t).toList ++ rest)) = spaced (outline .start rest) := by
  have hname : t.name.toList.all inTypeOutline = true := by
    rw [List.all_eq_true]
    intro c hc
    have hdotted := all_inDotted_of_isDottedName (List.all_eq_true.mp h t.name (by
      obtain ⟨name, args, dims⟩ := t
      simp [TypeRef.identities, TypeRef.parts]))
    simp [inTypeOutline, List.all_eq_true.mp hdotted c hc]
  have hmark : (if t.args.isEmpty then [] else ['<']).all inTypeOutline = true := by
    split <;> decide
  have hdims : (dimsText t.dims).toList.all inTypeOutline = true := by
    have hinType : ['[', ']'].all inTypeOutline = true := by decide
    rw [List.all_eq_true] at hinType ⊢
    exact fun c hc => hinType c (mem_dimsText hc)
  rw [outline_typeText h, spaced_row hname, spaced_row hmark, spaced_row hdims]

section

variable {rest : List Char} (hrest : spaced (outline .start rest) = false)
include hrest

theorem spaced_inert {cs : List Char} (h : cs.all inert = true) (hblank : ' ' ∉ cs) :
    spaced (outline .start (cs ++ rest)) = false := by
  rw [outline_inert h]
  exact spaced_append hblank hrest

theorem spaced_name {name : String} (h : isName name = true) :
    spaced (outline .start (name.toList ++ rest)) = false :=
  spaced_inert hrest (all_inert_name h)
    (not_mem_of_all (all_inWord_of_isWord (isWord_of_isName h)) (by decide))

theorem spaced_access {name : String} (h : isName name = true) :
    spaced (outline .start ('.' :: (name.toList ++ rest))) = false :=
  spaced_inert (spaced_name hrest h) (by decide : ['.'].all inert = true) (by decide)

theorem spaced_literalText (v : Literal) :
    spaced (outline .start ((literalText v).toList ++ rest)) = false := by
  cases v with
  | null => exact spaced_inert hrest (by decide) (by decide)
  | bool b => cases b <;> exact spaced_inert hrest (by decide) (by decide)
  | int n =>
    have hdigits := Text.all_isDigit_repr n.toInt.natAbs
    have hnumber := spaced_inert hrest (all_inert (by decide) hdigits)
      (not_mem_of_all hdigits (by decide))
    rw [literalText, intText]
    split
    · rw [String.toList_append]
      exact spaced_mark (c := '-') (by decide) (by decide) _
    · exact hnumber
  | float x =>
    exact spaced_inert hrest (all_inert (by decide) (all_inDouble_text x))
      (not_mem_of_all (all_inDouble_text x) (by decide))
  | char c =>
    rw [literalText, charText, String.toList_append, String.toList_append]
    exact spaced_mark (c := '\x27') (by decide) (by decide) _
  | string s =>
    rw [literalText, stringText, String.toList_append, String.toList_append]
    exact spaced_mark (c := '\x22') (by decide) (by decide) _

end

/-- A word with a comment behind it. -/
theorem spaced_comment {front : String} {word more : List Char}
    (hfront : front.toList = word ++ ' ' :: '/' :: more) (hword : word.all inert = true)
    (hblank : ' ' ∉ word) (note : String) (rest : List Char) :
    spaced (outline .start ((front ++ note ++ " */").toList ++ rest)) = false := by
  have hslash : ∀ cs, spaced (outline .start (' ' :: '/' :: cs)) = false := fun _ => rfl
  simp only [String.toList_append, hfront, List.append_assoc, List.cons_append]
  exact spaced_inert (hslash _) hword hblank

/-- The induction goes down the first operands. Only a new object starts like a
declaration, and its first word is no name. -/
theorem not_declares_front (e : Expr) (he : e.all spelledForm = true) {rest : List Char}
    (hrest : spaced (outline .start rest) = false) :
    declares ((exprText e).toList ++ rest) = false := by
  have here := here_of_all he
  have of_spaced : ∀ {cs}, spaced (outline .start cs) = false → declares cs = false := by
    intro cs hcs
    rw [declares, hcs, Bool.false_and]
  cases e with
  | literal v => exact of_spaced (spaced_literalText hrest v)
  | ident name => exact of_spaced (spaced_name hrest here)
  | self => exact of_spaced (spaced_inert hrest (by decide) (by decide))
  | type ty => exact of_spaced ((spaced_behind_type here rest).trans hrest)
  | field object name =>
    simp only [all, Bool.and_eq_true] at he
    rw [chars_field]
    exact not_declares_front object he.2 (spaced_access hrest here)
  | call target method binding args =>
    have hopen : ∀ cs, spaced (outline .start ('(' :: cs)) = false := fun _ => rfl
    cases target with
    | none =>
      have htext : (exprText (.call none method binding args)).toList ++ rest =
          method.toList ++ '(' :: ((exprTexts args).toList ++ ')' :: rest) := by
        simp [exprText]
      rw [htext]
      exact of_spaced (spaced_name (hopen _) here)
    | some target =>
      simp only [all, Bool.and_eq_true] at he
      have htext : (exprText (.call (some target) method binding args)).toList ++ rest =
          (exprText target).toList ++
            '.' :: (method.toList ++ '(' :: ((exprTexts args).toList ++ ')' :: rest)) := by
        simp [exprText]
      rw [htext]
      exact not_declares_front target he.2.1 (spaced_access (hopen _) here)
  | new ty args =>
    have hword : firstWord ((exprText (.new ty args)).toList ++ rest) = "new" := by
      rw [chars_new]
      exact firstWord_word (by decide) rfl
    rw [declares, hword]
    simp
  | assign target value =>
    simp only [all, Bool.and_eq_true] at he
    rw [chars_assign]
    exact not_declares_front target he.2.1 rfl
  | unary op operand =>
    rw [chars_unary]
    cases op <;> exact of_spaced rfl
  | binary left op right =>
    rw [chars_binary]
    exact of_spaced rfl
  | conditional test consequent alternate =>
    rw [chars_conditional]
    exact of_spaced rfl
  | cast ty operand =>
    rw [chars_cast]
    exact of_spaced rfl
  | instanceOf operand ty =>
    rw [chars_instanceOf]
    exact of_spaced rfl
  | anonymousClass ty span =>
    have hfront : "null /* anonymous ".toList =
        "null".toList ++ ' ' :: '/' :: "* anonymous ".toList := by decide
    exact of_spaced (spaced_comment hfront (by decide) (by decide) (typeText ty) rest)
  | placeholder note =>
    have hfront : "default /* untranslated: ".toList =
        "default".toList ++ ' ' :: '/' :: "* untranslated: ".toList := by decide
    exact of_spaced (spaced_comment hfront (by decide) (by decide) note rest)

theorem not_declares_exprText {e : Expr} (he : e.all spelledForm = true) :
    declares (exprText e).toList = false := by
  have hfront : declares ((exprText e).toList ++ []) = false := not_declares_front e he rfl
  rwa [List.append_nil] at hfront

theorem firstWord_dotted {name : String} (h : isDottedName name = true) {rest : List Char}
    (hrest : Text.startsWith inWord rest = false) :
    isName (firstWord (name.toList ++ rest)) = true := by
  have hparts : ∀ part ∈ Text.splitOn '.' name, isName part = true := List.all_eq_true.mp h
  have hjoin := Text.joinWith_splitOn name
  match hsplit : Text.splitOn '.' name with
  | [] => simp [Text.splitOn, Text.splitChars_ne_nil] at hsplit
  | [part] =>
    have hpart := hparts part (by simp [hsplit])
    rw [hsplit, Text.joinWith] at hjoin
    rwa [← hjoin, firstWord_word (isWord_of_isName hpart) hrest]
  | part :: part' :: parts =>
    have hpart := hparts part (by simp [hsplit])
    have htext : name.toList ++ rest =
        part.toList ++ '.' :: ((Text.joinWith "." (part' :: parts)).toList ++ rest) := by
      rw [← hjoin, hsplit]
      simp [Text.joinWith]
    rwa [htext, firstWord_word (isWord_of_isName hpart) rfl]

/-- A type starts with a name. -/
theorem firstWord_typeText {t : TypeRef} (h : t.identities.all isDottedName = true)
    {rest : List Char} (hrest : Text.startsWith inType rest = false) :
    isName (firstWord ((typeText t).toList ++ rest)) = true := by
  obtain ⟨name, args, dims⟩ := t
  simp only [TypeRef.identities, TypeRef.parts, List.map_cons, List.all_cons, Bool.and_eq_true] at h
  rw [typeText, String.toList_append, String.toList_append, List.append_assoc, List.append_assoc]
  refine firstWord_dotted h.1 ?_
  cases args with
  | nil =>
    have hdims := startsWith_dimsText dims hrest
    refine Text.startsWith_mono (fun c hc => ?_) hdims
    simp [inDotted, hc]
  | cons arg args =>
    rw [List.isEmpty_cons, if_neg (by decide), String.toList_append, String.toList_append]
    rfl

theorem declares_declareText {name : String} {ty : TypeRef} (value : Option Expr)
    (hname : isName name = true) (hty : ty.identities.all isDottedName = true) :
    declares (declareText name ty value).toList = true := by
  have htext : (declareText name ty value).toList =
      (typeText ty).toList ++ ' ' :: (name.toList ++ (initText value).toList) := by
    simp [declareText]
  have hword : firstWord (declareText name ty value).toList ≠ "new" := by
    intro hnew
    have hfirst : isName (firstWord ((typeText ty).toList ++
        ' ' :: (name.toList ++ (initText value).toList))) = true := firstWord_typeText hty rfl
    rw [← htext, hnew] at hfirst
    exact absurd hfirst (by decide)
  have hinert : (' ' :: name.toList).all inert = true := by
    rw [List.all_cons, all_inert_name hname]
    rfl
  have hseen : spaced (outline .start (declareText name ty value).toList) = true := by
    obtain ⟨c, cs, hcs, hc, -⟩ := exists_of_isWord (isWord_of_isName hname)
    rw [htext, spaced_behind_type hty, ← List.cons_append, outline_inert hinert, List.cons_append,
      spaced_blank, hcs, List.cons_append, Text.startsWith_cons, hc]
  rw [declares, hseen, Bool.true_and, bne_iff_ne]
  exact hword

theorem not_declares_declaratorText {d : Declarator} (h : d.spelled = true) :
    declares (declaratorText d).toList = false := by
  simp only [Declarator.spelled, Bool.and_eq_true] at h
  have hvalue : spaced (outline .start (initText d.value).toList) = false := by
    cases d.value with
    | none => rfl
    | some e =>
      rw [initText, String.toList_append]
      rfl
  rw [declares, declaratorText, String.toList_append, spaced_name hvalue h.1, Bool.false_and]

/-! ## No text is empty -/

section

variable {s t : String}

theorem append_ne_empty_left (h : s ≠ "") : s ++ t ≠ "" := by
  rw [ne_eq, String.append_eq_empty_iff]
  exact fun hboth => h hboth.1

theorem append_ne_empty_right (h : t ≠ "") : s ++ t ≠ "" := by
  rw [ne_eq, String.append_eq_empty_iff]
  exact fun hboth => h hboth.2

theorem ne_empty_of_isName (h : isName s = true) : s ≠ "" := by
  rintro rfl
  exact absurd h (by decide)

theorem ne_empty_of_isDottedName (h : isDottedName s = true) : s ≠ "" := by
  rintro rfl
  exact absurd h (by decide)

end

theorem positional_ne_empty (d : Number.Digits) : d.positional ≠ "" := by
  unfold Number.Digits.positional
  dsimp only
  split
  · exact append_ne_empty_left (by decide)
  · split
    · rw [ne_eq, String.ofList_eq_empty_iff, List.append_eq_nil_iff, List.replicate_eq_nil_iff]
      rintro ⟨hdigits, hzeros⟩
      rw [hdigits, List.length_nil] at hzeros
      omega
    · simp

theorem literalText_ne_empty (v : Literal) : literalText v ≠ "" := by
  cases v with
  | null => decide
  | bool b => cases b <;> decide
  | int n =>
    obtain ⟨c, cs, htext, -⟩ := exists_intText n.toInt
    rw [literalText, ne_eq, ← String.toList_eq_nil_iff, htext]
    exact List.cons_ne_nil c cs
  | float x =>
    rw [literalText, Number.Binary64.text]
    split
    · split
      · exact append_ne_empty_right (by decide)
      · decide
    · split
      · exact append_ne_empty_right (by decide)
      · exact append_ne_empty_right (positional_ne_empty _)
  | char c | string s => exact append_ne_empty_right (by decide)

theorem exprText_ne_empty {e : Expr} (he : e.all spelledForm = true) : exprText e ≠ "" := by
  have here := here_of_all he
  cases e with
  | literal v => exact literalText_ne_empty v
  | ident name => exact ne_empty_of_isName here
  | self => decide
  | type ty =>
    obtain ⟨name, args, dims⟩ := ty
    simp only [spelledForm, TypeRef.identities, TypeRef.parts, List.map_cons, List.all_cons,
      Bool.and_eq_true] at here
    rw [exprText, typeText]
    exact append_ne_empty_left (append_ne_empty_left (ne_empty_of_isDottedName here.1))
  | unary op operand =>
    cases op <;> exact append_ne_empty_left (by decide)
  | field | assign => exact append_ne_empty_left (append_ne_empty_right (by decide))
  | call target => cases target <;> exact append_ne_empty_right (by decide)
  | new | binary | conditional | cast | instanceOf | anonymousClass | placeholder =>
    exact append_ne_empty_right (by decide)

/-! ## Which headers are those of the target language -/

/-- The texts between the commas. A row of nothing looks like one empty text. -/
def headerParts (init : List Stmt) : List String :=
  if init.isEmpty then [""] else init.map forPartText

def forInitParts : ForInit → List String
  | .nothing => [""]
  | .declaration ty first rest =>
    declareText first.name ty first.value :: rest.map declaratorText
  | .expressions first rest => (first :: rest).map exprText

theorem forPartTexts_headerParts (init : List Stmt) :
    forPartTexts init = Text.joinWith ", " (headerParts init) := by
  rw [forPartTexts_eq, headerParts]
  cases init <;> rfl

theorem forInitText_parts (i : ForInit) : forInitText i = Text.joinWith ", " (forInitParts i) := by
  cases i with
  | nothing => rfl
  | expressions first rest => exact exprTexts_eq (first :: rest)
  | declaration ty first rest =>
    rw [forInitText, forInitParts]
    cases rest with
    | nil => simp [Text.joinWith, declareText, declaratorText, String.append_assoc]
    | cons second rest => simp [Text.joinWith, declareText, declaratorText, String.append_assoc]

section

variable {init : List Stmt} {i : ForInit}

theorem level_headerParts (h : init.all Stmt.spelledPart = true) :
    ∀ text ∈ headerParts init, Level text := by
  intro text htext
  rw [headerParts] at htext
  split at htext
  · obtain rfl := List.mem_singleton.mp htext
    exact .inert (by decide)
  · obtain ⟨s, hs, rfl⟩ := List.mem_map.mp htext
    exact level_forPartText (List.all_eq_true.mp h s hs)

theorem level_forInitParts (h : i.spelled = true) : ∀ text ∈ forInitParts i, Level text := by
  intro text htext
  cases i with
  | nothing =>
    obtain rfl := List.mem_singleton.mp htext
    exact .inert (by decide)
  | expressions first rest =>
    obtain ⟨e, he, rfl⟩ := List.mem_map.mp htext
    exact level_exprText e (List.all_eq_true.mp h e he)
  | declaration ty first rest =>
    simp only [ForInit.spelled, Declarator.spelled, List.all_cons, Bool.and_eq_true] at h
    rcases List.mem_cons.mp htext with rfl | htext
    · exact level_forPartText (s := .declare first.name ty first.value) (by
        simp [Stmt.spelledPart, h.1, h.2.1])
    · obtain ⟨d, hd, rfl⟩ := List.mem_map.mp htext
      exact level_declaratorText (List.all_eq_true.mp h.2.2 d hd)

/-- Headers are compared part by part. -/
theorem forPartTexts_eq_forInitText (h : init.all Stmt.spelledPart = true) (hi : i.spelled = true) :
    forPartTexts init = forInitText i ↔ headerParts init = forInitParts i := by
  have hne : headerParts init ≠ [] := by
    rw [headerParts]
    cases init <;> simp
  have hne' : forInitParts i ≠ [] := by
    cases i <;> simp [forInitParts]
  rw [forPartTexts_headerParts, forInitText_parts]
  constructor
  · exact joinWith_inj hne hne' (level_headerParts h) (level_forInitParts hi)
  · exact congrArg _

end

section

variable {s : Stmt} (h : s.spelledPart = true)
include h

/-- A part of a header is empty only where a statement is dropped. -/
theorem forPartText_eq_empty : forPartText s = "" ↔ s.isForPart = false := by
  refine ⟨fun htext => ?_, forPartText_dropped⟩
  cases s with
  | expr e => exact absurd htext (exprText_ne_empty h)
  | declare name ty value =>
    have hblank : typeText ty ++ " " ≠ "" := append_ne_empty_right (by decide)
    exact absurd htext (append_ne_empty_left (append_ne_empty_left hblank))
  | _ => rfl

/-- A part of a header that starts with a type and a name is a declaration. -/
theorem declares_forPartText : declares (forPartText s).toList = true ↔
    ∃ name ty value, s = .declare name ty value := by
  constructor
  · intro hdeclares
    cases s with
    | declare name ty value => exact ⟨name, ty, value, rfl⟩
    | expr e =>
      rw [forPartText, not_declares_exprText h] at hdeclares
      cases hdeclares
    | _ => cases hdeclares
  · rintro ⟨name, ty, value, rfl⟩
    simp only [Stmt.spelledPart, Bool.and_eq_true] at h
    exact declares_declareText value h.1.1 h.1.2

theorem eq_expr_of_forPartText (hne : forPartText s ≠ "")
    (hdeclares : declares (forPartText s).toList = false) : ∃ e, s = .expr e := by
  cases s with
  | expr e => exact ⟨e, rfl⟩
  | declare name ty value =>
    rw [(declares_forPartText h).mpr ⟨name, ty, value, rfl⟩] at hdeclares
    cases hdeclares
  | _ => exact absurd rfl hne

end

/-- Statements that are all expressions are the statements of these. -/
theorem exists_exprs {P : Expr → Prop} {ss : List Stmt} (h : ∀ s ∈ ss, ∃ e, s = .expr e ∧ P e) :
    ∃ es : List Expr, ss = es.map .expr ∧ ∀ e ∈ es, P e := by
  induction ss with
  | nil => exact ⟨[], rfl, by simp⟩
  | cons s ss ih =>
    rw [List.forall_mem_cons] at h
    obtain ⟨⟨e, rfl, he⟩, hss⟩ := h
    obtain ⟨es, rfl, hes⟩ := ih hss
    exact ⟨e :: es, rfl, List.forall_mem_cons.mpr ⟨he, hes⟩⟩

/-- The expression looks like a variable of a declaration: a name, or a name that is
given a value. -/
def looksDeclared (e : Expr) : Prop :=
  ∃ d : Declarator, d.spelled = true ∧ exprText e = declaratorText d

theorem exists_declarators {es : List Expr} (h : ∀ e ∈ es, looksDeclared e) :
    ∃ ds : List Declarator, ds.all Declarator.spelled = true ∧
      es.map exprText = ds.map declaratorText := by
  induction es with
  | nil => exact ⟨[], rfl, rfl⟩
  | cons e es ih =>
    rw [List.forall_mem_cons] at h
    obtain ⟨⟨d, hd, he⟩, hes⟩ := h
    obtain ⟨ds, hds, htexts⟩ := ih hes
    exact ⟨d :: ds, by simp [hd, hds], by simp [he, htexts]⟩

section

variable {init : List Stmt} (h : init.all Stmt.spelledPart = true)
include h

theorem headerParts_eq_empty : headerParts init = [""] ↔
    init = [] ∨ ∃ s, init = [s] ∧ s.isForPart = false := by
  match init with
  | [] => simp [headerParts]
  | [s] =>
    rw [List.all_cons, Bool.and_eq_true] at h
    simp [headerParts, forPartText_eq_empty h.1]
  | s :: s' :: ss => simp [headerParts]

/-- Parts that are no declarations and not empty come from expressions. -/
theorem exprs_of_parts {texts : List String} (heq : init.map forPartText = texts)
    (htexts : ∀ text ∈ texts, text ≠ "" ∧ declares text.toList = false) :
    ∀ s ∈ init, ∃ e, s = .expr e ∧ exprText e ∈ texts := by
  intro s hs
  have hmem : forPartText s ∈ texts := heq ▸ List.mem_map_of_mem hs
  obtain ⟨hne, hdeclares⟩ := htexts _ hmem
  obtain ⟨e, rfl⟩ := eq_expr_of_forPartText (List.all_eq_true.mp h s hs) hne hdeclares
  exact ⟨e, rfl, hmem⟩

theorem exprs_of_headerParts {es : List Expr} (hes : es.all (·.all spelledForm) = true)
    (heq : headerParts init = es.map exprText) : ∃ es : List Expr, init = es.map .expr := by
  have htexts : ∀ text ∈ es.map exprText, text ≠ "" ∧ declares text.toList = false := by
    intro text htext
    obtain ⟨e, he, rfl⟩ := List.mem_map.mp htext
    have hform := List.all_eq_true.mp hes e he
    exact ⟨exprText_ne_empty hform, not_declares_exprText hform⟩
  cases init with
  | nil => exact ⟨[], rfl⟩
  | cons s ss =>
    obtain ⟨es', hinit, -⟩ := exists_exprs (exprs_of_parts h heq htexts)
    exact ⟨es', hinit⟩

theorem declaration_of_headerParts {ty : TypeRef} {first : Declarator} {rest : List Declarator}
    (hi : (ForInit.declaration ty first rest).spelled = true)
    (heq : headerParts init = forInitParts (.declaration ty first rest)) :
    ∃ name ty value, ∃ es : List Expr, init = .declare name ty value :: es.map .expr ∧
      ∀ e ∈ es, looksDeclared e := by
  simp only [ForInit.spelled, List.all_cons, Bool.and_eq_true] at hi
  have hfirst := hi.2.1
  simp only [Declarator.spelled, Bool.and_eq_true] at hfirst
  have hdeclares := declares_declareText first.value hfirst.1 hi.1
  cases init with
  | nil =>
    rw [← (List.cons.inj heq).1] at hdeclares
    cases hdeclares
  | cons s ss =>
    rw [List.all_cons, Bool.and_eq_true] at h
    obtain ⟨hs, hss⟩ := List.cons.inj heq
    rw [← hs] at hdeclares
    obtain ⟨name, ty', value, rfl⟩ := (declares_forPartText h.1).mp hdeclares
    have htexts : ∀ text ∈ rest.map declaratorText, text ≠ "" ∧ declares text.toList = false := by
      intro text htext
      obtain ⟨d, hd, rfl⟩ := List.mem_map.mp htext
      have hspelled := List.all_eq_true.mp hi.2.2 d hd
      have hname := (Bool.and_eq_true_iff.mp hspelled).1
      exact ⟨append_ne_empty_left (ne_empty_of_isName hname), not_declares_declaratorText hspelled⟩
    obtain ⟨es, rfl, hes⟩ := exists_exprs (exprs_of_parts h.2 hss htexts)
    refine ⟨name, ty', value, es, rfl, fun e he => ?_⟩
    obtain ⟨d, hd, htext⟩ := List.mem_map.mp (hes e he)
    exact ⟨d, List.all_eq_true.mp hi.2.2 d hd, htext.symm⟩

end

theorem exists_of_exprs {es : List Expr} (h : (es.map Stmt.expr).all Stmt.spelledPart = true) :
    ∃ i : ForInit, i.spelled = true ∧ forPartTexts (es.map .expr) = forInitText i ∧
      i.stmts = es.map .expr := by
  cases es with
  | nil => exact ⟨.nothing, rfl, rfl, rfl⟩
  | cons e es =>
    have hi : (ForInit.expressions e es).spelled = true := by
      rw [List.all_map] at h
      exact h
    refine ⟨.expressions e es, hi, ?_, rfl⟩
    rw [forPartTexts_eq_forInitText h hi, headerParts, forInitParts, List.map_map]
    rfl

theorem exists_of_declaration {name : String} {ty : TypeRef} {value : Option Expr} {es : List Expr}
    (hes : ∀ e ∈ es, looksDeclared e)
    (h : (Stmt.declare name ty value :: es.map .expr).all Stmt.spelledPart = true) :
    ∃ i : ForInit, i.spelled = true ∧
      forPartTexts (.declare name ty value :: es.map .expr) = forInitText i ∧
      (es = [] → i.stmts = [.declare name ty value]) := by
  obtain ⟨ds, hds, htexts⟩ := exists_declarators hes
  have hi : (ForInit.declaration ty ⟨name, value⟩ ds).spelled = true := by
    simp only [List.all_cons, Stmt.spelledPart, Bool.and_eq_true] at h
    simp [ForInit.spelled, Declarator.spelled, h.1.1, h.1.2, hds]
  refine ⟨.declaration ty ⟨name, value⟩ ds, hi, ?_, ?_⟩
  · rw [forPartTexts_eq_forInitText h hi, headerParts, forInitParts, ← htexts]
    simp [forPartText, Function.comp_def]
  · rintro rfl
    obtain rfl := List.map_eq_nil_iff.mp htexts.symm
    rfl

section

variable {init : List Stmt} (h : init.all Stmt.spelledPart = true)
include h

/-- The headers that the target language has, where it does not matter what they stand
for. -/
theorem exists_forInitText : (∃ i : ForInit, i.spelled = true ∧ forPartTexts init = forInitText i) ↔
    (∃ es : List Expr, init = es.map .expr) ∨ (∃ s, init = [s] ∧ s.isForPart = false) ∨
      ∃ name ty value, ∃ es : List Expr, init = .declare name ty value :: es.map .expr ∧
        ∀ e ∈ es, looksDeclared e := by
  constructor
  · rintro ⟨i, hi, htext⟩
    rw [forPartTexts_eq_forInitText h hi] at htext
    cases i with
    | nothing =>
      rcases (headerParts_eq_empty h).mp htext with rfl | hdropped
      · exact .inl ⟨[], rfl⟩
      · exact .inr (.inl hdropped)
    | expressions first rest => exact .inl (exprs_of_headerParts h hi htext)
    | declaration ty first rest => exact .inr (.inr (declaration_of_headerParts h hi htext))
  · rintro (⟨es, rfl⟩ | ⟨s, rfl, hs⟩ | ⟨name, ty, value, es, rfl, hes⟩)
    · obtain ⟨i, hi, htext, -⟩ := exists_of_exprs h
      exact ⟨i, hi, htext⟩
    · exact ⟨.nothing, rfl, forPartText_dropped hs⟩
    · obtain ⟨i, hi, htext, -⟩ := exists_of_declaration hes h
      exact ⟨i, hi, htext⟩

/-- The headers that stand for all the statements. -/
theorem exists_forInitText_stmts :
    (∃ i : ForInit, i.spelled = true ∧ forPartTexts init = forInitText i ∧ i.stmts = init) ↔
      (∃ es : List Expr, init = es.map .expr) ∨
        ∃ name ty value, init = [.declare name ty value] := by
  constructor
  · rintro ⟨i, hi, htext, rfl⟩
    rw [forPartTexts_eq_forInitText h hi] at htext
    cases i with
    | nothing => exact .inl ⟨[], rfl⟩
    | expressions first rest => exact .inl ⟨first :: rest, rfl⟩
    | declaration ty first rest =>
      cases rest with
      | nil => exact .inr ⟨first.name, ty, first.value, rfl⟩
      | cons second rest =>
        -- the second variable has the type before it in one text and not in the other
        simp only [ForInit.spelled, List.all_cons, Bool.and_eq_true] at hi
        have hsecond := (List.cons.inj (List.cons.inj htext).2).1
        have hname := (Bool.and_eq_true_iff.mp hi.2.2.1).1
        have hdeclares := declares_declareText second.value hname hi.1
        have hnot := not_declares_declaratorText hi.2.2.1
        rw [← hsecond, forPartText, hdeclares] at hnot
        cases hnot
  · rintro (⟨es, rfl⟩ | ⟨name, ty, value, rfl⟩)
    · exact exists_of_exprs h
    · have hnone : ∀ e ∈ [], looksDeclared e := by simp
      obtain ⟨i, hi, htext, hstmts⟩ := exists_of_declaration hnone h
      exact ⟨i, hi, htext, hstmts rfl⟩

end

/-- The header of a for loop over plain names, up to its first semicolon, shows its
statements one by one. It is empty for no statement, and also for one that has no
place in a header, since nothing is shown of such statements. It is one declaration or
a row of expressions that stands for all the statements exactly if they are all
expressions, or one declaration alone; and beyond that it is one, for other statements
than these, where one statement without a place stands alone, or where expressions
behind a declaration look like variables. -/
theorem for_headers_hold_one_declaration_or_expressions (level : Nat) {init : List Stmt}
    (test : Option Expr) (update : List Expr) (body : Stmt)
    (h : init.all Stmt.spelledPart = true) :
    ∃ text, initialiser? (stmtText level (.forLoop init test update body)) = some text ∧
      text = Text.joinWith ", " (init.map forPartText) ∧
      (∀ s ∈ init, forPartText s = "" ↔ s.isForPart = false) ∧
      (text = "" ↔ init = [] ∨ ∃ s, init = [s] ∧ s.isForPart = false) ∧
      ((∃ i : ForInit, i.spelled = true ∧ text = forInitText i ∧ i.stmts = init) ↔
        (∃ es : List Expr, init = es.map .expr) ∨
          ∃ name ty value, init = [.declare name ty value]) ∧
      ((∃ i : ForInit, i.spelled = true ∧ text = forInitText i) ↔
        (∃ es : List Expr, init = es.map .expr) ∨ (∃ s, init = [s] ∧ s.isForPart = false) ∨
          ∃ name ty value, ∃ es : List Expr, init = .declare name ty value :: es.map .expr ∧
            ∀ e ∈ es, looksDeclared e) := by
  refine ⟨forPartTexts init, initialiser?_forLoop level test update body h, forPartTexts_eq init,
    fun s hs => forPartText_eq_empty (List.all_eq_true.mp h s hs), ?_, exists_forInitText_stmts h,
    exists_forInitText h⟩
  have hempty := forPartTexts_eq_forInitText h (i := .nothing) rfl
  exact hempty.trans (headerParts_eq_empty h)

/-- The variables of a loop that counts with two of them. -/
def countersInit : List Stmt :=
  [.declare "i" ⟨"int", [], 0⟩ (some (.literal (.int 0))),
    .declare "j" ⟨"int", [], 0⟩ (some (.literal (.int 1)))]

theorem one_counter_is_one_declaration :
    (countersInit.take 1).all Stmt.spelledPart = true ∧
      ∃ text, initialiser? (stmtText 2 (.forLoop (countersInit.take 1) none [] (.block []))) =
          some text ∧
        text ≠ "" ∧ ∃ i : ForInit, i.spelled = true ∧ text = forInitText i ∧
          i.stmts = countersInit.take 1 := by
  have hspelled : (countersInit.take 1).all Stmt.spelledPart = true := by decide
  obtain ⟨text, hread, -, -, hempty, hstmts, -⟩ :=
    for_headers_hold_one_declaration_or_expressions 2 none [] (.block []) hspelled
  refine ⟨hspelled, text, hread, ?_, hstmts.mpr (.inr ⟨_, _, _, rfl⟩)⟩
  rw [ne_eq, hempty]
  simp [countersInit, Stmt.isForPart]

/-- Two variables of one type have the type twice, and no header of the target language
reads so. -/
theorem two_counters_repeat_their_type :
    initialiser? (stmtText 2 (.forLoop countersInit none [] (.block []))) =
        some "int i = 0, int j = 1" ∧
      forInitText (.declaration ⟨"int", [], 0⟩ ⟨"i", some (.literal (.int 0))⟩
        [⟨"j", some (.literal (.int 1))⟩]) = "int i = 0, j = 1" ∧
      ¬∃ i : ForInit, i.spelled = true ∧ "int i = 0, int j = 1" = forInitText i := by
  have hspelled : countersInit.all Stmt.spelledPart = true := by decide
  have htext : forPartTexts countersInit = "int i = 0, int j = 1" := by decide
  refine ⟨htext ▸ initialiser?_forLoop 2 none [] (.block []) hspelled, by decide, ?_⟩
  rw [← htext, exists_forInitText hspelled]
  rintro (⟨es, hes⟩ | ⟨s, hs, -⟩ | ⟨name, ty, value, es, hes, -⟩)
  · cases es <;> simp [countersInit] at hes
  · simp [countersInit] at hs
  · cases es <;> simp [countersInit] at hes

end CSharp

end Recast
