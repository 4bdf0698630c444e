-- Brackets in printed texts. If no name, note or literal brings brackets of
-- its own, the brackets of a rendered unit come in pairs that stand in each
-- other or behind each other.
import Recast.CSharp.Unit
import Recast.Proofs.Statements

namespace Recast

/-! ## Nested brackets -/

namespace Text

/-- The bracket that ends what an opening bracket starts. -/
def closing? : Char → Option Char
  | '(' => some ')'
  | '[' => some ']'
  | '\x7b' => some '\x7d'
  | _ => none

def isClosing (c : Char) : Bool := c == ')' || c == ']' || c == '\x7d'

def isBracket (c : Char) : Bool := (closing? c).isSome || isClosing c

/-- Brackets come in pairs of one kind, and all that stands between the two is
nested too. -/
inductive Nested : List Char → Prop
  | nil : Nested []
  | plain {c : Char} {cs : List Char} (hc : isBracket c = false) (h : Nested cs) : Nested (c :: cs)
  | pair {first last : Char} {inner rest : List Char} (hpair : closing? first = some last)
    (hinner : Nested inner) (hrest : Nested rest) : Nested (first :: (inner ++ last :: rest))

theorem Nested.append {cs ds : List Char} (h : Nested cs) (h' : Nested ds) : Nested (cs ++ ds) := by
  induction h with
  | nil => exact h'
  | plain hc _ ih => exact .plain hc ih
  | pair hpair hinner _ _ ih =>
    rw [List.cons_append, List.append_assoc, List.cons_append]
    exact .pair hpair hinner ih

/-- The closing brackets that are awaited behind one more character. -/
def await (awaited : List Char) (c : Char) : Option (List Char) :=
  match closing? c with
  | some last => some (last :: awaited)
  | none =>
    if isClosing c then (if awaited.head? = some c then some awaited.tail else none)
    else some awaited

/-- The closing brackets that are awaited behind a text. -/
def awaitAll (awaited : List Char) (cs : List Char) : Option (List Char) := cs.foldlM await awaited

theorem awaitAll_cons (awaited : List Char) (c : Char) (cs : List Char) :
    awaitAll awaited (c :: cs) = (await awaited c).bind (awaitAll · cs) := List.foldlM_cons

theorem awaitAll_append (awaited cs ds : List Char) :
    awaitAll awaited (cs ++ ds) = (awaitAll awaited cs).bind (awaitAll · ds) :=
  List.foldlM_append

theorem await_plain {c : Char} (hc : isBracket c = false) (awaited : List Char) :
    await awaited c = some awaited := by
  simp only [isBracket, Bool.or_eq_false_iff, Option.isSome_eq_false_iff, Option.isNone_iff_eq_none]
    at hc
  simp [await, hc]

theorem await_first {first last : Char} (h : closing? first = some last) (awaited : List Char) :
    await awaited first = some (last :: awaited) := by
  simp [await, h]

theorem await_last {first last : Char} (h : closing? first = some last) (awaited : List Char) :
    await (last :: awaited) last = some awaited := by
  unfold closing? at h
  split at h
  case h_4 => cases h
  all_goals
    obtain rfl := Option.some.inj h
    rfl

/-- A nested text leaves nothing awaited but what was before it. -/
theorem Nested.awaitAll {cs : List Char} (h : Nested cs) (awaited : List Char) :
    awaitAll awaited cs = some awaited := by
  induction h generalizing awaited with
  | nil => rfl
  | plain hc _ ih => rw [awaitAll_cons, await_plain hc, Option.bind_some, ih]
  | pair hpair _ _ ihinner ihrest =>
    rw [awaitAll_cons, await_first hpair, Option.bind_some, awaitAll_append, ihinner,
      Option.bind_some, awaitAll_cons, await_last hpair, Option.bind_some, ihrest]

/-- The text has these closing brackets in this order, and what stands before,
between and behind them is nested. -/
def Closes : List Char → List Char → Prop
  | [], cs => Nested cs
  | last :: awaited, cs =>
    ∃ inner rest, Nested inner ∧ cs = inner ++ last :: rest ∧ Closes awaited rest

theorem Closes.append {awaited cs ds : List Char} (h : Nested cs) (h' : Closes awaited ds) :
    Closes awaited (cs ++ ds) := by
  cases awaited with
  | nil => exact h.append h'
  | cons last awaited =>
    obtain ⟨inner, rest, hinner, rfl, hrest⟩ := h'
    exact ⟨cs ++ inner, rest, h.append hinner, by simp, hrest⟩

theorem closes_of_awaitAll {awaited cs : List Char} (h : awaitAll awaited cs = some []) :
    Closes awaited cs := by
  induction cs generalizing awaited with
  | nil =>
    obtain rfl : awaited = [] := Option.some.inj h
    exact .nil
  | cons c cs ih =>
    rw [awaitAll_cons] at h
    obtain ⟨behind, hc, hcs⟩ := Option.bind_eq_some_iff.mp h
    have hrest := ih hcs
    unfold await at hc
    split at hc
    · rename_i last hpair
      obtain rfl := Option.some.inj hc
      obtain ⟨inner, rest, hinner, rfl, hrest⟩ := hrest
      have happend := Closes.append (.pair hpair hinner .nil) hrest
      simpa using happend
    · rename_i hnone
      by_cases hclosing : isClosing c = true
      · rw [if_pos hclosing] at hc
        cases awaited with
        | nil => simp at hc
        | cons last awaited =>
          simp only [List.head?_cons, Option.some.injEq, List.tail_cons,
            Option.ite_none_right_eq_some]
            at hc
          obtain ⟨rfl, rfl⟩ := hc
          exact ⟨[], cs, .nil, rfl, hrest⟩
      · rw [if_neg hclosing] at hc
        obtain rfl := Option.some.inj hc
        exact Closes.append (.plain (by simp [isBracket, hnone, hclosing]) .nil) hrest

/-- Brackets are nested exactly if at the end nothing is awaited. -/
theorem nested_iff {cs : List Char} : Nested cs ↔ awaitAll [] cs = some [] :=
  ⟨fun h => h.awaitAll [], closes_of_awaitAll⟩

instance (cs : List Char) : Decidable (Nested cs) := decidable_of_iff _ nested_iff.symm

end Text

/-! ## The strings of a unit -/

mutual

/-- The names, the notes and the contents of literals in an expression. -/
def Expr.strings : Expr → List String
  | .literal value => [value.content]
  | .ident name => [name]
  | .self => []
  | .type ty => ty.identities
  | .field object name => object.strings ++ [name]
  | .call none method _ args => method :: exprStrings args
  | .call (some target) method _ args => target.strings ++ method :: exprStrings args
  | .new ty args => ty.identities ++ exprStrings args
  | .binary left _ right => left.strings ++ right.strings
  | .unary _ operand => operand.strings
  | .assign target value => target.strings ++ value.strings
  | .conditional test consequent alternate =>
    test.strings ++ (consequent.strings ++ alternate.strings)
  | .cast ty operand => ty.identities ++ operand.strings
  | .instanceOf operand ty => operand.strings ++ ty.identities
  | .anonymousClass ty _ => ty.identities
  | .placeholder note => [note]

def exprStrings : List Expr → List String
  | [] => []
  | e :: es => e.strings ++ exprStrings es

end

def optExprStrings : Option Expr → List String
  | none => []
  | some e => e.strings

mutual

def Stmt.strings : Stmt → List String
  | .expr e => e.strings
  | .declare name ty init => name :: (ty.identities ++ optExprStrings init)
  | .block body => stmtStrings body
  | .ifElse test consequent none => test.strings ++ consequent.strings
  | .ifElse test consequent (some alternate) =>
    test.strings ++ (consequent.strings ++ alternate.strings)
  | .whileLoop test body => test.strings ++ body.strings
  | .forLoop init test update body =>
    stmtStrings init ++ (optExprStrings test ++ (exprStrings update ++ body.strings))
  | .forEach variableName ty iterable body =>
    variableName :: (ty.identities ++ (iterable.strings ++ body.strings))
  | .returns value => optExprStrings value
  | .breakLoop | .continueLoop => []
  | .throws value => value.strings
  | .tryCatch body catches none => stmtStrings body ++ catchStrings catches
  | .tryCatch body catches (some cleanup) =>
    stmtStrings body ++ (catchStrings catches ++ stmtStrings cleanup)
  | .labeled label body _ => label :: body.strings
  | .placeholder note => [note]

def stmtStrings : List Stmt → List String
  | [] => []
  | s :: ss => s.strings ++ stmtStrings ss

def catchStrings : List CatchClause → List String
  | [] => []
  | ⟨param, ty, body⟩ :: cs => param :: (ty.identities ++ (stmtStrings body ++ catchStrings cs))

end

def optStmtStrings : Option (List Stmt) → List String
  | none => []
  | some ss => stmtStrings ss

namespace Target

def paramStrings (ps : List Param) : List String := ps.flatMap fun p => p.name :: p.ty.identities

mutual

def TypeDecl.strings : TypeDecl → List String
  | ⟨name, _, modifiers, bases, constants, members⟩ =>
    name :: (modifiers ++ ((TypeRef.allParts bases).map (·.name) ++
      (constants ++ memberStrings members)))

def Member.strings : Member → List String
  | .field name ty modifiers init =>
    name :: (ty.identities ++ (modifiers ++ optExprStrings init))
  | .method name params returnType modifiers body =>
    name :: (paramStrings params ++ (returnType.toList.flatMap (·.identities) ++
      (modifiers ++ optStmtStrings body)))
  | .constructor name params modifiers body =>
    name :: (paramStrings params ++ (modifiers ++ stmtStrings body))
  | .type decl => decl.strings
  | .placeholder note => [note]

def memberStrings : List Member → List String
  | [] => []
  | m :: ms => m.strings ++ memberStrings ms

end

end Target

/-- Every string that a unit brings into its text. -/
def TargetUnit.strings (u : TargetUnit) : List String :=
  u.space.toList ++ (u.usings.names ++ u.types.flatMap (·.strings))

/-! ## Steady texts -/

namespace CSharp

/-- The text has no brackets. -/
def unbracketed (s : String) : Bool := s.toList.all fun c => !Text.isBracket c

/-- The text leaves awaited what was awaited before it. -/
def Steady (s : String) : Prop := ∀ awaited, Text.awaitAll awaited s.toList = some awaited

theorem Steady.plain {s : String} (h : unbracketed s = true) : Steady s := by
  intro awaited
  unfold unbracketed at h
  generalize s.toList = cs at h
  induction cs with
  | nil => rfl
  | cons c cs ih =>
    rw [List.all_cons, Bool.and_eq_true, Bool.not_eq_true'] at h
    rw [Text.awaitAll_cons, Text.await_plain h.1, Option.bind_some, ih h.2]

theorem Steady.empty : Steady "" := .plain (by decide)

section

variable {s t : String}

theorem Steady.append (hs : Steady s) (ht : Steady t) : Steady (s ++ t) := by
  intro awaited
  rw [String.toList_append, Text.awaitAll_append, hs, Option.bind_some, ht]

theorem Steady.between {first last : String} {c : Char}
    (hfirst : ∀ awaited, Text.awaitAll awaited first.toList = some (c :: awaited))
    (hlast : ∀ awaited, Text.awaitAll (c :: awaited) last.toList = some awaited)
    (hs : Steady s) : Steady (first ++ s ++ last) := by
  intro awaited
  rw [String.toList_append, String.toList_append, Text.awaitAll_append, Text.awaitAll_append,
    hfirst, Option.bind_some, hs, Option.bind_some, hlast]

theorem Steady.round (hs : Steady s) : Steady ("(" ++ s ++ ")") :=
  .between (fun _ => rfl) (fun _ => rfl) hs

/-- Something in round brackets behind a text. -/
theorem Steady.applied (hs : Steady s) (ht : Steady t) : Steady (s ++ "(" ++ t ++ ")") := by
  have htext : s ++ "(" ++ t ++ ")" = s ++ ("(" ++ t ++ ")") := by
    simp only [String.append_assoc]
  rw [htext]
  exact hs.append ht.round

theorem steady_join {texts : List String} (h : ∀ text ∈ texts, Steady text) :
    Steady (String.join texts) := by
  induction texts with
  | nil => exact .empty
  | cons text texts ih =>
    rw [String.join_cons]
    rw [List.forall_mem_cons] at h
    exact h.1.append (ih h.2)

theorem steady_joinWith {sep : String} (hsep : Steady sep) {texts : List String}
    (h : ∀ text ∈ texts, Steady text) : Steady (Text.joinWith sep texts) := by
  match texts with
  | [] => exact .empty
  | [text] => exact h text (by simp)
  | text :: text' :: texts =>
    rw [List.forall_mem_cons] at h
    exact (h.1.append hsep).append (steady_joinWith hsep h.2)

end

/-! ## Types and literals -/

theorem steady_dimsText (dims : UInt8) : Steady (dimsText dims) := by
  apply steady_join
  intro text htext awaited
  obtain rfl := (List.mem_replicate.mp htext).2
  rfl

mutual

theorem steady_typeText (t : TypeRef) (h : t.identities.all unbracketed = true) :
    Steady (typeText t) := by
  obtain ⟨name, args, dims⟩ := t
  simp only [TypeRef.identities, TypeRef.parts, List.map_cons, List.all_cons, Bool.and_eq_true] at h
  rw [typeText]
  refine ((Steady.plain h.1).append ?_).append (steady_dimsText dims)
  split
  · exact Steady.plain (by decide)
  · have hargs := steady_typeTexts args h.2
    exact ((Steady.plain (by decide)).append hargs).append (Steady.plain (by decide))

theorem steady_typeTexts (ts : List TypeRef)
    (h : ((TypeRef.allParts ts).map (·.name)).all unbracketed = true) : Steady (typeTexts ts) := by
  match ts with
  | [] => exact Steady.plain (by decide)
  | [t] =>
    simp only [TypeRef.allParts, List.map_append, List.all_append, Bool.and_eq_true] at h
    exact steady_typeText t h.1
  | t :: t' :: ts =>
    rw [TypeRef.allParts, List.map_append, List.all_append, Bool.and_eq_true] at h
    have hrest := steady_typeTexts (t' :: ts) h.2
    exact ((steady_typeText t h.1).append (Steady.plain (by decide))).append hrest

end

/-- There are six brackets. -/
theorem mem_brackets (c : Char) (hc : Text.isBracket c = true) :
    c ∈ ['(', '[', '\x7b', ')', ']', '\x7d'] := by
  simp only [Text.isBracket, Text.isClosing, Bool.or_eq_true, beq_iff_eq] at hc
  unfold Text.closing? at hc
  split at hc <;> simp_all [or_assoc]

theorem unbracketed_of_all {p : Char → Bool} {s : String} (h : s.toList.all p = true)
    (hp : ['(', '[', '\x7b', ')', ']', '\x7d'].any p = false) : unbracketed s = true := by
  unfold unbracketed
  rw [List.all_eq_true] at h ⊢
  intro c hc
  cases hbracket : Text.isBracket c with
  | false => rfl
  | true => exact absurd (h c hc) (List.any_eq_false.mp hp c (mem_brackets c hbracket))

theorem unbracketed_literalText (v : Literal) (h : unbracketed v.content = true) :
    unbracketed (literalText v) = true := by
  have hquoted : v.isQuoted = true → unbracketed (literalText v) = true := by
    intro hv
    unfold unbracketed at h ⊢
    rw [List.all_eq_true] at h ⊢
    intro c hc
    cases hbracket : Text.isBracket c with
    | false => rfl
    | true =>
      have hmarks : ['(', '[', '\x7b', ')', ']', '\x7d'].any escapeMarks.contains = false := by
        decide
      have hmark : c ∉ escapeMarks := by
        simpa using List.any_eq_false.mp hmarks c (mem_brackets c hbracket)
      have hcontent := ((mem_literalText hv hmark).mp hc).1
      simpa [hbracket] using h c hcontent
  cases v with
  | null => decide
  | bool b => cases b <;> decide
  | int n =>
    have hdigits := unbracketed_of_all (Text.all_isDigit_repr n.toInt.natAbs) (by decide)
    rw [literalText, intText]
    split
    · unfold unbracketed at hdigits ⊢
      rw [String.toList_append, List.all_append, hdigits]
      decide
    · exact hdigits
  | float x => exact unbracketed_of_all (all_inDouble_text x) (by decide)
  | char c => exact hquoted rfl
  | string s => exact hquoted rfl

/-! ## Expressions -/

theorem steady_binarySign (op : BinaryOp) : Steady (binarySign op) := by
  cases op <;> exact .plain (by decide)

theorem steady_unarySign (op : UnaryOp) : Steady (unarySign op) := by
  cases op <;> exact .plain (by decide)

mutual

theorem steady_exprText (e : Expr) (h : e.strings.all unbracketed = true) :
    Steady (exprText e) := by
  cases e with
  | literal v =>
    simp only [Expr.strings, List.all_cons, List.all_nil, Bool.and_true] at h
    exact .plain (unbracketed_literalText v h)
  | ident name =>
    simp only [Expr.strings, List.all_cons, List.all_nil, Bool.and_true] at h
    exact .plain h
  | self => exact .plain (by decide)
  | type ty => exact steady_typeText ty h
  | field object name =>
    simp only [Expr.strings, List.all_append, List.all_cons, List.all_nil, Bool.and_true,
      Bool.and_eq_true] at h
    exact ((steady_exprText object h.1).append (.plain (by decide))).append (.plain h.2)
  | call target method binding args =>
    cases target with
    | none =>
      simp only [Expr.strings, List.all_cons, Bool.and_eq_true] at h
      exact (Steady.plain h.1).applied (steady_exprTexts args h.2)
    | some target =>
      simp only [Expr.strings, List.all_append, List.all_cons, Bool.and_eq_true] at h
      refine Steady.applied ?_ (steady_exprTexts args h.2.2)
      exact ((steady_exprText target h.1).append (.plain (by decide))).append (.plain h.2.1)
  | new ty args =>
    simp only [Expr.strings, List.all_append, Bool.and_eq_true] at h
    refine Steady.applied ?_ (steady_exprTexts args h.2)
    exact (Steady.plain (by decide)).append (steady_typeText ty h.1)
  | binary left op right =>
    simp only [Expr.strings, List.all_append, Bool.and_eq_true] at h
    have hsign : Steady (" " ++ binarySign op ++ " ") :=
      ((Steady.plain (by decide)).append (steady_binarySign op)).append (.plain (by decide))
    have hinside := ((steady_exprText left h.1).append hsign).append (steady_exprText right h.2)
    simpa only [exprText, String.append_assoc] using hinside.round
  | unary op operand => exact (steady_unarySign op).append (steady_exprText operand h)
  | assign target value =>
    simp only [Expr.strings, List.all_append, Bool.and_eq_true] at h
    exact ((steady_exprText target h.1).append (.plain (by decide))).append
      (steady_exprText value h.2)
  | conditional test consequent alternate =>
    simp only [Expr.strings, List.all_append, Bool.and_eq_true] at h
    have hmark : Steady " ? " ∧ Steady " : " := ⟨.plain (by decide), .plain (by decide)⟩
    have hinside := ((((steady_exprText test h.1).append hmark.1).append
      (steady_exprText consequent h.2.1)).append hmark.2).append (steady_exprText alternate h.2.2)
    simpa only [exprText, String.append_assoc] using hinside.round
  | cast ty operand =>
    simp only [Expr.strings, List.all_append, Bool.and_eq_true] at h
    have htext : exprText (.cast ty operand) =
        "(" ++ ("(" ++ typeText ty ++ ")" ++ exprText operand) ++ ")" := by
      simp only [exprText, String.append_assoc]
      rfl
    rw [htext]
    exact ((steady_typeText ty h.1).round.append (steady_exprText operand h.2)).round
  | instanceOf operand ty =>
    simp only [Expr.strings, List.all_append, Bool.and_eq_true] at h
    have his : Steady " is " := .plain (by decide)
    have hinside := ((steady_exprText operand h.1).append his).append (steady_typeText ty h.2)
    simpa only [exprText, String.append_assoc] using hinside.round
  | anonymousClass ty span =>
    exact ((Steady.plain (by decide)).append (steady_typeText ty h)).append (.plain (by decide))
  | placeholder note =>
    simp only [Expr.strings, List.all_cons, List.all_nil, Bool.and_true] at h
    exact ((Steady.plain (by decide)).append (.plain h)).append (.plain (by decide))

theorem steady_exprTexts (es : List Expr) (h : (exprStrings es).all unbracketed = true) :
    Steady (exprTexts es) := by
  match es with
  | [] => exact .empty
  | [e] =>
    simp only [exprStrings, List.append_nil] at h
    exact steady_exprText e h
  | e :: e' :: es =>
    rw [exprStrings, List.all_append, Bool.and_eq_true] at h
    exact ((steady_exprText e h.1).append (.plain (by decide))).append
      (steady_exprTexts (e' :: es) h.2)

end

theorem steady_optExprText (e? : Option Expr) (h : (optExprStrings e?).all unbracketed = true) :
    Steady (optExprText e?) := by
  cases e? with
  | none => exact .empty
  | some e => exact steady_exprText e h

theorem steady_initText (e? : Option Expr) (h : (optExprStrings e?).all unbracketed = true) :
    Steady (initText e?) := by
  cases e? with
  | none => exact .empty
  | some e => exact (Steady.plain (by decide)).append (steady_exprText e h)

/-! ## Statements -/

theorem steady_indent (level : Nat) : Steady (indent level) := by
  apply Steady.plain
  simp only [indent, unbracketed, String.toList_ofList, List.all_replicate]
  split <;> rfl

theorem steady_endedText {s : String} (h : Steady s) : Steady (endedText s) :=
  h.append (.plain (by decide))

theorem steady_headText {keyword inside : String} (hkeyword : unbracketed keyword = true)
    (hinside : Steady inside) : Steady (headText keyword inside) := by
  have htext : headText keyword inside = keyword ++ (" (" ++ inside ++ ")\n") := by
    simp only [headText, String.append_assoc]
  rw [htext]
  exact (Steady.plain hkeyword).append (.between (fun _ => rfl) (fun _ => rfl) hinside)

theorem steady_bracedText (level : Nat) {lines : String} (h : Steady lines) :
    Steady (bracedText level lines) := by
  have htext : bracedText level lines = "\x7b\n" ++ (lines ++ indent level) ++ "\x7d\n" := by
    simp only [bracedText, String.append_assoc]
  rw [htext]
  exact .between (fun _ => rfl) (fun _ => rfl) (h.append (steady_indent level))

theorem steady_declareText {name : String} {ty : TypeRef} {init : Option Expr}
    (hname : unbracketed name = true) (hty : ty.identities.all unbracketed = true)
    (hinit : (optExprStrings init).all unbracketed = true) : Steady (declareText name ty init) :=
  (((steady_typeText ty hty).append (.plain (by decide))).append (.plain hname)).append
    (steady_initText init hinit)

theorem steady_forPartText (s : Stmt) (h : s.strings.all unbracketed = true) :
    Steady (forPartText s) := by
  cases s with
  | expr e => exact steady_exprText e h
  | declare name ty init =>
    simp only [Stmt.strings, List.all_cons, List.all_append, Bool.and_eq_true] at h
    exact steady_declareText h.1 h.2.1 h.2.2
  | _ => exact .empty

theorem steady_forPartTexts (ss : List Stmt) (h : (stmtStrings ss).all unbracketed = true) :
    Steady (forPartTexts ss) := by
  match ss with
  | [] => exact .empty
  | [s] =>
    simp only [stmtStrings, List.append_nil] at h
    exact steady_forPartText s h
  | s :: s' :: ss =>
    rw [stmtStrings, List.all_append, Bool.and_eq_true] at h
    exact ((steady_forPartText s h.1).append (.plain (by decide))).append
      (steady_forPartTexts (s' :: ss) h.2)

theorem steady_elseText {s : Stmt} (h : ∀ level, Steady (stmtAfterIndent level s)) (level : Nat) :
    Steady (elseText level s) := by
  fun_cases elseText level s with
  | case1 => exact ((steady_indent level).append (.plain (by decide))).append (h level)
  | case2 =>
    exact (((steady_indent level).append (.plain (by decide))).append (steady_indent _)).append
      (h _)

mutual

theorem steady_stmt (s : Stmt) (h : s.strings.all unbracketed = true) (level : Nat) :
    Steady (stmtAfterIndent level s) := by
  cases s with
  | expr e => exact steady_endedText (steady_exprText e h)
  | declare name ty init =>
    simp only [Stmt.strings, List.all_cons, List.all_append, Bool.and_eq_true] at h
    exact steady_endedText (steady_declareText h.1 h.2.1 h.2.2)
  | block body => exact steady_bracedText level (steady_stmtTexts body h (level + 1))
  | ifElse test consequent alternate =>
    cases alternate with
    | none =>
      simp only [Stmt.strings, List.all_append, Bool.and_eq_true] at h
      have hhead : Steady (headText "if" (exprText test)) :=
        steady_headText (by decide) (steady_exprText test h.1)
      exact ((hhead.append (steady_indent _)).append (steady_stmt consequent h.2 _)).append .empty
    | some alternate =>
      simp only [Stmt.strings, List.all_append, Bool.and_eq_true] at h
      have hhead : Steady (headText "if" (exprText test)) :=
        steady_headText (by decide) (steady_exprText test h.1)
      rw [stmtAfterIndent_else]
      exact ((hhead.append (steady_indent _)).append (steady_stmt consequent h.2.1 _)).append
        (steady_elseText (steady_stmt alternate h.2.2) level)
  | whileLoop test body =>
    simp only [Stmt.strings, List.all_append, Bool.and_eq_true] at h
    exact ((steady_headText (by decide) (steady_exprText test h.1)).append (steady_indent _)).append
      (steady_stmt body h.2 _)
  | forLoop init test update body =>
    simp only [Stmt.strings, List.all_append, Bool.and_eq_true] at h
    have hsemicolon : Steady "; " := .plain (by decide)
    have hinside := (((((steady_forPartTexts init h.1).append hsemicolon).append
      (steady_optExprText test h.2.1)).append hsemicolon).append (steady_exprTexts update h.2.2.1))
    exact ((steady_headText (by decide) hinside).append (steady_indent _)).append
      (steady_stmt body h.2.2.2 _)
  | forEach variableName ty iterable body =>
    simp only [Stmt.strings, List.all_cons, List.all_append, Bool.and_eq_true] at h
    have hinside : Steady (typeText ty ++ " " ++ variableName ++ " in " ++ exprText iterable) :=
      ((((steady_typeText ty h.2.1).append (.plain (by decide))).append (.plain h.1)).append
        (.plain (by decide))).append (steady_exprText iterable h.2.2.1)
    exact ((steady_headText (by decide) hinside).append (steady_indent _)).append
      (steady_stmt body h.2.2.2 _)
  | returns value =>
    cases value with
    | none => exact steady_endedText (.plain (by decide))
    | some e => exact steady_endedText ((Steady.plain (by decide)).append (steady_exprText e h))
  | breakLoop => exact steady_endedText (.plain (by decide))
  | continueLoop => exact steady_endedText (.plain (by decide))
  | throws value =>
    exact steady_endedText ((Steady.plain (by decide)).append (steady_exprText value h))
  | tryCatch body catches cleanup =>
    cases cleanup with
    | none =>
      simp only [Stmt.strings, List.all_append, Bool.and_eq_true] at h
      have hbody := steady_bracedText level (steady_stmtTexts body h.1 (level + 1))
      exact ((((Steady.plain (by decide)).append (steady_indent level)).append hbody).append
        (steady_catchTexts catches h.2 level)).append .empty
    | some cleanup =>
      simp only [Stmt.strings, List.all_append, Bool.and_eq_true] at h
      have hbody := steady_bracedText level (steady_stmtTexts body h.1 (level + 1))
      have hcleanup := steady_bracedText level (steady_stmtTexts cleanup h.2.2 (level + 1))
      exact ((((Steady.plain (by decide)).append (steady_indent level)).append hbody).append
        (steady_catchTexts catches h.2.1 level)).append
        ((((steady_indent level).append (.plain (by decide))).append (steady_indent level)).append
          hcleanup)
  | labeled label body span =>
    simp only [Stmt.strings, List.all_cons, Bool.and_eq_true] at h
    exact (((Steady.plain h.1).append (.plain (by decide))).append (steady_indent level)).append
      (steady_stmt body h.2 level)
  | placeholder note =>
    simp only [Stmt.strings, List.all_cons, List.all_nil, Bool.and_true] at h
    exact ((Steady.plain (by decide)).append (.plain h)).append (.plain (by decide))

theorem steady_stmtTexts (ss : List Stmt) (h : (stmtStrings ss).all unbracketed = true)
    (level : Nat) : Steady (stmtTexts level ss) := by
  match ss with
  | [] => exact .empty
  | s :: ss =>
    rw [stmtStrings, List.all_append, Bool.and_eq_true] at h
    exact ((steady_indent level).append (steady_stmt s h.1 level)).append
      (steady_stmtTexts ss h.2 level)

theorem steady_catchTexts (cs : List CatchClause) (h : (catchStrings cs).all unbracketed = true)
    (level : Nat) : Steady (catchTexts level cs) := by
  match cs with
  | [] => exact .empty
  | ⟨param, ty, body⟩ :: cs =>
    simp only [catchStrings, List.all_cons, List.all_append, Bool.and_eq_true] at h
    have hinside : Steady (typeText ty ++ " " ++ param) :=
      ((steady_typeText ty h.2.1).append (.plain (by decide))).append (.plain h.1)
    have hbody := steady_bracedText level (steady_stmtTexts body h.2.2.1 (level + 1))
    exact ((((steady_indent level).append (steady_headText (by decide) hinside)).append
      (steady_indent level)).append hbody).append (steady_catchTexts cs h.2.2.2 level)

end

/-! ## Declarations -/

open Target

theorem steady_modifierTexts {modifiers : List String} (h : modifiers.all unbracketed = true) :
    Steady (modifierTexts modifiers) := by
  apply steady_join
  intro text htext
  obtain ⟨modifier, hmodifier, rfl⟩ := List.mem_map.mp htext
  exact (Steady.plain (List.all_eq_true.mp h modifier hmodifier)).append (.plain (by decide))

theorem steady_paramTexts {params : List Param} (h : (paramStrings params).all unbracketed = true) :
    Steady (paramTexts params) := by
  refine Steady.round (steady_joinWith (.plain (by decide)) ?_)
  intro text htext
  obtain ⟨param, hparam, rfl⟩ := List.mem_map.mp htext
  simp only [paramStrings, List.all_flatMap, List.all_eq_true] at h
  have hparam := h param hparam
  rw [← List.all_eq_true, List.all_cons, Bool.and_eq_true] at hparam
  exact ((steady_typeText param.ty hparam.2).append (.plain (by decide))).append (.plain hparam.1)

theorem steady_constantTexts (level : Nat) (cs : List String) (h : cs.all unbracketed = true) :
    Steady (constantTexts level cs) := by
  match cs with
  | [] => exact .empty
  | [c] =>
    rw [List.all_cons, Bool.and_eq_true] at h
    exact ((steady_indent level).append (.plain h.1)).append (.plain (by decide))
  | c :: c' :: cs =>
    rw [List.all_cons, Bool.and_eq_true] at h
    exact (((steady_indent level).append (.plain h.1)).append (.plain (by decide))).append
      (steady_constantTexts level (c' :: cs) h.2)

theorem steady_basesText {bases : List TypeRef}
    (h : ((TypeRef.allParts bases).map (·.name)).all unbracketed = true) :
    Steady (basesText bases) := by
  unfold basesText
  split
  · exact .empty
  · exact (Steady.plain (by decide)).append (steady_typeTexts bases h)

theorem steady_gap (afterField : Option Bool) (m : Member) : Steady (gap afterField m) := by
  unfold gap
  split
  · exact .empty
  · split
    · exact .empty
    · exact .plain (by decide)

theorem steady_bodyText (level : Nat) {body : List Stmt}
    (h : (stmtStrings body).all unbracketed = true) : Steady (bodyText level body) :=
  (steady_indent level).append (steady_bracedText level (steady_stmtTexts body h (level + 1)))

mutual

theorem steady_typeDeclText (decl : TypeDecl) (h : decl.strings.all unbracketed = true)
    (level : Nat) : Steady (typeDeclText level decl) := by
  obtain ⟨name, kind, modifiers, bases, constants, members⟩ := decl
  simp only [TypeDecl.strings, List.all_cons, List.all_append, Bool.and_eq_true] at h
  obtain ⟨hname, hmodifiers, hbases, hconstants, hmembers⟩ := h
  have hkind : Steady (kindText kind) := by
    cases kind <;> exact .plain (by decide)
  have hfirst : Steady (indent level ++ modifierTexts modifiers ++ kindText kind ++ " " ++ name ++
      basesText bases ++ "\n" ++ indent level) :=
    (((((((steady_indent level).append (steady_modifierTexts hmodifiers)).append hkind).append
      (.plain (by decide))).append (.plain hname)).append (steady_basesText hbases)).append
      (.plain (by decide))).append (steady_indent level)
  have hinside := (steady_constantTexts (level + 1) constants hconstants).append
    (steady_memberTexts members hmembers (level + 1)
      (if constants.isEmpty then none else some false))
  have htext := hfirst.append (steady_bracedText level hinside)
  simpa only [typeDeclText, bracedText, String.append_assoc] using htext

theorem steady_memberText (m : Member) (h : m.strings.all unbracketed = true) (level : Nat) :
    Steady (memberText level m) := by
  cases m with
  | field name ty modifiers init =>
    simp only [Member.strings, List.all_cons, List.all_append, Bool.and_eq_true] at h
    obtain ⟨hname, hty, hmodifiers, hinit⟩ := h
    exact ((((((steady_indent level).append (steady_modifierTexts hmodifiers)).append
      (steady_typeText ty hty)).append (.plain (by decide))).append (.plain hname)).append
      (steady_initText init hinit)).append (.plain (by decide))
  | method name params returnType modifiers body =>
    simp only [Member.strings, List.all_cons, List.all_append, Bool.and_eq_true] at h
    obtain ⟨hname, hparams, hreturnType, hmodifiers, hbody⟩ := h
    refine Steady.append (((((((steady_indent level).append
      (steady_modifierTexts hmodifiers)).append ?_).append (.plain (by decide))).append
      (.plain hname)).append (steady_paramTexts hparams))) ?_
    · cases returnType with
      | none => exact .plain (by decide)
      | some ty => exact steady_typeText ty (by simpa using hreturnType)
    · cases body with
      | none => exact Steady.plain (s := ";\n") (by decide)
      | some body => exact (Steady.plain (by decide)).append (steady_bodyText level hbody)
  | constructor name params modifiers body =>
    simp only [Member.strings, List.all_cons, List.all_append, Bool.and_eq_true] at h
    obtain ⟨hname, hparams, hmodifiers, hbody⟩ := h
    exact (((((steady_indent level).append (steady_modifierTexts hmodifiers)).append
      (.plain hname)).append (steady_paramTexts hparams)).append (.plain (by decide))).append
      (steady_bodyText level hbody)
  | type decl => exact steady_typeDeclText decl h level
  | placeholder note =>
    simp only [Member.strings, List.all_cons, List.all_nil, Bool.and_true] at h
    exact (steady_indent level).append
      (((Steady.plain (by decide)).append (.plain h)).append (.plain (by decide)))

theorem steady_memberTexts (ms : List Member) (h : (memberStrings ms).all unbracketed = true)
    (level : Nat) (afterField : Option Bool) : Steady (memberTexts level afterField ms) := by
  match ms with
  | [] => exact .empty
  | m :: ms =>
    rw [memberStrings, List.all_append, Bool.and_eq_true] at h
    exact ((steady_gap afterField m).append (steady_memberText m h.1 level)).append
      (steady_memberTexts ms h.2 level (some (isField m)))

end

theorem steady_typeDeclTexts (level : Nat) (ts : List TypeDecl)
    (h : (ts.flatMap (·.strings)).all unbracketed = true) : Steady (typeDeclTexts level ts) := by
  match ts with
  | [] => exact .empty
  | [t] => exact steady_typeDeclText t (by simpa using h) level
  | t :: t' :: ts =>
    rw [List.flatMap_cons, List.all_append, Bool.and_eq_true] at h
    exact ((steady_typeDeclText t h.1 level).append (.plain (by decide))).append
      (steady_typeDeclTexts level (t' :: ts) h.2)

theorem steady_usingTexts {usings : Text.NameSet} (h : usings.names.all unbracketed = true) :
    Steady (usingTexts usings) := by
  apply steady_join
  intro text htext
  obtain ⟨name, hname, rfl⟩ := List.mem_map.mp htext
  exact ((Steady.plain (by decide)).append (.plain (List.all_eq_true.mp h name hname))).append
    (.plain (by decide))

theorem steady_unitText (u : TargetUnit) (h : u.strings.all unbracketed = true) :
    Steady (unitText u) := by
  simp only [TargetUnit.strings, List.all_append, Bool.and_eq_true] at h
  obtain ⟨hspace, husings, htypes⟩ := h
  unfold unitText
  refine ((steady_usingTexts husings).append ?_).append ?_
  · split
    · exact .empty
    · exact .plain (by decide)
  · cases hu : u.space with
    | none => exact steady_typeDeclTexts 0 u.types htypes
    | some space =>
      rw [hu] at hspace
      have hname : Steady ("namespace " ++ space) :=
        (Steady.plain (by decide)).append (.plain (by simpa using hspace))
      have hblock : Steady ("\n\x7b\n" ++ typeDeclTexts 1 u.types ++ "\x7d\n") :=
        .between (fun _ => rfl) (fun _ => rfl) (steady_typeDeclTexts 1 u.types htypes)
      simpa only [String.append_assoc] using hname.append hblock

/-! ## Whole units -/

/-- The text ends with a whole line. -/
def EndsLine (s : String) : Prop := ∃ front, s = front ++ "\n"

theorem EndsLine.append (front : String) {s : String} (h : EndsLine s) : EndsLine (front ++ s) := by
  obtain ⟨middle, rfl⟩ := h
  exact ⟨front ++ middle, String.append_assoc.symm⟩

theorem endsLine_typeDeclText (level : Nat) (decl : TypeDecl) :
    EndsLine (typeDeclText level decl) := by
  obtain ⟨name, kind, modifiers, bases, constants, members⟩ := decl
  rw [typeDeclText]
  exact .append _ ⟨"\x7d", rfl⟩

theorem endsLine_typeDeclTexts (level : Nat) {ts : List TypeDecl} (h : ts ≠ []) :
    EndsLine (typeDeclTexts level ts) := by
  match ts with
  | [] => exact absurd rfl h
  | [t] => exact endsLine_typeDeclText level t
  | t :: t' :: ts => exact .append _ (endsLine_typeDeclTexts level (by simp))

theorem endsLine_usingTexts {usings : Text.NameSet} (h : usings.names ≠ []) :
    EndsLine (usingTexts usings) := by
  unfold usingTexts
  generalize usings.names = names at h
  induction names with
  | nil => exact absurd rfl h
  | cons name names ih =>
    rw [List.map_cons, String.join_cons]
    by_cases hnames : names = []
    · rw [hnames]
      exact ⟨"using " ++ name ++ ";", by simp [String.append_assoc]⟩
    · exact .append _ (ih hnames)

theorem unitText_eq_empty_or_endsLine (u : TargetUnit) :
    unitText u = "" ∨ EndsLine (unitText u) := by
  unfold unitText
  cases u.space with
  | some space => exact .inr (.append _ (.append _ ⟨"\x7d", rfl⟩))
  | none =>
    by_cases htypes : u.types = []
    · by_cases husings : u.usings.names = []
      · left
        simp [htypes, usingTexts, husings, typeDeclTexts, Text.NameSet.isEmpty]
      · right
        obtain ⟨front, hfront⟩ := endsLine_usingTexts husings
        exact ⟨front, by simp [htypes, typeDeclTexts, hfront]⟩
    · exact .inr (.append _ (endsLine_typeDeclTexts 0 htypes))

/-- If neither the header nor a string of the unit has brackets, then the brackets
of the rendered unit are nested: round, square and curly ones come in pairs, and
pairs stand in each other or behind each other. What is rendered behind the header
ends with a whole line. -/
theorem brackets_of_rendered_units_are_nested {header : String} {u : TargetUnit}
    (h : (header :: u.strings).all unbracketed = true) :
    Text.Nested (render header u).toList ∧
      (render header u = header ∨ ∃ front, render header u = front ++ "\n") := by
  rw [List.all_cons, Bool.and_eq_true] at h
  constructor
  · rw [Text.nested_iff]
    exact (Steady.plain h.1).append (steady_unitText u h.2) []
  · unfold render
    rcases unitText_eq_empty_or_endsLine u with hempty | hends
    · left
      rw [hempty, String.append_empty]
    · exact .inr (EndsLine.append header hends)

/-- An enumeration, and a class with a cast, arrays, an else if and a catch. -/
def bracketedUnit : TargetUnit where
  path := ⟨"C"⟩
  space := some "N.M"
  usings := Text.NameSet.empty.insert "A"
  types := [
    ⟨"E", .enumType, ["public"], [], ["X", "Y"], []⟩,
    ⟨"C", .classType, [], [.named "B", ⟨"D", [⟨"T", [], 2⟩], 0⟩], [], [
      .field "f" ⟨"T", [], 1⟩ ["readonly"] (some (.new ⟨"T", [.named "U"], 0⟩ [])),
      .method "Run" [⟨"a", .named "T"⟩, ⟨"b", .named "U"⟩] none [] (some [
        .tryCatch
          [.ifElse (.instanceOf (.ident "a") (.named "B")) (.block [.returns none])
            (some (.ifElse (.binary (.ident "a") .lt (.string ";")) .breakLoop none))]
          [⟨"e", .named "X", [.throws (.cast (.named "X") (.call none "wrap" none [.ident "e"]))]⟩]
          (some [])]),
      .method "Bare" [] (some (.named "T")) ["abstract"] none,
      .placeholder "native method beep"]⟩]
  suppressed := false

theorem the_brackets_of_a_class_are_nested :
    ("// all of it\n" :: bracketedUnit.strings).all unbracketed = true ∧
      Text.Nested (render "// all of it\n" bracketedUnit).toList := by
  have hstrings : ("// all of it\n" :: bracketedUnit.strings).all unbracketed = true := by decide
  exact ⟨hstrings, (brackets_of_rendered_units_are_nested hstrings).1⟩

end CSharp

end Recast
