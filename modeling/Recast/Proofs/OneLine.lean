-- Literals and the ends of lines. The escapes of a literal cover the feed and the return,
-- so these never cut it; three more characters end lines in the target language, and
-- a literal shows them as they are. Every literal of a unit stands in its text, but
-- for those in statements that a for header drops.
import Recast.CSharp.Unit
import Recast.Proofs.ForHeaders
import Recast.Proofs.Nodes

namespace Recast

/-! ## Lines -/

namespace Text

/-- The characters that end a line of the target language. -/
def lineEnds : List Char := ['\n', '\r', '\u0085', '\u2028', '\u2029']

/-- The lines of a text, without their ends. -/
def lines : List Char → List (List Char)
  | [] => [[]]
  | c :: cs => if c ∈ lineEnds then [] :: lines cs else (lines cs).modifyHead (c :: ·)

theorem exists_lines (cs : List Char) : ∃ line more, lines cs = line :: more := by
  cases cs with
  | nil => exact ⟨[], [], rfl⟩
  | cons c cs =>
    rw [lines]
    split
    · exact ⟨[], lines cs, rfl⟩
    · obtain ⟨line, more, h⟩ := exists_lines cs
      exact ⟨c :: line, more, by rw [h]; rfl⟩

theorem not_mem_line {cs line : List Char} (h : line ∈ lines cs) : ∀ c ∈ lineEnds, c ∉ line := by
  intro c hc
  induction cs generalizing line with
  | nil =>
    obtain rfl := List.mem_singleton.mp h
    exact List.not_mem_nil
  | cons d cs ih =>
    rw [lines] at h
    split at h
    · rcases List.mem_cons.mp h with rfl | h
      · exact List.not_mem_nil
      · exact ih h
    · rename_i hd
      obtain ⟨first, more, hlines⟩ := exists_lines cs
      rw [hlines] at h ih
      rcases List.mem_cons.mp h with rfl | h
      · rw [List.mem_cons, not_or]
        refine ⟨?_, ih (List.mem_cons_self)⟩
        rintro rfl
        exact hd hc
      · exact ih (List.mem_cons_of_mem _ h)

/-- A piece without an end goes into the line that it stands in. -/
theorem lines_append {piece : List Char} (h : ∀ c ∈ lineEnds, c ∉ piece) (rest : List Char) :
    lines (piece ++ rest) = (lines rest).modifyHead (piece ++ ·) := by
  induction piece with
  | nil => exact (congrFun List.modifyHead_id _).symm
  | cons c piece ih =>
    have hc : c ∉ lineEnds := fun hmem => h c hmem List.mem_cons_self
    have hpiece : ∀ d ∈ lineEnds, d ∉ piece := fun d hd hmem => h d hd (List.mem_cons_of_mem _ hmem)
    rw [List.cons_append, lines, if_neg hc, ih hpiece, List.modifyHead_modifyHead]
    rfl

/-- A piece of a text stands on one line exactly if it has no end in it. -/
theorem exists_line_iff {piece cs : List Char} (h : piece <:+: cs) :
    (∃ line ∈ lines cs, piece <:+: line) ↔ ∀ c ∈ lineEnds, c ∉ piece := by
  constructor
  · rintro ⟨line, hline, hpiece⟩ c hc hmem
    exact not_mem_line hline c hc (hpiece.mem hmem)
  · intro hpiece
    obtain ⟨before, after, rfl⟩ := h
    induction before with
    | nil =>
      obtain ⟨first, more, hlines⟩ := exists_lines after
      rw [List.nil_append, lines_append hpiece, hlines]
      exact ⟨piece ++ first, List.mem_cons_self, List.prefix_append _ _ |>.isInfix⟩
    | cons c before ih =>
      obtain ⟨line, hline, hstands⟩ := ih
      rw [List.cons_append, List.cons_append, lines]
      split
      · exact ⟨line, List.mem_cons_of_mem _ hline, hstands⟩
      · obtain ⟨first, more, hlines⟩ := exists_lines (before ++ piece ++ after)
        rw [hlines] at hline ⊢
        rcases List.mem_cons.mp hline with rfl | hline
        · exact ⟨c :: line, List.mem_cons_self, List.infix_cons hstands⟩
        · exact ⟨line, List.mem_cons_of_mem _ hline, hstands⟩

end Text

/-! ## Nodes that are shown -/

/-- No statement of a for header is dropped. -/
def Node.isShown : Node → Bool
  | .stmt _ (.forLoop init _ _ _) => init.all Stmt.isForPart
  | _ => true

namespace CSharp

/-- The text has all the literals among the nodes in it. -/
def Shows (text : String) (nodes : List Node) : Prop :=
  nodes.all Node.isShown = true →
    ∀ v, Node.expr (.literal v) ∈ nodes → (literalText v).toList <:+: text.toList

namespace Shows

variable {s t : String} {ns ns' : List Node} {n : Node}

theorem nil : Shows s [] := fun _ _ hv => absurd hv List.not_mem_nil

theorem left (h : Shows s ns) : Shows (s ++ t) ns := by
  intro hshown v hv
  rw [String.toList_append]
  exact (h hshown v hv).trans (List.prefix_append _ _).isInfix

theorem right (h : Shows t ns) : Shows (s ++ t) ns := by
  intro hshown v hv
  rw [String.toList_append]
  exact (h hshown v hv).trans (List.suffix_append _ _).isInfix

theorem both (h : Shows s ns) (h' : Shows s ns') : Shows s (ns ++ ns') := by
  intro hshown v hv
  rw [List.all_append, Bool.and_eq_true] at hshown
  rcases List.mem_append.mp hv with hv | hv
  · exact h hshown.1 v hv
  · exact h' hshown.2 v hv

theorem append (h : Shows s ns) (h' : Shows t ns') : Shows (s ++ t) (ns ++ ns') :=
  h.left.both h'.right

/-- Only literals have to be shown. -/
theorem cons (hn : ∀ v, n ≠ .expr (.literal v)) (h : n.isShown = true → Shows s ns) :
    Shows s (n :: ns) := by
  intro hshown v hv
  rw [List.all_cons, Bool.and_eq_true] at hshown
  rcases List.mem_cons.mp hv with rfl | hv
  · exact absurd rfl (hn v)
  · exact h hshown.1 hshown.2 v hv

theorem leaf (hn : ∀ v, n ≠ .expr (.literal v)) : Shows s [n] := cons hn fun _ => nil

end Shows

/-! ## Expressions -/

mutual

theorem shows_exprText (e : Expr) : Shows (exprText e) e.nodes := by
  cases e with
  | literal v =>
    intro _ v' hv'
    obtain ⟨rfl⟩ := Node.expr.inj (List.mem_singleton.mp hv')
    exact List.infix_rfl
  | ident | self | type | anonymousClass | placeholder => exact .leaf nofun
  | field object name => exact .cons nofun fun _ => (shows_exprText object).left.left
  | call target method binding args =>
    cases target with
    | none => exact .cons nofun fun _ => (shows_exprTexts args).right.left
    | some target =>
      exact .cons nofun fun _ =>
        ((shows_exprText target).left.left.left.append (shows_exprTexts args)).left
  | new ty args => exact .cons nofun fun _ => (shows_exprTexts args).right.left
  | binary left op right =>
    exact .cons nofun fun _ =>
      ((shows_exprText left).right.left.left.left.append (shows_exprText right)).left
  | unary op operand => exact .cons nofun fun _ => (shows_exprText operand).right
  | assign target value =>
    exact .cons nofun fun _ => (shows_exprText target).left.append (shows_exprText value)
  | conditional test consequent alternate =>
    refine .cons nofun fun _ => .both ?_ (.both ?_ ?_)
    · exact (shows_exprText test).right.left.left.left.left.left
    · exact (shows_exprText consequent).right.left.left.left
    · exact (shows_exprText alternate).right.left
  | cast ty operand => exact .cons nofun fun _ => (shows_exprText operand).right.left
  | instanceOf operand ty =>
    exact .cons nofun fun _ => (shows_exprText operand).right.left.left.left

theorem shows_exprTexts (es : List Expr) : Shows (exprTexts es) (exprNodes es) := by
  match es with
  | [] => exact .nil
  | [e] => exact (shows_exprText e).both .nil
  | e :: e' :: es => exact (shows_exprText e).left.append (shows_exprTexts (e' :: es))

end

theorem shows_optExprText (e? : Option Expr) : Shows (optExprText e?) (optExprNodes e?) := by
  cases e? with
  | none => exact .nil
  | some e => exact shows_exprText e

theorem shows_initText (e? : Option Expr) : Shows (initText e?) (optExprNodes e?) := by
  cases e? with
  | none => exact .nil
  | some e => exact (shows_exprText e).right

/-! ## Statements -/

section

variable {s : String} {ns : List Node} (h : Shows s ns)
include h

theorem shows_headText (keyword : String) : Shows (headText keyword s) ns := h.right.left

theorem shows_bracedText (level : Nat) : Shows (bracedText level s) ns := h.right.left.left

end

theorem shows_forPartText {s : Stmt} (h : s.isForPart = true) (spot : Spot) :
    Shows (forPartText s) (s.nodes spot) := by
  cases s with
  | expr e => exact .cons nofun fun _ => shows_exprText e
  | declare name ty init => exact .cons nofun fun _ => (shows_initText init).right
  | _ => cases h

theorem shows_forPartTexts {ss : List Stmt} (h : ss.all Stmt.isForPart = true) (row : Row)
    (before : Nat) : Shows (forPartTexts ss) (stmtNodes row before ss) := by
  match ss with
  | [] => exact .nil
  | [s] =>
    rw [List.all_cons, Bool.and_eq_true] at h
    exact (shows_forPartText h.1 _).both .nil
  | s :: s' :: ss =>
    rw [List.all_cons, Bool.and_eq_true] at h
    exact (shows_forPartText h.1 _).left.append (shows_forPartTexts h.2 row (before + 1))

theorem shows_elseText {s : Stmt} {ns : List Node} (h : ∀ level, Shows (stmtAfterIndent level s) ns)
    (level : Nat) : Shows (elseText level s) ns := by
  fun_cases elseText level s with
  | case1 => exact (h level).right
  | case2 => exact (h _).right

mutual

theorem shows_stmt (s : Stmt) (spot : Spot) (level : Nat) :
    Shows (stmtAfterIndent level s) (s.nodes spot) := by
  cases s with
  | expr e => exact .cons nofun fun _ => (shows_exprText e).left
  | declare name ty init => exact .cons nofun fun _ => (shows_initText init).right.left
  | block body => exact .cons nofun fun _ => shows_bracedText (shows_stmtTexts body _ _ _) level
  | ifElse test consequent alternate =>
    have htest := shows_headText (shows_exprText test) "if"
    cases alternate with
    | none => exact .cons nofun fun _ => (htest.left.append (shows_stmt consequent _ _)).left
    | some alternate =>
      have helse := shows_elseText (shows_stmt alternate .elseBranch) level
      rw [stmtAfterIndent_else]
      exact .cons nofun fun _ =>
        .both htest.left.left.left (.both (shows_stmt consequent _ _).right.left helse.right)
  | whileLoop test body =>
    have htest := shows_headText (shows_exprText test) "while"
    exact .cons nofun fun _ => htest.left.append (shows_stmt body _ _)
  | forLoop init test update body =>
    refine .cons nofun fun hinit => .both ?_ (.both ?_ (.both ?_ (shows_stmt body _ _).right))
    · exact (shows_headText (shows_forPartTexts hinit _ _).left.left.left.left "for").left.left
    · exact (shows_headText (shows_optExprText test).right.left.left "for").left.left
    · exact (shows_headText (shows_exprTexts update).right "for").left.left
  | forEach variableName ty iterable body =>
    exact .cons nofun fun _ =>
      (shows_headText (shows_exprText iterable).right "foreach").left.append (shows_stmt body _ _)
  | returns value =>
    cases value with
    | none => exact .leaf nofun
    | some e => exact .cons nofun fun _ => (shows_exprText e).right.left
  | breakLoop | continueLoop | placeholder => exact .leaf nofun
  | throws value => exact .cons nofun fun _ => (shows_exprText value).right.left
  | tryCatch body catches cleanup =>
    have hbody := shows_bracedText (shows_stmtTexts body .tryBody 0 (level + 1)) level
    cases cleanup with
    | none =>
      exact .cons nofun fun _ => (hbody.right.append (shows_catchTexts catches level)).left
    | some cleanup =>
      have hcleanup := shows_bracedText (shows_stmtTexts cleanup .cleanup 0 (level + 1)) level
      exact .cons nofun fun _ =>
        .both hbody.right.left.left (.both (shows_catchTexts catches level).right.left
          hcleanup.right.right)
  | labeled label body span => exact .cons nofun fun _ => (shows_stmt body _ level).right

theorem shows_stmtTexts (ss : List Stmt) (row : Row) (before level : Nat) :
    Shows (stmtTexts level ss) (stmtNodes row before ss) := by
  match ss with
  | [] => exact .nil
  | s :: ss => exact (shows_stmt s _ level).right.append (shows_stmtTexts ss row (before + 1) level)

theorem shows_catchTexts (cs : List CatchClause) (level : Nat) :
    Shows (catchTexts level cs) (catchNodes cs) := by
  match cs with
  | [] => exact .nil
  | ⟨param, ty, body⟩ :: cs =>
    have hbody := shows_bracedText (shows_stmtTexts body .catchBody 0 (level + 1)) level
    exact hbody.right.append (shows_catchTexts cs level)

end

/-! ## Declarations and units -/

open Target

theorem shows_bodyText (body : List Stmt) (row : Row) (level : Nat) :
    Shows (bodyText level body) (stmtNodes row 0 body) :=
  (shows_bracedText (shows_stmtTexts body row 0 (level + 1)) level).right

mutual

theorem shows_typeDeclText (decl : TypeDecl) (level : Nat) :
    Shows (typeDeclText level decl) decl.nodes := by
  obtain ⟨name, kind, modifiers, bases, constants, members⟩ := decl
  exact (shows_memberTexts members _ _).right.left.left

theorem shows_memberText (m : Member) (level : Nat) : Shows (memberText level m) m.nodes := by
  cases m with
  | field name ty modifiers init => exact (shows_initText init).right.left
  | method name params returnType modifiers body =>
    cases body with
    | none => exact .nil
    | some body => exact (shows_bodyText body .methodBody level).right.right
  | constructor name params modifiers body =>
    exact (shows_bodyText body .constructorBody level).right
  | type decl => exact shows_typeDeclText decl level
  | placeholder note => exact .leaf nofun

theorem shows_memberTexts (ms : List Member) (level : Nat) (afterField : Option Bool) :
    Shows (memberTexts level afterField ms) (memberNodes ms) := by
  match ms with
  | [] => exact .nil
  | m :: ms => exact (shows_memberText m level).right.append (shows_memberTexts ms level _)

end

theorem shows_typeDeclTexts (ts : List TypeDecl) (level : Nat) :
    Shows (typeDeclTexts level ts) (ts.flatMap (·.nodes)) := by
  match ts with
  | [] => exact .nil
  | [t] => exact (shows_typeDeclText t level).both .nil
  | t :: t' :: ts =>
    exact (shows_typeDeclText t level).left.append (shows_typeDeclTexts (t' :: ts) level)

/-- The text of a unit has its literals in it. -/
theorem shows_render (header : String) (u : TargetUnit) : Shows (render header u) u.nodes := by
  refine Shows.right (Shows.right ?_)
  cases u.space with
  | none => exact shows_typeDeclTexts u.types 0
  | some space => exact (shows_typeDeclTexts u.types 1).right.left

/-! ## Literals and the ends of lines -/

/-- The ends of lines that literals have no escapes for. -/
def keptLineEnds : List Char := ['\u0085', '\u2028', '\u2029']

/-- An end of a line stands in a literal only if the literal holds it and there is no escape
for it. -/
theorem lineEnd_mem_literalText {v : Literal} (hv : v.isQuoted = true) {c : Char}
    (hc : c ∈ Text.lineEnds) :
    c ∈ (literalText v).toList ↔ c ∈ keptLineEnds ∧ c ∈ v.content.toList := by
  have hmark : c ∉ escapeMarks := by
    have hmarks : Text.lineEnds.any escapeMarks.contains = false := by decide
    simpa using List.any_eq_false.mp hmarks c hc
  have hkept : c ∉ escapedBreaks ↔ c ∈ keptLineEnds := by
    have hsplit : Text.lineEnds.all
        (fun c => (!escapedBreaks.contains c) == keptLineEnds.contains c) = true := by decide
    have heq := beq_iff_eq.mp (List.all_eq_true.mp hsplit c hc)
    rw [← List.contains_iff_mem, ← List.contains_iff_mem, ← heq, Bool.not_eq_true,
      Bool.not_eq_true']
  rw [mem_literalText hv hmark, hkept, and_comm]

/-- A text or character literal of a unit has ends of lines in its text exactly where it
holds one of three that are not escaped. In a unit whose for headers drop no statement, the
literal stands in the text of the unit, and it stands there on one line exactly if
it holds none of the three. -/
theorem literals_are_cut_at_three_line_ends (header : String) {u : TargetUnit} {v : Literal}
    (hv : v.isQuoted = true) (hmem : Node.expr (.literal v) ∈ u.nodes) :
    (∀ c ∈ Text.lineEnds,
      c ∈ (literalText v).toList ↔ c ∈ keptLineEnds ∧ c ∈ v.content.toList) ∧
    (u.nodes.all Node.isShown = true →
      (literalText v).toList <:+: (render header u).toList ∧
      ((∃ line ∈ Text.lines (render header u).toList, (literalText v).toList <:+: line) ↔
        ∀ c ∈ keptLineEnds, c ∉ v.content.toList)) := by
  refine ⟨fun c hc => lineEnd_mem_literalText hv hc, fun hshown => ?_⟩
  have hstands := shows_render header u hshown v hmem
  refine ⟨hstands, (Text.exists_line_iff hstands).trans ?_⟩
  have hends : ∀ c ∈ keptLineEnds, c ∈ Text.lineEnds := by
    simp [keptLineEnds, Text.lineEnds]
  constructor
  · intro h c hc hcontent
    exact h c (hends c hc) ((lineEnd_mem_literalText hv (hends c hc)).mpr ⟨hc, hcontent⟩)
  · intro h c hc hmem
    obtain ⟨hkept, hcontent⟩ := (lineEnd_mem_literalText hv hc).mp hmem
    exact h c hkept hcontent

/-- A class with one field that holds a text. -/
def textUnit (s : String) : TargetUnit where
  path := ⟨"C"⟩
  space := none
  usings := Text.NameSet.empty
  types := [⟨"C", .classType, [], [], [], [.field "f" (.named "T") [] (some (.string s))]⟩]
  suppressed := false

theorem nodes_textUnit (s : String) : (textUnit s).nodes = [.expr (.literal (.string s))] := rfl

/-- A feed in a text leaves the literal on one line. -/
theorem a_feed_is_kept_on_one_line :
    Node.expr (.literal (.string "a\nb")) ∈ (textUnit "a\nb").nodes ∧
      ∃ line ∈ Text.lines (render "" (textUnit "a\nb")).toList,
        (literalText (.string "a\nb")).toList <:+: line := by
  have hmem : Node.expr (.literal (.string "a\nb")) ∈ (textUnit "a\nb").nodes := by
    rw [nodes_textUnit]
    exact List.mem_cons_self
  obtain ⟨-, hline⟩ := literals_are_cut_at_three_line_ends "" rfl hmem
  refine ⟨hmem, (hline (by decide)).2.mpr ?_⟩
  simp [keptLineEnds, Literal.content]

/-- A separator of lines in a text cuts the literal in two. -/
theorem a_line_separator_cuts_a_literal :
    Node.expr (.literal (.string "a\u2028b")) ∈ (textUnit "a\u2028b").nodes ∧
      '\u2028' ∈ (literalText (.string "a\u2028b")).toList ∧
      Text.lines (render "" (textUnit "a\u2028b")).toList =
        ["class C".toList, "\x7b".toList, "    T f = \x22a".toList, "b\x22;".toList,
          "\x7d".toList, []] := by
  refine ⟨?_, by decide, by decide⟩
  rw [nodes_textUnit]
  exact List.mem_cons_self

end CSharp

end Recast
