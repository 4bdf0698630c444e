-- Which if an else belongs to. The lines of a statement do not say how deep
-- they stand, so an else goes to the nearest if that has none. Two trees with
-- the same lines are regrouped into one tree.
import Recast.Stmt

namespace Recast

namespace CSharp

/-- A line of a statement, without its blanks. -/
inductive Line
  | expr (e : Expr)
  | opening
  | closing
  | test (e : Expr)
  | loop (e : Expr)
  /-- An else, with the test of the if that stands on its line. -/
  | otherwise (test : Option Expr)
  | returns (value : Option Expr)
  /-- A statement of another form, which is not looked into. -/
  | other (s : Stmt)

namespace Line

/-- The lines of the statement behind an else. An if goes on behind the word,
and any other statement starts on the next line. -/
def afterElse : List Line → List Line
  | .test e :: ls => .otherwise (some e) :: ls
  | ls => .otherwise none :: ls

/-- The next line is an else. -/
def elseAhead : List Line → Bool
  | .otherwise _ :: _ => true
  | _ => false

theorem afterElse_append {ls : List Line} (h : ls ≠ []) (ls' : List Line) :
    afterElse (ls ++ ls') = afterElse ls ++ ls' := by
  obtain ⟨l, ls, rfl⟩ := List.exists_cons_of_ne_nil h
  cases l <;> rfl

theorem elseAhead_afterElse (ls ls' : List Line) : elseAhead (afterElse ls ++ ls') = true := by
  unfold afterElse
  split <;> rfl

theorem afterElse_inj {ls ls' : List Line} (h : elseAhead ls = false) (h' : elseAhead ls' = false)
    (heq : afterElse ls = afterElse ls') : ls = ls' := by
  unfold afterElse at heq
  split at heq <;> split at heq <;> simp_all

end Line

end CSharp

namespace Stmt

open CSharp

/-! ## Lines of a statement -/

mutual

def lines : Stmt → List Line
  | .expr e => [.expr e]
  | .block body => .opening :: (linesOf body ++ [.closing])
  | .ifElse test consequent none => .test test :: consequent.lines
  | .ifElse test consequent (some alternate) =>
    .test test :: (consequent.lines ++ Line.afterElse alternate.lines)
  | .whileLoop test body => .loop test :: body.lines
  | .returns value => [.returns value]
  | s => [.other s]

def linesOf : List Stmt → List Line
  | [] => []
  | s :: ss => s.lines ++ linesOf ss

end

theorem lines_ne_nil (s : Stmt) : s.lines ≠ [] := by
  fun_cases lines s <;> simp

theorem elseAhead_lines (s : Stmt) (ls : List Line) : Line.elseAhead (s.lines ++ ls) = false := by
  fun_cases lines s <;> rfl

/-! ## Elses and their ifs -/

/-- The statement ends with an if that can still get an else. -/
def isOpen : Stmt → Bool
  | .ifElse _ _ none => true
  | .ifElse _ _ (some alternate) => alternate.isOpen
  | .whileLoop _ body => body.isOpen
  | _ => false

/-- An else behind the statement goes to the last if that can get one. -/
def withElse : Stmt → Stmt → Stmt
  | .ifElse test consequent none, alternate =>
    if consequent.isOpen then .ifElse test (consequent.withElse alternate) none
    else .ifElse test consequent (some alternate)
  | .ifElse test consequent (some last), alternate =>
    .ifElse test consequent (some (last.withElse alternate))
  | .whileLoop test body, alternate => .whileLoop test (body.withElse alternate)
  | s, _ => s

mutual

/-- The statement as its lines are read. -/
def regrouped : Stmt → Stmt
  | .block body => .block (regroupedAll body)
  | .ifElse test consequent none => .ifElse test consequent.regrouped none
  | .ifElse test consequent (some alternate) =>
    (Stmt.ifElse test consequent.regrouped none).withElse alternate.regrouped
  | .whileLoop test body => .whileLoop test body.regrouped
  | s => s

def regroupedAll : List Stmt → List Stmt
  | [] => []
  | s :: ss => s.regrouped :: regroupedAll ss

end

mutual

/-- Between an if and its else no other if waits for an else. -/
def settled : Stmt → Bool
  | .block body => settledAll body
  | .ifElse _ consequent none => consequent.settled
  | .ifElse _ consequent (some alternate) =>
    !consequent.isOpen && (consequent.settled && alternate.settled)
  | .whileLoop _ body => body.settled
  | _ => true

def settledAll : List Stmt → Bool
  | [] => true
  | s :: ss => s.settled && settledAll ss

end

/-- An else behind an open statement adds its lines to those of the
statement, so which if it belongs to cannot be seen. -/
theorem lines_withElse (s alternate : Stmt) (hs : s.isOpen = true) :
    (s.withElse alternate).lines = s.lines ++ Line.afterElse alternate.lines := by
  fun_induction withElse s alternate with
  | case1 test consequent alternate hopen ih => simp [lines, ih hopen]
  | case2 => simp [lines]
  | case3 test consequent last alternate ih =>
    have hlast : last.isOpen = true := hs
    simp [lines, ih hlast, Line.afterElse_append last.lines_ne_nil]
  | case4 test body alternate ih =>
    have hbody : body.isOpen = true := hs
    simp [lines, ih hbody]
  | case5 => simp_all [isOpen]

theorem settled_withElse (s alternate : Stmt) (hs : s.settled = true)
    (ha : alternate.settled = true) : (s.withElse alternate).settled = true := by
  fun_induction withElse s alternate with
  | case1 test consequent alternate hopen ih =>
    have hconsequent : consequent.settled = true := hs
    exact ih hconsequent ha
  | case2 test consequent alternate hopen =>
    have hconsequent : consequent.settled = true := hs
    simp [settled, hopen, hconsequent, ha]
  | case3 test consequent last alternate ih =>
    simp only [settled, Bool.and_eq_true] at hs ⊢
    exact ⟨hs.1, hs.2.1, ih hs.2.2 ha⟩
  | case4 test body alternate ih =>
    have hbody : body.settled = true := hs
    exact ih hbody ha
  | case5 => exact hs

mutual

theorem lines_regrouped (s : Stmt) : s.regrouped.lines = s.lines := by
  cases s with
  | block body => simp [regrouped, lines, linesOf_regroupedAll body]
  | ifElse test consequent alternate =>
    cases alternate with
    | none => simp [regrouped, lines, lines_regrouped consequent]
    | some alternate =>
      rw [regrouped, lines_withElse _ _ rfl]
      simp [lines, lines_regrouped consequent, lines_regrouped alternate]
  | whileLoop test body => simp [regrouped, lines, lines_regrouped body]
  | _ => rfl

theorem linesOf_regroupedAll (ss : List Stmt) : linesOf (regroupedAll ss) = linesOf ss := by
  cases ss with
  | nil => rfl
  | cons s ss => simp [regroupedAll, linesOf, lines_regrouped s, linesOf_regroupedAll ss]

end

mutual

theorem settled_regrouped (s : Stmt) : s.regrouped.settled = true := by
  cases s with
  | block body => simpa [regrouped, settled] using settledAll_regroupedAll body
  | ifElse test consequent alternate =>
    cases alternate with
    | none => simpa [regrouped, settled] using settled_regrouped consequent
    | some alternate =>
      rw [regrouped]
      exact settled_withElse _ _ (settled_regrouped consequent) (settled_regrouped alternate)
  | whileLoop test body => simpa [regrouped, settled] using settled_regrouped body
  | _ => rfl

theorem settledAll_regroupedAll (ss : List Stmt) : settledAll (regroupedAll ss) = true := by
  cases ss with
  | nil => rfl
  | cons s ss => simp [regroupedAll, settledAll, settled_regrouped s, settledAll_regroupedAll ss]

end

/-! ## Reading lines -/

/-- The first lines agree, so the forms do. -/
theorem exists_ifElse_of_lines {t : Stmt} {test : Expr} {ls ls' : List Line}
    (h : .test test :: ls = t.lines ++ ls') : ∃ consequent alternate,
      t = .ifElse test consequent alternate := by
  cases t with
  | ifElse test' consequent alternate =>
    cases alternate <;> simp_all [lines]
  | _ => simp [lines] at h

mutual

/-- The lines of a settled statement give it back, whatever stands behind
them, unless it is an else for which the statement still has an if. The
induction is on the first statement: where one has an else and the other has
not, the lines differ. -/
theorem eq_of_lines_append (s t : Stmt) (hs : s.settled = true) (ht : t.settled = true)
    {ls ls' : List Line} (hls : s.isOpen = true → Line.elseAhead ls = false)
    (hls' : t.isOpen = true → Line.elseAhead ls' = false) (h : s.lines ++ ls = t.lines ++ ls') :
    s = t ∧ ls = ls' := by
  cases s with
  | block body =>
    cases t with
    | block body' =>
      simp only [lines, List.cons_append, List.append_assoc, List.nil_append,
        List.cons.injEq, true_and] at h
      obtain ⟨rfl, rfl⟩ := eq_of_linesOf_append body body' hs ht h
      exact ⟨rfl, rfl⟩
    | ifElse _ _ alternate => cases alternate <;> simp [lines] at h
    | _ => simp [lines] at h
  | ifElse test consequent alternate =>
    obtain ⟨consequent', alternate', rfl⟩ : ∃ consequent' alternate',
        t = .ifElse test consequent' alternate' := by
      cases alternate <;> exact exists_ifElse_of_lines (by simpa [lines] using h)
    match alternate, alternate' with
    | none, none =>
      simp only [lines, List.cons_append, List.cons.injEq, true_and] at h
      obtain ⟨rfl, rfl⟩ := eq_of_lines_append consequent consequent' hs ht (fun _ => hls rfl)
        (fun _ => hls' rfl) h
      exact ⟨rfl, rfl⟩
    | none, some alternate' =>
      simp only [lines, List.cons_append, List.append_assoc, List.cons.injEq, true_and] at h
      simp only [settled, Bool.and_eq_true, Bool.not_eq_true'] at ht
      obtain ⟨-, rfl⟩ := eq_of_lines_append consequent consequent' hs ht.2.1 (fun _ => hls rfl)
        (fun hopen => by simp [hopen] at ht) h
      simp [Line.elseAhead_afterElse, isOpen] at hls
    | some alternate, none =>
      simp only [lines, List.cons_append, List.append_assoc, List.cons.injEq, true_and] at h
      simp only [settled, Bool.and_eq_true, Bool.not_eq_true'] at hs
      obtain ⟨-, rfl⟩ := eq_of_lines_append consequent consequent' hs.2.1 ht
        (fun hopen => by simp [hopen] at hs) (fun _ => hls' rfl) h
      simp [Line.elseAhead_afterElse, isOpen] at hls'
    | some alternate, some alternate' =>
      simp only [lines, List.cons_append, List.append_assoc, List.cons.injEq, true_and] at h
      simp only [settled, Bool.and_eq_true, Bool.not_eq_true'] at hs ht
      obtain ⟨rfl, helse⟩ := eq_of_lines_append consequent consequent' hs.2.1 ht.2.1
        (fun hopen => by simp [hopen] at hs) (fun hopen => by simp [hopen] at ht) h
      rw [← Line.afterElse_append alternate.lines_ne_nil,
        ← Line.afterElse_append alternate'.lines_ne_nil] at helse
      have hlines := Line.afterElse_inj (elseAhead_lines _ _) (elseAhead_lines _ _) helse
      obtain ⟨rfl, rfl⟩ := eq_of_lines_append alternate alternate' hs.2.2 ht.2.2 hls hls' hlines
      exact ⟨rfl, rfl⟩
  | whileLoop test body =>
    cases t with
    | whileLoop test' body' =>
      simp only [lines, List.cons_append, List.cons.injEq, Line.loop.injEq] at h
      obtain ⟨rfl, h⟩ := h
      obtain ⟨rfl, rfl⟩ := eq_of_lines_append body body' hs ht hls hls' h
      exact ⟨rfl, rfl⟩
    | ifElse _ _ alternate => cases alternate <;> simp [lines] at h
    | _ => simp [lines] at h
  | _ =>
    cases t with
    | ifElse _ _ alternate => cases alternate <;> simp [lines] at h
    | _ => simp_all [lines]

theorem eq_of_linesOf_append (ss ts : List Stmt) (hs : settledAll ss = true)
    (ht : settledAll ts = true) {ls ls' : List Line}
    (h : linesOf ss ++ .closing :: ls = linesOf ts ++ .closing :: ls') : ss = ts ∧ ls = ls' := by
  have hclosing : ∀ (s : Stmt) (ls ls' : List Line), .closing :: ls ≠ s.lines ++ ls' := by
    intro s ls ls'
    fun_cases lines s <;> simp
  have helse : ∀ (ss : List Stmt) (ls : List Line),
      Line.elseAhead (linesOf ss ++ .closing :: ls) = false := by
    intro ss ls
    cases ss with
    | nil => rfl
    | cons s ss => simpa [linesOf] using elseAhead_lines s _
  match ss, ts with
  | [], [] =>
    simp only [linesOf, List.nil_append, List.cons.injEq, true_and] at h
    exact ⟨rfl, h⟩
  | [], t :: ts => exact absurd (by simpa [linesOf] using h) (hclosing t ls _)
  | s :: ss, [] => exact absurd (by simpa [linesOf] using h.symm) (hclosing s ls' _)
  | s :: ss, t :: ts =>
    simp only [linesOf, List.append_assoc] at h
    simp only [settledAll, Bool.and_eq_true] at hs ht
    obtain ⟨rfl, hrest⟩ := eq_of_lines_append s t hs.1 ht.1 (fun _ => helse ss ls)
      (fun _ => helse ts ls') h
    obtain ⟨rfl, rfl⟩ := eq_of_linesOf_append ss ts hs.2 ht.2 hrest
    exact ⟨rfl, rfl⟩

end

theorem eq_of_lines {s t : Stmt} (hs : s.settled = true) (ht : t.settled = true)
    (h : s.lines = t.lines) : s = t := by
  have hlines : s.lines ++ [] = t.lines ++ [] := by rw [h]
  exact (eq_of_lines_append s t hs ht (fun _ => rfl) (fun _ => rfl) hlines).1

/-- Two statements have the same lines exactly when they are regrouped into
the same statement. -/
theorem lines_eq_iff {s t : Stmt} : s.lines = t.lines ↔ s.regrouped = t.regrouped := by
  constructor
  · intro h
    apply eq_of_lines s.settled_regrouped t.settled_regrouped
    rw [lines_regrouped, lines_regrouped, h]
  · intro h
    rw [← lines_regrouped s, h, lines_regrouped t]

theorem regrouped_of_settled {s : Stmt} (h : s.settled = true) : s.regrouped = s :=
  eq_of_lines s.settled_regrouped h s.lines_regrouped

theorem regrouped_eq_self_iff {s : Stmt} : s.regrouped = s ↔ s.settled = true := by
  refine ⟨fun h => ?_, regrouped_of_settled⟩
  rw [← h]
  exact s.settled_regrouped

end Stmt

end Recast
