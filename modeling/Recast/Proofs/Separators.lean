-- Where a text is taken apart. A semicolon in a literal or in a comment ends
-- nothing, and a comma separates nothing if it stands in brackets. Expressions
-- and types have no separators of their own, so a row of them is taken apart
-- at the commas that were put between them.
import Recast.Proofs.Statements

namespace Recast

namespace CSharp

/-! ## Reading character by character -/

/-- What the next character belongs to. -/
inductive Mode
  | code
  /-- Behind a slash, which may start a comment. -/
  | slash
  | quoted (quote : Char)
  /-- Behind a backslash in a literal. -/
  | escaped (quote : Char)
  | comment
  /-- Behind a star, which may end the comment. -/
  | star
deriving DecidableEq

namespace Mode

def isCode : Mode → Bool
  | .code | .slash => true
  | .quoted _ | .escaped _ | .comment | .star => false

/-- Behind a character that is no part of a literal or of a comment. -/
def afterCode (c : Char) : Mode :=
  if c = '\x22' ∨ c = '\x27' then .quoted c else if c = '/' then .slash else .code

def step : Mode → Char → Mode
  | .code, c => afterCode c
  | .slash, c => if c = '*' then .comment else afterCode c
  | .quoted quote, c =>
    if c = '\\' then .escaped quote else if c = quote then .code else .quoted quote
  | .escaped quote, _ => .quoted quote
  | .comment, c => if c = '*' then .star else .comment
  | .star, c => if c = '/' then .code else if c = '*' then .star else .comment

end Mode

/-- A place in a text. Angle brackets are counted outside of round ones alone: in
round brackets they may be signs of comparisons. -/
structure Cursor where
  mode : Mode
  round : Nat
  angle : Nat
deriving DecidableEq

namespace Cursor

/-- The place stands in no brackets. -/
def isTop (k : Cursor) : Bool := k.mode.isCode && k.round == 0 && k.angle == 0

def stepRound (k : Cursor) (c : Char) : Nat :=
  if c == '(' && k.mode.isCode then k.round + 1
  else if c == ')' && k.mode.isCode then k.round - 1
  else k.round

def stepAngle (k : Cursor) (c : Char) : Nat :=
  if c == '<' && k.mode.isCode && k.round == 0 then k.angle + 1
  else if c == '>' && k.mode.isCode && k.round == 0 then k.angle - 1
  else k.angle

def step (k : Cursor) (c : Char) : Cursor := ⟨k.mode.step c, k.stepRound c, k.stepAngle c⟩

/-- The character ends a part of the text. -/
def separates (k : Cursor) (c : Char) : Bool :=
  k.mode.isCode && (c == ';' || (c == ',' && k.round == 0 && k.angle == 0))

/-- The place behind a character, unless that is a separator. -/
def pass (k : Cursor) (c : Char) : Option Cursor := if k.separates c then none else some (k.step c)

/-- The place behind characters without a separator among them. -/
def passAll (k : Cursor) (cs : List Char) : Option Cursor := cs.foldlM pass k

theorem passAll_cons (k : Cursor) (c : Char) (cs : List Char) :
    k.passAll (c :: cs) = (k.pass c).bind (·.passAll cs) := List.foldlM_cons

theorem passAll_append (k : Cursor) (cs ds : List Char) :
    k.passAll (cs ++ ds) = (k.passAll cs).bind (·.passAll ds) := List.foldlM_append

/-- The first character is no separator, and neither are those behind it. -/
theorem passAll_cons_eq_some {k k' : Cursor} {c : Char} {cs : List Char} :
    k.passAll (c :: cs) = some k' ↔ k.separates c = false ∧ (k.step c).passAll cs = some k' := by
  rw [passAll_cons, pass]
  cases k.separates c <;> simp

end Cursor

/-- The place outside of all brackets. -/
def Cursor.start : Cursor := ⟨.code, 0, 0⟩

/-- The text before the first semicolon that counts. -/
def beforeSemicolon : Cursor → List Char → Option (List Char)
  | _, [] => none
  | k, c :: cs =>
    if c = ';' ∧ k.mode.isCode = true then some []
    else (beforeSemicolon (k.step c) cs).map (c :: ·)

/-- The parts of a text between the commas that stand in no brackets. -/
def commaParts : Cursor → List Char → List (List Char)
  | _, [] => [[]]
  | k, c :: cs =>
    if c = ',' ∧ k.isTop = true then [] :: commaParts (k.step c) cs
    else (commaParts (k.step c) cs).modifyHead (c :: ·)

/-- The characters that stand in no brackets, literals or comments. -/
def outline : Cursor → List Char → List Char
  | _, [] => []
  | k, c :: cs => if k.isTop then c :: outline (k.step c) cs else outline (k.step c) cs

section

variable {k k' : Cursor} {cs : List Char}

theorem beforeSemicolon_append (h : k.passAll cs = some k') (rest : List Char) :
    beforeSemicolon k (cs ++ rest) = (beforeSemicolon k' rest).map (cs ++ ·) := by
  induction cs generalizing k with
  | nil =>
    obtain rfl := Option.some.inj h
    simp
  | cons c cs ih =>
    obtain ⟨hc, hcs⟩ := Cursor.passAll_cons_eq_some.mp h
    have hnot : ¬(c = ';' ∧ k.mode.isCode = true) := by
      rintro ⟨rfl, hcode⟩
      simp [Cursor.separates, hcode] at hc
    rw [List.cons_append, beforeSemicolon, if_neg hnot, ih hcs, Option.map_map]
    rfl

theorem commaParts_append (h : k.passAll cs = some k') (rest : List Char) :
    commaParts k (cs ++ rest) = (commaParts k' rest).modifyHead (cs ++ ·) := by
  induction cs generalizing k with
  | nil =>
    obtain rfl := Option.some.inj h
    exact (congrFun List.modifyHead_id _).symm
  | cons c cs ih =>
    obtain ⟨hc, hcs⟩ := Cursor.passAll_cons_eq_some.mp h
    have hnot : ¬(c = ',' ∧ k.isTop = true) := by
      rintro ⟨rfl, htop⟩
      simp only [Cursor.isTop, Bool.and_eq_true] at htop
      simp [Cursor.separates, htop] at hc
    rw [List.cons_append, commaParts, if_neg hnot, ih hcs, List.modifyHead_modifyHead]
    rfl

theorem outline_append (h : k.passAll cs = some k') (rest : List Char) :
    outline k (cs ++ rest) = outline k cs ++ outline k' rest := by
  induction cs generalizing k with
  | nil =>
    obtain rfl := Option.some.inj h
    rfl
  | cons c cs ih =>
    obtain ⟨-, hcs⟩ := Cursor.passAll_cons_eq_some.mp h
    rw [List.cons_append, outline, outline, ih hcs]
    split <;> rfl

end

/-! ## Texts without separators -/

/-- The text has no separator on the way from one place to the other. -/
def Leads (k : Cursor) (s : String) (k' : Cursor) : Prop := k.passAll s.toList = some k'

/-- The text has no separator, in round brackets or outside of all brackets, and the place
behind it is the place before it. -/
def Level (s : String) : Prop := ∀ round, Leads ⟨.code, round, 0⟩ s ⟨.code, round, 0⟩

/-- The same for a text that stands in round brackets. -/
def Inner (s : String) : Prop := ∀ round, Leads ⟨.code, round + 1, 0⟩ s ⟨.code, round + 1, 0⟩

theorem Leads.append {k k' k'' : Cursor} {s t : String} (hs : Leads k s k') (ht : Leads k' t k'') :
    Leads k (s ++ t) k'' := by
  unfold Leads at *
  rw [String.toList_append, Cursor.passAll_append, hs, Option.bind_some, ht]

section

variable {s t : String}

/-- The text outside of all brackets. -/
theorem Level.passAll (h : Level s) : Cursor.start.passAll s.toList = some .start := h 0

theorem Level.inner (h : Level s) : Inner s := fun round => h (round + 1)

theorem Level.append (hs : Level s) (ht : Level t) : Level (s ++ t) :=
  fun round => (hs round).append (ht round)

theorem Inner.append (hs : Inner s) (ht : Inner t) : Inner (s ++ t) :=
  fun round => (hs round).append (ht round)

theorem leads_open (round : Nat) : Leads ⟨.code, round, 0⟩ "(" ⟨.code, round + 1, 0⟩ := rfl

theorem leads_close (round : Nat) : Leads ⟨.code, round + 1, 0⟩ ")" ⟨.code, round, 0⟩ := rfl

/-- Something in round brackets behind a text. -/
theorem Level.applied (hs : Level s) (ht : Inner t) : Level (s ++ "(" ++ t ++ ")") :=
  fun round => (((hs round).append (leads_open round)).append (ht round)).append (leads_close round)

end

/-- The characters that say where the separators of a text stand. -/
def marks : List Char := ['\x22', '\x27', '/', ';', ',', '(', ')', '<', '>']

def inert (c : Char) : Bool := !marks.contains c

theorem all_inert {p : Char → Bool} (hp : marks.any p = false) {cs : List Char}
    (h : cs.all p = true) : cs.all inert = true := by
  rw [List.all_eq_true] at h ⊢
  intro c hc
  unfold inert
  cases hmark : marks.contains c with
  | false => rfl
  | true =>
    have hmem : c ∈ marks := by simpa using hmark
    exact absurd (h c hc) (List.any_eq_false.mp hp c hmem)

theorem separates_inert {c : Char} (h : inert c = true) (k : Cursor) : k.separates c = false := by
  simp only [inert, marks, Bool.not_eq_true', List.contains_eq_mem, List.mem_cons, List.not_mem_nil,
    or_false, decide_eq_false_iff_not, not_or] at h
  simp [Cursor.separates, h]

theorem step_inert {c : Char} (h : inert c = true) (round angle : Nat) :
    (⟨.code, round, angle⟩ : Cursor).step c = ⟨.code, round, angle⟩ := by
  simp only [inert, marks, Bool.not_eq_true', List.contains_eq_mem, List.mem_cons, List.not_mem_nil,
    or_false, decide_eq_false_iff_not, not_or] at h
  simp [Cursor.step, Cursor.stepRound, Cursor.stepAngle, Mode.step, Mode.afterCode, h]

theorem passAll_inert {cs : List Char} (h : cs.all inert = true) (round angle : Nat) :
    (⟨.code, round, angle⟩ : Cursor).passAll cs = some ⟨.code, round, angle⟩ := by
  induction cs with
  | nil => rfl
  | cons c cs ih =>
    rw [List.all_cons, Bool.and_eq_true] at h
    rw [Cursor.passAll_cons_eq_some, step_inert h.1]
    exact ⟨separates_inert h.1 _, ih h.2⟩

theorem Level.inert {s : String} (h : s.toList.all inert = true) : Level s :=
  fun round => passAll_inert h round 0

/-- Outside of brackets all characters are seen. -/
theorem outline_inert {cs : List Char} (h : cs.all inert = true) (rest : List Char) :
    outline .start (cs ++ rest) = cs ++ outline .start rest := by
  induction cs with
  | nil => rfl
  | cons c cs ih =>
    rw [List.all_cons, Bool.and_eq_true] at h
    have hstep : Cursor.start.step c = .start := step_inert h.1 0 0
    have htop : Cursor.start.isTop = true := rfl
    rw [List.cons_append, outline, if_pos htop, hstep, ih h.2]
    rfl

theorem all_inert_name {name : String} (h : isName name = true) : name.toList.all inert = true :=
  all_inert (by decide) (all_inWord_of_isWord (isWord_of_isName h))

theorem all_inert_dotted {name : String} (h : isDottedName name = true) :
    name.toList.all inert = true :=
  all_inert (by decide) (all_inDotted_of_isDottedName h)

/-! ## Literals and comments -/

/-- In a literal or in a comment nothing is counted. -/
theorem pass_hidden {mode : Mode} (h : mode.isCode = false) (round angle : Nat) (c : Char) :
    (⟨mode, round, angle⟩ : Cursor).pass c = some ⟨mode.step c, round, angle⟩ := by
  simp [Cursor.pass, Cursor.separates, Cursor.step, Cursor.stepRound, Cursor.stepAngle, h]

/-- A literal ends with its quote. -/
theorem Spells.passAll {quote : Char} {body s : List Char} (h : Spells quote body s)
    (hquote : quote ≠ '\\') (round angle : Nat) :
    (⟨.quoted quote, round, angle⟩ : Cursor).passAll (body ++ [quote]) =
      some ⟨.code, round, angle⟩ := by
  induction h with
  | nil =>
    rw [List.nil_append, Cursor.passAll_cons, pass_hidden rfl, Mode.step, if_neg hquote, if_pos rfl]
    rfl
  | plain hbackslash hother _ ih =>
    rw [List.cons_append, Cursor.passAll_cons, pass_hidden rfl, Mode.step, if_neg hbackslash,
      if_neg hother, Option.bind_some, ih]
  | escape _ _ ih =>
    rw [List.cons_append, List.cons_append, Cursor.passAll_cons, pass_hidden rfl, Mode.step,
      if_pos rfl, Option.bind_some, Cursor.passAll_cons, pass_hidden rfl, Mode.step,
      Option.bind_some, ih]

theorem level_quoted {quote : Char} {mark body : String} {s : List Char}
    (hopen : ∀ round, Leads ⟨.code, round, 0⟩ mark ⟨.quoted quote, round, 0⟩)
    (hmark : mark.toList = [quote]) (hquote : quote ≠ '\\') (h : Spells quote body.toList s) :
    Level (mark ++ body ++ mark) := by
  intro round
  rw [String.append_assoc]
  refine (hopen round).append ?_
  rw [Leads, String.toList_append, hmark]
  exact h.passAll hquote round 0

theorem level_literalText (v : Literal) : Level (literalText v) := by
  cases v with
  | null => exact .inert (by decide)
  | bool b => cases b <;> exact .inert (by decide)
  | int n =>
    have hdigits := Level.inert (all_inert (by decide) (Text.all_isDigit_repr n.toInt.natAbs))
    rw [literalText, intText]
    split
    · exact Level.append (.inert (by decide)) hdigits
    · exact hdigits
  | float x => exact .inert (all_inert (by decide) (all_inDouble_text x))
  | char c => exact level_quoted (fun _ => rfl) rfl (by decide) (spells_escapeChar c)
  | string s => exact level_quoted (fun _ => rfl) rfl (by decide) (spells_escapeString s)

/-- The text ends a comment in which it stands. -/
def closesComment : List Char → Bool
  | [] => false
  | c :: cs => (c == '*' && Text.startsWith (· == '/') cs) || closesComment cs

theorem closesComment_of_not_mem {cs : List Char} (h : '*' ∉ cs) : closesComment cs = false := by
  induction cs with
  | nil => rfl
  | cons c cs ih =>
    rw [List.mem_cons, not_or] at h
    simp [closesComment, ih h.2, Ne.symm h.1]

/-- Behind a star the comment goes on as long as no slash follows. -/
theorem passAll_comment {mode : Mode} {cs : List Char} (h : closesComment cs = false)
    (hmode : mode = .comment ∨ mode = .star ∧ Text.startsWith (· == '/') cs = false)
    (round angle : Nat) : ∃ mode', (mode' = .comment ∨ mode' = .star) ∧
      (⟨mode, round, angle⟩ : Cursor).passAll cs = some ⟨mode', round, angle⟩ := by
  induction cs generalizing mode with
  | nil => exact ⟨mode, hmode.imp_right And.left, rfl⟩
  | cons c cs ih =>
    rw [closesComment, Bool.or_eq_false_iff] at h
    have hidden : mode.isCode = false := by
      rcases hmode with rfl | ⟨rfl, -⟩ <;> rfl
    have hstep : mode.step c = .comment ∨
        mode.step c = .star ∧ Text.startsWith (· == '/') cs = false := by
      rcases hmode with rfl | ⟨rfl, hslash⟩
      · by_cases hc : c = '*' <;> simp_all [Mode.step]
      · by_cases hc : c = '*' <;> simp_all [Mode.step]
    rw [Cursor.passAll_cons, pass_hidden hidden, Option.bind_some]
    exact ih h.2 hstep

/-- A comment behind a text, with a note in it that does not end it. -/
theorem level_comment {front note : String}
    (hfront : ∀ round, Leads ⟨.code, round, 0⟩ front ⟨.comment, round, 0⟩)
    (hnote : closesComment note.toList = false) : Level (front ++ note ++ " */") := by
  intro round
  obtain ⟨mode, hmode, hpass⟩ := passAll_comment hnote (.inl rfl) round 0
  refine ((hfront round).append hpass).append ?_
  rcases hmode with rfl | rfl <;> rfl

/-! ## Types -/

theorem mem_dimsText {c : Char} {dims : UInt8} (h : c ∈ (dimsText dims).toList) :
    c ∈ ['[', ']'] := by
  simp only [dimsText, String.toList_join, List.mem_flatMap, List.mem_replicate] at h
  obtain ⟨text, ⟨-, rfl⟩, hc⟩ := h
  exact hc

theorem all_inert_dimsText (dims : UInt8) : (dimsText dims).toList.all inert = true := by
  have hinert : ['[', ']'].all inert = true := by decide
  rw [List.all_eq_true] at hinert ⊢
  exact fun c hc => hinert c (mem_dimsText hc)

/-- The text stands in brackets all along, so that nothing of it is seen from outside. -/
structure Hides (k : Cursor) (s : String) (k' : Cursor) : Prop where
  leads : Leads k s k'
  outline : outline k s.toList = []

theorem Hides.append {k k' k'' : Cursor} {s t : String} (hs : Hides k s k') (ht : Hides k' t k'') :
    Hides k (s ++ t) k'' := by
  refine ⟨hs.leads.append ht.leads, ?_⟩
  rw [String.toList_append, outline_append hs.leads, hs.outline, ht.outline]
  rfl

theorem Hides.inert {s : String} (h : s.toList.all inert = true) {round angle : Nat}
    (hin : 0 < round ∨ 0 < angle) : Hides ⟨.code, round, angle⟩ s ⟨.code, round, angle⟩ := by
  refine ⟨passAll_inert h round angle, ?_⟩
  have htop : (⟨.code, round, angle⟩ : Cursor).isTop = false := by
    simp only [Cursor.isTop, Mode.isCode, Bool.true_and, Bool.and_eq_false_iff, beq_eq_false_iff_ne]
    omega
  generalize s.toList = cs at h
  induction cs with
  | nil => rfl
  | cons c cs ih =>
    rw [List.all_cons, Bool.and_eq_true] at h
    rw [CSharp.outline, htop, step_inert h.1]
    exact ih h.2

/-- The angle brackets around a place behind one that opens. -/
def opened (round angle : Nat) : Nat := if round = 0 then angle + 1 else angle

theorem leads_openAngle (round angle : Nat) :
    Leads ⟨.code, round, angle⟩ "<" ⟨.code, round, opened round angle⟩ := by
  cases round <;> rfl

theorem hides_closeAngle (round angle : Nat) :
    Hides ⟨.code, round, opened round angle⟩ ">" ⟨.code, round, angle⟩ := by
  cases round <;> exact ⟨rfl, rfl⟩

theorem opened_pos (round angle : Nat) : 0 < round ∨ 0 < opened round angle := by
  unfold opened
  split <;> omega

mutual

theorem hides_typeText (t : TypeRef) (h : t.identities.all isDottedName = true)
    {round angle : Nat} (hin : 0 < round ∨ 0 < angle) :
    Hides ⟨.code, round, angle⟩ (typeText t) ⟨.code, round, angle⟩ := by
  obtain ⟨name, args, dims⟩ := t
  simp only [TypeRef.identities, TypeRef.parts, List.map_cons, List.all_cons, Bool.and_eq_true] at h
  rw [typeText]
  refine ((Hides.inert (all_inert_dotted h.1) hin).append ?_).append
    (.inert (all_inert_dimsText dims) hin)
  split
  · exact .inert (by decide) hin
  · have hargs := hides_typeTexts args h.2 (opened_pos round angle)
    have hopen : Hides ⟨.code, round, angle⟩ "<" ⟨.code, round, opened round angle⟩ := by
      refine ⟨leads_openAngle round angle, ?_⟩
      cases round with
      | zero =>
        obtain ⟨angle, rfl⟩ : ∃ n, angle = n + 1 := ⟨angle - 1, by omega⟩
        rfl
      | succ round => rfl
    exact (hopen.append hargs).append (hides_closeAngle round angle)

theorem hides_typeTexts (ts : List TypeRef)
    (h : ((TypeRef.allParts ts).map (·.name)).all isDottedName = true) {round angle : Nat}
    (hin : 0 < round ∨ 0 < angle) :
    Hides ⟨.code, round, angle⟩ (typeTexts ts) ⟨.code, round, angle⟩ := by
  match ts with
  | [] => exact .inert (by decide) hin
  | [t] =>
    simp only [TypeRef.allParts, List.map_append, List.all_append, Bool.and_eq_true] at h
    exact hides_typeText t h.1 hin
  | t :: t' :: ts =>
    rw [TypeRef.allParts, List.map_append, List.all_append, Bool.and_eq_true] at h
    have hcomma : Hides ⟨.code, round, angle⟩ ", " ⟨.code, round, angle⟩ := by
      cases round with
      | zero =>
        obtain ⟨angle, rfl⟩ : ∃ n, angle = n + 1 := ⟨angle - 1, by omega⟩
        exact ⟨rfl, rfl⟩
      | succ round => exact ⟨rfl, rfl⟩
    have hrest := hides_typeTexts (t' :: ts) h.2 hin
    exact ((hides_typeText t h.1 hin).append hcomma).append hrest

end

section

variable {t : TypeRef} (h : t.identities.all isDottedName = true)
include h

theorem level_typeText : Level (typeText t) := by
  intro round
  obtain ⟨name, args, dims⟩ := t
  simp only [TypeRef.identities, TypeRef.parts, List.map_cons, List.all_cons, Bool.and_eq_true] at h
  rw [typeText]
  have hname := Level.inert (all_inert_dotted h.1) round
  refine (hname.append ?_).append (Level.inert (all_inert_dimsText dims) round)
  split
  · rfl
  · have hargs := hides_typeTexts args h.2 (opened_pos round 0)
    exact ((leads_openAngle round 0).append hargs.leads).append (hides_closeAngle round 0).leads

/-- The arguments of a type are not seen from outside. -/
theorem outline_typeText (rest : List Char) : outline .start ((typeText t).toList ++ rest) =
    t.name.toList ++ ((if t.args.isEmpty then [] else ['<']) ++
      ((dimsText t.dims).toList ++ outline .start rest)) := by
  obtain ⟨name, args, dims⟩ := t
  simp only [TypeRef.identities, TypeRef.parts, List.map_cons, List.all_cons, Bool.and_eq_true] at h
  have hargs := (hides_typeTexts args h.2 (opened_pos 0 0)).append (hides_closeAngle 0 0)
  have hsplit : ∀ cs, outline .start (("<" ++ typeTexts args ++ ">").toList ++ cs) =
      '<' :: outline .start cs := by
    intro cs
    have htext : ("<" ++ typeTexts args ++ ">").toList ++ cs =
        '<' :: ((typeTexts args ++ ">").toList ++ cs) := by
      simp
    have hstep : Cursor.start.step '<' = ⟨.code, 0, opened 0 0⟩ := rfl
    have htop : Cursor.start.isTop = true := rfl
    rw [htext, outline, if_pos htop, hstep, outline_append hargs.leads, hargs.outline]
    rfl
  rw [typeText, String.toList_append, String.toList_append, List.append_assoc, List.append_assoc,
    outline_inert (all_inert_dotted h.1)]
  congr 1
  split
  · rw [String.toList_empty, List.nil_append, List.nil_append,
      outline_inert (all_inert_dimsText dims)]
  · rw [hsplit, outline_inert (all_inert_dimsText dims)]
    rfl

end

mutual

/-- What is no part of a name and no mark between names is no part of a type. -/
theorem not_mem_typeText {d : Char} (hd : inDotted d = false)
    (hmark : d ∉ ['<', '>', ',', ' ', '[', ']']) (t : TypeRef)
    (h : t.identities.all isDottedName = true) : d ∉ (typeText t).toList := by
  obtain ⟨name, args, dims⟩ := t
  simp only [TypeRef.identities, TypeRef.parts, List.map_cons, List.all_cons, Bool.and_eq_true] at h
  have hname : d ∉ name.toList := fun hmem => by
    simp [List.all_eq_true.mp (all_inDotted_of_isDottedName h.1) _ hmem] at hd
  have hdims : d ∉ (dimsText dims).toList := fun hmem => hmark (by
    have hmem := mem_dimsText hmem
    simp_all)
  have hargs := not_mem_typeTexts hd hmark args h.2
  simp only [List.mem_cons, List.not_mem_nil, or_false, not_or] at hmark
  simp only [typeText, String.toList_append, List.mem_append, hname, hdims, false_or, or_false]
  split <;> simp [hargs, hmark]

theorem not_mem_typeTexts {d : Char} (hd : inDotted d = false)
    (hmark : d ∉ ['<', '>', ',', ' ', '[', ']']) (ts : List TypeRef)
    (h : ((TypeRef.allParts ts).map (·.name)).all isDottedName = true) :
    d ∉ (typeTexts ts).toList := by
  match ts with
  | [] => simp [typeTexts]
  | [t] =>
    simp only [TypeRef.allParts, List.map_append, List.all_append, Bool.and_eq_true] at h
    exact not_mem_typeText hd hmark t h.1
  | t :: t' :: ts =>
    rw [TypeRef.allParts, List.map_append, List.all_append, Bool.and_eq_true] at h
    have hfirst := not_mem_typeText hd hmark t h.1
    have hrest := not_mem_typeTexts hd hmark (t' :: ts) h.2
    simp only [List.mem_cons, List.not_mem_nil, or_false, not_or] at hmark
    simp [typeTexts, hfirst, hrest, hmark]

end

/-! ## Expressions -/

end CSharp

/-- The names are those of the target language, and a note does not end the comment in
which it stands. -/
def Expr.spelledForm : Expr → Bool
  | .ident name | .field _ name => CSharp.isName name
  | .call _ method _ _ => CSharp.isName method
  | .type ty | .new ty _ | .cast ty _ | .instanceOf _ ty | .anonymousClass ty _ =>
    ty.identities.all CSharp.isDottedName
  | .placeholder note => !CSharp.closesComment note.toList
  | .literal _ | .self | .binary .. | .unary .. | .assign .. | .conditional .. => true

namespace CSharp

open Recast.Expr

/-- Behind a slash comes a blank, so that no sign starts a comment. -/
theorem leads_binarySign (op : BinaryOp) (round : Nat) :
    ∃ k, Leads ⟨.code, round + 1, 0⟩ (binarySign op) k ∧ Leads k " " ⟨.code, round + 1, 0⟩ := by
  cases op <;> exact ⟨_, rfl, rfl⟩

theorem level_unarySign (op : UnaryOp) : Level (unarySign op) := by
  cases op <;> exact .inert (by decide)

mutual

theorem level_exprText (e : Expr) (he : e.all spelledForm = true) : Level (exprText e) := by
  have here := here_of_all he
  cases e with
  | literal v => exact level_literalText v
  | ident name => exact .inert (all_inert_name here)
  | self => exact .inert (by decide)
  | type ty => exact level_typeText here
  | field object name =>
    simp only [all, Bool.and_eq_true] at he
    exact ((level_exprText object he.2).append (.inert (by decide))).append
      (.inert (all_inert_name here))
  | call target method binding args =>
    have hmethod := Level.inert (all_inert_name here)
    cases target with
    | none =>
      simp only [all, Bool.and_eq_true] at he
      exact hmethod.applied (inner_exprTexts args he.2)
    | some target =>
      simp only [all, Bool.and_eq_true] at he
      have htarget := (level_exprText target he.2.1).append (.inert (s := ".") (by decide))
      exact (htarget.append hmethod).applied (inner_exprTexts args he.2.2)
  | new ty args =>
    simp only [all, Bool.and_eq_true] at he
    have htype := Level.append (.inert (s := "new ") (by decide)) (level_typeText here)
    exact htype.applied (inner_exprTexts args he.2)
  | binary left op right =>
    simp only [all, Bool.and_eq_true] at he
    intro round
    obtain ⟨k, hsign, hblank⟩ := leads_binarySign op round
    have hleft := (leads_open round).append (level_exprText left he.2.1 (round + 1))
    have hsign := ((hleft.append (t := " ") rfl).append hsign).append hblank
    exact (hsign.append (level_exprText right he.2.2 (round + 1))).append (leads_close round)
  | unary op operand =>
    simp only [all, Bool.and_eq_true] at he
    exact (level_unarySign op).append (level_exprText operand he.2)
  | assign target value =>
    simp only [all, Bool.and_eq_true] at he
    exact ((level_exprText target he.2.1).append (.inert (by decide))).append
      (level_exprText value he.2.2)
  | conditional test consequent alternate =>
    simp only [all, Bool.and_eq_true] at he
    intro round
    have htest := (leads_open round).append (level_exprText test he.2.1 (round + 1))
    have hfirst := (htest.append (t := " ? ") rfl).append
      (level_exprText consequent he.2.2.1 (round + 1))
    have hsecond := (hfirst.append (t := " : ") rfl).append
      (level_exprText alternate he.2.2.2 (round + 1))
    exact hsecond.append (leads_close round)
  | cast ty operand =>
    simp only [all, Bool.and_eq_true] at he
    intro round
    have hopen : Leads ⟨.code, round, 0⟩ "((" ⟨.code, round + 2, 0⟩ := rfl
    have htype := (hopen.append (level_typeText here (round + 2))).append (leads_close (round + 1))
    exact (htype.append (level_exprText operand he.2 (round + 1))).append (leads_close round)
  | instanceOf operand ty =>
    simp only [all, Bool.and_eq_true] at he
    intro round
    have hoperand := (leads_open round).append (level_exprText operand he.2 (round + 1))
    have htype := (hoperand.append (t := " is ") rfl).append (level_typeText here (round + 1))
    exact htype.append (leads_close round)
  | anonymousClass ty span =>
    exact level_comment (fun _ => rfl)
      (closesComment_of_not_mem (not_mem_typeText (by decide) (by decide) ty here))
  | placeholder note =>
    simp only [spelledForm, Bool.not_eq_true'] at here
    exact level_comment (fun _ => rfl) here

theorem inner_exprTexts (es : List Expr) (hes : allOf spelledForm es = true) :
    Inner (exprTexts es) := by
  match es with
  | [] => exact fun _ => rfl
  | [e] =>
    rw [allOf, Bool.and_eq_true] at hes
    exact (level_exprText e hes.1).inner
  | e :: e' :: es =>
    rw [allOf, Bool.and_eq_true] at hes
    have hcomma : Inner ", " := fun _ => rfl
    exact ((level_exprText e hes.1).inner.append hcomma).append (inner_exprTexts (e' :: es) hes.2)

end

/-! ## Rows of texts -/

theorem beforeSemicolon_joinWith {texts : List String} (h : ∀ text ∈ texts, Level text)
    (rest : List Char) :
    beforeSemicolon .start ((Text.joinWith ", " texts).toList ++ ';' :: rest) =
      some (Text.joinWith ", " texts).toList := by
  match texts with
  | [] => rfl
  | [text] =>
    have hend : beforeSemicolon .start (';' :: rest) = some [] := rfl
    rw [Text.joinWith, beforeSemicolon_append (h text (by simp)).passAll, hend, Option.map_some,
      List.append_nil]
  | text :: text' :: texts =>
    rw [List.forall_mem_cons] at h
    have hrest := beforeSemicolon_joinWith h.2 rest
    have hcomma : ∀ cs, beforeSemicolon .start (',' :: ' ' :: cs) =
        (beforeSemicolon .start cs).map (',' :: ' ' :: ·) := by
      intro cs
      rw [beforeSemicolon, if_neg (by decide), beforeSemicolon, if_neg (by decide), Option.map_map]
      rfl
    have htext : (Text.joinWith ", " (text :: text' :: texts)).toList =
        text.toList ++ ',' :: ' ' :: (Text.joinWith ", " (text' :: texts)).toList := by
      simp [Text.joinWith]
    rw [htext, List.append_assoc, beforeSemicolon_append h.1.passAll, List.cons_append,
      List.cons_append, hcomma, hrest]
    rfl

/-- A row of texts is taken apart again. -/
theorem commaParts_joinWith {text : String} {texts : List String}
    (h : ∀ t ∈ text :: texts, Level t) :
    commaParts .start (Text.joinWith ", " (text :: texts)).toList =
      text.toList :: texts.map (' ' :: ·.toList) := by
  induction texts generalizing text with
  | nil =>
    have hparts := commaParts_append (h text (by simp)).passAll []
    rw [List.append_nil] at hparts
    rw [Text.joinWith]
    refine hparts.trans ?_
    simp [commaParts]
  | cons text' texts ih =>
    rw [List.forall_mem_cons] at h
    have hcomma : ∀ cs, commaParts .start (',' :: ' ' :: cs) =
        [] :: (commaParts .start cs).modifyHead (' ' :: ·) := by
      intro cs
      rw [commaParts, if_pos (by decide), commaParts, if_neg (by decide)]
      rfl
    have htext : (Text.joinWith ", " (text :: text' :: texts)).toList =
        text.toList ++ ',' :: ' ' :: (Text.joinWith ", " (text' :: texts)).toList := by
      simp [Text.joinWith]
    rw [htext]
    refine (commaParts_append h.1.passAll _).trans ?_
    rw [hcomma, ih h.2]
    simp

/-- Rows of texts are told apart by what they come to with commas between the texts. -/
theorem joinWith_inj {texts texts' : List String} (hne : texts ≠ []) (hne' : texts' ≠ [])
    (h : ∀ t ∈ texts, Level t) (h' : ∀ t ∈ texts', Level t)
    (heq : Text.joinWith ", " texts = Text.joinWith ", " texts') : texts = texts' := by
  obtain ⟨text, texts, rfl⟩ := List.exists_cons_of_ne_nil hne
  obtain ⟨text', texts', rfl⟩ := List.exists_cons_of_ne_nil hne'
  have hparts := commaParts_joinWith h
  rw [heq, commaParts_joinWith h'] at hparts
  obtain ⟨hfirst, hrest⟩ := List.cons.inj hparts
  have hinj : ∀ t t' : String, ' ' :: t.toList = ' ' :: t'.toList → t = t' :=
    fun t t' ht => String.toList_inj.mp (List.cons.inj ht).2
  rw [String.toList_inj.mp hfirst, (List.map_inj_right hinj).mp hrest]

end CSharp

end Recast
