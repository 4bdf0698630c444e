-- Expressions are read back from their texts. What is read is the expression
-- as its text groups it: an operand is read first, and then what follows it
-- is put where the text puts it.
import Recast.Proofs.Fronts

namespace Recast

/-! ## What follows an operand -/

namespace Expr

/-- Accesses, and a value that is assigned. -/
inductive Tail
  | done
  | access (a : Access) (tail : Tail)
  | value (e : Expr)

/-- The expression with all that follows it. -/
def followed : Expr → Tail → Expr
  | e, .done => e
  | e, .access a tail => (e.onLast a).followed tail
  | e, .value v => e.assigned v

theorem signed_followed (op : UnaryOp) (e : Expr) (tail : Tail) :
    (e.followed tail).signed op = (e.signed op).followed tail := by
  fun_induction followed e tail with
  | case1 e => rfl
  | case2 e a tail ih => rw [ih, signed_onLast, followed]
  | case3 e v => rw [signed_assigned, followed]

theorem assigned_followed (target e : Expr) (tail : Tail) :
    target.assigned (e.followed tail) = (target.assigned e).followed tail := by
  fun_induction followed e tail with
  | case1 e => rfl
  | case2 e a tail ih => rw [ih, assigned_onLast, followed]
  | case3 e v => rw [assigned_assigned, followed]

end Expr

namespace CSharp

open Recast.Expr

/-! ## The reader -/

def readSign : List Char → Option (UnaryOp × List Char)
  | '-' :: cs => if Text.startsWith Char.isDigit cs then none else some (.neg, cs)
  | '!' :: cs => some (.not, cs)
  | '~' :: cs => some (.bitNot, cs)
  | _ => none

def binaryOps : List BinaryOp :=
  [.add, .sub, .mul, .div, .mod, .eq, .ne, .lt, .le, .gt, .ge, .and, .or, .bitAnd, .bitOr, .bitXor,
    .shl, .shr]

/-- The sign at the front, up to the blank behind it. -/
def readBinary (cs : List Char) : Option (BinaryOp × List Char) := do
  let op ← binaryOps.find? fun op => (binarySign op).toList == cs.takeWhile (· != ' ')
  match cs.dropWhile (· != ' ') with
  | ' ' :: rest => some (op, rest)
  | _ => none

mutual

/-- The expression at the front of a text, in so many steps. -/
def readExpr : Nat → List Char → Option (Expr × List Char)
  | 0, _ => none
  | n + 1, cs =>
    match readSign cs with
    | some (op, cs) => do
      let (e, rest) ← readExpr n cs
      some (e.signed op, rest)
    | none => do
      let (e, rest) ← readHead n cs
      let (tail, rest) ← readTail n rest
      some (e.followed tail, rest)

/-- The operand at the front, without what follows it. -/
def readHead : Nat → List Char → Option (Expr × List Char)
  | 0, _ => none
  | n + 1, '(' :: cs => if castAhead cs then readCast n cs else readBracket n cs
  | n + 1, cs =>
    match readLiteral cs with
    | some (v, rest) => some (.literal v, rest)
    | none => readWord n (String.ofList (cs.takeWhile inWord)) (cs.dropWhile inWord)

/-- What a word starts. -/
def readWord : Nat → String → List Char → Option (Expr × List Char)
  | 0, _, _ => none
  | n + 1, word, cs =>
    if word = "this" then some (.self, cs)
    else if word = "new" then do
      match ← readType n (cs.drop 1) with
      | (ty, '(' :: rest) =>
        let (args, rest) ← readArgs n rest
        some (.new ty args, rest)
      | _ => none
    else
      match cs with
      | '(' :: rest => do
        let (args, rest) ← readArgs n rest
        some (.call none word none args, rest)
      | rest => some (.ident word, rest)

/-- A cast, behind its first bracket. -/
def readCast : Nat → List Char → Option (Expr × List Char)
  | 0, _ => none
  | n + 1, cs => do
    match ← readType n (cs.drop 1) with
    | (ty, ')' :: rest) =>
      match ← readExpr n rest with
      | (e, ')' :: rest) => some (.cast ty e, rest)
      | _ => none
    | _ => none

/-- An instance test, a conditional or two operands, behind the bracket. -/
def readBracket : Nat → List Char → Option (Expr × List Char)
  | 0, _ => none
  | n + 1, cs => do
    match ← readExpr n cs with
    | (e, ' ' :: 'i' :: 's' :: ' ' :: rest) =>
      match ← readType n rest with
      | (ty, ')' :: rest) => some (.instanceOf e ty, rest)
      | _ => none
    | (e, ' ' :: '?' :: ' ' :: rest) =>
      match ← readExpr n rest with
      | (consequent, ' ' :: ':' :: ' ' :: rest) =>
        match ← readExpr n rest with
        | (alternate, ')' :: rest) => some (.conditional e consequent alternate, rest)
        | _ => none
      | _ => none
    | (e, rest) =>
      let (op, rest) ← readBinary (rest.drop 1)
      match ← readExpr n rest with
      | (right, ')' :: rest) => some (.binary e op right, rest)
      | _ => none

/-- Arguments, behind the opening bracket and up to the closing one. -/
def readArgs : Nat → List Char → Option (List Expr × List Char)
  | 0, _ => none
  | _ + 1, ')' :: rest => some ([], rest)
  | n + 1, cs => readExprs n cs

def readExprs : Nat → List Char → Option (List Expr × List Char)
  | 0, _ => none
  | n + 1, cs => do
    match ← readExpr n cs with
    | (e, ',' :: ' ' :: rest) =>
      let (es, rest) ← readExprs n rest
      some (e :: es, rest)
    | (e, ')' :: rest) => some ([e], rest)
    | _ => none

/-- What follows an operand. -/
def readTail : Nat → List Char → Option (Tail × List Char)
  | 0, _ => none
  | n + 1, '.' :: cs => do
    let (a, rest) ← readAccess n (String.ofList (cs.takeWhile inWord)) (cs.dropWhile inWord)
    let (tail, rest) ← readTail n rest
    some (.access a tail, rest)
  | n + 1, ' ' :: '=' :: ' ' :: cs => do
    let (e, rest) ← readExpr n cs
    some (.value e, rest)
  | _ + 1, cs => some (.done, cs)

def readAccess : Nat → String → List Char → Option (Access × List Char)
  | 0, _, _ => none
  | n + 1, word, '(' :: rest => do
    let (args, rest) ← readArgs n rest
    some (.call word none args, rest)
  | _ + 1, word, rest => some (.field word, rest)

end

/-! ## Reading what follows -/

/-- A character that would become a part of the name before it, or make a
call of it. -/
def joins (c : Char) : Bool := inWord c || c == '('

theorem not_inWord_of_not_joins {rest : List Char} (h : Text.startsWith joins rest = false) :
    Text.startsWith inWord rest = false :=
  Text.startsWith_mono (fun c hc => by simp [joins, hc]) h

theorem ne_bracket_of_not_joins {rest : List Char} (h : Text.startsWith joins rest = false)
    (cs : List Char) : rest ≠ '(' :: cs := by
  rintro rfl
  simp [joins] at h

/-- An operand that has been read is continued to an expression by what
follows it in the text. -/
def Continues (e : Expr) (cs : List Char) (r : Expr × List Char) : Prop :=
  ∃ tail, r.1 = e.followed tail ∧ Text.Reads readTail cs (tail, r.2)

section

variable {e value : Expr} {cs rest : List Char} {r : Expr × List Char} {name : String}

theorem continues_done (hdot : ∀ cs, rest ≠ '.' :: cs)
    (hequals : ∀ cs, rest ≠ ' ' :: '=' :: ' ' :: cs) : Continues e rest (e, rest) := by
  refine ⟨.done, rfl, Text.Reads.of_step ⟨0, fun n _ => ?_⟩⟩
  rw [readTail.eq_4 rest n hdot hequals]

theorem continues_field (hname : isName name = true) (hrest : Text.startsWith joins rest = false)
    (h : Continues (e.onLast (.field name)) rest r) :
    Continues e ('.' :: (name.toList ++ rest)) r := by
  have hword := not_inWord_of_not_joins hrest
  obtain ⟨tail, hr, m, htail⟩ := h
  refine ⟨.access (.field name) tail, hr, Text.Reads.of_step ⟨m + 1, fun n hn => ?_⟩⟩
  obtain ⟨n, rfl⟩ : ∃ k, n = k + 1 := ⟨n - 1, by omega⟩
  rw [readTail, takeWhile_name hname hword, dropWhile_name hname hword, String.ofList_toList,
    readAccess.eq_3 name rest n (ne_bracket_of_not_joins hrest)]
  simp [htail (n + 1) (by omega)]

theorem continues_call {args : List Expr} (hname : isName name = true)
    (hargs : Text.Reads readArgs cs (args, rest))
    (h : Continues (e.onLast (.call name none args)) rest r) :
    Continues e ('.' :: (name.toList ++ '(' :: cs)) r := by
  obtain ⟨m, hargs⟩ := hargs
  obtain ⟨tail, hr, m', htail⟩ := h
  refine ⟨.access (.call name none args) tail, hr,
    Text.Reads.of_step ⟨max m m' + 1, fun n hn => ?_⟩⟩
  obtain ⟨n, rfl⟩ : ∃ k, n = k + 1 := ⟨n - 1, by omega⟩
  rw [readTail, takeWhile_name hname rfl, dropWhile_name hname rfl, String.ofList_toList,
    readAccess, hargs n (by omega)]
  simp [htail (n + 1) (by omega)]

theorem continues_assign (hvalue : ∀ r, Continues value rest r → Text.Reads readExpr cs r)
    (h : Continues (e.assigned value) rest r) : Continues e (' ' :: '=' :: ' ' :: cs) r := by
  obtain ⟨tail, hr, htail⟩ := h
  obtain ⟨m, hread⟩ := hvalue (value.followed tail, r.2) ⟨tail, rfl, htail⟩
  refine ⟨.value (value.followed tail), ?_, Text.Reads.of_step ⟨m, fun n hn => ?_⟩⟩
  · rw [hr, followed, assigned_followed]
  · rw [readTail, hread n hn]
    rfl

theorem readExpr_sign {op : UnaryOp} {cs' : List Char} (hsign : readSign cs' = some (op, cs))
    (he : ∀ r, Continues e rest r → Text.Reads readExpr cs r)
    (h : Continues (e.signed op) rest r) : Text.Reads readExpr cs' r := by
  obtain ⟨tail, hr, htail⟩ := h
  obtain ⟨m, hread⟩ := he (e.followed tail, r.2) ⟨tail, rfl, htail⟩
  refine Text.Reads.of_step ⟨m, fun n hn => ?_⟩
  rw [readExpr, hsign]
  simp only [hread n hn, Option.bind_eq_bind, Option.bind_some, signed_followed, ← hr]

theorem readExpr_head (hsign : readSign cs = none) (hhead : Text.Reads readHead cs (e, rest))
    (h : Continues e rest r) : Text.Reads readExpr cs r := by
  obtain ⟨tail, hr, m, htail⟩ := h
  obtain ⟨m', hhead⟩ := hhead
  refine Text.Reads.of_step ⟨max m m', fun n hn => ?_⟩
  rw [readExpr, hsign]
  simp only [hhead n (by omega), htail n (by omega), Option.bind_eq_bind, Option.bind_some, ← hr]

end

/-! ## Reading operands -/

theorem readSign_word {s : String} (h : isWord s = true) (rest : List Char) :
    readSign (s.toList ++ rest) = none := by
  obtain ⟨c, cs, hs, hc, -⟩ := exists_of_isWord h
  rw [hs, List.cons_append]
  unfold readSign
  split
  case h_4 => rfl
  all_goals
    rename_i heq
    obtain rfl := (List.cons.inj heq).1
    exact absurd hc (by decide)

theorem readSign_literalText {v : Literal} (hv : ∀ x, v ≠ .float x) (rest : List Char) :
    readSign ((literalText v).toList ++ rest) = none := by
  cases v with
  | null => exact readSign_word (by decide) rest
  | bool b =>
    cases b with
    | true => exact readSign_word (by decide) rest
    | false => exact readSign_word (by decide) rest
  | int n =>
    obtain ⟨c, cs, htext, hc⟩ := exists_intText n.toInt
    rw [literalText, htext, List.cons_append]
    rcases hc with hc | ⟨rfl, hcs⟩
    · unfold readSign
      split
      case h_4 => rfl
      all_goals
        rename_i heq
        obtain rfl := (List.cons.inj heq).1
        exact absurd hc (by decide)
    · rw [readSign, Text.startsWith_append rest hcs, if_pos rfl]
  | float x => exact absurd rfl (hv x)
  | char c =>
    rw [literalText, charText, String.toList_append, String.toList_append]
    rfl
  | string s =>
    rw [literalText, stringText, String.toList_append, String.toList_append]
    rfl

theorem readHead_literalText {v : Literal} (hv : ∀ x, v ≠ .float x) {rest : List Char}
    (hrest : Text.startsWith inWord rest = false) :
    Text.Reads readHead ((literalText v).toList ++ rest) (.literal v, rest) := by
  have hread := readLiteral_literalText hv hrest
  refine Text.Reads.of_step ⟨0, fun n _ => ?_⟩
  rw [readHead.eq_3, hread]
  intro cs heq
  rw [heq] at hread
  exact absurd hread (by simp [readLiteral, readInt, readDigits, inWord, wordLiteral?])

section

variable {name : String} {cs rest : List Char} {r : Expr × List Char}

theorem readHead_word {s : String} (h : isWord s = true) (hliteral : wordLiteral? s = none)
    (hrest : Text.startsWith inWord rest = false) (hword : Text.Reads (readWord · s) rest r) :
    Text.Reads readHead (s.toList ++ rest) r := by
  have htake := Text.takeWhile_row (all_inWord_of_isWord h) hrest
  have hdrop := Text.dropWhile_row (all_inWord_of_isWord h) hrest
  obtain ⟨c, cs, hs, hc, -⟩ := exists_of_isWord h
  obtain ⟨m, hword⟩ := hword
  refine Text.Reads.of_step ⟨m, fun n hn => ?_⟩
  rw [readHead.eq_3, readLiteral_word h hrest, hliteral, htake, hdrop]
  · simpa using hword n hn
  · rintro cs' heq
    rw [hs] at heq
    obtain rfl := (List.cons.inj heq).1
    exact absurd hc (by decide)

theorem readHead_name (h : isName name = true) (hrest : Text.startsWith inWord rest = false)
    (hword : Text.Reads (readWord · name) rest r) : Text.Reads readHead (name.toList ++ rest) r :=
  readHead_word (isWord_of_isName h) (wordLiteral?_of_isName h) hrest hword

theorem readWord_ident (h : isName name = true) (hrest : Text.startsWith joins rest = false) :
    Text.Reads (readWord · name) rest (.ident name, rest) := by
  have hne := not_mem_reserved_of_isName h
  refine Text.Reads.of_step ⟨0, fun n _ => ?_⟩
  rw [readWord.eq_3 name rest n (ne_bracket_of_not_joins hrest), if_neg, if_neg]
  all_goals
    rintro rfl
    exact hne (by decide)

theorem readWord_call (h : isName name = true) {args : List Expr}
    (hargs : Text.Reads readArgs cs (args, rest)) :
    Text.Reads (readWord · name) ('(' :: cs) (.call none name none args, rest) := by
  have hne := not_mem_reserved_of_isName h
  obtain ⟨m, hargs⟩ := hargs
  refine Text.Reads.of_step ⟨m, fun n hn => ?_⟩
  rw [readWord, if_neg, if_neg, hargs n hn]
  · rfl
  all_goals
    rintro rfl
    exact hne (by decide)

theorem readWord_self (hrest : Text.startsWith joins rest = false) :
    Text.Reads (readWord · "this") rest (.self, rest) := by
  refine Text.Reads.of_step ⟨0, fun n _ => ?_⟩
  rw [readWord.eq_3 _ rest n (ne_bracket_of_not_joins hrest), if_pos rfl]

theorem readWord_new {ty : TypeRef} (hty : ty.identities.all isDottedName = true)
    {args : List Expr} (hargs : Text.Reads readArgs cs (args, rest)) :
    Text.Reads (readWord · "new") (' ' :: ((typeText ty).toList ++ '(' :: cs))
      (.new ty args, rest) := by
  obtain ⟨m, hargs⟩ := hargs
  obtain ⟨m', hread⟩ : Text.Reads readType ((typeText ty).toList ++ '(' :: cs) (ty, '(' :: cs) :=
    readType_typeText ty hty rfl
  refine Text.Reads.of_step ⟨max m m', fun n hn => ?_⟩
  rw [readWord.eq_3 _ _ _ (by simp), if_neg (by decide), if_pos rfl, List.drop_one, List.tail_cons,
    hread n (by omega)]
  simp [hargs n (by omega)]

theorem readHead_bracket (h : castAhead cs = false) (hread : Text.Reads readBracket cs r) :
    Text.Reads readHead ('(' :: cs) r := by
  obtain ⟨m, hread⟩ := hread
  refine Text.Reads.of_step ⟨m, fun n hn => ?_⟩
  rw [readHead, h, if_neg Bool.false_ne_true, hread n hn]

theorem readBinary_binarySign (op : BinaryOp) (rest : List Char) :
    readBinary ((binarySign op).toList ++ ' ' :: rest) = some (op, rest) := by
  cases op <;> rfl

theorem readBracket_binary {left right : Expr} {op : BinaryOp} {cs' : List Char}
    (hleft : Text.Reads readExpr cs (left, ' ' :: ((binarySign op).toList ++ ' ' :: cs')))
    (hright : Text.Reads readExpr cs' (right, ')' :: rest)) :
    Text.Reads readBracket cs (.binary left op right, rest) := by
  obtain ⟨m, hleft⟩ := hleft
  obtain ⟨m', hright⟩ := hright
  refine Text.Reads.of_step ⟨max m m', fun n hn => ?_⟩
  rw [readBracket, hleft n (by omega)]
  simp only [Option.bind_eq_bind, Option.bind_some]
  -- no sign looks like the word of a test or the mark of a conditional
  split
  · rename_i heq
    cases op <;> simp [binarySign] at heq
  · rename_i heq
    cases op <;> simp [binarySign] at heq
  · rename_i heq
    obtain ⟨rfl, rfl⟩ := Prod.mk.inj heq
    simp [readBinary_binarySign, hright n (by omega)]

theorem readBracket_conditional {test consequent alternate : Expr} {cs' cs'' : List Char}
    (htest : Text.Reads readExpr cs (test, ' ' :: '?' :: ' ' :: cs'))
    (hconsequent : Text.Reads readExpr cs' (consequent, ' ' :: ':' :: ' ' :: cs''))
    (halternate : Text.Reads readExpr cs'' (alternate, ')' :: rest)) :
    Text.Reads readBracket cs (.conditional test consequent alternate, rest) := by
  obtain ⟨m, htest⟩ := htest
  obtain ⟨m', hconsequent⟩ := hconsequent
  obtain ⟨m'', halternate⟩ := halternate
  refine Text.Reads.of_step ⟨max m (max m' m''), fun n hn => ?_⟩
  rw [readBracket, htest n (by omega)]
  simp [hconsequent n (by omega), halternate n (by omega)]

theorem readBracket_instanceOf {e : Expr} {ty : TypeRef}
    (hty : ty.identities.all isDottedName = true)
    (he : Text.Reads readExpr cs
      (e, ' ' :: 'i' :: 's' :: ' ' :: ((typeText ty).toList ++ ')' :: rest))) :
    Text.Reads readBracket cs (.instanceOf e ty, rest) := by
  obtain ⟨m, he⟩ := he
  obtain ⟨m', hread⟩ : Text.Reads readType ((typeText ty).toList ++ ')' :: rest)
      (ty, ')' :: rest) :=
    readType_typeText ty hty rfl
  refine Text.Reads.of_step ⟨max m m', fun n hn => ?_⟩
  rw [readBracket, he n (by omega)]
  simp [hread n (by omega)]

theorem readHead_cast {e : Expr} {ty : TypeRef} (hty : ty.identities.all isDottedName = true)
    (he : Text.Reads readExpr cs (e, ')' :: rest)) :
    Text.Reads readHead ('(' :: '(' :: ((typeText ty).toList ++ ')' :: cs))
      (.cast ty e, rest) := by
  obtain ⟨m, he⟩ := he
  obtain ⟨m', hread⟩ : Text.Reads readType ((typeText ty).toList ++ ')' :: cs) (ty, ')' :: cs) :=
    readType_typeText ty hty rfl
  refine Text.Reads.of_step ⟨max m m' + 1, fun n hn => ?_⟩
  obtain ⟨n, rfl⟩ : ∃ k, n = k + 1 := ⟨n - 1, by omega⟩
  rw [readHead, castAhead, if_pos (typeAhead_typeText hty cs), readCast]
  simp [hread n (by omega), he n (by omega)]

theorem readSign_unarySign {op : UnaryOp} {operand : Expr}
    (h : (Expr.unary op operand).all readableForm = true) (rest : List Char) :
    readSign ((unarySign op).toList ++ ((exprText operand).toList ++ rest)) =
      some (op, (exprText operand).toList ++ rest) := by
  have here := here_of_all h
  cases op with
  | not | bitNot => rfl
  | neg =>
    simp only [all, Bool.and_eq_true] at h
    have hopens := opens_exprText h.2 []
    have hdigit : Text.startsWith Char.isDigit ((exprText operand).toList ++ rest) = false := by
      cases htext : (exprText operand).toList with
      | nil => simp [htext] at hopens
      | cons c cs => simpa [readableForm, htext] using here
    have hminus : (unarySign .neg).toList ++ ((exprText operand).toList ++ rest) =
        '-' :: ((exprText operand).toList ++ rest) := rfl
    rw [hminus, readSign, hdigit, if_neg Bool.false_ne_true]

end

/-! ## Whole expressions -/

theorem readArgs_of_readExprs {es : List Expr} (hes : allOf readableForm es = true)
    {rest : List Char}
    (h : es ≠ [] →
      Text.Reads readExprs ((exprTexts es).toList ++ ')' :: rest) (regroupedAll es, rest)) :
    Text.Reads readArgs ((exprTexts es).toList ++ ')' :: rest) (regroupedAll es, rest) := by
  apply Text.Reads.of_step
  cases es with
  | nil => exact ⟨0, fun n _ => readArgs.eq_2 n rest⟩
  | cons e es =>
    rw [allOf, Bool.and_eq_true] at hes
    have hopens : Text.startsWith opensExpr
        ((exprTexts (e :: es)).toList ++ ')' :: rest) = true := by
      cases es with
      | nil => exact opens_exprText hes.1 _
      | cons e' es =>
        rw [chars_exprs]
        exact opens_exprText hes.1 _
    obtain ⟨m, hread⟩ := h (by simp)
    refine ⟨m, fun n hn => ?_⟩
    rw [readArgs.eq_3, hread n hn]
    intro cs heq
    rw [heq, Text.startsWith_cons] at hopens
    exact absurd hopens (by decide)

mutual

/-- Reading a text gives the regrouped expression, continued by what follows
the text. The induction is on the expression: a part is read with the rest of
the whole behind it. -/
theorem readExpr_exprText (e : Expr) (he : e.all readableForm = true) {rest : List Char}
    (hrest : Text.startsWith joins rest = false) (r : Expr × List Char)
    (hr : Continues e.regrouped rest r) : Text.Reads readExpr ((exprText e).toList ++ rest) r := by
  have here := here_of_all he
  have hword := not_inWord_of_not_joins hrest
  cases e with
  | literal v =>
    have hv : ∀ x, v ≠ .float x := by
      rintro x rfl
      simp [readableForm, plainForm] at here
    exact readExpr_head (readSign_literalText hv rest) (readHead_literalText hv hword) hr
  | ident name =>
    exact readExpr_head (readSign_word (isWord_of_isName here) rest)
      (readHead_name here hword (readWord_ident here hrest)) hr
  | self =>
    exact readExpr_head (readSign_word (s := "this") (by decide) rest)
      (readHead_word (s := "this") (by decide) (by decide) hword (readWord_self hrest)) hr
  | field object name =>
    simp only [all, Bool.and_eq_true] at he
    rw [chars_field]
    exact readExpr_exprText object he.2 rfl r (continues_field here hrest hr)
  | call target method binding args =>
    cases binding with
    | some binding => simp [readableForm, plainForm] at here
    | none =>
      cases target with
      | none =>
        simp only [all, Bool.and_eq_true] at he
        have hargs := readArgs_of_readExprs he.2 fun hne =>
          readExprs_exprTexts args hne he.2 rest
        rw [chars_call]
        exact readExpr_head (readSign_word (isWord_of_isName here) _)
          (readHead_name here rfl (readWord_call here hargs)) hr
      | some target =>
        simp only [all, Bool.and_eq_true] at he
        have hargs := readArgs_of_readExprs he.2.2 fun hne =>
          readExprs_exprTexts args hne he.2.2 rest
        rw [chars_callOn]
        exact readExpr_exprText target he.2.1 rfl r (continues_call here hargs hr)
  | new ty args =>
    simp only [all, Bool.and_eq_true] at he
    have hargs := readArgs_of_readExprs he.2 fun hne =>
      readExprs_exprTexts args hne he.2 rest
    rw [chars_new]
    exact readExpr_head (readSign_word (by decide) _)
      (readHead_word (by decide) (by decide) rfl (readWord_new here hargs)) hr
  | binary left op right =>
    simp only [all, Bool.and_eq_true] at he
    rw [chars_binary]
    refine readExpr_head rfl (readHead_bracket (Front.of_expr left he.2.1 rfl).noCast ?_) hr
    apply readBracket_binary
    · refine readExpr_exprText left he.2.1 rfl _ (continues_done (by simp) ?_)
      cases op <;> simp [binarySign]
    · exact readExpr_exprText right he.2.2 rfl _ (continues_done (by simp) (by simp))
  | unary op operand =>
    have hsign := readSign_unarySign he rest
    simp only [all, Bool.and_eq_true] at he
    rw [chars_unary]
    exact readExpr_sign hsign (readExpr_exprText operand he.2 hrest) hr
  | assign target value =>
    simp only [all, Bool.and_eq_true] at he
    rw [chars_assign]
    exact readExpr_exprText target he.2.1 rfl r
      (continues_assign (readExpr_exprText value he.2.2 hrest) hr)
  | conditional test consequent alternate =>
    simp only [all, Bool.and_eq_true] at he
    rw [chars_conditional]
    refine readExpr_head rfl (readHead_bracket (Front.of_expr test he.2.1 rfl).noCast ?_) hr
    apply readBracket_conditional
    · exact readExpr_exprText test he.2.1 rfl _ (continues_done (by simp) (by simp))
    · exact readExpr_exprText consequent he.2.2.1 rfl _ (continues_done (by simp) (by simp))
    · exact readExpr_exprText alternate he.2.2.2 rfl _ (continues_done (by simp) (by simp))
  | cast ty operand =>
    simp only [all, Bool.and_eq_true] at he
    rw [chars_cast]
    refine readExpr_head rfl (readHead_cast here ?_) hr
    exact readExpr_exprText operand he.2 rfl _ (continues_done (by simp) (by simp))
  | instanceOf operand ty =>
    simp only [all, Bool.and_eq_true] at he
    rw [chars_instanceOf]
    refine readExpr_head rfl (readHead_bracket (Front.of_expr operand he.2 rfl).noCast ?_) hr
    refine readBracket_instanceOf here ?_
    exact readExpr_exprText operand he.2 rfl _ (continues_done (by simp) (by simp))
  | type | anonymousClass | placeholder => simp [readableForm, plainForm] at here

theorem readExprs_exprTexts (es : List Expr) (hne : es ≠ []) (hes : allOf readableForm es = true)
    (rest : List Char) :
    Text.Reads readExprs ((exprTexts es).toList ++ ')' :: rest) (regroupedAll es, rest) := by
  apply Text.Reads.of_step
  match es with
  | [] => exact absurd rfl hne
  | [e] =>
    rw [allOf, Bool.and_eq_true] at hes
    obtain ⟨m, he⟩ := readExpr_exprText e hes.1 rfl (e.regrouped, ')' :: rest)
      (continues_done (by simp) (by simp))
    refine ⟨m, fun n hn => ?_⟩
    rw [exprTexts, readExprs, he n hn]
    rfl
  | e :: e' :: es =>
    rw [allOf, Bool.and_eq_true] at hes
    obtain ⟨m, hread⟩ := readExprs_exprTexts (e' :: es) (by simp) hes.2 rest
    rw [chars_exprs]
    generalize (exprTexts (e' :: es)).toList ++ ')' :: rest = cs at hread
    obtain ⟨m', he⟩ := readExpr_exprText e hes.1 rfl (e.regrouped, ',' :: ' ' :: cs)
      (continues_done (by simp) (by simp))
    refine ⟨max m m', fun n hn => ?_⟩
    rw [readExprs, he n (by omega)]
    simp [hread n (by omega), regroupedAll]

end

end CSharp

end Recast
