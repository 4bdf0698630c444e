-- A JSON value is read back from its text, on one line or on many. The
-- scanner gets the tokens of the value from the text, and the parser gets the
-- value from its tokens.
import Recast.Json.Parser
import Recast.Json.Printer
import Recast.Proofs.Words

namespace Recast.Json

/-! ## Numbers -/

section

variable {cs : List Char}

theorem inNumber_of_isDigit {c : Char} (h : c.isDigit = true) : Scan.inNumber c = true := by
  simp [Scan.inNumber, h]

theorem all_inNumber_of_isDigit (h : cs.all Char.isDigit = true) : cs.all Scan.inNumber = true :=
  List.all_eq_true.mpr fun c hc => inNumber_of_isDigit (List.all_eq_true.mp h c hc)

theorem all_inNumber_of_dropWhile (h : (cs.dropWhile Char.isDigit).all Scan.inNumber = true) :
    cs.all Scan.inNumber = true := by
  have hdigits : (cs.takeWhile Char.isDigit).all Char.isDigit = true :=
    List.all_takeWhile
  rw [← List.takeWhile_append_dropWhile (p := Char.isDigit) (l := cs), List.all_append,
    all_inNumber_of_isDigit hdigits, h]
  rfl

theorem all_inNumber_of_isExponent (h : isExponent cs = true) : cs.all Scan.inNumber = true := by
  unfold isExponent at h
  split at h
  · rfl
  · rename_i c cs
    simp only [Bool.and_eq_true, Bool.or_eq_true, beq_iff_eq] at h
    have hc : Scan.inNumber c = true := by
      rcases h.1.1 with rfl | rfl <;> decide
    have hdigits := all_inNumber_of_isDigit h.2
    rw [List.all_cons, hc, Bool.true_and]
    split at hdigits
    · rw [List.all_cons, hdigits]
      rfl
    · rw [List.all_cons, hdigits]
      rfl
    · exact hdigits

theorem all_inNumber_of_isTail (h : isTail cs = true) : cs.all Scan.inNumber = true := by
  unfold isTail at h
  split at h
  · rename_i c cs
    rw [Bool.and_eq_true] at h
    have hrest := all_inNumber_of_dropWhile (all_inNumber_of_isExponent h.2)
    rw [List.all_cons, List.all_cons, inNumber_of_isDigit h.1, hrest]
    decide
  · exact all_inNumber_of_isExponent h

theorem exists_of_isUnsigned (h : isUnsigned cs = true) : ∃ c cs', cs = c :: cs' ∧
    c.isDigit = true ∧ cs'.all Scan.inNumber = true := by
  unfold isUnsigned at h
  split at h
  · exact ⟨_, _, rfl, by decide, all_inNumber_of_isTail h⟩
  · rw [Bool.and_eq_true] at h
    exact ⟨_, _, rfl, h.1, all_inNumber_of_dropWhile (all_inNumber_of_isTail h.2)⟩
  · cases h

theorem exists_of_isNumber (h : isNumber cs = true) : ∃ c cs', cs = c :: cs' ∧
    (c.isDigit || c == '-') = true ∧ cs'.all Scan.inNumber = true := by
  unfold isNumber at h
  split at h
  · obtain ⟨c, cs', rfl, hc, hcs⟩ := exists_of_isUnsigned h
    exact ⟨'-', _, rfl, by decide, by rw [List.all_cons, inNumber_of_isDigit hc, hcs]; rfl⟩
  · obtain ⟨c, cs', rfl, hc, hcs⟩ := exists_of_isUnsigned h
    exact ⟨c, cs', rfl, by simp [hc], hcs⟩

end

/-! ## Scanning -/

namespace Scan

/-- The tokens of a text whose first part has been scanned. -/
def run (s : Scan) (cs : List Char) : Option (List Token) := (cs.foldlM push s).bind finish

@[simp] theorem run_cons (s : Scan) (c : Char) (cs : List Char) :
    s.run (c :: cs) = (s.push c).bind (·.run cs) := by
  unfold run
  rw [List.foldlM_cons, Option.bind_eq_bind, Option.bind_assoc]

section

variable {ts : List Token} {rest : List Char}

/-- A word ends where no letter follows. -/
theorem run_word {sofar : List Char} {t : Token} (ht : wordToken? sofar = some t)
    (hrest : Text.startsWith Char.isAlpha rest = false) :
    run ⟨ts, .word sofar⟩ rest = run ⟨t :: ts, .between⟩ rest := by
  cases rest with
  | nil => simp [run, finish, ht]
  | cons c cs =>
    rw [Text.startsWith_cons] at hrest
    simp [push, hrest, ht]

theorem run_inNumber {cs : List Char} (hcs : cs.all inNumber = true) (sofar : List Char) :
    run ⟨ts, .number sofar⟩ (cs ++ rest) = run ⟨ts, .number (cs.reverse ++ sofar)⟩ rest := by
  induction cs generalizing sofar with
  | nil => rfl
  | cons c cs ih =>
    rw [List.all_cons, Bool.and_eq_true] at hcs
    simp [push, hcs.1, ih hcs.2]

/-- A number is scanned whole, if what follows is no part of it. -/
theorem run_number {lexeme : String} (h : isNumber lexeme.toList = true)
    (hrest : Text.startsWith inNumber rest = false) :
    run ⟨ts, .between⟩ (lexeme.toList ++ rest) = run ⟨.number lexeme :: ts, .between⟩ rest := by
  obtain ⟨c, cs, hlexeme, hc, hcs⟩ := exists_of_isNumber h
  have hblank : isBlank c = false := by
    cases hb : isBlank c with
    | false => rfl
    | true =>
      simp only [isBlank, Bool.or_eq_true, beq_iff_eq] at hb
      rcases hb with ((rfl | rfl) | rfl) | rfl <;> exact absurd hc (by decide)
  have hfresh : fresh ts c = some ⟨ts, .number [c]⟩ := by
    simp [fresh, hblank, hc]
  have htoken : numberToken? (cs.reverse ++ [c]) = some (.number lexeme) := by
    simp [numberToken?, ← hlexeme, h]
  rw [hlexeme, List.cons_append, run_cons, push, hfresh, Option.bind_some, run_inNumber hcs]
  cases rest with
  | nil => simp [run, finish, htoken]
  | cons d ds =>
    rw [Text.startsWith_cons] at hrest
    simp [push, hrest, htoken]

/-- Blanks between tokens are passed over. -/
theorem run_blanks {cs : List Char} (hcs : cs.all isBlank = true) :
    run ⟨ts, .between⟩ (cs ++ rest) = run ⟨ts, .between⟩ rest := by
  induction cs with
  | nil => rfl
  | cons c cs ih =>
    rw [List.all_cons, Bool.and_eq_true] at hcs
    simp [push, fresh, hcs.1, ih hcs.2]

theorem hexValue?_zero : hexValue? '0' = some 0 := by decide

theorem hexValue?_hexDigit : ∀ n < 16, hexValue? (hexDigit n) = some n := by decide

/-- A code unit below the surrogates is a character by itself. -/
theorem charsOf_code {n : Nat} (hn : n < 0xD800) (ps : List Piece) :
    charsOf (.code n :: ps) = (charsOf ps).map (Char.ofNat n :: ·) := by
  have hhigh : isHighSurrogate n = false := by
    rw [isHighSurrogate, Bool.and_eq_false_iff]
    exact .inl (by simpa using hn)
  have hlow : isLowSurrogate n = false := by
    rw [isLowSurrogate, Bool.and_eq_false_iff]
    exact .inl (by simp; omega)
  cases ps with
  | nil => simp [charsOf, hhigh, hlow]
  | cons p ps => cases p <;> simp [charsOf, hhigh, hlow]

/-- The escape of a character is scanned as one piece, which stands for the
character in whatever pieces it is put. -/
theorem run_escapeChar (c : Char) : ∃ p,
    (∀ ts sofar rest, run ⟨ts, .text sofar⟩ (escapeChar c ++ rest) =
      run ⟨ts, .text (p :: sofar)⟩ rest) ∧
    ∀ ps, charsOf (p :: ps) = (charsOf ps).map (c :: ·) := by
  fun_cases escapeChar c with
  | case8 c _ _ _ _ _ _ _ hc =>
    have hhigh := hexValue?_hexDigit (c.toNat / 16) (by omega)
    have hlow := hexValue?_hexDigit (c.toNat % 16) (by omega)
    have hvalue : 16 * (c.toNat / 16) + c.toNat % 16 = c.toNat := Nat.div_add_mod c.toNat 16
    refine ⟨.code c.toNat, fun ts sofar rest => ?_, fun ps => ?_⟩
    · simp [push, hexValue?_zero, hhigh, hlow, hvalue]
    · rw [charsOf_code (by omega), Char.ofNat_toNat]
  | case9 c hquote hslash _ _ _ _ _ hc =>
    refine ⟨.char c, fun ts sofar rest => ?_, fun ps => rfl⟩
    simp only [List.singleton_append, run_cons, push, beq_eq_false_iff_ne.mpr hquote,
      beq_eq_false_iff_ne.mpr hslash, hc, if_false, Bool.false_eq_true, Option.bind_some]
  | _ => exact ⟨.char _, fun ts sofar rest => by simp [push, escaped?], fun ps => rfl⟩

theorem run_escaped (cs : List Char) : ∃ ps,
    (∀ ts sofar rest, run ⟨ts, .text sofar⟩ (cs.flatMap escapeChar ++ rest) =
      run ⟨ts, .text (ps.reverse ++ sofar)⟩ rest) ∧
    charsOf ps = some cs := by
  induction cs with
  | nil => exact ⟨[], fun _ _ _ => rfl, rfl⟩
  | cons c cs ih =>
    obtain ⟨p, hrun, hchars⟩ := run_escapeChar c
    obtain ⟨ps, hruns, hcharss⟩ := ih
    refine ⟨p :: ps, fun ts sofar rest => ?_, ?_⟩
    · simp [hrun, hruns]
    · simp [hchars, hcharss]

/-- A text in quotes is scanned as this text. -/
theorem run_quote (s : String) :
    run ⟨ts, .between⟩ ((quote s).toList ++ rest) =
      run ⟨.text (some s) :: ts, .between⟩ rest := by
  obtain ⟨ps, hrun, hchars⟩ := run_escaped s.toList
  have htext : (quote s).toList ++ rest =
      '\x22' :: (s.toList.flatMap escapeChar ++ '\x22' :: rest) := by
    simp [quote]
  have hopen : push ⟨ts, .between⟩ '\x22' = some ⟨ts, .text []⟩ := rfl
  rw [htext, run_cons, hopen, Option.bind_some, hrun]
  simp [push, hchars]

end

end Scan

/-! ## Tokens of a value -/

mutual

def tokensOf : Json → List Token
  | .null => [.null]
  | .bool b => [.bool b]
  | .number lexeme => [.number lexeme]
  | .text s => [.text (some s)]
  | .array items => .openBracket :: (itemTokens items ++ [.closeBracket])
  | .object fields => .openBrace :: (fieldTokens fields ++ [.closeBrace])
  | .unreadable => [.text none]

def itemTokens : List Json → List Token
  | [] => []
  | [j] => j.tokensOf
  | j :: js => j.tokensOf ++ .comma :: itemTokens js

def fieldTokens : List (String × Json) → List Token
  | [] => []
  | [(key, j)] => .text (some key) :: .colon :: j.tokensOf
  | (key, j) :: fields =>
    .text (some key) :: .colon :: (j.tokensOf ++ .comma :: fieldTokens fields)

end

mutual

/-- All numbers in the value are numbers. -/
def wellFormed : Json → Bool
  | .number lexeme => isNumber lexeme.toList
  | .array items => wellFormedItems items
  | .object fields => wellFormedFields fields
  | _ => true

def wellFormedItems : List Json → Bool
  | [] => true
  | j :: js => j.wellFormed && wellFormedItems js

def wellFormedFields : List (String × Json) → Bool
  | [] => true
  | (_, j) :: fields => j.wellFormed && wellFormedFields fields

end

/-- A character that would become a part of the word or the number before it. -/
def joins (c : Char) : Bool := c.isAlpha || Scan.inNumber c

/-- The text is scanned as these tokens, whatever stands before it, if what
follows does not join its end. -/
def Scans (cs : List Char) (toks : List Token) : Prop :=
  ∀ ts rest, Text.startsWith joins rest = false →
    Scan.run ⟨ts, .between⟩ (cs ++ rest) = Scan.run ⟨toks.reverse ++ ts, .between⟩ rest

namespace Scans

variable {cs cs' : List Char} {toks toks' : List Token}

theorem nil : Scans [] [] := fun _ _ _ => rfl

theorem append (h : Scans cs toks) (h' : Scans cs' toks') (hne : cs' ≠ [])
    (hends : Text.startsWith joins cs' = false) : Scans (cs ++ cs') (toks ++ toks') := by
  intro ts rest hrest
  have hends' : Text.startsWith joins (cs' ++ rest) = false := by
    obtain ⟨c, cs', rfl⟩ := List.exists_cons_of_ne_nil hne
    exact hends
  rw [List.append_assoc, h ts _ hends', h' _ rest hrest]
  simp

/-- A sign is scanned by itself. -/
theorem mark {c : Char} {t : Token}
    (hc : ∀ ts, Scan.push ⟨ts, .between⟩ c = some ⟨t :: ts, .between⟩) (h : Scans cs toks) :
    Scans (c :: cs) (t :: toks) := by
  intro ts rest hrest
  rw [List.cons_append, Scan.run_cons, hc, Option.bind_some, h _ rest hrest]
  simp

theorem blanks {blanks : List Char} (hblanks : blanks.all Scan.isBlank = true)
    (h : Scans cs toks) : Scans (blanks ++ cs) toks := by
  intro ts rest hrest
  rw [List.append_assoc, Scan.run_blanks hblanks, h ts rest hrest]

theorem quote (s : String) : Scans (Json.quote s).toList [.text (some s)] := by
  intro ts rest _
  exact Scan.run_quote s

theorem number {lexeme : String} (h : isNumber lexeme.toList = true) :
    Scans lexeme.toList [.number lexeme] := by
  intro ts rest hrest
  exact Scan.run_number h (Text.startsWith_mono (fun c hc => by simp [joins, hc]) hrest)

theorem word {s : String} {sofar : List Char} {t : Token}
    (hs : ∀ ts rest, Scan.run ⟨ts, .between⟩ (s.toList ++ rest) = Scan.run ⟨ts, .word sofar⟩ rest)
    (ht : Scan.wordToken? sofar = some t) : Scans s.toList [t] := by
  intro ts rest hrest
  have halpha := Text.startsWith_mono (q := Char.isAlpha) (fun c hc => by simp [joins, hc]) hrest
  rw [hs, Scan.run_word ht halpha]
  rfl

theorem null : Scans "null".toList [.null] :=
  word (fun _ _ => rfl) (by decide)

theorem bool (b : Bool) : Scans (print (.bool b)).toList [.bool b] := by
  cases b with
  | true => exact word (fun _ _ => rfl) (by decide)
  | false => exact word (fun _ _ => rfl) (by decide)

theorem unreadable : Scans (print .unreadable).toList [.text none] := fun _ _ _ => rfl

end Scans

/-! ## Printed values -/

mutual

theorem scans_print (j : Json) (h : j.wellFormed = true) : Scans j.print.toList j.tokensOf := by
  cases j with
  | null => exact Scans.null
  | bool b => exact Scans.bool b
  | number lexeme => exact Scans.number h
  | text s => exact Scans.quote s
  | array items =>
    have htext : (print (.array items)).toList = '[' :: ((printItems items).toList ++ [']']) := by
      simp [print]
    rw [htext, tokensOf]
    exact ((scans_printItems items h).append (Scans.nil.mark fun _ => rfl) (by simp) rfl).mark
      fun _ => rfl
  | object fields =>
    have htext : (print (.object fields)).toList =
        '\x7b' :: ((printFields fields).toList ++ ['\x7d']) := by
      simp [print]
    rw [htext, tokensOf]
    exact ((scans_printFields fields h).append (Scans.nil.mark fun _ => rfl) (by simp) rfl).mark
      fun _ => rfl
  | unreadable => exact Scans.unreadable

theorem scans_printItems (js : List Json) (h : wellFormedItems js = true) :
    Scans (printItems js).toList (itemTokens js) := by
  match js with
  | [] => exact Scans.nil
  | [j] =>
    simp only [wellFormedItems, Bool.and_eq_true] at h
    exact scans_print j h.1
  | j :: j' :: js =>
    rw [wellFormedItems, Bool.and_eq_true] at h
    have htext : (printItems (j :: j' :: js)).toList =
        j.print.toList ++ ',' :: (printItems (j' :: js)).toList := by
      simp [printItems]
    rw [htext, itemTokens]
    · exact (scans_print j h.1).append ((scans_printItems (j' :: js) h.2).mark fun _ => rfl)
        (by simp) rfl
    · simp

theorem scans_printFields (fields : List (String × Json)) (h : wellFormedFields fields = true) :
    Scans (printFields fields).toList (fieldTokens fields) := by
  match fields with
  | [] => exact Scans.nil
  | [(key, j)] =>
    simp only [wellFormedFields, Bool.and_eq_true] at h
    have htext : (printFields [(key, j)]).toList = (quote key).toList ++ ':' :: j.print.toList := by
      simp [printFields]
    rw [htext]
    exact (Scans.quote key).append ((scans_print j h.1).mark fun _ => rfl) (by simp) rfl
  | (key, j) :: field :: fields =>
    rw [wellFormedFields, Bool.and_eq_true] at h
    have htext : (printFields ((key, j) :: field :: fields)).toList = (quote key).toList ++
        ':' :: (j.print.toList ++ ',' :: (printFields (field :: fields)).toList) := by
      simp [printFields]
    rw [htext, fieldTokens]
    · exact (Scans.quote key).append (((scans_print j h.1).append
        ((scans_printFields (field :: fields) h.2).mark fun _ => rfl) (by simp) rfl).mark
        fun _ => rfl) (by simp) rfl
    · simp

end

/-! ## Values on many lines -/

theorem all_isBlank_newLine (depth : Nat) : (newLine depth).toList.all Scan.isBlank = true := by
  simp [newLine, Scan.isBlank]

/-- The end of a container on a line of its own. -/
theorem Scans.closing {c : Char} {t : Token} (depth : Nat)
    (hc : ∀ ts, Scan.push ⟨ts, .between⟩ c = some ⟨t :: ts, .between⟩) {cs : List Char}
    {toks : List Token} (h : Scans cs toks) :
    Scans (cs ++ ((newLine depth).toList ++ [c])) (toks ++ [t]) :=
  h.append ((Scans.nil.mark hc).blanks (all_isBlank_newLine depth)) (by simp)
    (by simp [newLine]; rfl)

mutual

theorem scans_prettyAt (depth : Nat) (j : Json) (h : j.wellFormed = true) :
    Scans (prettyAt depth j).toList j.tokensOf := by
  cases j with
  | null => exact Scans.null
  | bool b =>
    cases b with
    | true => exact Scans.bool true
    | false => exact Scans.bool false
  | number lexeme => exact Scans.number h
  | text s => exact Scans.quote s
  | array items =>
    cases items with
    | nil =>
      rw [prettyAt]
      exact (Scans.nil.mark (c := ']') fun _ => rfl).mark (c := '[') fun _ => rfl
    | cons j js =>
      have htext : (prettyAt depth (.array (j :: js))).toList =
          '[' :: ((prettyItems (depth + 1) (j :: js)).toList ++
            ((newLine depth).toList ++ [']'])) := by
        simp [prettyAt]
      rw [htext, tokensOf]
      exact ((scans_prettyItems (depth + 1) (j :: js) h).closing (c := ']') depth
        fun _ => rfl).mark fun _ => rfl
  | object fields =>
    cases fields with
    | nil =>
      rw [prettyAt]
      exact (Scans.nil.mark (c := '\x7d') fun _ => rfl).mark (c := '\x7b') fun _ => rfl
    | cons field fields =>
      have htext : (prettyAt depth (.object (field :: fields))).toList =
          '\x7b' :: ((prettyFields (depth + 1) (field :: fields)).toList ++
            ((newLine depth).toList ++ ['\x7d'])) := by
        simp [prettyAt]
      rw [htext, tokensOf]
      exact ((scans_prettyFields (depth + 1) (field :: fields) h).closing (c := '\x7d') depth
        fun _ => rfl).mark fun _ => rfl
  | unreadable => exact Scans.unreadable

theorem scans_prettyItems (depth : Nat) (js : List Json) (h : wellFormedItems js = true) :
    Scans (prettyItems depth js).toList (itemTokens js) := by
  match js with
  | [] => exact Scans.nil
  | [j] =>
    simp only [wellFormedItems, Bool.and_eq_true] at h
    rw [prettyItems, String.toList_append]
    exact (scans_prettyAt depth j h.1).blanks (all_isBlank_newLine depth)
  | j :: j' :: js =>
    rw [wellFormedItems, Bool.and_eq_true] at h
    have htext : (prettyItems depth (j :: j' :: js)).toList = (newLine depth).toList ++
        ((prettyAt depth j).toList ++ ',' :: (prettyItems depth (j' :: js)).toList) := by
      simp [prettyItems]
    rw [htext, itemTokens]
    · exact ((scans_prettyAt depth j h.1).append
        ((scans_prettyItems depth (j' :: js) h.2).mark fun _ => rfl) (by simp) rfl).blanks
        (all_isBlank_newLine depth)
    · simp

theorem scans_prettyFields (depth : Nat) (fields : List (String × Json))
    (h : wellFormedFields fields = true) :
    Scans (prettyFields depth fields).toList (fieldTokens fields) := by
  have hcolon : ∀ {cs toks}, Scans cs toks → Scans (':' :: ([' '] ++ cs)) (.colon :: toks) :=
    fun h => (h.blanks rfl).mark fun _ => rfl
  match fields with
  | [] => exact Scans.nil
  | [(key, j)] =>
    simp only [wellFormedFields, Bool.and_eq_true] at h
    have htext : (prettyFields depth [(key, j)]).toList = (newLine depth).toList ++
        ((quote key).toList ++ ':' :: ' ' :: (prettyAt depth j).toList) := by
      simp [prettyFields]
    rw [htext]
    exact ((Scans.quote key).append (hcolon (scans_prettyAt depth j h.1)) (by simp) rfl).blanks
      (all_isBlank_newLine depth)
  | (key, j) :: field :: fields =>
    rw [wellFormedFields, Bool.and_eq_true] at h
    have htext : (prettyFields depth ((key, j) :: field :: fields)).toList =
        (newLine depth).toList ++ ((quote key).toList ++ ':' :: ' ' ::
          ((prettyAt depth j).toList ++ ',' :: (prettyFields depth (field :: fields)).toList)) := by
      simp [prettyFields]
    rw [htext, fieldTokens]
    · exact ((Scans.quote key).append (hcolon ((scans_prettyAt depth j h.1).append
        ((scans_prettyFields depth (field :: fields) h.2).mark fun _ => rfl) (by simp) rfl))
        (by simp) rfl).blanks (all_isBlank_newLine depth)
    · simp

end

/-! ## Parsing -/

namespace State

mutual

/-- The tokens of a value complete it, inside whatever is open. -/
theorem foldlM_tokensOf (j : Json) (frames : List Frame) (mayClose : Bool) (rest : List Token) :
    (j.tokensOf ++ rest).foldlM step (.value frames mayClose) =
      (complete frames j).bind (rest.foldlM step ·) := by
  cases j with
  | null | bool | number | text | unreadable => rfl
  | array items =>
    have hopen : step (.value frames mayClose) .openBracket =
        some (.value (.array [] :: frames) true) := rfl
    rw [tokensOf, List.cons_append, List.foldlM_cons, hopen, List.append_assoc]
    cases items with
    | nil => rfl
    | cons j js => exact foldlM_itemTokens (j :: js) (by simp) [] frames true rest
  | object fields =>
    have hopen : step (.value frames mayClose) .openBrace =
        some (.key (.object (some []) :: frames) true) := rfl
    rw [tokensOf, List.cons_append, List.foldlM_cons, hopen, List.append_assoc]
    cases fields with
    | nil => rfl
    | cons field fields => exact foldlM_fieldTokens (field :: fields) (by simp) [] frames true rest

theorem foldlM_itemTokens (js : List Json) (hne : js ≠ []) (before : List Json)
    (frames : List Frame) (mayClose : Bool) (rest : List Token) :
    (itemTokens js ++ .closeBracket :: rest).foldlM step
        (.value (.array before :: frames) mayClose) =
      (complete frames (.array (before.reverse ++ js))).bind (rest.foldlM step ·) := by
  match js with
  | [] => exact absurd rfl hne
  | [j] =>
    have hafter : complete (.array before :: frames) j =
        some (.after (.array (j :: before) :: frames)) := rfl
    have hclose : step (.after (.array (j :: before) :: frames)) .closeBracket =
        complete frames (.array (j :: before).reverse) := rfl
    rw [itemTokens, foldlM_tokensOf, hafter, Option.bind_some, List.foldlM_cons, hclose,
      List.reverse_cons]
    rfl
  | j :: j' :: js =>
    have hafter : complete (.array before :: frames) j =
        some (.after (.array (j :: before) :: frames)) := rfl
    have hcomma : step (.after (.array (j :: before) :: frames)) .comma =
        some (.value (.array (j :: before) :: frames) false) := rfl
    rw [itemTokens, List.append_assoc, foldlM_tokensOf, hafter, Option.bind_some, List.cons_append,
      List.foldlM_cons, hcomma]
    · simpa using foldlM_itemTokens (j' :: js) (by simp) (j :: before) frames false rest
    · simp

theorem foldlM_fieldTokens (fields : List (String × Json)) (hne : fields ≠ [])
    (before : List (String × Json)) (frames : List Frame) (mayClose : Bool) (rest : List Token) :
    (fieldTokens fields ++ .closeBrace :: rest).foldlM step
        (.key (.object (some before) :: frames) mayClose) =
      (complete frames (.object (before.reverse ++ fields))).bind (rest.foldlM step ·) := by
  have hkey : ∀ (name : String) (rest : List Token),
      (.text (some name) :: .colon :: rest).foldlM step
          (.key (.object (some before) :: frames) mayClose) =
        rest.foldlM step (.value (.slot (some before) (some name) :: frames) false) :=
    fun _ _ => rfl
  have hafter : ∀ name j, complete (.slot (some before) (some name) :: frames) j =
      some (.after (.object (some ((name, j) :: before)) :: frames)) :=
    fun _ _ => rfl
  match fields with
  | [] => exact absurd rfl hne
  | [(name, j)] =>
    have hclose : step (.after (.object (some ((name, j) :: before)) :: frames)) .closeBrace =
        complete frames (.object ((name, j) :: before).reverse) := rfl
    rw [fieldTokens, List.cons_append, List.cons_append, hkey, foldlM_tokensOf, hafter,
      Option.bind_some, List.foldlM_cons, hclose, List.reverse_cons]
    rfl
  | (name, j) :: field :: fields =>
    have hcomma : step (.after (.object (some ((name, j) :: before)) :: frames)) .comma =
        some (.key (.object (some ((name, j) :: before)) :: frames) false) := rfl
    rw [fieldTokens, List.cons_append, List.cons_append, hkey, List.append_assoc, foldlM_tokensOf,
      hafter, Option.bind_some, List.cons_append, List.foldlM_cons, hcomma]
    · simpa using
        foldlM_fieldTokens (field :: fields) (by simp) ((name, j) :: before) frames false rest
    · simp

end

end State

/-! ## Reading back -/

theorem ofTokens?_tokensOf (j : Json) : ofTokens? j.tokensOf = some j := by
  have hparse := State.foldlM_tokensOf j [] false []
  rw [List.append_nil] at hparse
  rw [ofTokens?, hparse]
  rfl

theorem parse?_of_scans {s : String} {j : Json} (h : Scans s.toList j.tokensOf) :
    parse? s = some j := by
  have hscan := h [] [] rfl
  have htokens : tokens? s = some j.tokensOf := by
    rw [List.append_nil] at hscan
    rw [tokens?, Scan.start]
    simpa [Scan.run, Scan.finish] using hscan
  rw [parse?, htokens, Option.bind_some, ofTokens?_tokensOf]

theorem parse?_print {j : Json} (h : j.wellFormed = true) : parse? j.print = some j :=
  parse?_of_scans (scans_print j h)

theorem parse?_pretty {j : Json} (h : j.wellFormed = true) : parse? j.pretty = some j :=
  parse?_of_scans (scans_prettyAt 0 j h)

end Recast.Json
