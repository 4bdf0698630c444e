-- Literals are read back from their texts. A text or a character ends at its
-- quote whatever stands behind it; a number or a word needs something behind
-- it that is no part of a word. The escapes of a text are put in one kind after
-- the other, and this comes to the same as to put them in all at once.
import Recast.CSharp.Literal
import Recast.Proofs.Words

namespace Recast.Literal

/-- The text that a literal has between its quotes, or nothing if it has none. -/
def content : Literal → String
  | .string s => s
  | .char c => String.ofList [c]
  | .null | .bool _ | .int _ | .float _ => ""

def isQuoted : Literal → Bool
  | .string _ | .char _ => true
  | .null | .bool _ | .int _ | .float _ => false

end Recast.Literal

namespace Recast.CSharp

/-! ## Replacements -/

/-- What the table has in the place of a character. -/
def replacement (table : List (Char × String)) (c : Char) : List Char :=
  ((table.lookup c).map String.toList).getD [c]

theorem replacement_of_not_mem {table : List (Char × String)} {c : Char}
    (h : c ∉ table.map Prod.fst) : replacement table c = [c] := by
  have hnone : table.lookup c = none := by
    rw [List.lookup_eq_none_iff]
    intro entry hentry
    rw [bne_iff_ne]
    rintro rfl
    exact h (List.mem_map_of_mem hentry)
  rw [replacement, hnone]
  rfl

/-- Replacements one after the other are made all at once, if none of them
touches what one before it has put in. -/
theorem replaceAll_eq {table : List (Char × String)}
    (h : table.Pairwise fun entry later => later.1 ∉ entry.2.toList) (s : String) :
    replaceAll table s = String.ofList (s.toList.flatMap (replacement table)) := by
  induction table generalizing s with
  | nil =>
    change s = String.ofList (s.toList.flatMap fun c => [c])
    simp
  | cons entry rest ih =>
    obtain ⟨old, new⟩ := entry
    obtain ⟨hnew, hrest⟩ := List.pairwise_cons.mp h
    have hkept : new.toList.flatMap (replacement rest) = new.toList := by
      have hone : ∀ c ∈ new.toList, replacement rest c = [c] := by
        intro c hc
        apply replacement_of_not_mem
        intro hmem
        obtain ⟨later, hlater, rfl⟩ := List.mem_map.mp hmem
        exact hnew later hlater hc
      rw [List.flatMap_def, List.map_congr_left hone, ← List.flatMap_def]
      simp
    have hstep : ∀ c, (if c = old then new.toList else [c]).flatMap (replacement rest) =
        replacement ((old, new) :: rest) c := by
      intro c
      by_cases hc : c = old
      · simp [replacement, hc, hkept]
      · have hne : (c == old) = false := beq_eq_false_iff_ne.mpr hc
        simp [replacement, List.lookup_cons, hc, hne]
    change replaceAll rest (replaceChar old new s) = _
    rw [ih hrest, replaceChar, String.toList_ofList, List.flatMap_assoc]
    simp only [hstep]

/-- A character inside a string literal. -/
def escapeInString (c : Char) : List Char :=
  match c with
  | '\\' => ['\\', '\\']
  | '\x22' => ['\\', '\x22']
  | '\n' => ['\\', 'n']
  | '\r' => ['\\', 'r']
  | '\t' => ['\\', 't']
  | c => [c]

theorem replacement_stringEscapes (c : Char) :
    replacement stringEscapes c = escapeInString c := by
  unfold escapeInString
  split
  case h_6 hbackslash hquote hn hr ht =>
    apply replacement_of_not_mem
    simpa [stringEscapes] using ⟨hbackslash, hquote, hn, hr, ht⟩
  all_goals rfl

/-- Each character of a text is escaped by itself. -/
theorem escapeString_eq (s : String) :
    escapeString s = String.ofList (s.toList.flatMap escapeInString) := by
  have horder : stringEscapes.Pairwise fun entry later => later.1 ∉ entry.2.toList := by decide
  rw [escapeString, replaceAll_eq horder, funext replacement_stringEscapes]

/-! ## Quoted texts -/

/-- The character that a backslash and `c` stand for between two quotes. -/
def unescaped? (quote c : Char) : Option Char :=
  if c = quote then some quote
  else
    match c with
    | '\\' => some '\\'
    | 'n' => some '\n'
    | 'r' => some '\r'
    | 't' => some '\t'
    | _ => none

/-- The characters between two quotes stand for this text: there is no quote
among them and no backslash but those of escapes. -/
inductive Spells (quote : Char) : List Char → List Char → Prop
  | nil : Spells quote [] []
  | plain {c : Char} {body s : List Char} (hbackslash : c ≠ '\\') (hquote : c ≠ quote)
    (h : Spells quote body s) : Spells quote (c :: body) (c :: s)
  | escape {e c : Char} {body s : List Char} (he : unescaped? quote e = some c)
    (h : Spells quote body s) : Spells quote ('\\' :: e :: body) (c :: s)

/-- The characters up to the quote that is not escaped, and what stands
behind it. -/
def readQuoted (quote : Char) : List Char → Option (List Char × List Char)
  | '\\' :: e :: cs => do
    let c ← unescaped? quote e
    let (s, rest) ← readQuoted quote cs
    some (c :: s, rest)
  | c :: cs =>
    if c = quote then some ([], cs)
    else do
      let (s, rest) ← readQuoted quote cs
      some (c :: s, rest)
  | [] => none

/-- One character up to its quote, and what stands behind that. -/
def readChar (cs : List Char) : Option (Char × List Char) :=
  match readQuoted '\x27' cs with
  | some ([c], rest) => some (c, rest)
  | _ => none

section

variable {quote : Char} {cs body s rest : List Char}

theorem Spells.readQuoted (h : Spells quote body s) (hquote : quote ≠ '\\') (rest : List Char) :
    readQuoted quote (body ++ quote :: rest) = some (s, rest) := by
  induction h with
  | nil =>
    rw [List.nil_append, CSharp.readQuoted, if_pos rfl]
    intro e cs hcs
    exact absurd hcs hquote
  | plain hbackslash hother _ ih =>
    rw [List.cons_append, CSharp.readQuoted, if_neg hother, ih]
    · rfl
    · intro e cs hcs
      exact absurd hcs hbackslash
  | escape he _ ih =>
    rw [List.cons_append, List.cons_append, CSharp.readQuoted, he, ih]
    rfl

theorem spells_of_readQuoted (h : readQuoted quote cs = some (s, rest)) :
    ∃ body, Spells quote body s ∧ cs = body ++ quote :: rest := by
  fun_induction readQuoted quote cs generalizing s with
  | case1 e cs ih =>
    obtain ⟨c, he, h⟩ := Option.bind_eq_some_iff.mp h
    obtain ⟨⟨s', rest'⟩, hread, h⟩ := Option.bind_eq_some_iff.mp h
    obtain ⟨rfl, rfl⟩ := Prod.mk.inj (Option.some.inj h)
    obtain ⟨body, hbody, rfl⟩ := ih hread
    exact ⟨'\\' :: e :: body, .escape he hbody, rfl⟩
  | case2 cs _ =>
    obtain ⟨rfl, rfl⟩ := Prod.mk.inj (Option.some.inj h)
    exact ⟨[], .nil, rfl⟩
  | case3 c cs hescape hother ih =>
    obtain ⟨⟨s', rest'⟩, hread, h⟩ := Option.bind_eq_some_iff.mp h
    obtain ⟨rfl, rfl⟩ := Prod.mk.inj (Option.some.inj h)
    obtain ⟨body, hbody, rfl⟩ := ih hread
    refine ⟨c :: body, .plain ?_ hother hbody, rfl⟩
    rintro rfl
    cases body with
    | nil => exact hescape quote _ rfl rfl
    | cons e body => exact hescape e _ rfl rfl
  | case4 => cases h

/-- Reading ends at the first quote that is not escaped. -/
theorem readQuoted_eq_some (hquote : quote ≠ '\\') : readQuoted quote cs = some (s, rest) ↔
    ∃ body, Spells quote body s ∧ cs = body ++ quote :: rest := by
  constructor
  · exact spells_of_readQuoted
  · rintro ⟨body, hbody, rfl⟩
    exact hbody.readQuoted hquote rest

end

theorem spells_escapeInString (c : Char) {body s : List Char} (h : Spells '\x22' body s) :
    Spells '\x22' (escapeInString c ++ body) (c :: s) := by
  unfold escapeInString
  split
  case h_6 hbackslash hquote _ _ _ => exact .plain hbackslash hquote h
  all_goals exact .escape rfl h

theorem spells_escapeString (s : String) : Spells '\x22' (escapeString s).toList s.toList := by
  rw [escapeString_eq, String.toList_ofList]
  induction s.toList with
  | nil => exact .nil
  | cons c s ih =>
    rw [List.flatMap_cons]
    exact spells_escapeInString c ih

theorem spells_escapeChar (c : Char) : Spells '\x27' (escapeChar c).toList [c] := by
  unfold escapeChar
  split
  case h_6 hbackslash hquote _ _ _ =>
    rw [String.toList_ofList]
    exact .plain hbackslash hquote .nil
  all_goals exact .escape rfl .nil

/-- What escapes are made of. -/
def escapeMarks : List Char := ['\\', '\x22', '\x27', 'n', 'r', 't']

/-- The breaks and tabs that are always escaped. -/
def escapedBreaks : List Char := ['\n', '\r', '\t']

theorem mem_escapeInString {c d : Char} (hd : d ∉ escapeMarks) :
    d ∈ escapeInString c ↔ d = c ∧ d ∉ escapedBreaks := by
  simp only [escapeMarks, List.mem_cons, List.not_mem_nil, or_false, not_or] at hd
  simp only [escapedBreaks, List.mem_cons, List.not_mem_nil, or_false, not_or]
  unfold escapeInString
  split <;> grind

theorem mem_escapeChar {c d : Char} (hd : d ∉ escapeMarks) :
    d ∈ (escapeChar c).toList ↔ d = c ∧ d ∉ escapedBreaks := by
  simp only [escapeMarks, List.mem_cons, List.not_mem_nil, or_false, not_or] at hd
  simp only [escapedBreaks, List.mem_cons, List.not_mem_nil, or_false, not_or]
  unfold escapeChar
  split <;> grind [String.toList_ofList]

/-- Of the characters that are no part of an escape, a literal shows those that it
holds, but for breaks and tabs. -/
theorem mem_literalText {v : Literal} (hv : v.isQuoted = true) {d : Char} (hd : d ∉ escapeMarks) :
    d ∈ (literalText v).toList ↔ d ∈ v.content.toList ∧ d ∉ escapedBreaks := by
  have hquotes : d ≠ '\x22' ∧ d ≠ '\x27' := by
    simp only [escapeMarks, List.mem_cons, List.not_mem_nil, or_false, not_or] at hd
    exact ⟨hd.2.1, hd.2.2.1⟩
  cases v with
  | string s =>
    have hbody : d ∈ (escapeString s).toList ↔ d ∈ s.toList ∧ d ∉ escapedBreaks := by
      rw [escapeString_eq, String.toList_ofList, List.mem_flatMap]
      simp only [mem_escapeInString hd]
      constructor
      · rintro ⟨c, hc, rfl, hbreak⟩
        exact ⟨hc, hbreak⟩
      · rintro ⟨hmem, hbreak⟩
        exact ⟨d, hmem, rfl, hbreak⟩
    rw [literalText, stringText]
    simp [Literal.content, hbody, hquotes]
  | char c =>
    rw [literalText, charText]
    simp [Literal.content, mem_escapeChar hd, hquotes]
  | null | bool | int | float => cases hv

/-! ## Numbers and words -/

/-- The number that the digits at the front write. -/
def readDigits (cs : List Char) : Option (Nat × List Char) :=
  let digits := cs.takeWhile Char.isDigit
  if digits.isEmpty then none
  else some (Nat.ofDigitChars 10 digits 0, cs.dropWhile Char.isDigit)

def readInt : List Char → Option (Int64 × List Char)
  | '-' :: cs => (readDigits cs).map fun (n, rest) => (Int64.ofInt (-n), rest)
  | cs => (readDigits cs).map fun (n, rest) => (Int64.ofInt n, rest)

def wordLiteral? : String → Option Literal
  | "null" => some .null
  | "true" => some (.bool true)
  | "false" => some (.bool false)
  | _ => none

/-- The literal at the front of a text. -/
def readLiteral : List Char → Option (Literal × List Char)
  | '\x22' :: cs => (readQuoted '\x22' cs).map fun (s, rest) => (.string (String.ofList s), rest)
  | '\x27' :: cs => (readChar cs).map fun (c, rest) => (.char c, rest)
  | cs =>
    match readInt cs with
    | some (n, rest) => some (.int n, rest)
    | none => (wordLiteral? (String.ofList (cs.takeWhile inWord))).map (·, cs.dropWhile inWord)

theorem readDigits_repr (n : Nat) {rest : List Char}
    (hrest : Text.startsWith Char.isDigit rest = false) :
    readDigits ((Nat.repr n).toList ++ rest) = some (n, rest) := by
  obtain ⟨c, cs, hn, -⟩ := Text.exists_repr n
  have hdigits := Text.all_isDigit_repr n
  unfold readDigits
  rw [Text.takeWhile_row hdigits hrest, Text.dropWhile_row hdigits hrest]
  dsimp only
  rw [Text.ofDigitChars_repr, hn]
  rfl

theorem readInt_intText (n : Int64) {rest : List Char}
    (hrest : Text.startsWith Char.isDigit rest = false) :
    readInt ((intText n.toInt).toList ++ rest) = some (n, rest) := by
  unfold intText
  by_cases hn : n.toInt < 0
  · have habs : -(n.toInt.natAbs : Int) = n.toInt := by omega
    have htext : ("-" ++ Nat.repr n.toInt.natAbs).toList ++ rest =
        '-' :: ((Nat.repr n.toInt.natAbs).toList ++ rest) := by
      simp
    rw [if_pos hn, htext, readInt, readDigits_repr _ hrest]
    simp only [Option.map_some, habs, Int64.ofInt_toInt]
  · have habs : (n.toInt.natAbs : Int) = n.toInt := by omega
    obtain ⟨c, cs, hrepr, hc⟩ := Text.exists_repr n.toInt.natAbs
    rw [if_neg hn, readInt, readDigits_repr _ hrest]
    · simp only [Option.map_some, habs, Int64.ofInt_toInt]
    · intro _ hcs
      rw [hrepr, List.cons_append] at hcs
      obtain rfl := (List.cons.inj hcs).1
      simp at hc

/-- A number starts with a digit, or with a minus and a digit. -/
theorem exists_intText (n : Int) : ∃ c cs, (intText n).toList = c :: cs ∧
    (c.isDigit = true ∨ c = '-' ∧ Text.startsWith Char.isDigit cs = true) := by
  obtain ⟨c, cs, hrepr, hc⟩ := Text.exists_repr n.natAbs
  unfold intText
  by_cases hn : n < 0
  · exact ⟨'-', c :: cs, by simp [hn, hrepr], .inr ⟨rfl, hc⟩⟩
  · exact ⟨c, cs, by simp [hn, hrepr], .inl hc⟩

/-- A word is no number and no text. -/
theorem readLiteral_word {s : String} {rest : List Char} (h : isWord s = true)
    (hrest : Text.startsWith inWord rest = false) :
    readLiteral (s.toList ++ rest) = (wordLiteral? s).map (·, rest) := by
  have htake := Text.takeWhile_row (all_inWord_of_isWord h) hrest
  have hdrop := Text.dropWhile_row (all_inWord_of_isWord h) hrest
  obtain ⟨c, cs, hs, hc, hdigit, -⟩ := exists_of_isWord h
  have hne : ∀ x, inWord x = false → c ≠ x := by
    rintro x hx rfl
    rw [hx] at hc
    contradiction
  have hint : readInt (s.toList ++ rest) = none := by
    rw [hs, List.cons_append, readInt]
    · simp [readDigits, hdigit]
    · exact fun _ hcs => hne '-' rfl (List.cons.inj hcs).1
  rw [readLiteral]
  · simp [hint, htake, hdrop]
  · exact fun _ hcs => hne '\x22' rfl (List.cons.inj (hs ▸ hcs)).1
  · exact fun _ hcs => hne '\x27' rfl (List.cons.inj (hs ▸ hcs)).1

theorem wordLiteral?_of_isName {s : String} (h : isName s = true) : wordLiteral? s = none := by
  have hs := not_mem_reserved_of_isName h
  unfold wordLiteral?
  split
  case h_4 => rfl
  all_goals exact absurd (by decide) hs

/-! ## Doubles -/

/-- A character that the text of a double may have. -/
def inDouble (c : Char) : Bool := c.isDigit || ['-', '.', 'i', 'n', 'f', 'N', 'a'].contains c

theorem inDouble_of_isDigit (c : Char) (h : c.isDigit = true) : inDouble c = true := by
  simp [inDouble, h]

theorem isDigit_of_mem_shortest {x : Number.Binary64} {c : Char} (h : c ∈ x.shortest.digits) :
    c.isDigit = true := by
  unfold Number.Binary64.shortest at h
  have hall := List.mem_reverse.mp ((List.dropWhile_sublist _).mem (List.mem_reverse.mp h))
  exact Nat.isDigit_of_mem_toDigits (by decide) (by decide) hall

theorem all_inDouble_positional {d : Number.Digits} (h : ∀ c ∈ d.digits, c.isDigit = true) :
    d.positional.toList.all inDouble = true := by
  have hdigits : ∀ c ∈ d.digits, inDouble c = true :=
    fun c hc => inDouble_of_isDigit c (h c hc)
  have hzeros : ∀ n, ∀ c ∈ List.replicate n '0', inDouble c = true := by
    intro n c hc
    rw [(List.mem_replicate.mp hc).2]
    rfl
  rw [List.all_eq_true]
  intro c hc
  unfold Number.Digits.positional at hc
  dsimp only at hc
  split at hc
  · rw [String.toList_append, List.mem_append] at hc
    rcases hc with hc | hc
    · exact List.all_eq_true.mp (by decide : "0.".toList.all inDouble = true) c hc
    · rw [String.toList_ofList, List.mem_append] at hc
      exact hc.elim (hzeros _ c) (hdigits c)
  · split at hc
    · rw [String.toList_ofList, List.mem_append] at hc
      exact hc.elim (hdigits c) (hzeros _ c)
    · rw [String.toList_ofList, List.mem_append, List.mem_cons] at hc
      rcases hc with hc | rfl | hc
      · exact hdigits c (List.mem_of_mem_take hc)
      · rfl
      · exact hdigits c (List.mem_of_mem_drop hc)

theorem all_inDouble_text (x : Number.Binary64) : x.text.toList.all inDouble = true := by
  have hsign : (if x.negative then "-" else "").toList.all inDouble = true := by
    split <;> decide
  have hwhole : (Nat.repr (x.ratio.1 / x.ratio.2)).toList.all inDouble = true := by
    rw [List.all_eq_true]
    intro c hc
    exact inDouble_of_isDigit c (List.all_eq_true.mp (Text.all_isDigit_repr _) c hc)
  unfold Number.Binary64.text
  dsimp only
  split
  · split
    · rw [String.toList_append, List.all_append, hsign]
      decide
    · decide
  · split
    · rw [String.toList_append, String.toList_append, List.all_append, List.all_append, hsign,
        hwhole]
      decide
    · rw [String.toList_append, List.all_append, hsign]
      exact all_inDouble_positional fun c => isDigit_of_mem_shortest

/-! ## Literals -/

theorem readLiteral_quote {s : String} {cs rest : List Char} :
    readLiteral ('\x22' :: cs) = some (.string s, rest) ↔
      ∃ body, Spells '\x22' body s.toList ∧ cs = body ++ '\x22' :: rest := by
  rw [← readQuoted_eq_some (by decide), readLiteral, Option.map_eq_some_iff]
  constructor
  · rintro ⟨⟨s', rest'⟩, hread, h⟩
    obtain ⟨hs, rfl⟩ := Prod.mk.inj h
    obtain rfl := Literal.string.inj hs
    rw [hread, String.toList_ofList]
  · intro hread
    refine ⟨(s.toList, rest), hread, ?_⟩
    simp

theorem readLiteral_apostrophe {c : Char} {cs rest : List Char} :
    readLiteral ('\x27' :: cs) = some (.char c, rest) ↔
      ∃ body, Spells '\x27' body [c] ∧ cs = body ++ '\x27' :: rest := by
  rw [← readQuoted_eq_some (by decide), readLiteral, readChar]
  constructor
  · intro h
    obtain ⟨⟨c', rest'⟩, hread, h⟩ := Option.map_eq_some_iff.mp h
    obtain ⟨hc, rfl⟩ := Prod.mk.inj h
    obtain rfl := Literal.char.inj hc
    split at hread
    · rename_i hquoted
      cases hread
      exact hquoted
    · cases hread
  · intro hquoted
    rw [hquoted]
    rfl

/-- A text is read back, and reading stops at its closing quote. -/
theorem readLiteral_string (s : String) (rest : List Char) :
    readLiteral ((literalText (.string s)).toList ++ rest) = some (.string s, rest) := by
  have htext : (literalText (.string s)).toList ++ rest =
      '\x22' :: ((escapeString s).toList ++ '\x22' :: rest) := by
    simp [literalText, stringText]
  rw [htext, readLiteral_quote]
  exact ⟨_, spells_escapeString s, rfl⟩

theorem readLiteral_char (c : Char) (rest : List Char) :
    readLiteral ((literalText (.char c)).toList ++ rest) = some (.char c, rest) := by
  have htext : (literalText (.char c)).toList ++ rest =
      '\x27' :: ((escapeChar c).toList ++ '\x27' :: rest) := by
    simp [literalText, charText]
  rw [htext, readLiteral_apostrophe]
  exact ⟨_, spells_escapeChar c, rfl⟩

/-- A literal that is no float is read back. -/
theorem readLiteral_literalText {v : Literal} {rest : List Char} (hv : ∀ x, v ≠ .float x)
    (hrest : Text.startsWith inWord rest = false) :
    readLiteral ((literalText v).toList ++ rest) = some (v, rest) := by
  cases v with
  | null => exact readLiteral_word (by decide) hrest
  | bool b =>
    cases b with
    | true => exact readLiteral_word (by decide) hrest
    | false => exact readLiteral_word (by decide) hrest
  | int n =>
    have hdigit := Text.startsWith_mono inWord_of_isDigit hrest
    obtain ⟨c, cs, htext, hc⟩ := exists_intText n.toInt
    have hne : ∀ x, x.isDigit = false → x ≠ '-' → c ≠ x := by
      rintro x hx hminus rfl
      rcases hc with hc | ⟨hc, -⟩
      · rw [hx] at hc
        contradiction
      · exact hminus hc
    have hint := readInt_intText n hdigit
    rw [literalText, readLiteral]
    · simp [hint]
    · exact fun _ hcs => hne '\x22' rfl (by decide) (List.cons.inj (htext ▸ hcs)).1
    · exact fun _ hcs => hne '\x27' rfl (by decide) (List.cons.inj (htext ▸ hcs)).1
  | float x => exact absurd rfl (hv x)
  | char c => exact readLiteral_char c rest
  | string s => exact readLiteral_string s rest

/-- A text between quotes ends at the first quote that is not escaped, and so does
a character between apostrophes. Each is read back from its literal whatever stands
behind it, and reading stops at the closing quote. The escapes of a text are put in
one kind after the other, and each character is escaped as if by itself. -/
theorem quoted_literals_are_read_back :
    (∀ s cs rest, readLiteral ('\x22' :: cs) = some (.string s, rest) ↔
      ∃ body, Spells '\x22' body s.toList ∧ cs = body ++ '\x22' :: rest) ∧
    (∀ c cs rest, readLiteral ('\x27' :: cs) = some (.char c, rest) ↔
      ∃ body, Spells '\x27' body [c] ∧ cs = body ++ '\x27' :: rest) ∧
    (∀ s rest, readLiteral ((literalText (.string s)).toList ++ rest) = some (.string s, rest)) ∧
    (∀ c rest, readLiteral ((literalText (.char c)).toList ++ rest) = some (.char c, rest)) ∧
    ∀ s, escapeString s = String.ofList (s.toList.flatMap escapeInString) := by
  refine ⟨?_, ?_, readLiteral_string, readLiteral_char, escapeString_eq⟩
  · intro s cs rest
    exact readLiteral_quote
  · intro c cs rest
    exact readLiteral_apostrophe

end Recast.CSharp
