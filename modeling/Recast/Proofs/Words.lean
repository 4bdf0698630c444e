-- Words: what names are made of, and how the longest word is taken from the
-- front of a text. A name is a word that the target language does not keep
-- for itself.
import Recast.Proofs.Names

namespace Recast

/-! ## Rows of characters -/

namespace Text

/-- The text goes on with a character of this kind. -/
def startsWith (p : Char → Bool) (cs : List Char) : Bool := cs.head?.any p

@[simp] theorem startsWith_nil (p : Char → Bool) : startsWith p [] = false := rfl

@[simp] theorem startsWith_cons (p : Char → Bool) (c : Char) (cs : List Char) :
    startsWith p (c :: cs) = p c := rfl

theorem startsWith_mono {p q : Char → Bool} {cs : List Char} (hpq : ∀ c, q c = true → p c = true)
    (h : startsWith p cs = false) : startsWith q cs = false := by
  cases cs with
  | nil => rfl
  | cons c cs =>
    rw [startsWith_cons] at h ⊢
    cases hc : q c with
    | true => exact absurd (hpq c hc) (by simp [h])
    | false => rfl

theorem startsWith_append {p : Char → Bool} {cs : List Char} (rest : List Char)
    (h : startsWith p cs = true) : startsWith p (cs ++ rest) = true := by
  cases cs with
  | nil => simp at h
  | cons c cs => exact h

section

variable {p : Char → Bool} {row rest : List Char}

/-- A row of characters of one kind ends where the next is of another. -/
theorem takeWhile_row (hrow : row.all p = true) (hrest : startsWith p rest = false) :
    (row ++ rest).takeWhile p = row := by
  rw [List.takeWhile_append_of_pos (List.all_eq_true.mp hrow)]
  cases rest with
  | nil => simp
  | cons c cs =>
    rw [startsWith_cons] at hrest
    simp [hrest]

theorem dropWhile_row (hrow : row.all p = true) (hrest : startsWith p rest = false) :
    (row ++ rest).dropWhile p = rest := by
  rw [List.dropWhile_append_of_pos (List.all_eq_true.mp hrow)]
  cases rest with
  | nil => simp
  | cons c cs =>
    rw [startsWith_cons] at hrest
    simp [hrest]

end

/-- The reader gets this from the text, once it may take enough steps. -/
def Reads (read : Nat → List Char → Option α) (cs : List Char) (r : α) : Prop :=
  ∃ m, ∀ n, m ≤ n → read n cs = some r

/-- One step and enough steps behind it. -/
theorem Reads.of_step {read : Nat → List Char → Option α} {cs : List Char} {r : α}
    (h : ∃ m, ∀ n, m ≤ n → read (n + 1) cs = some r) : Reads read cs r := by
  obtain ⟨m, h⟩ := h
  refine ⟨m + 1, fun n hn => ?_⟩
  obtain ⟨n, rfl⟩ : ∃ k, n = k + 1 := ⟨n - 1, by omega⟩
  exact h n (by omega)

/-- A reader gets one thing from a text. -/
theorem Reads.unique {read : Nat → List Char → Option α} {cs : List Char} {r r' : α}
    (h : Reads read cs r) (h' : Reads read cs r') : r = r' := by
  obtain ⟨m, h⟩ := h
  obtain ⟨m', h'⟩ := h'
  have hr := h (max m m') (by omega)
  rw [h' (max m m') (by omega)] at hr
  exact (Option.some.inj hr).symm

/-- If the parts of a text are of one kind, all but the separators is. -/
theorem all_of_splitChars {p : Char → Bool} {sep : Char} {cs : List Char}
    (h : ∀ part ∈ splitChars sep cs, part.all p = true) :
    cs.all (fun c => p c || c == sep) = true := by
  induction cs with
  | nil => rfl
  | cons c cs ih =>
    unfold splitChars at h
    by_cases hc : c = sep
    · rw [if_pos hc] at h
      simpa [hc] using ih fun part hpart => h part (List.mem_cons_of_mem _ hpart)
    · rw [if_neg hc] at h
      cases hparts : splitChars sep cs with
      | nil => exact absurd hparts (splitChars_ne_nil sep cs)
      | cons part parts =>
        simp only [hparts, List.forall_mem_cons, List.all_cons, Bool.and_eq_true] at h ih
        simpa [h.1.1] using ih ⟨h.1.2, h.2⟩

/-! ## Digits -/

theorem all_isDigit_repr (n : Nat) : (Nat.repr n).toList.all Char.isDigit = true := by
  rw [Nat.repr, String.toList_ofList, List.all_eq_true]
  exact fun c hc => Nat.isDigit_of_mem_toDigits (by decide) (by decide) hc

theorem exists_repr (n : Nat) :
    ∃ c cs, (Nat.repr n).toList = c :: cs ∧ c.isDigit = true := by
  have hdigits := all_isDigit_repr n
  cases hn : (Nat.repr n).toList with
  | nil => simp [Nat.repr] at hn
  | cons c cs =>
    rw [hn, List.all_cons, Bool.and_eq_true] at hdigits
    exact ⟨c, cs, rfl, hdigits.1⟩

theorem ofDigitChars_repr (n : Nat) : Nat.ofDigitChars 10 (Nat.repr n).toList 0 = n := by
  rw [Nat.repr, String.toList_ofList, Nat.ofDigitChars_toDigits (by decide) (by decide)]

/-- Only zero is written with a zero at the front. -/
theorem head?_repr_ne {n : Nat} (hn : 0 < n) : (Nat.repr n).toList.head? ≠ some '0' := by
  rw [Nat.repr, String.toList_ofList]
  induction n using Nat.strongRecOn with
  | ind n ih =>
    by_cases hsmall : n < 10
    · have hdigits : ∀ n < 10, 0 < n → (Nat.toDigits 10 n).head? ≠ some '0' := by decide
      exact hdigits n hsmall hn
    · have hfront := ih (n / 10) (by omega) (by omega)
      rw [Nat.toDigits_of_base_le (by decide) (by omega), List.head?_append]
      cases hhead : (Nat.toDigits 10 (n / 10)).head? with
      | none => exact absurd (List.head?_eq_none_iff.mp hhead) Nat.toDigits_ne_nil
      | some c => rwa [hhead] at hfront

end Text

/-! ## Names -/

namespace CSharp

/-- A letter, a digit or an underscore. Every character beyond ASCII counts
as a letter, so the letters of all scripts do. -/
def inWord (c : Char) : Bool := c.isAlphanum || c == '_' || 0x80 ≤ c.toNat

/-- A row of word characters that does not start with a digit. -/
def isWord (s : String) : Bool :=
  match s.toList with
  | [] => false
  | c :: cs => inWord c && !c.isDigit && cs.all inWord

/-- The words that mean something else than a name. -/
def reserved : List String := ["null", "true", "false", "this", "new", "is", "default"]

def isName (s : String) : Bool := isWord s && !reserved.contains s

/-- Names with dots between them. -/
def isDottedName (s : String) : Bool := (Text.splitOn '.' s).all isName

def inDotted (c : Char) : Bool := inWord c || c == '.'

theorem inWord_of_isDigit (c : Char) (h : c.isDigit = true) : inWord c = true := by
  simp [inWord, Char.isAlphanum, h]

section

variable {s : String}

theorem isWord_of_isName (h : isName s = true) : isWord s = true := by
  unfold isName at h
  exact (Bool.and_eq_true_iff.mp h).1

theorem not_mem_reserved_of_isName (h : isName s = true) : s ∉ reserved := by
  intro hs
  unfold isName at h
  simp [hs] at h

theorem exists_of_isWord (h : isWord s = true) :
    ∃ c cs, s.toList = c :: cs ∧ inWord c = true ∧ c.isDigit = false ∧ cs.all inWord = true := by
  unfold isWord at h
  cases hs : s.toList with
  | nil => simp [hs] at h
  | cons c cs =>
    simp only [hs, Bool.and_eq_true, Bool.not_eq_true'] at h
    exact ⟨c, cs, rfl, h.1.1, h.1.2, h.2⟩

theorem all_inWord_of_isWord (h : isWord s = true) : s.toList.all inWord = true := by
  obtain ⟨c, cs, hs, hc, -, hcs⟩ := exists_of_isWord h
  rw [hs, List.all_cons, hc, hcs]
  rfl

theorem all_inDotted_of_isDottedName (h : isDottedName s = true) :
    s.toList.all inDotted = true := by
  refine Text.all_of_splitChars fun part hpart => ?_
  have hname : isName (String.ofList part) = true :=
    List.all_eq_true.mp h _ (List.mem_map_of_mem hpart)
  simpa using all_inWord_of_isWord (isWord_of_isName hname)

/-- A name is taken whole from the front of a text. -/
theorem takeWhile_name {rest : List Char} (h : isName s = true)
    (hrest : Text.startsWith inWord rest = false) :
    (s.toList ++ rest).takeWhile inWord = s.toList :=
  Text.takeWhile_row (all_inWord_of_isWord (isWord_of_isName h)) hrest

theorem dropWhile_name {rest : List Char} (h : isName s = true)
    (hrest : Text.startsWith inWord rest = false) :
    (s.toList ++ rest).dropWhile inWord = rest :=
  Text.dropWhile_row (all_inWord_of_isWord (isWord_of_isName h)) hrest

end

end CSharp

end Recast
