-- Types are read back from their texts, if their names are dotted names and
-- nothing stands behind them that could be a part of them.
import Recast.CSharp.Expr
import Recast.Proofs.Leaves
import Recast.Proofs.Words

namespace Recast.CSharp

/-- The count of the empty brackets at the front. -/
def readDims : List Char → Nat × List Char
  | '[' :: ']' :: cs => ((readDims cs).1 + 1, (readDims cs).2)
  | cs => (0, cs)

mutual

/-- The type at the front of a text, in so many steps. -/
def readType : Nat → List Char → Option (TypeRef × List Char)
  | 0, _ => none
  | n + 1, cs => do
    let (args, rest) ←
      (match cs.dropWhile inDotted with
        | '<' :: cs => readTypes n cs
        | cs => some ([], cs))
    some (⟨String.ofList (cs.takeWhile inDotted), args, UInt8.ofNat (readDims rest).1⟩,
      (readDims rest).2)

/-- Types with commas between them, up to the bracket that ends them. -/
def readTypes : Nat → List Char → Option (List TypeRef × List Char)
  | 0, _ => none
  | n + 1, cs => do
    match ← readType n cs with
    | (t, ',' :: ' ' :: rest) =>
      let (ts, rest) ← readTypes n rest
      some (t :: ts, rest)
    | (t, '>' :: rest) => some ([t], rest)
    | _ => none

end

/-- A character with which the text of a type may go on. -/
def inType (c : Char) : Bool := inDotted c || c == '<' || c == '['

theorem toList_dimsText_cons (n : Nat) : (String.join (List.replicate (n + 1) "[]")).toList =
    '[' :: ']' :: (String.join (List.replicate n "[]")).toList := by
  simp [String.toList_join, List.replicate_succ]

theorem readDims_dimsText (dims : UInt8) {rest : List Char}
    (hrest : Text.startsWith inType rest = false) :
    readDims ((dimsText dims).toList ++ rest) = (dims.toNat, rest) := by
  have hnone : readDims rest = (0, rest) := by
    unfold readDims
    split
    · simp [inType] at hrest
    · rfl
  unfold dimsText
  induction dims.toNat with
  | zero => simpa [String.join] using hnone
  | succ n ih => rw [toList_dimsText_cons, List.cons_append, List.cons_append, readDims, ih]

/-- Dimensions are no part of the name and of the arguments before them. -/
theorem startsWith_dimsText (dims : UInt8) {rest : List Char}
    (hrest : Text.startsWith inType rest = false) :
    Text.startsWith (fun c => inDotted c || c == '<') ((dimsText dims).toList ++ rest) = false := by
  unfold dimsText
  cases dims.toNat with
  | zero =>
    refine Text.startsWith_mono (fun c hc => ?_) hrest
    rw [inType, hc, Bool.true_or]
  | succ n =>
    rw [toList_dimsText_cons]
    rfl

mutual

theorem readType_typeText (t : TypeRef) (h : t.identities.all isDottedName = true)
    {rest : List Char} (hrest : Text.startsWith inType rest = false) :
    Text.Reads readType ((typeText t).toList ++ rest) (t, rest) := by
  obtain ⟨name, args, dims⟩ := t
  simp only [TypeRef.identities, TypeRef.parts, List.map_cons, List.all_cons, Bool.and_eq_true] at h
  have hname := all_inDotted_of_isDottedName h.1
  have hdims := startsWith_dimsText dims hrest
  apply Text.Reads.of_step
  cases args with
  | nil =>
    have htext : (typeText ⟨name, [], dims⟩).toList ++ rest =
        name.toList ++ ((dimsText dims).toList ++ rest) := by
      simp [typeText]
    have hend := Text.startsWith_mono (q := inDotted) (by simp +contextual) hdims
    refine ⟨0, fun n _ => ?_⟩
    rw [htext, readType, Text.takeWhile_row hname hend, Text.dropWhile_row hname hend]
    split
    · rename_i heq
      simp [heq] at hdims
    · simp [readDims_dimsText dims hrest]
  | cons arg args =>
    have htext : (typeText ⟨name, arg :: args, dims⟩).toList ++ rest =
        name.toList ++ '<' :: ((typeTexts (arg :: args)).toList ++
          '>' :: ((dimsText dims).toList ++ rest)) := by
      simp [typeText]
    obtain ⟨m, hargs⟩ := readTypes_typeTexts (arg :: args) (by simp) h.2
      ((dimsText dims).toList ++ rest)
    refine ⟨m, fun n hn => ?_⟩
    rw [htext, readType, Text.takeWhile_row hname rfl, Text.dropWhile_row hname rfl]
    simp [hargs n hn, readDims_dimsText dims hrest]

theorem readTypes_typeTexts (ts : List TypeRef) (hne : ts ≠ [])
    (h : ((TypeRef.allParts ts).map (·.name)).all isDottedName = true) (rest : List Char) :
    Text.Reads readTypes ((typeTexts ts).toList ++ '>' :: rest) (ts, rest) := by
  apply Text.Reads.of_step
  match ts with
  | [] => exact absurd rfl hne
  | [t] =>
    simp only [TypeRef.allParts, List.map_append, List.all_append, Bool.and_eq_true] at h
    obtain ⟨m, ht⟩ : Text.Reads readType ((typeText t).toList ++ '>' :: rest) (t, '>' :: rest) :=
      readType_typeText t h.1 rfl
    refine ⟨m, fun n hn => ?_⟩
    rw [typeTexts, readTypes, ht n hn]
    rfl
  | t :: t' :: ts =>
    have htext : (typeTexts (t :: t' :: ts)).toList ++ '>' :: rest =
        (typeText t).toList ++ ',' :: ' ' :: ((typeTexts (t' :: ts)).toList ++ '>' :: rest) := by
      simp [typeTexts]
    rw [TypeRef.allParts, List.map_append, List.all_append, Bool.and_eq_true] at h
    obtain ⟨m, hts⟩ := readTypes_typeTexts (t' :: ts) (by simp) h.2 rest
    rw [htext]
    generalize (typeTexts (t' :: ts)).toList ++ '>' :: rest = cs at hts
    obtain ⟨m', ht⟩ : Text.Reads readType ((typeText t).toList ++ ',' :: ' ' :: cs)
        (t, ',' :: ' ' :: cs) :=
      readType_typeText t h.1 rfl
    refine ⟨max m m', fun n hn => ?_⟩
    rw [readTypes, ht n (by omega)]
    simp [hts n (by omega)]

end

end Recast.CSharp
