-- Dotted names come apart at their last dot and go together again, so the
-- dotted identity of a method leads to the key under which its type declares
-- it. Sets of names hold what was put into them.
import Recast.Name
import Recast.Text.NameSet

namespace Recast

namespace Text

/-! ## Cutting and joining -/

theorem splitChars_eq (sep : Char) (cs : List Char) : splitChars sep cs = cs.splitOn sep := by
  induction cs with
  | nil => simp [splitChars]
  | cons c cs ih =>
    rw [List.splitOn_cons_eq_if_modifyHead, splitChars, ih]
    by_cases hc : c = sep
    · simp [hc]
    · rw [if_neg hc, if_neg (by simpa using hc)]
      cases hparts : cs.splitOn sep with
      | nil => exact absurd hparts (List.splitOn_ne_nil sep cs)
      | cons part parts => rfl

theorem joinWith_eq (sep : String) (parts : List String) :
    joinWith sep parts = sep.intercalate parts := by
  fun_induction joinWith sep parts with
  | case1 => simp
  | case2 part => simp
  | case3 part parts hparts ih =>
    rw [ih, String.intercalate_cons_of_ne_nil (by simpa using hparts)]

theorem joinWith_splitOn (s : String) : joinWith "." (splitOn '.' s) = s := by
  apply String.toList_injective
  have hsep : ".".toList = ['.'] := by decide
  have hparts : (splitOn '.' s).map String.toList = s.toList.splitOn '.' := by
    simp [splitOn, splitChars_eq, Function.comp_def]
  rw [joinWith_eq, String.toList_intercalate, hparts, hsep, List.intercalate_splitOn]

/-- A text comes apart at its dots only in one way. -/
theorem splitOn_injective : Function.Injective (splitOn '.') :=
  Function.LeftInverse.injective joinWith_splitOn

theorem splitOn_append (owner name : String) :
    splitOn '.' (owner ++ "." ++ name) = splitOn '.' owner ++ splitOn '.' name := by
  have hchars : (owner ++ "." ++ name).toList = owner.toList ++ '.' :: name.toList := by
    simp
  unfold splitOn
  rw [hchars, splitChars_eq, splitChars_eq, splitChars_eq, List.splitOn_append_cons_self,
    List.map_append]

/-- A word without dots is the last part. -/
theorem splitOn_dotted (owner : String) {name : String} (h : '.' ∉ name.toList) :
    splitOn '.' (owner ++ "." ++ name) = splitOn '.' owner ++ [name] := by
  have hname : splitOn '.' name = [name] := by
    unfold splitOn
    rw [splitChars_eq, List.splitOn_eq_singleton h]
    simp
  rw [splitOn_append, hname]

end Text

/-! ## Identities of methods -/

section

variable {owner name : String}

theorem simpleName_dotted (h : '.' ∉ name.toList) : simpleName (owner ++ "." ++ name) = name := by
  simp [simpleName, Text.splitOn_dotted owner h]

theorem ownerName_dotted (h : '.' ∉ name.toList) : ownerName (owner ++ "." ++ name) = owner := by
  simp [ownerName, Text.splitOn_dotted owner h, Text.joinWith_splitOn]

/-- The dotted identity of a method leads to the key of its declaration. -/
theorem memberKeyOfBinding_dotted (h : '.' ∉ name.toList) :
    memberKeyOfBinding (owner ++ "." ++ name) = memberKey owner name := by
  rw [memberKeyOfBinding, ownerName_dotted h, simpleName_dotted h]

end

/-! ## Sets of names -/

namespace Text.NameSet

theorem mem_place {name other : String} {names : List String} :
    other ∈ place name names ↔ other = name ∨ other ∈ names := by
  induction names with
  | nil => simp [place]
  | cons n ns ih =>
    unfold place
    cases hcompare : compare name n with
    | lt => simp
    | eq =>
      obtain rfl := Std.LawfulEqCmp.eq_of_compare hcompare
      simp
    | gt => simp [ih, or_left_comm]

theorem mem_insert {s : NameSet} {name other : String} :
    other ∈ (s.insert name).names ↔ other = name ∨ other ∈ s.names :=
  mem_place

theorem mem_insertAll {s : NameSet} {names : List String} {other : String} :
    other ∈ (names.foldl insert s).names ↔ other ∈ names ∨ other ∈ s.names := by
  induction names generalizing s with
  | nil => simp
  | cons n ns ih =>
    rw [List.foldl_cons, ih, mem_insert, List.mem_cons, or_assoc, or_left_comm]

end Text.NameSet

end Recast
