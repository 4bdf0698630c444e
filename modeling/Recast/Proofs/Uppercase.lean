-- Upper cases. The upper case of a character is never empty, and it holds a
-- dot or a slash only if the character is one. Its first character is its own
-- upper case, so a text whose first character is in upper case stays so.
import Recast.Text.Uppercase

namespace Recast.Text

/-! ## The tables -/

/-- The code that a run gives for `n`. -/
def CaseRun.shifted (r : CaseRun) (n : Nat) : Nat := (Int.ofNat n + r.shift).toNat

/-- The upper case of a code is in one of the tables, or it is the code. -/
theorem upperCodes_cases (n : Nat) :
    (n, upperCodes n) ∈ longCases ∨
      (∃ r ∈ caseRuns, r.covers n = true ∧ upperCodes n = [r.shifted n]) ∨
      upperCodes n = [n] := by
  unfold upperCodes
  split
  · rename_i codes hcodes
    obtain ⟨before, after, heq, -⟩ := List.lookup_eq_some_iff.mp hcodes
    left
    rw [heq]
    simp
  · right
    split
    · rename_i r hr
      have hcovers := List.find?_some hr
      exact Or.inl ⟨r, List.mem_of_find?_eq_some hr, hcovers, rfl⟩
    · exact Or.inr rfl

/-- The codes of an upper case are the code itself, or they lie behind those
of the punctuation. -/
theorem upperCodes_above (n : Nat) :
    upperCodes n ≠ [] ∧ ∀ code ∈ upperCodes n, code = n ∨ 0x2f < code := by
  have hlong : longCases.all (fun e => e.2 ≠ [] ∧ e.2.all (0x2f < ·)) = true := by decide +kernel
  have hruns : caseRuns.all (fun r => 0x2f < Int.ofNat r.first + r.shift) = true := by
    decide +kernel
  rcases upperCodes_cases n with hmem | ⟨r, hr, hcovers, hupper⟩ | hself
  · have hcase := List.all_eq_true.mp hlong _ hmem
    simp only [decide_eq_true_eq, List.all_eq_true] at hcase
    exact ⟨hcase.1, fun code hcode => Or.inr (hcase.2 code hcode)⟩
  · have hshift := List.all_eq_true.mp hruns r hr
    simp only [CaseRun.covers, Bool.and_eq_true, decide_eq_true_eq] at hcovers hshift
    rw [hupper]
    refine ⟨List.cons_ne_nil _ _, ?_⟩
    intro code hcode
    rw [List.mem_singleton, CaseRun.shifted] at hcode
    have hfirst := hcovers.1.1
    right
    simp only [Int.ofNat_eq_natCast] at hshift hcode
    omega
  · rw [hself]
    exact ⟨List.cons_ne_nil _ _, fun code hcode => Or.inl (List.mem_singleton.mp hcode)⟩

/-! ## Codes that have an upper case, and codes that start one -/

/-- The codes that a run names. -/
def CaseRun.codes (r : CaseRun) : List Nat :=
  (List.range ((r.last - r.first) / r.step + 1)).map (r.first + r.step * ·)

/-- The codes that the tables name. -/
def casedCodes : List Nat := longCases.map Prod.fst ++ caseRuns.flatMap CaseRun.codes

/-- The first codes of the upper cases in the tables. -/
def leadingCodes : List Nat :=
  longCases.filterMap (·.2.head?) ++ caseRuns.flatMap fun r => r.codes.map r.shifted

theorem CaseRun.mem_codes {r : CaseRun} {n : Nat} (h : r.covers n = true) : n ∈ r.codes := by
  simp only [CaseRun.covers, Bool.and_eq_true, decide_eq_true_eq, beq_iff_eq] at h
  obtain ⟨⟨hfirst, hlast⟩, hstep⟩ := h
  refine List.mem_map.mpr ⟨(n - r.first) / r.step, ?_, ?_⟩
  · have hle : (n - r.first) / r.step ≤ (r.last - r.first) / r.step :=
      Nat.div_le_div_right (Nat.sub_le_sub_right hlast _)
    exact List.mem_range.mpr (Nat.lt_succ_of_le hle)
  · rw [Nat.mul_div_cancel' (Nat.dvd_of_mod_eq_zero hstep)]
    omega

/-- A set of codes as the bits of one number. -/
def bitsOf : List Nat → Nat
  | [] => 0
  | n :: ns => 1 <<< n ||| bitsOf ns

theorem testBit_bitsOf {n : Nat} {ns : List Nat} (h : n ∈ ns) : (bitsOf ns).testBit n = true := by
  induction ns with
  | nil => cases h
  | cons m ms ih =>
    rw [bitsOf, Nat.testBit_or, Bool.or_eq_true]
    rcases List.mem_cons.mp h with rfl | h
    · left
      simp [Nat.testBit_shiftLeft]
    · exact Or.inr (ih h)

/-- No upper case in the tables starts with a code that has another upper case. -/
theorem not_mem_casedCodes {code : Nat} (h : code ∈ leadingCodes) : code ∉ casedCodes := by
  -- each of the codes against each run would be hundreds of thousands of comparisons
  have hdisjoint : bitsOf casedCodes &&& bitsOf leadingCodes = 0 := by decide +kernel
  intro hcased
  have hboth : (bitsOf casedCodes &&& bitsOf leadingCodes).testBit code = true := by
    rw [Nat.testBit_and, testBit_bitsOf hcased, testBit_bitsOf h]
    rfl
  rw [hdisjoint, Nat.zero_testBit] at hboth
  cases hboth

theorem upperCodes_eq_self {n : Nat} (h : n ∉ casedCodes) : upperCodes n = [n] := by
  rcases upperCodes_cases n with hmem | ⟨r, hr, hcovers, -⟩ | hself
  · exact absurd (List.mem_append_left _ (List.mem_map_of_mem hmem)) h
  · have hcodes := List.mem_flatMap.mpr ⟨r, hr, CaseRun.mem_codes hcovers⟩
    exact absurd (List.mem_append_right _ hcodes) h
  · exact hself

/-- The first code of an upper case is its own upper case. -/
theorem upperCodes_leading {n code : Nat} {codes : List Nat} (h : upperCodes n = code :: codes) :
    upperCodes code = [code] := by
  rcases upperCodes_cases n with hmem | ⟨r, hr, hcovers, hupper⟩ | hself
  · refine upperCodes_eq_self (not_mem_casedCodes (List.mem_append_left _ ?_))
    rw [h] at hmem
    exact List.mem_filterMap.mpr ⟨_, hmem, rfl⟩
  · refine upperCodes_eq_self (not_mem_casedCodes (List.mem_append_right _ ?_))
    obtain rfl : code = r.shifted n := by
      rw [h] at hupper
      exact (List.cons.inj hupper).1
    exact List.mem_flatMap.mpr ⟨r, hr, List.mem_map_of_mem (CaseRun.mem_codes hcovers)⟩
  · obtain rfl : code = n := by
      rw [h] at hself
      exact (List.cons.inj hself).1
    exact hself

/-! ## Upper cases of characters -/

theorem upper_ne_nil (c : Char) : upper c ≠ [] := by
  simpa [upper] using (upperCodes_above c.toNat).1

/-- A code stands for its character, or for none and then for the zero. -/
theorem toNat_ofNat (code : Nat) : (Char.ofNat code).toNat = code ∨ (Char.ofNat code).toNat = 0 := by
  unfold Char.ofNat
  by_cases hvalid : code.isValidChar
  · rw [dif_pos hvalid]
    exact Or.inl rfl
  · rw [dif_neg hvalid]
    exact Or.inr rfl

/-- A character up to the slash is in no upper case but its own. -/
theorem eq_of_mem_upper {c d : Char} (hd : 0 < d.toNat ∧ d.toNat ≤ 0x2f) (h : d ∈ upper c) :
    c = d := by
  obtain ⟨code, hcode, rfl⟩ := List.mem_map.mp h
  have hval : (Char.ofNat code).toNat = code := (toNat_ofNat code).resolve_right (by omega)
  rw [hval] at hd
  rcases (upperCodes_above c.toNat).2 code hcode with rfl | habove
  · exact (Char.ofNat_toNat c).symm
  · omega

/-- A character whose code is its own upper case is so itself. -/
theorem upper_eq_self {c : Char} (h : upperCodes c.toNat = [c.toNat]) : upper c = [c] := by
  rw [upper, h, List.map_singleton, Char.ofNat_toNat]

/-- The first character of an upper case is its own upper case. -/
theorem upper_leading {c d : Char} {ds : List Char} (h : upper c = d :: ds) : upper d = [d] := by
  obtain ⟨code, codes, hcodes, rfl, -⟩ := List.map_eq_cons_iff.mp h
  apply upper_eq_self
  rcases toNat_ofNat code with hval | hzero
  · rw [hval]
    exact upperCodes_leading hcodes
  · rw [hzero]
    decide +kernel

end Recast.Text
