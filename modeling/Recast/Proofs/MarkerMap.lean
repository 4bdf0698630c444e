-- The map of markers. Paths are ordered by their steps, and two paths are
-- equal in that order when they are the same path. In a map that is in
-- order, a change of one unit is seen under every spelling of its path and
-- under no other path.
import Recast.Marker

namespace Recast

/-! ## The order of paths -/

namespace Path

/-- The word of a step, if it has one. -/
def Component.word : Component → String
  | .name s => s
  | _ => ""

theorem Component.compare_eq (a b : Component) :
    a.compare b = compareLex (compareOn Component.rank) (compareOn Component.word) a b := by
  cases a <;> cases b <;> rfl

instance : Std.TransCmp Component.compare := by
  have h : Component.compare = compareLex (compareOn Component.rank) (compareOn Component.word) :=
    funext fun a => funext fun b => Component.compare_eq a b
  rw [h]
  infer_instance

instance : Std.LawfulEqCmp Component.compare where
  eq_of_compare {a b} h := by
    cases a <;> cases b
    all_goals first
      | rfl
      | exact congrArg Component.name (Std.LawfulEqOrd.eq_of_compare h)
      | cases h

theorem compareSteps_eq (as bs : List Component) :
    compareSteps as bs = List.compareLex Component.compare as bs := by
  induction as generalizing bs with
  | nil => cases bs <;> rfl
  | cons a as ih =>
    cases bs with
    | nil => rfl
    | cons b bs =>
      have hstep : compareSteps (a :: as) (b :: bs) = (a.compare b).then (compareSteps as bs) := by
        rw [compareSteps]
        cases a.compare b <;> rfl
      rw [hstep, ih, List.compareLex_cons_cons]

theorem compare_def (p q : Path) :
    p.compare q = List.compareLex Component.compare p.components q.components :=
  compareSteps_eq _ _

theorem same_iff {p q : Path} : p.same q = true ↔ p.components = q.components := by
  simp [same]

theorem compare_eq_iff {p q : Path} : p.compare q = .eq ↔ p.same q = true := by
  rw [compare_def, same_iff]
  exact Std.LawfulEqCmp.compare_eq_iff_eq

theorem compare_lt_trans {p q r : Path} (h : p.compare q = .lt) (h' : q.compare r = .lt) :
    p.compare r = .lt := by
  rw [compare_def] at *
  exact Std.TransCmp.lt_trans h h'

theorem compare_swap (p q : Path) : p.compare q = (q.compare p).swap := by
  rw [compare_def, compare_def]
  exact Std.OrientedCmp.eq_swap

/-- A path is compared like every other spelling of it. -/
theorem compare_congr {p q : Path} (h : p.same q = true) (r : Path) :
    p.compare r = q.compare r := by
  rw [compare_def, compare_def, same_iff.mp h]

@[simp] theorem same_refl (p : Path) : p.same p = true := same_iff.mpr rfl

theorem same_comm (p q : Path) : p.same q = q.same p := by
  rw [Bool.eq_iff_iff, same_iff, same_iff]
  exact eq_comm

theorem same_trans {p q r : Path} (h : p.same q = true) : p.same r = q.same r := by
  rw [Bool.eq_iff_iff, same_iff, same_iff, same_iff.mp h]

/-- A path that comes before another is not the same path. -/
theorem not_same_of_lt {p q : Path} (h : p.compare q = .lt) : p.same q = false := by
  rw [Bool.eq_false_iff]
  intro hsame
  rw [compare_eq_iff.mpr hsame] at h
  cases h

end Path

/-! ## Maps in order -/

namespace MarkerMap

/-- The entries are in the order of their paths. -/
def Sorted (m : MarkerMap) : Prop := m.entries.Pairwise fun a b => a.1.compare b.1 = .lt

theorem sorted_empty : empty.Sorted := List.Pairwise.nil

/-- What the entries hold for a path. -/
def lookup (p : Path) (entries : List (Path × List Marker)) : Option (List Marker) :=
  (entries.find? (·.1.same p)).map (·.2)

theorem lookup_cons (p q : Path) (ms : List Marker) (rest : List (Path × List Marker)) :
    lookup p ((q, ms) :: rest) = if q.same p then some ms else lookup p rest := by
  unfold lookup
  rw [List.find?_cons]
  cases q.same p <;> rfl

theorem lookup_eq_none {p : Path} {entries : List (Path × List Marker)}
    (h : ∀ e ∈ entries, p.compare e.1 = .lt) : lookup p entries = none := by
  unfold lookup
  rw [Option.map_eq_none_iff, List.find?_eq_none]
  intro e he
  rw [Path.same_comm, Path.not_same_of_lt (h e he)]
  exact Bool.false_ne_true

/-- The change is seen under the path of the unit, and under no other. -/
theorem lookup_alterIn (unit p : Path) (f : Option (List Marker) → List Marker)
    {entries : List (Path × List Marker)}
    (hs : entries.Pairwise fun a b => a.1.compare b.1 = .lt) :
    lookup p (alterIn unit f entries) =
      if p.same unit then some (f (lookup p entries)) else lookup p entries := by
  induction entries with
  | nil => rw [alterIn, lookup_cons, Path.same_comm]; rfl
  | cons entry rest ih =>
    obtain ⟨q, ms⟩ := entry
    obtain ⟨hq, hrest⟩ := List.pairwise_cons.mp hs
    unfold alterIn
    split
    · rename_i hlt
      rw [lookup_cons, Path.same_comm]
      split
      · rename_i hsame
        have hnone : lookup p ((q, ms) :: rest) = none := by
          apply lookup_eq_none
          intro e he
          rw [Path.compare_congr hsame]
          rcases List.mem_cons.mp he with rfl | he
          · exact hlt
          · exact Path.compare_lt_trans hlt (hq e he)
        rw [hnone]
      · rfl
    · rename_i heq
      have hsame : q.same p = p.same unit := by
        rw [Path.same_comm p unit]
        exact (Path.same_trans (Path.compare_eq_iff.mp heq)).symm
      rw [lookup_cons, lookup_cons, hsame]
      split <;> rfl
    · rename_i hgt
      rw [lookup_cons, lookup_cons, ih hrest]
      split
      · rename_i hqp
        have hother : p.same unit = false := by
          rw [← Path.same_trans hqp]
          apply Path.not_same_of_lt
          rw [Path.compare_swap, hgt]
          rfl
        rw [hother]
        rfl
      · rfl

theorem mem_alterIn {unit : Path} {f : Option (List Marker) → List Marker}
    {entries : List (Path × List Marker)} {e : Path × List Marker}
    (h : e ∈ alterIn unit f entries) : e.1 = unit ∨ ∃ e' ∈ entries, e.1 = e'.1 := by
  induction entries with
  | nil =>
    rw [alterIn, List.mem_singleton] at h
    exact Or.inl (congrArg Prod.fst h)
  | cons entry rest ih =>
    obtain ⟨q, ms⟩ := entry
    unfold alterIn at h
    split at h
    · rcases List.mem_cons.mp h with rfl | h
      · exact Or.inl rfl
      · exact Or.inr ⟨e, h, rfl⟩
    · rcases List.mem_cons.mp h with rfl | h
      · exact Or.inr ⟨(q, ms), List.mem_cons_self, rfl⟩
      · exact Or.inr ⟨e, List.mem_cons_of_mem _ h, rfl⟩
    · rcases List.mem_cons.mp h with rfl | h
      · exact Or.inr ⟨(q, ms), List.mem_cons_self, rfl⟩
      · rcases ih h with hu | ⟨e', he', heq⟩
        · exact Or.inl hu
        · exact Or.inr ⟨e', List.mem_cons_of_mem _ he', heq⟩

theorem sorted_alterIn (unit : Path) (f : Option (List Marker) → List Marker)
    {entries : List (Path × List Marker)}
    (hs : entries.Pairwise fun a b => a.1.compare b.1 = .lt) :
    (alterIn unit f entries).Pairwise fun a b => a.1.compare b.1 = .lt := by
  induction entries with
  | nil => exact List.pairwise_singleton _ _
  | cons entry rest ih =>
    obtain ⟨q, ms⟩ := entry
    obtain ⟨hq, hrest⟩ := List.pairwise_cons.mp hs
    unfold alterIn
    split
    · rename_i hlt
      refine List.Pairwise.cons ?_ hs
      intro e he
      rcases List.mem_cons.mp he with rfl | he
      · exact hlt
      · exact Path.compare_lt_trans hlt (hq e he)
    · exact List.Pairwise.cons hq hrest
    · rename_i hgt
      refine List.Pairwise.cons ?_ (ih hrest)
      intro e he
      rcases mem_alterIn he with hu | ⟨e', he', heq⟩
      · rw [hu, Path.compare_swap, hgt]
        rfl
      · rw [heq]
        exact hq e' he'

/-- Without the entry of a unit, nothing is seen under its path. -/
theorem lookup_filter (unit p : Path) (entries : List (Path × List Marker)) :
    lookup p (entries.filter fun e => !e.1.same unit) =
      if p.same unit then none else lookup p entries := by
  induction entries with
  | nil => exact (ite_self none).symm
  | cons entry rest ih =>
    obtain ⟨q, ms⟩ := entry
    rw [List.filter_cons, lookup_cons]
    cases hqp : q.same p with
    | true =>
      have hsame : q.same unit = p.same unit := Path.same_trans hqp
      rw [hsame]
      cases hu : p.same unit with
      | true => simpa [hu] using ih
      | false => simp [lookup_cons, hqp]
    | false =>
      cases q.same unit with
      | true => exact ih
      | false => simpa [lookup_cons, hqp] using ih

/-! ## Adding and clearing -/

theorem get_eq_lookup (m : MarkerMap) (p : Path) : m.get p = (lookup p m.entries).getD [] := rfl

theorem get_add {m : MarkerMap} (hs : m.Sorted) (unit p : Path) (marker : Marker) :
    (m.add unit marker).get p = if p.same unit then m.get p ++ [marker] else m.get p := by
  rw [get_eq_lookup, add, lookup_alterIn unit p _ hs, get_eq_lookup]
  split
  · rfl
  · rfl

theorem sorted_add {m : MarkerMap} (hs : m.Sorted) (unit : Path) (marker : Marker) :
    (m.add unit marker).Sorted := sorted_alterIn unit _ hs

theorem get_clear (m : MarkerMap) (unit p : Path) :
    (m.clear unit).get p = if p.same unit then [] else m.get p := by
  rw [get_eq_lookup, clear, lookup_filter, get_eq_lookup]
  split
  · rfl
  · rfl

theorem sorted_clear {m : MarkerMap} (hs : m.Sorted) (unit : Path) : (m.clear unit).Sorted :=
  List.Pairwise.filter _ hs

end MarkerMap

end Recast
