-- The table of bindings over a run. Of what a unit declares, the table takes
-- the entries up to the first identity that is taken already, and which
-- these are depends only on what the table says of the declared identities.
-- What was bound once stays bound.
import Recast.Recasting.Unit

namespace Recast

/-! ## Entries -/

/-- The identities of some entries. -/
def keysOf (entries : List (String × TargetRef)) : List String := entries.map Prod.fst

theorem mem_keysOf {entries : List (String × TargetRef)} {key : String} {ref : TargetRef}
    (h : (key, ref) ∈ entries) : key ∈ keysOf entries :=
  List.mem_map.mpr ⟨(key, ref), h, rfl⟩

theorem mem_of_lookup_eq_some {entries : List (String × TargetRef)} {key : String}
    {ref : TargetRef} (h : entries.lookup key = some ref) : (key, ref) ∈ entries := by
  obtain ⟨before, after, rfl, -⟩ := List.lookup_eq_some_iff.mp h
  simp

/-- If no identity stands twice, to look one up is to find its entry. -/
theorem lookup_eq_some_iff_mem {entries : List (String × TargetRef)}
    (h : (keysOf entries).Nodup) {key : String} {ref : TargetRef} :
    entries.lookup key = some ref ↔ (key, ref) ∈ entries := by
  induction entries with
  | nil => simp
  | cons entry rest ih =>
    obtain ⟨key', ref'⟩ := entry
    unfold keysOf at h
    rw [List.map_cons, List.nodup_cons] at h
    obtain ⟨hnew, hrest⟩ := h
    rw [List.lookup_cons, List.mem_cons]
    by_cases hkey : key = key'
    · subst hkey
      have hnot : (key, ref) ∉ rest := fun hmem => hnew (mem_keysOf hmem)
      simp [hnot, eq_comm]
    · have hne : (key == key') = false := beq_eq_false_iff_ne.mpr hkey
      simp [hne, hkey, ih hrest]

theorem lookup_perm {entries entries' : List (String × TargetRef)} (h : entries.Perm entries')
    (hnodup : (keysOf entries).Nodup) (key : String) :
    entries.lookup key = entries'.lookup key := by
  have hnodup' : (keysOf entries').Nodup := (h.map Prod.fst).nodup_iff.mp hnodup
  apply Option.ext
  intro ref
  rw [lookup_eq_some_iff_mem hnodup, lookup_eq_some_iff_mem hnodup', h.mem_iff]

theorem lookup_eq_none_of_not_mem {entries : List (String × TargetRef)} {key : String}
    (h : key ∉ keysOf entries) : entries.lookup key = none := by
  rw [List.lookup_eq_none_iff]
  intro entry hentry
  rw [bne_iff_ne]
  rintro rfl
  exact h (List.mem_map_of_mem hentry)

/-! ## Tables -/

namespace Bindings

variable {b b' : Bindings} {entries : List (String × TargetRef)} {key : String} {ref : TargetRef}

/-- The table with more entries at its end. -/
def extend (b : Bindings) (entries : List (String × TargetRef)) : Bindings :=
  ⟨b.entries ++ entries⟩

@[simp] theorem extend_nil (b : Bindings) : b.extend [] = b := by
  simp [extend]

theorem extend_inj {b : Bindings} {entries entries' : List (String × TargetRef)} :
    b.extend entries = b.extend entries' ↔ entries = entries' := by
  simp [extend]

theorem extend_eq_self {b : Bindings} {entries : List (String × TargetRef)} :
    b.extend entries = b ↔ entries = [] := by
  have hnil : b.extend entries = b.extend [] ↔ entries = [] := extend_inj
  rwa [extend_nil] at hnil

theorem extend_extend (b : Bindings) (entries entries' : List (String × TargetRef)) :
    (b.extend entries).extend entries' = b.extend (entries ++ entries') := by
  simp [extend]

theorem find?_extend (b : Bindings) (entries : List (String × TargetRef)) (key : String) :
    (b.extend entries).find? key = (b.find? key).or (entries.lookup key) :=
  List.lookup_append

/-- What is bound stays bound when the table grows. -/
theorem find?_extend_of_some (h : b.find? key = some ref)
    (entries : List (String × TargetRef)) : (b.extend entries).find? key = some ref := by
  rw [find?_extend, h, Option.some_or]

/-- Both tables say the same of these identities. -/
def AgreeOn (keys : List String) (b b' : Bindings) : Prop :=
  ∀ key ∈ keys, b.find? key = b'.find? key

theorem AgreeOn.mono {keys keys' : List String} (h : AgreeOn keys b b')
    (hsub : ∀ key ∈ keys', key ∈ keys) : AgreeOn keys' b b' :=
  fun key hkey => h key (hsub key hkey)

theorem AgreeOn.extend {keys : List String} (h : AgreeOn keys b b')
    (entries : List (String × TargetRef)) :
    AgreeOn keys (b.extend entries) (b'.extend entries) := by
  intro key hkey
  rw [find?_extend, find?_extend, h key hkey]

/-- A table that grows by other identities says the same of these. -/
theorem agreeOn_extend {keys : List String} (b : Bindings)
    (h : ∀ key ∈ keys, key ∉ keysOf entries) : AgreeOn keys b (b.extend entries) := by
  intro key hkey
  rw [find?_extend, lookup_eq_none_of_not_mem (h key hkey), Option.or_none]

/-- The identities of the entries are free, and no two are the same. -/
structure Fresh (b : Bindings) (entries : List (String × TargetRef)) : Prop where
  nodup : (keysOf entries).Nodup
  free : ∀ key ∈ keysOf entries, b.find? key = none

theorem Fresh.find? (h : b.Fresh entries) (hmem : (key, ref) ∈ entries) :
    (b.extend entries).find? key = some ref := by
  rw [find?_extend, h.free key (mem_keysOf hmem), Option.none_or]
  exact (lookup_eq_some_iff_mem h.nodup).mpr hmem

/-! ## Binding -/

/-- The entries that the table takes: all before the first one whose
identity is bound. -/
def accepted (b : Bindings) : List (String × TargetRef) → List (String × TargetRef)
  | [] => []
  | (key, ref) :: rest =>
    if (b.find? key).isSome then [] else (key, ref) :: (b.extend [(key, ref)]).accepted rest

theorem accepted_cons_of_some (h : b.find? key = some ref) (ref' : TargetRef)
    (rest : List (String × TargetRef)) : b.accepted ((key, ref') :: rest) = [] := by
  simp [accepted, h]

theorem accepted_cons_of_none (h : b.find? key = none) (ref : TargetRef)
    (rest : List (String × TargetRef)) :
    b.accepted ((key, ref) :: rest) = (key, ref) :: (b.extend [(key, ref)]).accepted rest := by
  simp [accepted, h]

theorem bindAll_cons_of_some (h : b.find? key = some ref) (ref' : TargetRef)
    (rest : List (String × TargetRef)) :
    b.bindAll ((key, ref') :: rest) = (b, some ⟨key, ref.fullName, ref'.fullName⟩) := by
  simp [bindAll, bind, h]

theorem bindAll_cons_of_none (h : b.find? key = none) (ref : TargetRef)
    (rest : List (String × TargetRef)) :
    b.bindAll ((key, ref) :: rest) = (b.extend [(key, ref)]).bindAll rest := by
  simp [bindAll, bind, h, extend]

/-- Binding leaves the table with the entries that it takes. -/
theorem bindAll_fst (b : Bindings) (entries : List (String × TargetRef)) :
    (b.bindAll entries).1 = b.extend (b.accepted entries) := by
  induction entries generalizing b with
  | nil => simp [bindAll, accepted]
  | cons entry rest ih =>
    obtain ⟨key, ref⟩ := entry
    cases hkey : b.find? key with
    | some existing => simp [bindAll_cons_of_some hkey, accepted_cons_of_some hkey]
    | none =>
      rw [bindAll_cons_of_none hkey, accepted_cons_of_none hkey, ih, extend_extend]
      rfl

theorem accepted_prefix (b : Bindings) (entries : List (String × TargetRef)) :
    b.accepted entries <+: entries := by
  induction entries generalizing b with
  | nil => exact List.prefix_refl _
  | cons entry rest ih =>
    obtain ⟨key, ref⟩ := entry
    cases hkey : b.find? key with
    | some existing =>
      rw [accepted_cons_of_some hkey]
      exact List.nil_prefix
    | none =>
      rw [accepted_cons_of_none hkey, List.prefix_cons_inj]
      exact ih _

theorem accepted_fresh (b : Bindings) (entries : List (String × TargetRef)) :
    b.Fresh (b.accepted entries) := by
  induction entries generalizing b with
  | nil => exact ⟨List.nodup_nil, fun _ h => absurd h List.not_mem_nil⟩
  | cons entry rest ih =>
    obtain ⟨key, ref⟩ := entry
    cases hkey : b.find? key with
    | some existing =>
      rw [accepted_cons_of_some hkey]
      exact ⟨List.nodup_nil, fun _ h => absurd h List.not_mem_nil⟩
    | none =>
      rw [accepted_cons_of_none hkey]
      obtain ⟨hnodup, hfree⟩ := ih (b.extend [(key, ref)])
      -- an identity that is free with the entry is free without it, and is another
      have hrest : ∀ key' ∈ keysOf ((b.extend [(key, ref)]).accepted rest),
          b.find? key' = none ∧ key' ≠ key := by
        intro key' hmem
        have hnone := hfree key' hmem
        rw [find?_extend, Option.or_eq_none_iff] at hnone
        refine ⟨hnone.1, ?_⟩
        rintro rfl
        simp at hnone
      refine ⟨List.nodup_cons.mpr ⟨fun hmem => (hrest key hmem).2 rfl, hnodup⟩, ?_⟩
      intro key' hmem
      rcases List.mem_cons.mp hmem with rfl | hmem
      · exact hkey
      · exact (hrest key' hmem).1

/-- If nothing is refused, all entries are taken. -/
theorem accepted_of_bindAll_ok (h : (b.bindAll entries).2 = none) : b.accepted entries = entries := by
  induction entries generalizing b with
  | nil => rfl
  | cons entry rest ih =>
    obtain ⟨key, ref⟩ := entry
    cases hkey : b.find? key with
    | some existing => simp [bindAll_cons_of_some hkey] at h
    | none =>
      rw [bindAll_cons_of_none hkey] at h
      rw [accepted_cons_of_none hkey, ih h]

/-- Tables that agree on the identities take the same entries and refuse
the same one. -/
theorem AgreeOn.bindAll (h : AgreeOn (keysOf entries) b b') :
    b.accepted entries = b'.accepted entries ∧
      (b.bindAll entries).2 = (b'.bindAll entries).2 := by
  induction entries generalizing b b' with
  | nil => exact ⟨rfl, rfl⟩
  | cons entry rest ih =>
    obtain ⟨key, ref⟩ := entry
    have hsame : b.find? key = b'.find? key := h key (List.mem_cons_self ..)
    cases hkey : b'.find? key with
    | some existing =>
      rw [hkey] at hsame
      simp [accepted_cons_of_some hkey, accepted_cons_of_some hsame, bindAll_cons_of_some hkey,
        bindAll_cons_of_some hsame]
    | none =>
      rw [hkey] at hsame
      have hrest : AgreeOn (keysOf rest) b b' := h.mono fun _ => List.mem_cons_of_mem _
      obtain ⟨haccepted, herror⟩ := ih (hrest.extend [(key, ref)])
      rw [accepted_cons_of_none hkey, accepted_cons_of_none hsame, bindAll_cons_of_none hkey,
        bindAll_cons_of_none hsame, haccepted]
      exact ⟨rfl, herror⟩

end Bindings

/-! ## One unit -/

namespace SourceUnit

variable {u : SourceUnit} {b : Bindings} {key : String} {ref : TargetRef}

/-- The identities that the unit declares. -/
def declaredKeys (u : SourceUnit) : List String := keysOf u.declarations

/-- What recasting the types gives once the unit is bound. -/
def recastTypes (u : SourceUnit) (bound : Bindings) : List Target.TypeDecl × Recasting.Notes :=
  (Recasting.typeDecls ⟨bound, u.space⟩ u.qualify u.types).run .empty

/-- What the unit becomes once it is bound. -/
def targetOf (u : SourceUnit) (bound : Bindings) : TargetUnit where
  path := u.path
  space := u.space
  usings := (u.recastTypes bound).2.usings
  types := (u.recastTypes bound).1
  suppressed := (u.recastTypes bound).1.isEmpty

theorem recast_of_refused {e : BindError} (h : (b.bindAll u.declarations).2 = some e) :
    u.recast b = ⟨b.extend (b.accepted u.declarations), [], .error e⟩ := by
  have hbind : b.bindAll u.declarations = (b.extend (b.accepted u.declarations), some e) :=
    Prod.ext (b.bindAll_fst _) h
  unfold recast
  rw [hbind]

theorem recast_of_bound (h : (b.bindAll u.declarations).2 = none) :
    u.recast b = ⟨b.extend u.declarations,
      (u.recastTypes (b.extend u.declarations)).2.warnings,
      .ok (u.targetOf (b.extend u.declarations))⟩ := by
  have hbind : b.bindAll u.declarations = (b.extend u.declarations, none) := by
    refine Prod.ext ?_ h
    rw [b.bindAll_fst, Bindings.accepted_of_bindAll_ok h]
  unfold recast
  rw [hbind]
  rfl

/-- A unit that comes through has bound all that it declares, and nothing
of it was bound before. -/
theorem recast_ok {target : TargetUnit} (h : (u.recast b).result = .ok target) :
    b.Fresh u.declarations ∧ (u.recast b).bindings = b.extend u.declarations ∧
      target = u.targetOf (b.extend u.declarations) := by
  cases hbind : (b.bindAll u.declarations).2 with
  | some e =>
    rw [recast_of_refused hbind] at h
    cases h
  | none =>
    have hfresh := b.accepted_fresh u.declarations
    rw [Bindings.accepted_of_bindAll_ok hbind] at hfresh
    rw [recast_of_bound hbind] at h ⊢
    cases h
    exact ⟨hfresh, rfl, rfl⟩

theorem recast_bindings (u : SourceUnit) (b : Bindings) :
    (u.recast b).bindings = b.extend (b.accepted u.declarations) := by
  cases hbind : (b.bindAll u.declarations).2 with
  | some e => rw [recast_of_refused hbind]
  | none => rw [recast_of_bound hbind, Bindings.accepted_of_bindAll_ok hbind]

theorem find?_recast_of_some (u : SourceUnit) (h : b.find? key = some ref) :
    (u.recast b).bindings.find? key = some ref := by
  rw [recast_bindings]
  exact Bindings.find?_extend_of_some h _

/-- What is bound behind a unit was bound before it, or the unit declares it. -/
theorem find?_recast (h : (u.recast b).bindings.find? key = some ref) :
    b.find? key = some ref ∨ (key, ref) ∈ u.declarations := by
  rw [recast_bindings, Bindings.find?_extend, Option.or_eq_some_iff] at h
  rcases h with h | ⟨-, h⟩
  · exact Or.inl h
  · exact Or.inr ((b.accepted_prefix u.declarations).subset (mem_of_lookup_eq_some h))

/-- What a unit declares is bound when it comes through. -/
theorem find?_of_declared {target : TargetUnit} (h : (u.recast b).result = .ok target)
    (hmem : (key, ref) ∈ u.declarations) : (u.recast b).bindings.find? key = some ref := by
  obtain ⟨hfresh, hbound, _⟩ := recast_ok h
  rw [hbound]
  exact hfresh.find? hmem

end SourceUnit

/-! ## Units in turn -/

namespace Bindings

/-- Recasts units one after the other, each with the bindings that the one
before it left. -/
def recastAll (b : Bindings) : List SourceUnit → List (SourceUnit × Recasting.Outcome)
  | [] => []
  | u :: rest => (u, u.recast b) :: (u.recast b).bindings.recastAll rest

/-- The bindings after some units. -/
def afterAll (b : Bindings) (units : List SourceUnit) : Bindings :=
  units.foldl (fun b u => (u.recast b).bindings) b

/-- Every outcome is that of its unit, with bindings that keep what was
bound before the run. -/
theorem recastAll_outcome {b : Bindings} {units : List SourceUnit} {j : Nat} {v : SourceUnit}
    {outcome : Recasting.Outcome} (h : (b.recastAll units)[j]? = some (v, outcome)) :
    ∃ before : Bindings, outcome = v.recast before ∧
      ∀ key ref, b.find? key = some ref → before.find? key = some ref := by
  induction units generalizing b j with
  | nil => simp [recastAll] at h
  | cons u rest ih =>
    unfold recastAll at h
    cases j with
    | zero =>
      simp only [List.getElem?_cons_zero, Option.some.injEq, Prod.mk.injEq] at h
      obtain ⟨rfl, rfl⟩ := h
      exact ⟨b, rfl, fun _ _ hkey => hkey⟩
    | succ j =>
      rw [List.getElem?_cons_succ] at h
      obtain ⟨before, hbefore, hkept⟩ := ih h
      exact ⟨before, hbefore, fun key ref hkey => hkept key ref (u.find?_recast_of_some hkey)⟩

/-- What a unit left bound is bound for every unit from it on. -/
theorem recastAll_keeps {b : Bindings} {units : List SourceUnit} {i j : Nat} (hij : i ≤ j)
    {u v : SourceUnit} {outcome outcome' : Recasting.Outcome}
    (hu : (b.recastAll units)[i]? = some (u, outcome))
    (hv : (b.recastAll units)[j]? = some (v, outcome')) {key : String} {ref : TargetRef}
    (hkey : outcome.bindings.find? key = some ref) :
    outcome'.bindings.find? key = some ref := by
  induction units generalizing b i j with
  | nil => simp [recastAll] at hu
  | cons w rest ih =>
    unfold recastAll at hu hv
    cases i with
    | zero =>
      simp only [List.getElem?_cons_zero, Option.some.injEq, Prod.mk.injEq] at hu
      obtain ⟨rfl, rfl⟩ := hu
      cases j with
      | zero =>
        simp only [List.getElem?_cons_zero, Option.some.injEq, Prod.mk.injEq] at hv
        obtain ⟨rfl, rfl⟩ := hv
        exact hkey
      | succ j =>
        rw [List.getElem?_cons_succ] at hv
        obtain ⟨before, rfl, hkept⟩ := recastAll_outcome hv
        exact v.find?_recast_of_some (hkept key ref hkey)
    | succ i =>
      cases j with
      | zero => omega
      | succ j =>
        rw [List.getElem?_cons_succ] at hu hv
        exact ih (Nat.le_of_succ_le_succ hij) hu hv

/-- What is bound behind some units was bound before them, or one of them declares
it. -/
theorem find?_afterAll {b : Bindings} {units : List SourceUnit} {key : String} {ref : TargetRef}
    (h : (b.afterAll units).find? key = some ref) :
    b.find? key = some ref ∨ ∃ u ∈ units, (key, ref) ∈ u.declarations := by
  induction units generalizing b with
  | nil => exact Or.inl h
  | cons u rest ih =>
    rcases ih h with h | ⟨v, hv, hmem⟩
    · rcases SourceUnit.find?_recast h with h | hmem
      · exact Or.inl h
      · exact Or.inr ⟨u, List.mem_cons_self, hmem⟩
    · exact Or.inr ⟨v, List.mem_cons_of_mem _ hv, hmem⟩

/-- What a run from an empty table has bound, one of its units declares. -/
theorem exists_unit {units : List SourceUnit} {key : String} {ref : TargetRef}
    (h : (Bindings.empty.afterAll units).find? key = some ref) :
    ∃ u ∈ units, (key, ref) ∈ u.declarations := by
  rcases find?_afterAll h with hempty | hdeclared
  · cases hempty
  · exact hdeclared

/-- Every outcome is that of its unit behind the units before it. -/
theorem recastAll_eq {b : Bindings} {units : List SourceUnit} {j : Nat} {v : SourceUnit}
    {outcome : Recasting.Outcome} (h : (b.recastAll units)[j]? = some (v, outcome)) :
    units[j]? = some v ∧ outcome = v.recast (b.afterAll (units.take j)) := by
  induction units generalizing b j with
  | nil => simp [recastAll] at h
  | cons u rest ih =>
    unfold recastAll at h
    cases j with
    | zero =>
      simp only [List.getElem?_cons_zero, Option.some.injEq, Prod.mk.injEq] at h
      obtain ⟨rfl, rfl⟩ := h
      exact ⟨rfl, rfl⟩
    | succ j =>
      rw [List.getElem?_cons_succ] at h
      exact ih h

end Bindings

end Recast
