-- Packages without words. A package that is empty or made of dots has a namespace
-- with an empty name, and that is not the same as no namespace. Here the empty
-- package is compared with no package: identities, warnings and trees are the same,
-- and all that differs is that one namespace.
import Mathlib.Data.List.Nodup
import Recast.Proofs.Packages
import Recast.Proofs.SameLeaves
import Recast.Proofs.Usings

namespace Recast

/-! ## Scopes that name alike -/

namespace Recasting.Scope

variable {scope scope' : Scope}

theorem nameOf_eq (scope : Scope) (identity : String) : scope.nameOf identity =
    (((scope.bindings.find? identity).map TargetRef.name).or
      ((Builtin.type? identity).map TargetRef.name)).getD (simpleName identity) := by
  unfold nameOf type?
  cases scope.bindings.find? identity with
  | some ref => rfl
  | none => cases Builtin.type? identity <;> rfl

theorem memberName_eq (scope : Scope) (identity : String) : scope.memberName identity =
    ((scope.bindings.find? (memberKeyOfBinding identity)).map TargetRef.name).getD
      ((Builtin.member? identity).getD (pascalCase (simpleName identity))) := by
  unfold memberName
  cases scope.bindings.find? (memberKeyOfBinding identity) <;> rfl

/-- Names are taken from the bound references, whatever their namespaces are. -/
theorem sameAt_of_names (h : ∀ key, (scope.bindings.find? key).map TargetRef.name =
    (scope'.bindings.find? key).map TargetRef.name) (leaves : List Leaf) :
    scope.SameAt scope' leaves := by
  have htype : scope.nameOf = scope'.nameOf := by
    funext identity
    rw [nameOf_eq, nameOf_eq, h]
  have hmethod : scope.methodName = scope'.methodName := by
    funext name binding
    cases binding with
    | none => rfl
    | some identity =>
      change scope.memberName identity = scope'.memberName identity
      rw [memberName_eq, memberName_eq, h]
  intro leaf _
  cases leaf with
  | type ref => simp only [leaf?, htype]
  | call | method => simp only [leaf?, hmethod]
  | literal | name | self | unary | binary | lost => rfl

end Recasting.Scope

/-! ## Sets of names -/

namespace Text.NameSet

/-- The set with one name left out. -/
def without (s : NameSet) (name : String) : NameSet :=
  ⟨s.names.filter (· ≠ name), s.rising.filter _⟩

theorem mem_without {s : NameSet} {name other : String} :
    other ∈ (s.without name).names ↔ other ≠ name ∧ other ∈ s.names := by
  simp [without, and_comm]

/-- Sets with the same names are the same. -/
theorem eq_of_mem_iff {s t : NameSet} (h : ∀ name, name ∈ s.names ↔ name ∈ t.names) : s = t := by
  have hnodup : ∀ r : NameSet, r.names.Nodup := by
    intro r
    refine r.rising.imp ?_
    rintro a _ hlt rfl
    simp at hlt
  apply NameSet.ext
  refine List.Perm.eq_of_pairwise ?_ s.rising t.rising
    ((List.perm_ext_iff_of_nodup (hnodup s) (hnodup t)).mpr h)
  intro a b _ _ hab hba
  rw [Std.OrientedCmp.gt_of_lt hab] at hba
  cases hba

end Text.NameSet

/-! ## Entries in the empty namespace -/

theorem dot_append_ne (s : String) : "." ++ s ≠ s := by
  intro h
  have hlength := congrArg String.length h
  simp at hlength

namespace TargetRef

/-- The reference in the empty namespace. -/
def inEmptySpace : TargetRef → TargetRef
  | .type _ name => .type (some "") name
  | .member owner name => .member ("." ++ owner) name

@[simp] theorem name_inEmptySpace (ref : TargetRef) : ref.inEmptySpace.name = ref.name := by
  cases ref <;> rfl

theorem fullName_inEmptySpace {ref : TargetRef} (h : ref.space = none) :
    ref.inEmptySpace.fullName = "." ++ ref.fullName := by
  cases ref with
  | member owner name => simp [inEmptySpace, fullName, String.append_assoc]
  | type space name =>
    obtain rfl : space = none := h
    simp [inEmptySpace, fullName]

theorem inEmptySpace_ne {ref : TargetRef} (h : ref.space = none) : ref.inEmptySpace ≠ ref := by
  intro heq
  have hname := congrArg fullName heq
  rw [fullName_inEmptySpace h] at hname
  exact dot_append_ne _ hname

end TargetRef

/-- The entries, all in the empty namespace. -/
def inEmptySpace (entries : List (String × TargetRef)) : List (String × TargetRef) :=
  entries.map fun entry => (entry.1, entry.2.inEmptySpace)

@[simp] theorem keysOf_inEmptySpace (entries : List (String × TargetRef)) :
    keysOf (inEmptySpace entries) = keysOf entries := by
  simp [keysOf, inEmptySpace]

@[simp] theorem lookup_inEmptySpace (entries : List (String × TargetRef)) (key : String) :
    (inEmptySpace entries).lookup key = (entries.lookup key).map TargetRef.inEmptySpace := by
  induction entries with
  | nil => rfl
  | cons entry rest ih =>
    unfold inEmptySpace at ih ⊢
    rw [List.map_cons, List.lookup_cons, List.lookup_cons, ih]
    cases key == entry.1 <;> rfl

theorem inEmptySpace_eq_self {entries : List (String × TargetRef)}
    (h : ∀ entry ∈ entries, entry.2.space = none) :
    inEmptySpace entries = entries ↔ entries = [] := by
  constructor
  · intro heq
    cases entries with
    | nil => rfl
    | cons entry rest =>
      have hentry := congrArg Prod.snd (List.cons.inj heq).1
      exact absurd hentry (TargetRef.inEmptySpace_ne (h entry List.mem_cons_self))
  · rintro rfl
    rfl

namespace Bindings

variable {b : Bindings} {entries before : List (String × TargetRef)} {key : String}
  {ref existing : TargetRef}

theorem Fresh.inEmptySpace (h : b.Fresh entries) : b.Fresh (inEmptySpace entries) := by
  obtain ⟨hnodup, hfree⟩ := h
  rw [← keysOf_inEmptySpace] at hnodup hfree
  exact ⟨hnodup, hfree⟩

/-- The first clash stays where it is. What stands in the way is the same if it was
bound before, and is in the empty namespace if it is an entry itself. -/
theorem FirstClash.inEmptySpace (h : b.FirstClash entries before key ref existing) :
    b.FirstClash (inEmptySpace entries) (inEmptySpace before) key ref.inEmptySpace
      (if (b.find? key).isSome then existing else existing.inEmptySpace) := by
  obtain ⟨⟨after, rfl⟩, hfresh, htaken⟩ := h
  refine ⟨⟨Recast.inEmptySpace after, ?_⟩, hfresh.inEmptySpace, ?_⟩
  · simp [Recast.inEmptySpace]
  · cases hkey : b.find? key with
    | some bound =>
      rw [hkey] at htaken
      simpa using htaken
    | none =>
      rw [hkey, Option.none_or] at htaken
      simp [htaken]

end Bindings

/-! ## Units in the empty package -/

/-- The error that a clash is reported by, where all that the unit declares is in the
empty namespace. -/
def BindError.inEmptySpace (b : Bindings) (e : BindError) : BindError :=
  ⟨e.identity, if (b.find? e.identity).isSome then e.existing else "." ++ e.existing,
    "." ++ e.attempted⟩

/-- The unit in the empty namespace, which it need not use then. -/
def TargetUnit.inEmptySpace (target : TargetUnit) : TargetUnit :=
  { target with space := some "", usings := target.usings.without "" }

namespace SourceUnit

/-- The unit in no package. -/
def outside (u : SourceUnit) : SourceUnit := { u with package := none }

section

variable (u : SourceUnit) (b : Bindings)

theorem declared_empty : (u.within "").declared = inEmptySpace u.outside.declared := by
  unfold declared inEmptySpace
  rw [List.map_map]
  refine List.map_congr_left ?_
  intro site _
  cases site with
  | type path => rfl
  | method path name => rfl

theorem space_of_mem_outside {entry : String × TargetRef} (h : entry ∈ u.outside.declared) :
    entry.2.space = none := by
  obtain ⟨site, -, rfl⟩ := List.mem_map.mp h
  cases site with
  | type path => rfl
  | method path name => rfl

theorem sameAt_empty (leaves : List Leaf) :
    Recasting.Scope.SameAt ⟨b.extend (u.within "").declared, some ""⟩
      ⟨b.extend u.outside.declared, none⟩ leaves := by
  refine Recasting.Scope.sameAt_of_names ?_ leaves
  intro key
  rw [declared_empty]
  simp only [Bindings.find?_extend, lookup_inEmptySpace, Option.map_or, Option.map_map]
  congr 2
  funext ref
  exact ref.name_inEmptySpace

theorem needed?_empty (identity : String) :
    Recasting.Scope.needed? ⟨b.extend (u.within "").declared, some ""⟩ identity =
      (Recasting.Scope.needed? ⟨b.extend u.outside.declared, none⟩ identity).filter (· ≠ "") := by
  have hfilter : ∀ space : Option String, (space.filter fun name => some "" ≠ some name) =
      (space.filter fun name => none ≠ some name).filter (· ≠ "") := by
    intro space
    cases space with
    | none => rfl
    | some name => simp [eq_comm]
  rw [declared_empty]
  unfold Recasting.Scope.needed? Recasting.Scope.type?
  simp only [Bindings.find?_extend, lookup_inEmptySpace]
  cases b.find? identity with
  | some ref => exact hfilter ref.space
  | none =>
    cases hdeclared : u.outside.declared.lookup identity with
    | none =>
      cases Builtin.type? identity with
      | none => rfl
      | some ref => exact hfilter ref.space
    | some ref =>
      have hspace : ref.space = none :=
        u.space_of_mem_outside (mem_of_lookup_eq_some hdeclared)
      cases ref with
      | type space name => simp_all [TargetRef.inEmptySpace, TargetRef.space]
      | member owner name => rfl

theorem types_targetOf (bound : Bindings) : (u.targetOf bound).types =
    Recasting.Scope.typeDecls ⟨bound, u.space⟩ u.qualify u.types :=
  (Recasting.gives_typeDecls ⟨bound, u.space⟩ u.qualify u.types .empty).1

theorem targetOf_empty : (u.within "").targetOf (b.extend (u.within "").declared) =
    (u.outside.targetOf (b.extend u.outside.declared)).inEmptySpace := by
  have htypes : ((u.within "").targetOf (b.extend (u.within "").declared)).types =
      (u.outside.targetOf (b.extend u.outside.declared)).types := by
    rw [types_targetOf, types_targetOf]
    exact (u.sameAt_empty b _).typeDecls
  have husings : ((u.within "").targetOf (b.extend (u.within "").declared)).usings =
      (u.outside.targetOf (b.extend u.outside.declared)).usings.without "" := by
    apply Text.NameSet.eq_of_mem_iff
    intro space
    rw [Text.NameSet.mem_without, mem_usings_targetOf, mem_usings_targetOf]
    have hneeded : ∀ identity,
        Recasting.Scope.needed? ⟨b.extend (u.within "").declared, (u.within "").space⟩ identity =
          some space ↔ space ≠ "" ∧
        Recasting.Scope.needed? ⟨b.extend u.outside.declared, u.outside.space⟩ identity =
          some space := by
      intro identity
      refine (iff_of_eq (congrArg (· = some space) (u.needed?_empty b identity))).trans ?_
      rw [Option.filter_eq_some_iff, decide_eq_true_iff, and_comm]
      rfl
    simp only [hneeded]
    constructor
    · rintro ⟨t, ht, hne, hsome⟩
      exact ⟨hne, t, ht, hsome⟩
    · rintro ⟨hne, t, ht, hsome⟩
      exact ⟨t, ht, hne, hsome⟩
  unfold targetOf at htypes husings ⊢
  unfold TargetUnit.inEmptySpace
  dsimp only at htypes husings ⊢
  rw [htypes, husings]
  rfl

theorem recast_of_clash {u : SourceUnit} {b : Bindings} {before : List (String × TargetRef)}
    {key : String} {ref existing : TargetRef}
    (h : b.FirstClash u.declared before key ref existing) :
    u.recast b = ⟨b.extend before, [], .error ⟨key, existing.fullName, ref.fullName⟩⟩ := by
  unfold recast
  rw [u.declarations_eq, h.bindAll]

theorem recast_of_declared {u : SourceUnit} {b : Bindings} (h : b.Fresh u.declared) :
    u.recast b = ⟨b.extend u.declared, Recasting.warningsOf u.nodes,
      .ok (u.targetOf (b.extend u.declared))⟩ := by
  have hbound : (b.bindAll u.declarations).2 = none := by
    rw [u.declarations_eq, h.bindAll]
  rw [recast_of_bound hbound, u.declarations_eq]
  congr 1
  exact (Recasting.gives_typeDecls ⟨b.extend u.declared, u.space⟩ u.qualify u.types .empty).2

/-- The clash of a unit in no package is told with the empty namespace in front of
what the unit declares. -/
theorem inEmptySpace_of_clash {before : List (String × TargetRef)} {key : String}
    {ref existing : TargetRef} (h : b.FirstClash u.outside.declared before key ref existing) :
    BindError.mk key (if (b.find? key).isSome then existing else existing.inEmptySpace).fullName
        ref.inEmptySpace.fullName =
      BindError.inEmptySpace b ⟨key, existing.fullName, ref.fullName⟩ := by
  obtain ⟨⟨after, hsplit⟩, -, htaken⟩ := h
  have hdeclared : ∀ entry ∈ before ++ (key, ref) :: after, entry.2.space = none := by
    rw [← hsplit]
    exact fun entry hentry => u.space_of_mem_outside hentry
  have href : ref.space = none := hdeclared (key, ref) (by simp)
  unfold BindError.inEmptySpace
  rw [TargetRef.fullName_inEmptySpace href]
  cases hkey : b.find? key with
  | some bound => rfl
  | none =>
    rw [hkey, Option.none_or] at htaken
    have hexisting : existing.space = none :=
      hdeclared _ (List.mem_append_left _ (mem_of_lookup_eq_some htaken))
    simp [TargetRef.fullName_inEmptySpace hexisting]

/-- A unit in the empty package comes out as in no package, but in the empty
namespace. -/
theorem recast_empty : ∃ new, new <+: u.outside.declared ∧
    (u.outside.recast b).bindings = b.extend new ∧
    (u.within "").recast b = ⟨b.extend (inEmptySpace new), (u.outside.recast b).warnings,
      ((u.outside.recast b).result.map (·.inEmptySpace)).mapError (·.inEmptySpace b)⟩ := by
  by_cases hfresh : b.Fresh u.outside.declared
  · have hempty : b.Fresh (u.within "").declared := by
      rw [declared_empty]
      exact hfresh.inEmptySpace
    rw [recast_of_declared hfresh, recast_of_declared hempty, targetOf_empty, declared_empty]
    exact ⟨_, List.prefix_refl _, rfl, rfl⟩
  · obtain ⟨before, key, ref, existing, hclash⟩ := Bindings.exists_firstClash hfresh
    have hempty := hclash.inEmptySpace
    rw [← declared_empty] at hempty
    obtain ⟨after, hsplit⟩ := hclash.split
    rw [recast_of_clash hclash, recast_of_clash hempty, inEmptySpace_of_clash u b hclash]
    exact ⟨before, ⟨_, hsplit.symm⟩, rfl, rfl⟩

theorem bindings_empty_eq : ((u.within "").recast b).bindings = (u.outside.recast b).bindings ↔
    (u.outside.recast b).bindings = b := by
  obtain ⟨new, hnew, hbindings, hempty⟩ := u.recast_empty b
  rw [hempty, hbindings, Bindings.extend_inj, inEmptySpace_eq_self, Bindings.extend_eq_self]
  exact fun entry hentry => u.space_of_mem_outside (hnew.subset hentry)

theorem result_empty_ne : ((u.within "").recast b).result ≠ (u.outside.recast b).result := by
  obtain ⟨new, -, -, hempty⟩ := u.recast_empty b
  rw [hempty]
  cases hresult : (u.outside.recast b).result with
  | error e =>
    intro heq
    exact dot_append_ne _ (congrArg BindError.attempted (Except.error.inj heq))
  | ok target =>
    obtain ⟨-, -, rfl⟩ := recast_ok hresult
    intro heq
    cases congrArg TargetUnit.space (Except.ok.inj heq)

end

/-! ## Runs -/

/-- The unit names a package, but there is no word in it. -/
def Wordless (u : SourceUnit) : Prop :=
  ∃ package, u.package = some package ∧ Recast.packageWords package = []

variable {u : SourceUnit}

theorem space_eq_empty : u.space = some "" ↔ u.Wordless := by
  unfold space Wordless
  cases u.package with
  | none => simp
  | some package => simp [namespaceOfPackage_eq_empty]

/-- Only the types of a package without words are declared in the empty namespace. -/
theorem mem_declarations_empty {key : String} {ref : TargetRef}
    (h : (key, ref) ∈ u.declarations) (hspace : ref.space = some "") :
    u.Wordless ∧ ∃ path, .type path ∈ u.sites ∧ key = u.keyOf (.type path) ∧
      ref = u.refOf (.type path) := by
  rw [u.declarations_eq] at h
  obtain ⟨site, hsite, hentry⟩ := List.mem_map.mp h
  obtain ⟨rfl, rfl⟩ := Prod.mk.inj hentry
  cases site with
  | type path => exact ⟨space_eq_empty.mp hspace, path, hsite, rfl, rfl⟩
  | method path name => cases hspace

end SourceUnit

theorem Builtin.space_ne_empty {identity : String} {ref : TargetRef}
    (h : Builtin.type? identity = some ref) : ref.space ≠ some "" := by
  have hall : Builtin.types.all (fun entry => entry.2.space ≠ some "") = true := by decide
  simpa using List.all_eq_true.mp hall _ (mem_of_lookup_eq_some h)

/-- What a unit in another namespace finds in the empty one was bound before it, at a
type of a unit in a package without words. -/
theorem Bindings.exists_wordless {units : List SourceUnit} {v : SourceUnit}
    (hv : ¬ v.Wordless) {identity : String} {ref : TargetRef} {space : Option String}
    (h : Recasting.Scope.type? ⟨(v.recast (Bindings.empty.afterAll units)).bindings, space⟩
      identity = some ref) (hspace : ref.space = some "") :
    (Bindings.empty.afterAll units).find? identity = some ref ∧
      ∃ w ∈ units, w.Wordless ∧ ∃ path, .type path ∈ w.sites ∧
        identity = w.keyOf (.type path) ∧ ref = w.refOf (.type path) := by
  rcases Option.or_eq_some_iff.mp h with hbound | ⟨-, hbuiltin⟩
  · rcases SourceUnit.find?_recast hbound with hbefore | hdeclared
    · obtain ⟨w, hw, hdeclared⟩ := exists_unit hbefore
      exact ⟨hbefore, w, hw, SourceUnit.mem_declarations_empty hdeclared hspace⟩
    · exact absurd (SourceUnit.mem_declarations_empty hdeclared hspace).1 hv
  · exact absurd hspace (Builtin.space_ne_empty hbuiltin)

/-- A unit of a run uses the empty namespace if and only if it mentions a type that a
unit before it bound in a package without words, and is in no such package itself. -/
theorem Bindings.empty_mem_usings {units : List SourceUnit} {j : Nat} {v : SourceUnit}
    {outcome : Recasting.Outcome} {target : TargetUnit}
    (h : (Bindings.empty.recastAll units)[j]? = some (v, outcome))
    (hok : outcome.result = .ok target) :
    "" ∈ target.usings.names ↔ ¬ v.Wordless ∧ ∃ t, v.Mentions t ∧
      ∃ w ∈ units.take j, w.Wordless ∧ ∃ path, .type path ∈ w.sites ∧
        t.name = w.keyOf (.type path) ∧
        (Bindings.empty.afterAll (units.take j)).find? t.name = some (w.refOf (.type path)) := by
  have hown : target.space ≠ some "" ↔ ¬ v.Wordless := by
    obtain rfl := recastAll_target h hok
    exact not_congr SourceUnit.space_eq_empty
  obtain ⟨-, rfl⟩ := recastAll_eq h
  rw [SourceUnit.mem_usings_of_recast hok, hown]
  refine and_congr_right fun hv => ⟨?_, ?_⟩
  · rintro ⟨t, ref, ht, href, hspace⟩
    obtain ⟨hbefore, w, hw, hwordless, path, hpath, hkey, rfl⟩ := exists_wordless hv href hspace
    exact ⟨t, ht, w, hw, hwordless, path, hpath, hkey, hbefore⟩
  · rintro ⟨t, ht, w, -, hwordless, path, -, -, hbefore⟩
    refine ⟨t, w.refOf (.type path), ht, ?_, SourceUnit.space_eq_empty.mpr hwordless⟩
    exact Option.or_eq_some_iff.mpr (Or.inl (v.find?_recast_of_some hbefore))

/-- A unit in the empty package has the identities, the warnings and the types that it
has in no package; but all that it declares is bound in a namespace with an empty name,
and so are the types of its target unit. Clashes are the same, and are told with the
names in that namespace. So the bindings are the same only if the unit binds nothing,
and the results never are. Over a run, a target unit is in the empty namespace exactly
if its unit names a package without words; and it uses the empty namespace exactly if
its unit names no such package, and mentions a type that a unit before it bound in one. -/
theorem an_empty_package_is_an_empty_namespace (u : SourceUnit) (b : Bindings)
    (units : List SourceUnit) :
    (∃ new, new <+: u.outside.declared ∧ (u.outside.recast b).bindings = b.extend new ∧
      (u.within "").recast b = ⟨b.extend (inEmptySpace new), (u.outside.recast b).warnings,
        ((u.outside.recast b).result.map (·.inEmptySpace)).mapError (·.inEmptySpace b)⟩) ∧
    (((u.within "").recast b).bindings = (u.outside.recast b).bindings ↔
      (u.outside.recast b).bindings = b) ∧
    ((u.within "").recast b).result ≠ (u.outside.recast b).result ∧
    ∀ j v outcome target, (Bindings.empty.recastAll units)[j]? = some (v, outcome) →
      outcome.result = .ok target →
        (target.space = some "" ↔ v.Wordless) ∧
        ("" ∈ target.usings.names ↔ ¬ v.Wordless ∧ ∃ t, v.Mentions t ∧
          ∃ w ∈ units.take j, w.Wordless ∧ ∃ path, .type path ∈ w.sites ∧
            t.name = w.keyOf (.type path) ∧ (Bindings.empty.afterAll (units.take j)).find? t.name =
              some (w.refOf (.type path))) := by
  refine ⟨u.recast_empty b, u.bindings_empty_eq b, u.result_empty_ne b, ?_⟩
  intro j v outcome target h hok
  refine ⟨?_, Bindings.empty_mem_usings h hok⟩
  obtain rfl := Bindings.recastAll_target h hok
  exact SourceUnit.space_eq_empty

/-- A class without members. -/
def plainUnit : SourceUnit := SourceUnit.ofClass "Q" "Q" []

/-- A class that holds the plain class. -/
def plainHolder : SourceUnit := SourceUnit.ofClass "P" "P" [.fieldOf "q" (.named "Q")]

theorem a_class_of_the_empty_package_is_used_from_no_package :
    ∃ outcome target,
      (Bindings.empty.recastAll [plainUnit.within "", plainHolder])[1]? =
        some (plainHolder, outcome) ∧
      outcome.result = .ok target ∧ target.space ≠ some "" ∧ "" ∈ target.usings.names := by
  have hrun : (Bindings.empty.recastAll [plainUnit.within "", plainHolder])[1]? =
      some (plainHolder, plainHolder.recast (Bindings.empty.afterAll [plainUnit.within ""])) := rfl
  have hok := congrArg Recasting.Outcome.result
    (SourceUnit.recast_of_bound (u := plainHolder)
      (b := Bindings.empty.afterAll [plainUnit.within ""]) (by decide +kernel))
  have hwordless : (plainUnit.within "").Wordless := ⟨"", rfl, rfl⟩
  have hholder : ¬ plainHolder.Wordless := by
    rintro ⟨_, hpackage, -⟩
    cases hpackage
  have hmentions : plainHolder.Mentions (.named "Q") := by
    rw [← SourceUnit.mem_references_iff]
    exact List.mem_of_getElem? (i := 0) rfl
  obtain ⟨-, -, -, hunits⟩ := an_empty_package_is_an_empty_namespace plainUnit .empty
    [plainUnit.within "", plainHolder]
  obtain ⟨hspace, husings⟩ := hunits 1 plainHolder _ _ hrun hok
  refine ⟨_, _, hrun, hok, mt hspace.mp hholder, husings.mpr ⟨hholder, _, hmentions, ?_⟩⟩
  exact ⟨plainUnit.within "", List.mem_singleton_self _, hwordless, ["Q"],
    List.mem_of_getElem? (i := 0) rfl, by decide +kernel, by decide +kernel⟩

theorem a_class_of_the_empty_package_stands_in_a_nameless_block :
    ∃ bare empty, (plainUnit.outside.recast .empty).result = .ok bare ∧
      ((plainUnit.within "").recast .empty).result = .ok empty ∧
      CSharp.render "" bare = "class Q\n\x7b\n\x7d\n" ∧
      CSharp.render "" empty =
        "namespace \n\x7b\n    class Q\n    \x7b\n    \x7d\n\x7d\n" ∧
      ((plainUnit.within "").recast .empty).bindings.find? "Q" ≠
        (plainUnit.outside.recast .empty).bindings.find? "Q" := by
  have hbare := SourceUnit.recast_of_bound (u := plainUnit.outside) (b := .empty)
    (by decide +kernel)
  have hempty := SourceUnit.recast_of_bound (u := plainUnit.within "") (b := .empty)
    (by decide +kernel)
  refine ⟨_, _, congrArg Recasting.Outcome.result hbare, congrArg Recasting.Outcome.result hempty,
    by decide +kernel, by decide +kernel, ?_⟩
  rw [congrArg Recasting.Outcome.bindings hbare, congrArg Recasting.Outcome.bindings hempty]
  decide +kernel

end Recast
