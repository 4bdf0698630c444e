-- References to different types. Each is printed by the path of its type, so
-- two types are told apart unless they stand at the same path in different
-- packages.
import Recast.CSharp.Expr
import Recast.Proofs.References

namespace Recast

open Recasting

/-! ## Texts of types -/

namespace CSharp

/-- Not a bracket with which arguments or dimensions begin. -/
def inName (c : Char) : Bool := c ≠ '<' && c ≠ '['

def plain (name : String) : Bool := name.toList.all inName

theorem head?_dimsText (dims : UInt8) :
    ∀ c ∈ (dimsText dims).toList.head?, inName c = false := by
  unfold dimsText
  cases dims.toNat with
  | zero => simp [String.join]
  | succ n =>
    intro c hc
    obtain rfl : '[' = c := by
      simpa [String.toList_join, List.replicate_succ] using hc
    rfl

/-- Behind the name of a type is nothing or a bracket. -/
theorem typeText_eq (t : TypeRef) : ∃ rest, (typeText t).toList = t.name.toList ++ rest ∧
    ∀ c ∈ rest.head?, inName c = false := by
  obtain ⟨name, args, dims⟩ := t
  unfold typeText
  cases args with
  | nil => exact ⟨(dimsText dims).toList, by simp, head?_dimsText dims⟩
  | cons arg args =>
    refine ⟨('<' :: (typeTexts (arg :: args)).toList ++ ['>']) ++ (dimsText dims).toList,
      by simp, ?_⟩
    intro c hc
    obtain rfl : '<' = c := by simpa using hc
    rfl

theorem takeWhile_typeText {t : TypeRef} (h : plain t.name = true) :
    (typeText t).toList.takeWhile inName = t.name.toList := by
  obtain ⟨rest, htext, hrest⟩ := typeText_eq t
  rw [htext, List.takeWhile_append_of_pos (List.all_eq_true.mp h)]
  cases rest with
  | nil => simp
  | cons c rest => simp [hrest c rfl]

/-- The text of a type tells its name. -/
theorem name_eq_of_typeText {t t' : TypeRef} (h : plain t.name = true)
    (h' : plain t'.name = true) (htext : typeText t = typeText t') : t.name = t'.name := by
  apply String.toList_injective
  rw [← takeWhile_typeText h, ← takeWhile_typeText h', htext]

end CSharp

/-! ## Different types -/

namespace SourceUnit

variable {u v : SourceUnit}

/-- The identity is bound to a type that the unit declares at this path. -/
structure Binds (u : SourceUnit) (bound : Bindings) (identity path : String) : Prop where
  declared : ∃ around decl, u.Declares around identity path decl
  bound : bound.find? identity = some (.type u.space path)

/-- The package that a unit names, where none is the empty one. -/
def packageName (u : SourceUnit) : String := u.package.getD ""

theorem qualify_eq (u : SourceUnit) (name : String) :
    u.qualify name = if u.packageName.isEmpty then name else u.packageName ++ "." ++ name := by
  unfold qualify packageName
  cases u.package with
  | none => rfl
  | some package => rfl

theorem identity_eq_of_package {bound : Bindings} {identity identity' path : String}
    (h : u.Binds bound identity path) (h' : v.Binds bound identity' path)
    (hpackage : u.packageName = v.packageName) : identity = identity' := by
  obtain ⟨_, _, hdeclares⟩ := h.declared
  obtain ⟨_, _, hdeclares'⟩ := h'.declared
  rw [hdeclares.identity_eq, hdeclares'.identity_eq, qualify_eq, qualify_eq, hpackage]

/-- A reference to a bound type has the path of the type for its name. -/
theorem name_of_binds {bound : Bindings} {k : Nat} {t : TypeRef} {path : String}
    (ht : v.references[k]? = some t) (h : u.Binds bound t.name path) :
    ∃ t', (v.targetOf bound).references[k]? = some t' ∧ t'.name = path := by
  refine ⟨t.rename (Scope.nameOf ⟨bound, v.space⟩), ?_, ?_⟩
  · rw [(v.namedBy_targetOf bound).references, List.getElem?_map, ht]
    rfl
  · obtain ⟨name, args, dims⟩ := t
    exact Scope.nameOf_of_bound h.bound

end SourceUnit

/-- Take two references of a unit that comes through, to types with
different identities that units declare. Each is printed by the path of its
type. If the paths are the same, the types are of different packages; if
they are not, the texts of the references differ. -/
theorem only_types_of_different_packages_are_printed_alike {b : Bindings}
    {units : List SourceUnit} {j k₁ k₂ : Nat} {v u₁ u₂ : SourceUnit} {outcome : Outcome}
    {target : TargetUnit} {t₁ t₂ : TypeRef} {path₁ path₂ : String}
    (hv : (b.recastAll units)[j]? = some (v, outcome)) (htarget : outcome.result = .ok target)
    (ht₁ : v.references[k₁]? = some t₁) (ht₂ : v.references[k₂]? = some t₂)
    (hbinds₁ : u₁.Binds outcome.bindings t₁.name path₁)
    (hbinds₂ : u₂.Binds outcome.bindings t₂.name path₂) (hne : t₁.name ≠ t₂.name) :
    ∃ t₁' t₂', target.references[k₁]? = some t₁' ∧ target.references[k₂]? = some t₂' ∧
      t₁'.name = path₁ ∧ t₂'.name = path₂ ∧
      (path₁ = path₂ → u₁.packageName ≠ u₂.packageName) ∧
      (path₁ ≠ path₂ → CSharp.plain path₁ = true → CSharp.plain path₂ = true →
        CSharp.typeText t₁' ≠ CSharp.typeText t₂') := by
  obtain rfl := Bindings.recastAll_target hv htarget
  obtain ⟨t₁', ht₁', rfl⟩ := SourceUnit.name_of_binds ht₁ hbinds₁
  obtain ⟨t₂', ht₂', rfl⟩ := SourceUnit.name_of_binds ht₂ hbinds₂
  refine ⟨t₁', t₂', ht₁', ht₂', rfl, rfl, ?_, ?_⟩
  · intro hpath hpackage
    rw [← hpath] at hbinds₂
    exact hne (SourceUnit.identity_eq_of_package hbinds₁ hbinds₂ hpackage)
  · intro hpath hplain₁ hplain₂ htext
    exact hpath (CSharp.name_eq_of_typeText hplain₁ hplain₂ htext)

/-- A class `Y` with a class `X` in it. -/
def ySource : Source.TypeDecl :=
  { Source.TypeDecl.empty "Y" .classType with members := [.type (.empty "X" .classType)] }

/-- A class `X`, another in the class `Y`, and a class that holds both. -/
def nestedPairUnit : SourceUnit :=
  ⟨"P", some "a", [], [.empty "X" .classType, ySource,
    { Source.TypeDecl.empty "P" .classType with
      members := [.fieldOf "first" (.named "a.X"), .fieldOf "second" (.named "a.Y.X")] }], []⟩

theorem types_of_one_package_are_printed_differently :
    ∃ outcome target,
      (Bindings.empty.recastAll [nestedPairUnit])[0]? = some (nestedPairUnit, outcome) ∧
      outcome.result = .ok target ∧
      nestedPairUnit.references = [.named "a.X", .named "a.Y.X"] ∧
      nestedPairUnit.Binds outcome.bindings "a.X" "X" ∧
      nestedPairUnit.Binds outcome.bindings "a.Y.X" "Y.X" ∧
      ∃ t₁' t₂', target.references[0]? = some t₁' ∧ target.references[1]? = some t₂' ∧
        t₁'.name = "X" ∧ t₂'.name = "Y.X" ∧ CSharp.typeText t₁' ≠ CSharp.typeText t₂' := by
  have hv : (Bindings.empty.recastAll [nestedPairUnit])[0]? =
      some (nestedPairUnit, nestedPairUnit.recast .empty) := rfl
  have htarget := congrArg Outcome.result
    (SourceUnit.recast_of_bound (u := nestedPairUnit) (b := .empty) (by decide +kernel))
  have ht₁ : nestedPairUnit.references[0]? = some (.named "a.X") := rfl
  have ht₂ : nestedPairUnit.references[1]? = some (.named "a.Y.X") := rfl
  have hx : nestedPairUnit.Declares [] "a.X" "X" (.empty "X" .classType) :=
    @SourceUnit.Declares.top nestedPairUnit (.empty "X" .classType) List.mem_cons_self
  have hy : nestedPairUnit.Declares [] "a.Y" "Y" ySource :=
    @SourceUnit.Declares.top nestedPairUnit ySource (List.mem_cons_of_mem _ List.mem_cons_self)
  have hbinds₁ : nestedPairUnit.Binds (nestedPairUnit.recast .empty).bindings "a.X" "X" :=
    ⟨⟨_, _, hx⟩, by decide +kernel⟩
  have hbinds₂ : nestedPairUnit.Binds (nestedPairUnit.recast .empty).bindings "a.Y.X" "Y.X" :=
    ⟨⟨_, _, hy.nested (List.mem_singleton_self _)⟩, by decide +kernel⟩
  obtain ⟨t₁', t₂', ht₁', ht₂', hname₁, hname₂, _, htext⟩ :=
    only_types_of_different_packages_are_printed_alike hv htarget ht₁ ht₂ hbinds₁ hbinds₂
      (by decide)
  exact ⟨_, _, hv, htarget, rfl, hbinds₁, hbinds₂, t₁', t₂', ht₁', ht₂', hname₁, hname₂,
    htext (by decide) (by decide) (by decide)⟩

/-- A class `X` in a package. -/
def xUnit (package : String) : SourceUnit :=
  ⟨"X", some package, [], [.empty "X" .classType], []⟩

/-- A class that holds the classes `X` of two packages. -/
def pairUnit : SourceUnit :=
  (SourceUnit.ofClass "P" "P" [.fieldOf "first" (.named "a.X"),
    .fieldOf "second" (.named "b.X")]).within "c"

theorem classes_of_two_packages_are_printed_alike :
    ∃ outcome target,
      (Bindings.empty.recastAll [xUnit "a", xUnit "b", pairUnit])[2]? = some (pairUnit, outcome) ∧
      outcome.result = .ok target ∧
      pairUnit.references = [.named "a.X", .named "b.X"] ∧
      (xUnit "a").Binds outcome.bindings "a.X" "X" ∧
      (xUnit "b").Binds outcome.bindings "b.X" "X" ∧
      target.references = [.named "X", .named "X"] := by
  have hdeclares : ∀ package, (xUnit package).Declares [] ((xUnit package).qualify "X") "X"
      (.empty "X" .classType) :=
    fun package => @SourceUnit.Declares.top (xUnit package) (.empty "X" .classType)
      (List.mem_singleton_self _)
  have htarget := congrArg Outcome.result
    (SourceUnit.recast_of_bound (u := pairUnit)
      (b := Bindings.empty.afterAll [xUnit "a", xUnit "b"]) (by decide +kernel))
  refine ⟨_, _, rfl, htarget, rfl, ⟨⟨_, _, hdeclares "a"⟩, by decide +kernel⟩,
    ⟨⟨_, _, hdeclares "b"⟩, by decide +kernel⟩, ?_⟩
  exact (pairUnit.namedBy_targetOf _).references

end Recast
