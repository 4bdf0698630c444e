-- References to types and methods, and what they become. All that a unit
-- declares is printed by the same name in that unit and in every unit after
-- it: a type by its path, a method by its name in pascal case.
import Recast.Proofs.Declared
import Recast.Proofs.Names
import Recast.Proofs.Reading
import Recast.Proofs.Unit

namespace Recast

open Recasting

/-! ## What stands at leaves -/

namespace Leaf

/-- The references to types, with those in arguments. -/
def references : Leaf → List TypeRef
  | .type ref => ref.parts
  | _ => []

/-- The called methods, with their dotted identities. -/
def calls : Leaf → List (String × Option String)
  | .call called binding => [(called, binding)]
  | _ => []

/-- The methods, each with the path of its type and its dotted identity. -/
def methods : Leaf → List (String × String × Option String)
  | .method path declared binding => [(path, declared, binding)]
  | _ => []

end Leaf

namespace SourceUnit

def references (u : SourceUnit) : List TypeRef := u.leaves.flatMap Leaf.references

def calls (u : SourceUnit) : List (String × Option String) := u.leaves.flatMap Leaf.calls

def methods (u : SourceUnit) : List (String × String × Option String) :=
  u.leaves.flatMap Leaf.methods

end SourceUnit

namespace TargetUnit

def references (u : TargetUnit) : List TypeRef := u.leaves.flatMap Leaf.references

def calls (u : TargetUnit) : List (String × Option String) := u.leaves.flatMap Leaf.calls

def methods (u : TargetUnit) : List (String × String × Option String) :=
  u.leaves.flatMap Leaf.methods

end TargetUnit

/-! ## Names -/

/-- New names for types and for methods. -/
structure Naming where
  type : String → String
  method : String → Option String → String

/-- The target unit has the references, the calls and the methods of the
unit in their order, by their new names. -/
structure SourceUnit.NamedBy (u : SourceUnit) (names : Naming) (target : TargetUnit) : Prop where
  references : target.references = u.references.map (·.rename names.type)
  calls : target.calls = u.calls.map fun call => (names.method call.1 call.2, none)
  methods : target.methods = u.methods.map fun m => (m.1, names.method m.2.1 m.2.2, none)

mutual

theorem TypeRef.parts_rename (f : String → String) : ∀ t : TypeRef,
    (t.rename f).parts = t.parts.map (·.rename f)
  | ⟨name, args, dims⟩ => by
    simp only [rename, parts, List.map_cons, TypeRef.allParts_renameAll f args]

theorem TypeRef.allParts_renameAll (f : String → String) : ∀ ts : List TypeRef,
    allParts (renameAll f ts) = (allParts ts).map (·.rename f)
  | [] => rfl
  | t :: ts => by
    simp only [renameAll, allParts, List.map_append, TypeRef.parts_rename f t,
      TypeRef.allParts_renameAll f ts]

end

namespace Recasting.Scope

/-- The names that a scope gives. -/
def naming (scope : Scope) : Naming := ⟨scope.nameOf, scope.methodName⟩

/-- What is read off the leaves one by one is read off the recast leaves,
if it is so at each leaf. -/
theorem flatMap_recastLeaves {α : Type} {f : Leaf → List α} {g : α → α} (scope : Scope)
    (h : ∀ leaf, (scope.leaf? leaf).toList.flatMap f = (f leaf).map g) (leaves : List Leaf) :
    (scope.recastLeaves leaves).flatMap f = (leaves.flatMap f).map g := by
  induction leaves with
  | nil => rfl
  | cons leaf rest ih =>
    rw [recastLeaves_cons, List.flatMap_append, h, ih, List.flatMap_cons, List.map_append]

end Recasting.Scope

namespace SourceUnit

theorem flatMap_leaves_targetOf {α : Type} {f : Leaf → List α} {g : α → α} (u : SourceUnit)
    (bound : Bindings)
    (h : ∀ leaf, (Scope.leaf? ⟨bound, u.space⟩ leaf).toList.flatMap f = (f leaf).map g) :
    (u.targetOf bound).leaves.flatMap f = (u.leaves.flatMap f).map g := by
  rw [u.leaves_targetOf]
  exact Scope.flatMap_recastLeaves _ h _

theorem namedBy_targetOf (u : SourceUnit) (bound : Bindings) :
    u.NamedBy (Scope.naming ⟨bound, u.space⟩) (u.targetOf bound) where
  references := u.flatMap_leaves_targetOf bound fun leaf => by
    cases leaf <;> simp [Scope.leaf?, Leaf.references, TypeRef.parts_rename, Scope.naming]
  calls := u.flatMap_leaves_targetOf bound fun leaf => by
    cases leaf <;> simp [Scope.leaf?, Leaf.calls, Scope.naming]
  methods := u.flatMap_leaves_targetOf bound fun leaf => by
    cases leaf <;> simp [Scope.leaf?, Leaf.methods, Scope.naming]

end SourceUnit

/-! ## Namespaces -/

/-- The namespaces noted at leaves are those that their references need. -/
theorem Recasting.Notes.mem_usings_after {scope : Scope} {notes : Notes} {leaves : List Leaf}
    {space : String} : space ∈ (notes.after scope leaves).usings.names ↔
      space ∈ notes.usings.names ∨
        ∃ t ∈ leaves.flatMap Leaf.references, scope.needed? t.name = some space := by
  induction leaves generalizing notes with
  | nil => simp
  | cons leaf rest ih =>
    have hmeet : space ∈ (notes.meet scope leaf).usings.names ↔ space ∈ notes.usings.names ∨
        ∃ t ∈ leaf.references, scope.needed? t.name = some space := by
      cases leaf <;>
        simp [meet, needing, Leaf.references, TypeRef.identities, Text.NameSet.mem_insertAll,
          or_comm]
    rw [after_cons, ih, hmeet, or_assoc, List.flatMap_cons]
    simp only [List.mem_append, or_and_right, exists_or]

namespace SourceUnit

theorem mem_usings_targetOf {u : SourceUnit} {bound : Bindings} {space : String} :
    space ∈ (u.targetOf bound).usings.names ↔
      ∃ t ∈ u.references, Scope.needed? ⟨bound, u.space⟩ t.name = some space := by
  have husings : (u.targetOf bound).usings =
      (Notes.empty.after ⟨bound, u.space⟩ u.leaves).usings := by
    rw [← u.notes_recastTypes]
    rfl
  rw [husings, Notes.mem_usings_after]
  simp [Notes.empty, Text.NameSet.empty, references]

end SourceUnit

/-! ## Bound names -/

namespace Recasting.Scope

variable {bound : Bindings} {space own : Option String} {identity path : String}

theorem nameOf_of_bound (h : bound.find? identity = some (.type space path)) :
    nameOf ⟨bound, own⟩ identity = path := by
  simp [nameOf, type?, h, TargetRef.name]

theorem needed?_of_bound (h : bound.find? identity = some (.type space path)) :
    needed? ⟨bound, own⟩ identity = space.filter fun space => own ≠ some space := by
  simp [needed?, type?, h, TargetRef.space]

theorem ne_of_needed? {used : String}
    (h : needed? ⟨bound, own⟩ identity = some used) : own ≠ some used := by
  unfold needed? at h
  obtain ⟨ref, _, hused⟩ := Option.bind_eq_some_iff.mp h
  simpa using (Option.filter_eq_some_iff.mp hused).2

theorem memberName_of_bound {owner name method : String} (h : '.' ∉ name.toList)
    (hbound : bound.find? (memberKey identity name) = some (.member owner method)) :
    memberName ⟨bound, own⟩ (identity ++ "." ++ name) = method := by
  simp [memberName, memberKeyOfBinding_dotted h, hbound, TargetRef.name]

end Recasting.Scope

namespace Bindings

variable {b : Bindings} {units : List SourceUnit} {i j : Nat} {u v : SourceUnit}
  {outcome outcome' : Outcome} {own target : TargetUnit}

/-- A unit of a run that comes through is what it becomes with the bindings
that it leaves. -/
theorem recastAll_target (hv : (b.recastAll units)[j]? = some (v, outcome))
    (hok : outcome.result = .ok target) : target = v.targetOf outcome.bindings := by
  obtain ⟨before, rfl, _⟩ := recastAll_outcome hv
  obtain ⟨_, hbound, htarget⟩ := SourceUnit.recast_ok hok
  rw [htarget, hbound]

/-- What a unit declares is bound for it and for every unit after it. -/
theorem recastAll_declared (hij : i ≤ j) (hu : (b.recastAll units)[i]? = some (u, outcome))
    (hv : (b.recastAll units)[j]? = some (v, outcome')) (hok : outcome.result = .ok own)
    {key : String} {ref : TargetRef} (hmem : (key, ref) ∈ u.declarations) :
    outcome'.bindings.find? key = some ref := by
  refine recastAll_keeps hij hu hv ?_
  obtain ⟨before, rfl, _⟩ := recastAll_outcome hu
  exact SourceUnit.find?_of_declared hok hmem

end Bindings

/-! ## What a unit declares -/

/-- Take a unit of a run that comes through, a type that it declares outside
of annotation types, and that unit again or one after it. There every
reference to the type has the path of the type for its name, and the
namespace of the type is used unless it is the unit's own. A method of the
type that is not native and has no dot in its name is declared in pascal
case, and so is the name of every call of it. -/
theorem what_a_unit_declares_keeps_its_name {b : Bindings} {units : List SourceUnit} {i j : Nat}
    {u v : SourceUnit} {outcome outcome' : Outcome} {own target : TargetUnit}
    {identity path : String} {decl : Source.TypeDecl} (hij : i ≤ j)
    (hu : (b.recastAll units)[i]? = some (u, outcome)) (hown : outcome.result = .ok own)
    (hv : (b.recastAll units)[j]? = some (v, outcome')) (htarget : outcome'.result = .ok target)
    (hkeeps : u.Keeps identity path decl) :
    ∃ ownNames names : Naming, u.NamedBy ownNames own ∧ v.NamedBy names target ∧
      names.type identity = path ∧
      (∀ space, u.space = some space → (∃ t ∈ v.references, t.name = identity) →
        (space ∈ target.usings.names ↔ v.space ≠ some space)) ∧
      ∀ m, .method m ∈ decl.members → m.has .native = false → '.' ∉ m.name.toList →
        (path, m.name, some (identity ++ "." ++ m.name)) ∈ u.methods ∧
        ownNames.method m.name (some (identity ++ "." ++ m.name)) = pascalCase m.name ∧
        ∀ called, names.method called (some (identity ++ "." ++ m.name)) = pascalCase m.name := by
  obtain rfl := Bindings.recastAll_target hu hown
  obtain rfl := Bindings.recastAll_target hv htarget
  have hbound := Bindings.recastAll_declared hij hu hv hown hkeeps.type_declared
  refine ⟨Scope.naming ⟨outcome.bindings, u.space⟩, Scope.naming ⟨outcome'.bindings, v.space⟩,
    u.namedBy_targetOf _, v.namedBy_targetOf _, Scope.nameOf_of_bound hbound, ?_, ?_⟩
  · rintro space hspace ⟨t, ht, rfl⟩
    rw [SourceUnit.mem_usings_targetOf]
    constructor
    · rintro ⟨t', _, hneeded⟩
      exact Scope.ne_of_needed? hneeded
    · intro hother
      refine ⟨t, ht, ?_⟩
      rw [Scope.needed?_of_bound hbound, hspace]
      simp [hother]
  · intro m hm hnative hdot
    have hmethod := hkeeps.method_declared hm
    refine ⟨?_, ?_, ?_⟩
    · exact List.mem_flatMap.mpr ⟨_, hkeeps.method_leaf hm hnative, List.mem_singleton_self _⟩
    · exact Scope.memberName_of_bound hdot (Bindings.recastAll_declared (Nat.le_refl i) hu hu hown hmethod)
    · intro _
      exact Scope.memberName_of_bound hdot (Bindings.recastAll_declared hij hu hv hown hmethod)

/-- A class with a method that calls itself. -/
def innerClass : Source.TypeDecl :=
  { Source.TypeDecl.empty "Inner" .classType with
    members := [.calling "run" "run" "a.b.Outer.Inner.run"] }

def outerClass : Source.TypeDecl :=
  { Source.TypeDecl.empty "Outer" .classType with members := [.type innerClass] }

/-- A unit with a class in a class. -/
def outerUnit : SourceUnit := ⟨"Outer", some "a.b", [], [outerClass], []⟩

/-- A unit of another package, with an array of the inner class and a call
of its method. -/
def userUnit : SourceUnit :=
  (SourceUnit.ofClass "User" "User" [.fieldOf "all" (TypeRef.named "a.b.Outer.Inner").array,
    .calling "go" "run" "a.b.Outer.Inner.run"]).within "c"

theorem outerUnit_keeps : outerUnit.Keeps "a.b.Outer.Inner" "Outer.Inner" innerClass := by
  have houter : outerUnit.Declares [] "a.b.Outer" "Outer" outerClass :=
    @SourceUnit.Declares.top outerUnit outerClass (List.mem_singleton_self _)
  have hinner : outerUnit.Declares [outerClass] "a.b.Outer.Inner" "Outer.Inner" innerClass :=
    houter.nested (List.mem_singleton_self _)
  exact ⟨_, hinner, by decide⟩

theorem a_class_in_a_class_keeps_its_name :
    ∃ outcome outcome' own target,
      (Bindings.empty.recastAll [outerUnit, userUnit])[0]? = some (outerUnit, outcome) ∧
      outcome.result = .ok own ∧
      (Bindings.empty.recastAll [outerUnit, userUnit])[1]? = some (userUnit, outcome') ∧
      outcome'.result = .ok target ∧
      outerUnit.Keeps "a.b.Outer.Inner" "Outer.Inner" innerClass ∧
      own.methods = [("Outer.Inner", "Run", none)] ∧
      target.calls = [("Run", none)] ∧
      target.references = [(TypeRef.named "Outer.Inner").array] ∧
      "A.B" ∈ target.usings.names := by
  have hu : (Bindings.empty.recastAll [outerUnit, userUnit])[0]? =
      some (outerUnit, outerUnit.recast .empty) := rfl
  have hv : (Bindings.empty.recastAll [outerUnit, userUnit])[1]? =
      some (userUnit, userUnit.recast (outerUnit.recast .empty).bindings) := rfl
  have hown := congrArg Outcome.result
    (SourceUnit.recast_of_bound (u := outerUnit) (b := .empty) (by decide +kernel))
  have htarget := congrArg Outcome.result
    (SourceUnit.recast_of_bound (u := userUnit) (b := (outerUnit.recast .empty).bindings)
      (by decide +kernel))
  obtain ⟨ownNames, names, hownNamed, hnamed, htype, husings, hmethods⟩ :=
    what_a_unit_declares_keeps_its_name (Nat.zero_le 1) hu hown hv htarget outerUnit_keeps
  obtain ⟨_, hdeclared, hcalled⟩ := hmethods _ (List.mem_singleton_self _) rfl (by decide)
  refine ⟨_, _, _, _, hu, hown, hv, htarget, outerUnit_keeps, ?_, ?_, ?_, ?_⟩
  · exact hownNamed.methods.trans (congrArg (fun name => [("Outer.Inner", name, none)]) hdeclared)
  · exact hnamed.calls.trans (congrArg (fun name => [(name, none)]) (hcalled "run"))
  · exact hnamed.references.trans (congrArg (fun name => [(TypeRef.named name).array]) htype)
  · refine (husings "A.B" (by decide) ⟨_, List.mem_singleton_self _, rfl⟩).mpr ?_
    decide

/-- An annotation type with a class in it. -/
def hidingType : Source.TypeDecl :=
  { Source.TypeDecl.empty "A" .annotationType with members := [.type (.empty "B" .classType)] }

/-- A class that holds the class in the annotation type. -/
def hidingUnit : SourceUnit :=
  ⟨"C", none, [], [hidingType, { Source.TypeDecl.empty "C" .classType with
    members := [.fieldOf "b" (.named "A.B")] }], []⟩

theorem a_class_in_an_annotation_type_loses_its_path :
    ∃ outcome target,
      (Bindings.empty.recastAll [hidingUnit])[0]? = some (hidingUnit, outcome) ∧
      outcome.result = .ok target ∧
      hidingUnit.Declares [hidingType] "A.B" "A.B" (.empty "B" .classType) ∧
      hidingUnit.references = [.named "A.B"] ∧
      target.references = [.named "B"] := by
  have htop : hidingUnit.Declares [] "A" "A" hidingType :=
    @SourceUnit.Declares.top hidingUnit hidingType List.mem_cons_self
  have htarget := congrArg Outcome.result
    (SourceUnit.recast_of_bound (u := hidingUnit) (b := .empty) (by decide +kernel))
  refine ⟨_, _, rfl, htarget, htop.nested (List.mem_singleton_self _), rfl, ?_⟩
  exact (hidingUnit.namedBy_targetOf _).references

end Recast
