-- Types at their places in a unit. A type that stands in no annotation type
-- is bound under its identity, and each of its methods under a key of its
-- own; its leaves are leaves of the unit.
import Recast.Proofs.Bindings
import Recast.Proofs.Leaves

namespace Recast

/-! ## Members -/

namespace Source

variable {space : Option String} {identity path : String} {members : List Member}
  {decl : TypeDecl} {m : MethodDecl}

theorem TypeDecl.declarations_of_kind (space : Option String) (identity path : String)
    (h : decl.kind ≠ .annotationType) : decl.declarations space identity path =
      (identity, .type space path) :: memberDeclarations space identity path [] decl.members := by
  obtain ⟨name, kind, modifiers, base, interfaces, constants, members, span⟩ := decl
  cases kind with
  | annotationType => exact absurd rfl h
  | classType => simp [declarations]
  | interfaceType => simp [declarations]
  | enumType => simp [declarations]

/-- A nested type declares what it declares, whatever stands before it. -/
theorem declarations_of_nested (h : .type decl ∈ members) (seen : List String) :
    decl.declarations space (identity ++ "." ++ decl.name) (path ++ "." ++ decl.name) ⊆
      memberDeclarations space identity path seen members := by
  induction members generalizing seen with
  | nil => cases h
  | cons first rest ih =>
    rcases List.mem_cons.mp h with rfl | hrest
    · rw [memberDeclarations]
      exact List.subset_append_left _ _
    · cases first with
      | field f =>
        rw [memberDeclarations]
        exact ih hrest seen
      | constructor c =>
        rw [memberDeclarations]
        exact ih hrest seen
      | type other =>
        rw [memberDeclarations]
        exact List.subset_append_of_subset_right _ (ih hrest seen)
      | method m =>
        rw [memberDeclarations]
        split
        · exact ih hrest seen
        · exact List.subset_cons_of_subset _ (ih hrest (m.name :: seen))

/-- A method is declared, by itself or by one before it that has its name. -/
theorem declaration_of_method (h : .method m ∈ members) {seen : List String}
    (hseen : m.name ∉ seen) :
    (memberKey identity m.name, .member (TargetRef.type space path).fullName (pascalCase m.name)) ∈
      memberDeclarations space identity path seen members := by
  induction members generalizing seen with
  | nil => cases h
  | cons first rest ih =>
    rcases List.mem_cons.mp h with rfl | hrest
    · rw [memberDeclarations, if_neg (by simpa using hseen)]
      exact List.mem_cons_self
    · cases first with
      | field f =>
        rw [memberDeclarations]
        exact ih hrest hseen
      | constructor c =>
        rw [memberDeclarations]
        exact ih hrest hseen
      | type other =>
        rw [memberDeclarations]
        exact List.mem_append_right _ (ih hrest hseen)
      | method other =>
        rw [memberDeclarations]
        split
        · exact ih hrest hseen
        · by_cases hname : m.name = other.name
          · rw [hname]
            exact List.mem_cons_self
          · exact List.mem_cons_of_mem _ (ih hrest (by simp [hname, hseen]))

theorem leaves_subset_memberLeaves (identity path : String) {member : Member}
    (h : member ∈ members) :
    member.leaves identity path ⊆ memberLeaves identity path members := by
  induction members with
  | nil => cases h
  | cons first rest ih =>
    rw [memberLeaves]
    rcases List.mem_cons.mp h with rfl | hrest
    · exact List.subset_append_left _ _
    · exact List.subset_append_of_subset_right _ (ih hrest)

theorem MethodDecl.method_mem_leaves (h : m.has .native = false) :
    .method path m.name (some (identity ++ "." ++ m.name)) ∈ m.leaves identity path := by
  unfold leaves
  rw [h]
  exact List.mem_cons_self

end Source

/-! ## Places of types -/

namespace SourceUnit

variable {u : SourceUnit} {around : List Source.TypeDecl} {identity path : String}
  {decl : Source.TypeDecl} {m : Source.MethodDecl}

/-- The unit declares a type with this identity and with this path in the
target. `around` are the types that it stands in, the innermost first. -/
inductive Declares (u : SourceUnit) :
    (around : List Source.TypeDecl) → (identity path : String) → Source.TypeDecl → Prop
  | top {decl : Source.TypeDecl} (h : decl ∈ u.types) :
    Declares u [] (u.qualify decl.name) decl.name decl
  | nested {around : List Source.TypeDecl} {identity path : String}
    {outer decl : Source.TypeDecl} (houter : Declares u around identity path outer)
    (h : .type decl ∈ outer.members) :
    Declares u (outer :: around) (identity ++ "." ++ decl.name) (path ++ "." ++ decl.name) decl

theorem qualify_append (u : SourceUnit) (name rest : String) :
    u.qualify (name ++ rest) = u.qualify name ++ rest := by
  unfold qualify
  cases u.package with
  | none => rfl
  | some package =>
    dsimp only
    split
    · rfl
    · simp only [String.append_assoc]

/-- The identity is the path with the package in front. -/
theorem Declares.identity_eq (h : u.Declares around identity path decl) :
    identity = u.qualify path := by
  induction h with
  | top h => rfl
  | nested houter h ih => rw [ih, String.append_assoc, String.append_assoc, qualify_append]

/-- Without an annotation type around it, a type declares in the unit what
it declares by itself, and its leaves are leaves of the unit. -/
theorem Declares.subset (h : u.Declares around identity path decl)
    (hkinds : ∀ outer ∈ around, outer.kind ≠ .annotationType) :
    decl.declarations u.space identity path ⊆ u.declarations ∧
      decl.leaves identity path ⊆ u.leaves := by
  induction h with
  | top h =>
    exact ⟨fun _ hentry => List.mem_flatMap.mpr ⟨_, h, hentry⟩,
      fun _ hleaf => List.mem_flatMap.mpr ⟨_, h, hleaf⟩⟩
  | @nested around identity path outer decl houter h ih =>
    obtain ⟨houterKind, haround⟩ := List.forall_mem_cons.mp hkinds
    obtain ⟨hdeclarations, hleaves⟩ := ih haround
    rw [Source.TypeDecl.declarations_of_kind _ _ _ houterKind] at hdeclarations
    rw [Source.TypeDecl.leaves_of_kind _ _ houterKind] at hleaves
    constructor
    · refine List.Subset.trans ?_ hdeclarations
      exact List.subset_cons_of_subset _ (Source.declarations_of_nested h [])
    · refine List.Subset.trans ?_ hleaves
      have hmember := Source.leaves_subset_memberLeaves identity path h
      exact List.subset_append_of_subset_right _ hmember

/-- The unit declares the type, and neither it nor a type around it is an
annotation type. -/
def Keeps (u : SourceUnit) (identity path : String) (decl : Source.TypeDecl) : Prop :=
  ∃ around, u.Declares around identity path decl ∧
    ∀ d ∈ decl :: around, d.kind ≠ .annotationType

namespace Keeps

/-- What the type and its members declare, the unit declares, and the leaves
of its members are leaves of the unit. -/
theorem subset (h : u.Keeps identity path decl) :
    (identity, .type u.space path) ::
        Source.memberDeclarations u.space identity path [] decl.members ⊆ u.declarations ∧
      Source.memberLeaves identity path decl.members ⊆ u.leaves := by
  obtain ⟨around, hdeclares, hkinds⟩ := h
  obtain ⟨hkind, haround⟩ := List.forall_mem_cons.mp hkinds
  obtain ⟨hdeclarations, hleaves⟩ := hdeclares.subset haround
  rw [decl.declarations_of_kind _ _ _ hkind] at hdeclarations
  rw [decl.leaves_of_kind _ _ hkind] at hleaves
  exact ⟨hdeclarations, List.Subset.trans (List.subset_append_right _ _) hleaves⟩

theorem type_declared (h : u.Keeps identity path decl) :
    (identity, .type u.space path) ∈ u.declarations :=
  h.subset.1 List.mem_cons_self

theorem method_declared (h : u.Keeps identity path decl) (hm : .method m ∈ decl.members) :
    (memberKey identity m.name,
      .member (TargetRef.type u.space path).fullName (pascalCase m.name)) ∈ u.declarations := by
  apply h.subset.1
  exact List.mem_cons_of_mem _ (Source.declaration_of_method hm List.not_mem_nil)

theorem method_leaf (h : u.Keeps identity path decl) (hm : .method m ∈ decl.members)
    (hnative : m.has .native = false) :
    .method path m.name (some (identity ++ "." ++ m.name)) ∈ u.leaves := by
  apply h.subset.2
  apply Source.leaves_subset_memberLeaves _ _ hm
  exact Source.MethodDecl.method_mem_leaves hnative

end Keeps

end SourceUnit

end Recast
