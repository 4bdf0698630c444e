-- Places: the types that a unit keeps, each with the names that lead to it.
-- They are listed in the order of the source, an outer type before those in it.
-- The sites of a unit are its places and the method names of the types there.
import Recast.Proofs.Sites

namespace Recast

namespace Source

/-! ## The members of one type -/

def Member.methodName? : Member → Option String
  | .method m => some m.name
  | _ => none

def Member.type? : Member → Option TypeDecl
  | .type decl => some decl
  | _ => none

/-- The names of the methods, with repeats. -/
def methodNames (members : List Member) : List String := members.filterMap Member.methodName?

/-- The types that stand directly among the members. -/
def nestedTypes (members : List Member) : List TypeDecl := members.filterMap Member.type?

/-! ## Places -/

structure Place where
  /-- The names of the types around it and its own, the outermost first. -/
  path : List String
  decl : TypeDecl

/-- The sites of the type itself. -/
def Place.sites (place : Place) : List Site :=
  .type place.path :: (methodNames place.decl.members).map (.method place.path)

mutual

/-- An annotation type has no place, and neither has a type in it. -/
def TypeDecl.places (around : List String) : TypeDecl → List Place
  | ⟨name, kind, modifiers, base, interfaces, constants, members, span⟩ =>
    if kind = .annotationType then []
    else
      ⟨around ++ [name], ⟨name, kind, modifiers, base, interfaces, constants, members, span⟩⟩ ::
        memberPlaces (around ++ [name]) members

def memberPlaces (path : List String) : List Member → List Place
  | [] => []
  | .type decl :: rest => decl.places path ++ memberPlaces path rest
  | .field _ :: rest => memberPlaces path rest
  | .method _ :: rest => memberPlaces path rest
  | .constructor _ :: rest => memberPlaces path rest

end

variable {around path : List String} {members : List Member} {decl : TypeDecl} {site : Site}
  {place : Place}

theorem memberPlaces_eq (path : List String) (members : List Member) :
    memberPlaces path members = (nestedTypes members).flatMap (·.places path) := by
  induction members with
  | nil => rfl
  | cons member rest ih =>
    cases member with
    | type decl =>
      rw [memberPlaces, ih]
      rfl
    | field f | method f | constructor f =>
      rw [memberPlaces, ih]
      rfl

mutual

/-- The sites of a type are those of the places in it. -/
theorem TypeDecl.mem_sites (around : List String) : ∀ decl : TypeDecl,
    site ∈ decl.sites around ↔ ∃ place ∈ decl.places around, site ∈ place.sites
  | ⟨name, kind, modifiers, base, interfaces, constants, members, span⟩ => by
    unfold TypeDecl.sites TypeDecl.places
    split
    · simp
    · simp only [List.mem_cons, mem_memberSites, exists_eq_or_imp, Place.sites, List.mem_map]
      rw [or_assoc]

theorem mem_memberSites (path : List String) : ∀ members : List Member,
    site ∈ memberSites path members ↔ (∃ name ∈ methodNames members, .method path name = site) ∨
      ∃ place ∈ memberPlaces path members, site ∈ place.sites
  | [] => by simp [memberSites, memberPlaces, methodNames]
  | .type decl :: rest => by
    simp only [memberSites, memberPlaces, List.mem_append, decl.mem_sites path,
      mem_memberSites path rest, or_and_right, exists_or]
    rw [or_left_comm]
    rfl
  | .field _ :: rest => by
    rw [memberSites, memberPlaces, mem_memberSites path rest]
    rfl
  | .constructor _ :: rest => by
    rw [memberSites, memberPlaces, mem_memberSites path rest]
    rfl
  | .method m :: rest => by
    have hnames : methodNames (.method m :: rest) = m.name :: methodNames rest := rfl
    simp only [memberSites, memberPlaces, List.mem_cons, List.mem_filter, mem_memberSites path rest,
      hnames, exists_eq_or_imp, decide_eq_true_eq]
    by_cases hfirst : site = .method path m.name
    · simp [hfirst]
    · simp [hfirst, Ne.symm hfirst]

end

theorem memberSites_cases (h : site ∈ memberSites path members) :
    (∃ name, .method path name = site) ∨ ∃ decl ∈ nestedTypes members, site ∈ decl.sites path := by
  rw [mem_memberSites, memberPlaces_eq] at h
  rcases h with ⟨name, -, hsite⟩ | ⟨place, hplace, hsite⟩
  · exact Or.inl ⟨name, hsite⟩
  · obtain ⟨decl, hdecl, hplace⟩ := List.mem_flatMap.mp hplace
    exact Or.inr ⟨decl, hdecl, (decl.mem_sites path).mpr ⟨place, hplace, hsite⟩⟩

theorem Place.path_of_mem_sites (h : site ∈ place.sites) : site.path = place.path := by
  rcases List.mem_cons.mp h with rfl | hmethod
  · rfl
  · obtain ⟨name, _, rfl⟩ := List.mem_map.mp hmethod
    rfl

theorem TypeDecl.type_mem_sites (h : place ∈ decl.places around) :
    .type place.path ∈ decl.sites around :=
  (decl.mem_sites around).mpr ⟨place, h, List.mem_cons_self⟩

theorem TypeDecl.path_ne_nil (h : place ∈ decl.places around) : place.path ≠ [] := by
  intro hpath
  have hprefix := TypeDecl.prefix_of_mem_sites (TypeDecl.type_mem_sites h)
  simp [Site.path, hpath] at hprefix

/-- The top level is a scope like the members of a type. -/
theorem nestedTypes_map_type (decls : List TypeDecl) : nestedTypes (decls.map .type) = decls := by
  unfold nestedTypes
  rw [List.filterMap_map]
  exact List.filterMap_some

theorem memberSites_map_type (path : List String) (decls : List TypeDecl) :
    memberSites path (decls.map .type) = decls.flatMap (·.sites path) := by
  induction decls with
  | nil => rfl
  | cons decl rest ih => rw [List.map_cons, memberSites, ih, List.flatMap_cons]

end Source

namespace SourceUnit

def places (u : SourceUnit) : List Source.Place := u.types.flatMap (·.places [])

theorem sites_eq (u : SourceUnit) : u.sites = Source.memberSites [] (u.types.map .type) :=
  (Source.memberSites_map_type [] u.types).symm

theorem places_eq (u : SourceUnit) : u.places = Source.memberPlaces [] (u.types.map .type) := by
  rw [Source.memberPlaces_eq, Source.nestedTypes_map_type]
  rfl

theorem mem_sites (u : SourceUnit) {site : Site} :
    site ∈ u.sites ↔ ∃ place ∈ u.places, site ∈ place.sites := by
  have hnames : Source.methodNames (u.types.map .type) = [] := by
    simp [Source.methodNames, Source.Member.methodName?]
  rw [sites_eq, places_eq, Source.mem_memberSites, hnames]
  simp

theorem path_ne_nil {u : SourceUnit} {place : Source.Place} (h : place ∈ u.places) :
    place.path ≠ [] := by
  obtain ⟨decl, -, hplace⟩ := List.mem_flatMap.mp h
  exact Source.TypeDecl.path_ne_nil hplace

end SourceUnit

end Recast
