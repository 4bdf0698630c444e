-- The types that a unit binds are those of its target unit. One walk binds types
-- and methods, another makes the target types; both go over the same places in the
-- same order, and they name each type alike.
import Mathlib.Data.List.Nodup
import Recast.Proofs.Counterparts
import Recast.Proofs.Places

namespace Recast

/-! ## The types of target units -/

namespace Target

mutual

/-- The paths of a type and of those in it, the outer one first. -/
def TypeDecl.paths (around : List String) : TypeDecl → List (List String)
  | ⟨name, _, _, _, _, members⟩ => (around ++ [name]) :: memberPaths (around ++ [name]) members

def memberPaths (path : List String) : List Member → List (List String)
  | [] => []
  | .type decl :: rest => decl.paths path ++ memberPaths path rest
  | .field _ _ _ _ :: rest => memberPaths path rest
  | .method _ _ _ _ _ :: rest => memberPaths path rest
  | .constructor _ _ _ _ :: rest => memberPaths path rest
  | .placeholder _ :: rest => memberPaths path rest

end

end Target

def TargetUnit.paths (u : TargetUnit) : List (List String) := u.types.flatMap (·.paths [])

namespace Recasting

mutual

/-- What a type becomes is at the places of the type. -/
theorem paths_typeDecl (scope : Scope) (identity : String) (around : List String) :
    ∀ decl : Source.TypeDecl, (scope.typeDecl identity decl).toList.flatMap (·.paths around) =
      (decl.places around).map (·.path)
  | ⟨name, kind, modifiers, base, interfaces, constants, declared, span⟩ => by
    cases kind with
    | annotationType => simp [Scope.typeDecl, kind?, Source.TypeDecl.places]
    | classType | interfaceType | enumType =>
      simp [Scope.typeDecl, kind?, Source.TypeDecl.places, Target.TypeDecl.paths,
        paths_members scope identity name _ (around ++ [name]) declared]

theorem paths_members (scope : Scope) (owner typeName : String) (inInterface : Bool)
    (path : List String) : ∀ declared : List Source.Member,
    Target.memberPaths path (scope.members owner typeName inInterface declared) =
      (Source.memberPlaces path declared).map (·.path)
  | [] => rfl
  | .field f :: rest => by
    rw [Scope.members, Scope.field, Target.memberPaths, Source.memberPlaces]
    exact paths_members scope owner typeName inInterface path rest
  | .constructor m :: rest => by
    rw [Scope.members, Scope.construct, Target.memberPaths, Source.memberPlaces]
    exact paths_members scope owner typeName inInterface path rest
  | .method m :: rest => by
    have hrest := paths_members scope owner typeName inInterface path rest
    rw [Scope.members, Scope.method, Source.memberPlaces]
    split
    · rw [Target.memberPaths, hrest]
    · rw [Target.memberPaths, hrest]
  | .type decl :: rest => by
    have hrest := paths_members scope owner typeName inInterface path rest
    rw [Scope.members, Source.memberPlaces, List.map_append, ← hrest,
      ← paths_typeDecl scope (owner ++ "." ++ decl.name) path decl]
    cases scope.typeDecl (owner ++ "." ++ decl.name) decl with
    | none => rfl
    | some decl' => simp [Target.memberPaths]

end

end Recasting

theorem SourceUnit.paths_of_recast {u : SourceUnit} {b : Bindings} {target : TargetUnit}
    (h : (u.recast b).result = .ok target) : target.paths = u.places.map (·.path) := by
  unfold TargetUnit.paths places
  rw [(u.recast_gives h).1, Recasting.Scope.typeDecls, List.filterMap_eq_flatMap_toList,
    List.flatMap_assoc, List.map_flatMap]
  congr 1
  funext decl
  exact Recasting.paths_typeDecl _ _ [] decl

/-! ## The types among the sites -/

namespace Site

def isType : Site → Bool
  | .type _ => true
  | .method _ _ => false

/-- A method of the type at this path. -/
def isMethodAt (path : List String) : Site → Bool
  | .type _ => false
  | .method path' _ => path' == path

theorem path_of_isMethodAt {site : Site} {path : List String} (h : site.isMethodAt path = true) :
    site.path = path := by
  cases site with
  | type path' => cases h
  | method path' name => exact eq_of_beq h

end Site

namespace Source

mutual

theorem TypeDecl.types_of_sites (around : List String) : ∀ decl : TypeDecl,
    (decl.sites around).filter (·.isType) = (decl.places around).map (.type ·.path)
  | ⟨name, kind, modifiers, base, interfaces, constants, members, span⟩ => by
    unfold TypeDecl.sites TypeDecl.places
    split
    · rfl
    · rw [List.filter_cons_of_pos rfl, types_of_memberSites (around ++ [name]) members, List.map_cons]

theorem types_of_memberSites (path : List String) : ∀ members : List Member,
    (memberSites path members).filter (·.isType) = (memberPlaces path members).map (.type ·.path)
  | [] => rfl
  | .field _ :: rest => by
    rw [memberSites, memberPlaces]
    exact types_of_memberSites path rest
  | .constructor _ :: rest => by
    rw [memberSites, memberPlaces]
    exact types_of_memberSites path rest
  | .method m :: rest => by
    have htypes : ∀ site : Site, (site.isType && decide (site ≠ .method path m.name)) = site.isType := by
      intro site
      cases site <;> simp [Site.isType]
    rw [memberSites, memberPlaces, List.filter_cons_of_neg (by simp [Site.isType]),
      List.filter_filter]
    simp only [htypes]
    exact types_of_memberSites path rest
  | .type decl :: rest => by
    rw [memberSites, memberPlaces, List.filter_append, List.map_append, decl.types_of_sites path,
      types_of_memberSites path rest]

end

/-! ## The methods among the sites -/

/-- To leave elements out and to leave repeats out change places. -/
theorem eraseDups_filter (p : String → Bool) : ∀ names : List String,
    (names.filter p).eraseDups = names.eraseDups.filter p
  | [] => rfl
  | name :: rest => by
    have hrest := eraseDups_filter p (rest.filter (!· == name))
    rw [List.eraseDups_cons]
    cases hname : p name with
    | true =>
      rw [List.filter_cons_of_pos hname, List.filter_cons_of_pos hname, List.eraseDups_cons, ← hrest,
        List.filter_filter, List.filter_filter]
      simp only [Bool.and_comm]
    | false =>
      rw [List.filter_cons_of_neg (by simp [hname]), List.filter_cons_of_neg (by simp [hname]), ← hrest,
        List.filter_filter]
      congr 2
      funext other
      cases hother : p other with
      | false => rfl
      | true =>
        have hne : other ≠ name := by
          rintro rfl
          rw [hother] at hname
          cases hname
        simp [hne]
termination_by names => names.length
decreasing_by
  have hlength := List.length_filter_le (!· == name) rest
  simp only [List.length_cons]
  omega

/-- Each method name of a type has one site, in the order of the first methods. -/
theorem methods_of_memberSites (path : List String) : ∀ members : List Member,
    (memberSites path members).filter (·.isMethodAt path) =
      (methodNames members).eraseDups.map (.method path)
  | [] => rfl
  | .field _ :: rest => by
    rw [memberSites]
    exact methods_of_memberSites path rest
  | .constructor _ :: rest => by
    rw [memberSites]
    exact methods_of_memberSites path rest
  | .type decl :: rest => by
    have hdecl : (decl.sites path).filter (·.isMethodAt path) = [] := by
      rw [List.filter_eq_nil_iff]
      intro site hsite hmethod
      exact TypeDecl.path_ne_of_mem_sites hsite (Site.path_of_isMethodAt hmethod)
    rw [memberSites, List.filter_append, hdecl, List.nil_append]
    exact methods_of_memberSites path rest
  | .method m :: rest => by
    have hnames : methodNames (.method m :: rest) = m.name :: methodNames rest := rfl
    have hsites : ((memberSites path rest).filter (· ≠ .method path m.name)).filter
        (·.isMethodAt path) =
          ((memberSites path rest).filter (·.isMethodAt path)).filter (· ≠ .method path m.name) := by
      rw [List.filter_filter, List.filter_filter]
      simp only [Bool.and_comm]
    have hother : (fun site => decide (site ≠ Site.method path m.name)) ∘ Site.method path =
        (!· == m.name) := by
      funext name
      rw [Bool.eq_iff_iff]
      simp
    rw [memberSites, List.filter_cons_of_pos (by simp [Site.isMethodAt]), hnames,
      List.eraseDups_cons, List.map_cons, eraseDups_filter, hsites,
      methods_of_memberSites path rest, List.filter_map, hother]

variable {place : Place} {path : List String}

/-- A type in another is not at the path of the outer one. -/
theorem path_ne_of_mem_memberPlaces {members : List Member} (h : place ∈ memberPlaces path members) :
    place.path ≠ path := by
  rw [memberPlaces_eq] at h
  obtain ⟨decl, -, hplace⟩ := List.mem_flatMap.mp h
  exact TypeDecl.path_ne_of_mem_sites (TypeDecl.type_mem_sites hplace)

/-- The sites of the methods of a place. -/
def Place.methods (place : Place) : List Site :=
  (methodNames place.decl.members).eraseDups.map (.method place.path)

mutual

/-- The methods at one path are those of the types at that path. -/
theorem TypeDecl.methods_of_sites (path : List String) : ∀ (around : List String) (decl : TypeDecl),
    (decl.sites around).filter (·.isMethodAt path) =
      ((decl.places around).filter (·.path = path)).flatMap (·.methods)
  | around, ⟨name, kind, modifiers, base, interfaces, constants, members, span⟩ => by
    unfold TypeDecl.sites TypeDecl.places
    split
    · rfl
    · rw [List.filter_cons_of_neg (by simp [Site.isMethodAt])]
      by_cases hpath : around ++ [name] = path
      · have hinner : (memberPlaces (around ++ [name]) members).filter (·.path = path) = [] := by
          rw [List.filter_eq_nil_iff]
          intro place hplace
          simpa [← hpath] using path_ne_of_mem_memberPlaces hplace
        rw [List.filter_cons_of_pos (by simpa using hpath), hinner, ← hpath,
          methods_of_memberSites (around ++ [name]) members]
        simp [Place.methods]
      · rw [List.filter_cons_of_neg (by simpa using hpath)]
        exact methods_of_outer path (Ne.symm hpath) members

theorem methods_of_outer (path : List String) : ∀ {outer : List String}, path ≠ outer →
    ∀ members : List Member, (memberSites outer members).filter (·.isMethodAt path) =
      ((memberPlaces outer members).filter (·.path = path)).flatMap (·.methods)
  | _, _, [] => rfl
  | _, hne, .field _ :: rest => by
    rw [memberSites, memberPlaces]
    exact methods_of_outer path hne rest
  | _, hne, .constructor _ :: rest => by
    rw [memberSites, memberPlaces]
    exact methods_of_outer path hne rest
  | outer, hne, .method m :: rest => by
    have hother : ∀ site : Site,
        (site.isMethodAt path && decide (site ≠ .method outer m.name)) = site.isMethodAt path := by
      intro site
      cases hmethod : site.isMethodAt path with
      | false => rfl
      | true =>
        have hsite : site ≠ .method outer m.name := by
          rintro rfl
          exact hne (Site.path_of_isMethodAt hmethod).symm
        simpa using hsite
    rw [memberSites, memberPlaces, List.filter_cons_of_neg (by simpa [Site.isMethodAt] using hne.symm),
      List.filter_filter]
    simp only [hother]
    exact methods_of_outer path hne rest
  | outer, hne, .type decl :: rest => by
    rw [memberSites, memberPlaces, List.filter_append, List.filter_append, List.flatMap_append,
      decl.methods_of_sites path outer, methods_of_outer path hne rest]

end

end Source

/-! ## What a unit binds -/

/-- An element that no other looks like is left alone. -/
theorem filter_eq_singleton {α : Type} {p : α → Prop} [DecidablePred p] {l : List α} {a : α}
    (hnodup : l.Nodup) (ha : a ∈ l) (hp : ∀ x ∈ l, p x ↔ x = a) : l.filter p = [a] := by
  induction l with
  | nil => cases ha
  | cons x rest ih =>
    obtain ⟨hx, hrest⟩ := List.forall_mem_cons.mp hp
    obtain ⟨hnew, hnodup⟩ := List.nodup_cons.mp hnodup
    by_cases hsame : x = a
    · subst hsame
      have hnone : rest.filter p = [] := by
        rw [List.filter_eq_nil_iff]
        intro y hy
        rw [decide_eq_true_iff, hrest y hy]
        rintro rfl
        exact hnew hy
      rw [List.filter_cons_of_pos (by simpa using hx), hnone]
    · have hmem : a ∈ rest := (List.mem_cons.mp ha).resolve_left (Ne.symm hsame)
      rw [List.filter_cons_of_neg (by simpa [hx] using hsame)]
      exact ih hnodup hmem hrest

namespace TargetRef

def isType : TargetRef → Bool
  | .type _ _ => true
  | .member _ _ => false

/-- A member of the type with this full name. -/
def isMemberOf (owner : String) : TargetRef → Bool
  | .type _ _ => false
  | .member owner' _ => owner' == owner

theorem fullName_type_inj {space : Option String} {name name' : String}
    (h : (TargetRef.type space name).fullName = (TargetRef.type space name').fullName) :
    name = name' := by
  cases space with
  | none => exact h
  | some space => exact (String.append_right_inj _).mp h

end TargetRef

namespace SourceUnit

variable {u : SourceUnit} {b : Bindings} {target : TargetUnit}

theorem types_of_sites (u : SourceUnit) :
    u.sites.filter (·.isType) = u.places.map (.type ·.path) := by
  rw [u.sites_eq, u.places_eq]
  exact Source.types_of_memberSites [] _

theorem methods_of_sites (u : SourceUnit) {path : List String} (h : path ≠ []) :
    u.sites.filter (·.isMethodAt path) = (u.places.filter (·.path = path)).flatMap (·.methods) := by
  rw [u.sites_eq, u.places_eq]
  exact Source.methods_of_outer path h _

theorem types_of_declared (u : SourceUnit) : u.declared.filter (·.2.isType) =
    u.places.map fun place => u.entryOf (.type place.path) := by
  have htypes : (fun entry : String × TargetRef => entry.2.isType) ∘ u.entryOf = Site.isType := by
    funext site
    cases site <;> rfl
  rw [declared, List.filter_map, htypes, u.types_of_sites, List.map_map]
  rfl

/-- In a unit that comes through, no two types are at one path. -/
theorem nodup_paths (h : (u.recast b).result = .ok target) :
    (u.places.map fun place => dotted place.path).Nodup := by
  have hkeys := (recast_ok h).1.nodup
  rw [u.declarations_eq] at hkeys
  have htypes : (keysOf (u.declared.filter (·.2.isType))).Nodup :=
    hkeys.sublist (List.filter_sublist.map _)
  rw [types_of_declared] at htypes
  refine List.Nodup.of_map u.qualify ?_
  rw [List.map_map]
  simpa [keysOf, entryOf, keyOf, Function.comp_def] using htypes

theorem eq_of_dotted_eq (h : (u.recast b).result = .ok target) {place place' : Source.Place}
    (hplace : place ∈ u.places) (hplace' : place' ∈ u.places)
    (heq : dotted place.path = dotted place'.path) : place = place' :=
  List.inj_on_of_nodup_map (nodup_paths h) hplace hplace' heq

/-- The members of the type at a place are its methods. -/
theorem methods_of_declared (h : (u.recast b).result = .ok target) {place : Source.Place}
    (hplace : place ∈ u.places) :
    u.declared.filter (·.2.isMemberOf (u.fullNameAt place.path)) = place.methods.map u.entryOf := by
  have hmethods : ∀ site ∈ u.sites,
      (u.refOf site).isMemberOf (u.fullNameAt place.path) = site.isMethodAt place.path := by
    intro site hsite
    cases site with
    | type path => rfl
    | method path name =>
      obtain ⟨place', hplace', hmem⟩ := u.mem_sites.mp hsite
      obtain rfl : path = place'.path := Source.Place.path_of_mem_sites hmem
      rw [Bool.eq_iff_iff]
      simp only [refOf, TargetRef.isMemberOf, Site.isMethodAt, beq_iff_eq]
      constructor
      · intro hname
        rw [eq_of_dotted_eq h hplace' hplace (TargetRef.fullName_type_inj hname)]
      · exact congrArg u.fullNameAt
  have hone : u.places.filter (·.path = place.path) = [place] :=
    filter_eq_singleton (nodup_paths h).of_map hplace fun place' hplace' =>
      ⟨fun hpath => eq_of_dotted_eq h hplace' hplace (congrArg dotted hpath), congrArg _⟩
  have hsites : u.sites.filter ((·.2.isMemberOf (u.fullNameAt place.path)) ∘ u.entryOf) =
      place.methods := by
    refine (List.filter_congr hmethods).trans ?_
    rw [u.methods_of_sites (path_ne_nil hplace), hone, List.flatMap_singleton]
  rw [declared, List.filter_map, hsites]

end SourceUnit

/-- Take a unit that comes through. The types among its new entries are those of
the target unit, in their order: each is bound in the namespace of the target unit,
by its path there. The types of the target unit are those at the places of the unit.
For each of these, the new members with its full name for owner are its methods: one
for each name, in the order of the first methods, and with the name in pascal case.
There are no other new entries. -/
theorem types_are_bound_as_they_are_recast {u : SourceUnit} {b : Bindings} {target : TargetUnit}
    (h : (u.recast b).result = .ok target) :
    let fullName := fun path => (TargetRef.type target.space (dotted path)).fullName
    ∃ new, (u.recast b).bindings = b.extend new ∧
      new.filter (·.2.isType) = (target.paths.map fun path =>
        (u.qualify (dotted path), .type target.space (dotted path))) ∧
      target.paths = u.places.map (·.path) ∧
      (∀ place ∈ u.places, new.filter (·.2.isMemberOf (fullName place.path)) =
        (Source.methodNames place.decl.members).eraseDups.map fun name =>
          (memberKey (u.qualify (dotted place.path)) name,
            .member (fullName place.path) (pascalCase name))) ∧
      ∀ entry ∈ new, entry.2.isType = true ∨
        ∃ place ∈ u.places, entry.2.isMemberOf (fullName place.path) = true := by
  intro fullName
  obtain ⟨_, hbindings, htarget⟩ := SourceUnit.recast_ok h
  have hspace : target.space = u.space := by
    rw [htarget]
    rfl
  have hpaths := SourceUnit.paths_of_recast h
  have hnames : ∀ path, fullName path = u.fullNameAt path := by
    intro path
    change (TargetRef.type target.space (dotted path)).fullName = _
    rw [hspace]
    rfl
  refine ⟨u.declared, ?_, ?_, hpaths, ?_, ?_⟩
  · rw [hbindings, u.declarations_eq]
  · rw [u.types_of_declared, hpaths, List.map_map, hspace]
    rfl
  · intro place hplace
    rw [hnames, SourceUnit.methods_of_declared h hplace, Source.Place.methods, List.map_map]
    rfl
  · intro entry hentry
    obtain ⟨site, hsite, rfl⟩ := List.mem_map.mp hentry
    cases site with
    | type path => exact Or.inl rfl
    | method path name =>
      obtain ⟨place, hplace, hmem⟩ := u.mem_sites.mp hsite
      obtain rfl : path = place.path := Source.Place.path_of_mem_sites hmem
      refine Or.inr ⟨place, hplace, ?_⟩
      rw [hnames]
      exact beq_self_eq_true _

theorem a_class_in_a_class_is_bound_behind_its_outer_class :
    ∃ target new, (nestedUnit.recast .empty).result = .ok target ∧
      target.paths = [["A"], ["A", "B"]] ∧
      (nestedUnit.recast .empty).bindings = Bindings.empty.extend new ∧
      new.filter (·.2.isType) =
        [("p.A", .type (some "P") "A"), ("p.A.B", .type (some "P") "A.B")] ∧
      new.filter (·.2.isMemberOf "P.A") =
        [("p.A#go", .member "P.A" "Go"), ("p.A#stop", .member "P.A" "Stop")] := by
  obtain ⟨target, hok, hspace⟩ : ∃ target, (nestedUnit.recast .empty).result = .ok target ∧
      target.space = some "P" :=
    ⟨_, congrArg Recasting.Outcome.result
      (SourceUnit.recast_of_bound (u := nestedUnit) (b := .empty) (by decide +kernel)),
      by decide +kernel⟩
  obtain ⟨new, hnew, htypes, hpaths, hmethods, -⟩ := types_are_bound_as_they_are_recast hok
  have hplaces : target.paths = [["A"], ["A", "B"]] := by
    rw [hpaths]
    decide +kernel
  have houter := hmethods _ (List.mem_of_getElem? (i := 0) rfl)
  rw [hplaces, hspace] at htypes
  rw [hspace] at houter
  refine ⟨target, new, hok, hplaces, hnew, htypes.trans ?_, ?_⟩
  · decide +kernel
  · have hname : (TargetRef.type (some "P") (dotted ["A"])).fullName = "P.A" := by decide +kernel
    refine Eq.trans ?_ (houter.trans ?_)
    · rw [← hname]
      rfl
    · decide +kernel

end Recast
