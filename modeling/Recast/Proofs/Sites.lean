-- Sites: where a unit declares something. A site is a type, by the names that
-- lead to it from the top level, or a method name of such a type. What a unit
-- binds are its sites in their order, each under its key; and it binds them up
-- to the first key that is taken.
import Recast.Proofs.Bindings
import Recast.Proofs.Declared
import Recast.Proofs.Names
import Recast.Proofs.Unit

namespace Recast

/-! ## Paths -/

/-- The names of a path with dots between them. -/
def dotted (path : List String) : String := Text.joinWith "." path

theorem dotted_cons {path : List String} (h : path ≠ []) (name : String) :
    dotted (name :: path) = name ++ "." ++ dotted path := by
  unfold dotted
  rw [Text.joinWith_eq, Text.joinWith_eq, String.intercalate_cons_of_ne_nil h]

theorem dotted_snoc {path : List String} (h : path ≠ []) (name : String) :
    dotted (path ++ [name]) = dotted path ++ "." ++ name := by
  induction path with
  | nil => exact absurd rfl h
  | cons first rest ih =>
    cases rest with
    | nil => rfl
    | cons second rest =>
      have hrest := ih (List.cons_ne_nil second rest)
      rw [List.cons_append, dotted_cons (List.append_ne_nil_of_left_ne_nil (by simp) _), hrest,
        dotted_cons (List.cons_ne_nil second rest)]
      simp only [String.append_assoc]

/-! ## Sites -/

inductive Site
  | type (path : List String)
  | method (path : List String) (name : String)
deriving Repr, DecidableEq

/-- The path of the type, or of the type that the method is of. -/
def Site.path : Site → List String
  | .type path => path
  | .method path _ => path

namespace Source

mutual

/-- A type comes before its members. Annotation types have no sites. -/
def TypeDecl.sites (around : List String) : TypeDecl → List Site
  | ⟨name, kind, _, _, _, _, members, _⟩ =>
    if kind = .annotationType then []
    else .type (around ++ [name]) :: memberSites (around ++ [name]) members

/-- The sites in a type, in the order of its members. Methods of one name
have one site, that of the first of them. -/
def memberSites (path : List String) : List Member → List Site
  | [] => []
  | .method m :: rest =>
    .method path m.name :: (memberSites path rest).filter (· ≠ .method path m.name)
  | .type decl :: rest => decl.sites path ++ memberSites path rest
  | .field _ :: rest => memberSites path rest
  | .constructor _ :: rest => memberSites path rest

end

variable {around path : List String} {members : List Member} {decl : TypeDecl} {site : Site}

mutual

/-- The sites of a type lie at its path or below it. -/
theorem TypeDecl.prefix_of_mem_sites : ∀ {around : List String} {decl : TypeDecl},
    site ∈ decl.sites around → around ++ [decl.name] <+: site.path
  | around, ⟨name, kind, modifiers, base, interfaces, constants, members, span⟩, h => by
    unfold TypeDecl.sites at h
    split at h
    · cases h
    · rcases List.mem_cons.mp h with rfl | h
      · exact List.prefix_refl _
      · exact prefix_of_mem_memberSites h

theorem prefix_of_mem_memberSites : ∀ {path : List String} {members : List Member},
    site ∈ memberSites path members → path <+: site.path
  | path, [], h => by
    simp [memberSites] at h
  | path, .method m :: rest, h => by
    rw [memberSites] at h
    rcases List.mem_cons.mp h with rfl | h
    · exact List.prefix_refl _
    · exact prefix_of_mem_memberSites (List.mem_filter.mp h).1
  | path, .type decl :: rest, h => by
    rw [memberSites] at h
    rcases List.mem_append.mp h with h | h
    · exact (List.prefix_append _ _).trans (TypeDecl.prefix_of_mem_sites h)
    · exact prefix_of_mem_memberSites h
  | path, .field f :: rest, h => by
    rw [memberSites] at h
    exact prefix_of_mem_memberSites h
  | path, .constructor m :: rest, h => by
    rw [memberSites] at h
    exact prefix_of_mem_memberSites h

end

/-- No site of a type in another is at the path of the outer one. -/
theorem TypeDecl.path_ne_of_mem_sites (h : site ∈ decl.sites path) : site.path ≠ path := by
  intro hpath
  have hlength := (TypeDecl.prefix_of_mem_sites h).length_le
  rw [hpath, List.length_append, List.length_singleton] at hlength
  omega

end Source

/-! ## What is bound at a site -/

namespace SourceUnit

def sites (u : SourceUnit) : List Site := u.types.flatMap (·.sites [])

/-- The key of a site: its path with the package in front, and behind that the
method. -/
def keyOf (u : SourceUnit) : Site → String
  | .type path => u.qualify (dotted path)
  | .method path name => memberKey (u.qualify (dotted path)) name

/-- The full name of the type at a path in the target. -/
def fullNameAt (u : SourceUnit) (path : List String) : String :=
  (TargetRef.type u.space (dotted path)).fullName

def refOf (u : SourceUnit) : Site → TargetRef
  | .type path => .type u.space (dotted path)
  | .method path name => .member (u.fullNameAt path) (pascalCase name)

def entryOf (u : SourceUnit) (site : Site) : String × TargetRef := (u.keyOf site, u.refOf site)

/-- The keys and references of the sites of a unit. -/
def declared (u : SourceUnit) : List (String × TargetRef) := u.sites.map u.entryOf

theorem qualify_dotted_snoc (u : SourceUnit) {path : List String} (h : path ≠ []) (name : String) :
    u.qualify (dotted (path ++ [name])) = u.qualify (dotted path) ++ "." ++ name := by
  rw [dotted_snoc h, String.append_assoc, qualify_append, String.append_assoc]

end SourceUnit

namespace Source

mutual

theorem TypeDecl.declarations_eq (u : SourceUnit) (around : List String) : ∀ decl : TypeDecl,
    decl.declarations u.space (u.qualify (dotted (around ++ [decl.name])))
      (dotted (around ++ [decl.name])) = (decl.sites around).map u.entryOf
  | ⟨name, kind, modifiers, base, interfaces, constants, members, span⟩ => by
    cases kind with
    | annotationType => simp [TypeDecl.declarations, TypeDecl.sites]
    | classType | interfaceType | enumType =>
      have hmembers := memberDeclarations_eq u (List.append_ne_nil_of_right_ne_nil around
        (List.cons_ne_nil name [])) [] members
      rw [List.filter_eq_self.mpr (by simp)] at hmembers
      simp [TypeDecl.declarations, TypeDecl.sites, hmembers, SourceUnit.entryOf, SourceUnit.keyOf,
        SourceUnit.refOf]

/-- Of the sites in a type, those remain whose method was not seen. -/
theorem memberDeclarations_eq (u : SourceUnit) {path : List String} (hpath : path ≠ []) :
    ∀ (seen : List String) (members : List Member),
    memberDeclarations u.space (u.qualify (dotted path)) (dotted path) seen members =
      ((memberSites path members).filter (· ∉ seen.map (.method path))).map u.entryOf
  | seen, [] => by simp [memberDeclarations, memberSites]
  | seen, .field _ :: rest => by
    rw [memberDeclarations, memberSites, memberDeclarations_eq u hpath seen rest]
  | seen, .constructor _ :: rest => by
    rw [memberDeclarations, memberSites, memberDeclarations_eq u hpath seen rest]
  | seen, .type decl :: rest => by
    have hdecl : (decl.sites path).filter (· ∉ seen.map (Site.method path)) = decl.sites path := by
      rw [List.filter_eq_self]
      intro site hsite
      rw [decide_eq_true_iff]
      intro hmem
      obtain ⟨name, _, rfl⟩ := List.mem_map.mp hmem
      exact TypeDecl.path_ne_of_mem_sites hsite rfl
    rw [memberDeclarations, memberSites, memberDeclarations_eq u hpath seen rest,
      List.filter_append, List.map_append, hdecl, ← decl.declarations_eq u path,
      u.qualify_dotted_snoc hpath, dotted_snoc hpath]
  | seen, .method m :: rest => by
    rw [memberDeclarations, memberSites]
    by_cases hseen : m.name ∈ seen
    · -- the name was seen, so nothing more is left out than before
      have hleft : ∀ site : Site, (site ∉ seen.map (.method path) ∧ site ≠ .method path m.name) ↔
          site ∉ seen.map (.method path) := by
        intro site
        refine and_iff_left_of_imp fun hsite => ?_
        rintro rfl
        exact hsite (List.mem_map_of_mem hseen)
      rw [if_pos (by simpa using hseen), memberDeclarations_eq u hpath seen rest,
        List.filter_cons_of_neg (by simpa using hseen), List.filter_filter]
      simp only [← Bool.decide_and, hleft]
    · have hleft : ∀ site : Site, (site ∉ seen.map (.method path) ∧ site ≠ .method path m.name) ↔
          site ∉ (m.name :: seen).map (.method path) := by
        intro site
        rw [List.map_cons, List.mem_cons, not_or, and_comm]
      rw [if_neg (by simpa using hseen), memberDeclarations_eq u hpath (m.name :: seen) rest,
        List.filter_cons_of_pos (by simpa using hseen), List.filter_filter, List.map_cons]
      simp only [← Bool.decide_and, hleft]
      rfl

end

end Source

/-- What a unit binds are its sites, each under its key. -/
theorem SourceUnit.declarations_eq (u : SourceUnit) : u.declarations = u.declared := by
  unfold declarations declared sites
  rw [List.map_flatMap]
  congr 1
  funext decl
  exact decl.declarations_eq u []

/-! ## Clashes -/

namespace Bindings

variable {b : Bindings} {key : String} {ref existing : TargetRef}
  {entries before : List (String × TargetRef)}

/-- The first entry whose identity is taken: bound in the table, or else
declared by an entry before it. -/
structure FirstClash (b : Bindings) (entries before : List (String × TargetRef)) (key : String)
    (ref existing : TargetRef) : Prop where
  split : ∃ after, entries = before ++ (key, ref) :: after
  fresh : b.Fresh before
  taken : (b.find? key).or (before.lookup key) = some existing

theorem fresh_nil (b : Bindings) : b.Fresh [] :=
  ⟨List.nodup_nil, fun _ h => absurd h List.not_mem_nil⟩

theorem fresh_cons : b.Fresh ((key, ref) :: entries) ↔
    b.find? key = none ∧ (b.extend [(key, ref)]).Fresh entries := by
  have hfind : ∀ other, (b.extend [(key, ref)]).find? other = none ↔
      b.find? other = none ∧ other ≠ key := by
    intro other
    rw [find?_extend, Option.or_eq_none_iff, List.lookup_cons]
    by_cases hsame : other = key
    · simp [hsame]
    · have hne : (other == key) = false := beq_eq_false_iff_ne.mpr hsame
      simp [hne, hsame]
  constructor
  · rintro ⟨hnodup, hfree⟩
    obtain ⟨hnew, hrest⟩ := List.nodup_cons.mp hnodup
    refine ⟨hfree key List.mem_cons_self, hrest, ?_⟩
    intro other hother
    refine (hfind other).mpr ⟨hfree other (List.mem_cons_of_mem _ hother), ?_⟩
    rintro rfl
    exact hnew hother
  · rintro ⟨hkey, hnodup, hfree⟩
    refine ⟨List.nodup_cons.mpr ⟨?_, hnodup⟩, ?_⟩
    · intro hmem
      exact ((hfind key).mp (hfree key hmem)).2 rfl
    · intro other hother
      rcases List.mem_cons.mp hother with rfl | hother
      · exact hkey
      · exact ((hfind other).mp (hfree other hother)).1

theorem bindAll_append (h : b.Fresh before) (rest : List (String × TargetRef)) :
    b.bindAll (before ++ rest) = (b.extend before).bindAll rest := by
  induction before generalizing b with
  | nil => simp
  | cons entry before ih =>
    obtain ⟨key, ref⟩ := entry
    obtain ⟨hkey, hbefore⟩ := fresh_cons.mp h
    rw [List.cons_append, bindAll_cons_of_none hkey, ih hbefore, extend_extend]
    rfl

theorem Fresh.bindAll (h : b.Fresh entries) : b.bindAll entries = (b.extend entries, none) := by
  rw [← List.append_nil entries, bindAll_append h, List.append_nil]
  rfl

theorem FirstClash.bindAll (h : b.FirstClash entries before key ref existing) :
    b.bindAll entries = (b.extend before, some ⟨key, existing.fullName, ref.fullName⟩) := by
  obtain ⟨⟨after, rfl⟩, hfresh, htaken⟩ := h
  rw [← find?_extend] at htaken
  rw [bindAll_append hfresh, bindAll_cons_of_some htaken]

/-- Entries that are not all free and different have a first clash. -/
theorem exists_firstClash (h : ¬ b.Fresh entries) :
    ∃ before key ref existing, b.FirstClash entries before key ref existing := by
  induction entries generalizing b with
  | nil => exact absurd b.fresh_nil h
  | cons entry rest ih =>
    obtain ⟨key, ref⟩ := entry
    cases hkey : b.find? key with
    | some existing =>
      exact ⟨[], key, ref, existing, ⟨rest, rfl⟩, b.fresh_nil, by rw [hkey, Option.some_or]⟩
    | none =>
      have hrest : ¬ (b.extend [(key, ref)]).Fresh rest := fun hrest => h (fresh_cons.mpr ⟨hkey, hrest⟩)
      obtain ⟨before, key', ref', existing, ⟨after, rfl⟩, hfresh, htaken⟩ := ih hrest
      rw [find?_extend, Option.or_assoc, ← List.lookup_append] at htaken
      exact ⟨(key, ref) :: before, key', ref', existing, ⟨after, rfl⟩,
        fresh_cons.mpr ⟨hkey, hfresh⟩, htaken⟩

end Bindings

theorem SourceUnit.recast_of_fresh {u : SourceUnit} {b : Bindings} (h : b.Fresh u.declared) :
    (u.recast b).bindings = b.extend u.declared ∧ ∃ target, (u.recast b).result = .ok target := by
  rw [← u.declarations_eq] at h ⊢
  rw [recast_of_bound (congrArg Prod.snd h.bindAll)]
  exact ⟨rfl, _, rfl⟩

/-- If the keys of the sites of a unit are free and all different, the unit comes
through and the table has grown by them. If not, recasting ends at the first
clash: the error names its key, what the key is bound to and what it should have
been bound to. The table has grown by the sites before it, and there are no
warnings. -/
theorem a_unit_binds_its_sites_up_to_the_first_clash (u : SourceUnit) (b : Bindings) :
    (b.Fresh u.declared → (u.recast b).bindings = b.extend u.declared ∧
      ∃ target, (u.recast b).result = .ok target) ∧
    (¬ b.Fresh u.declared → ∃ before key ref existing,
      b.FirstClash u.declared before key ref existing ∧
      u.recast b = ⟨b.extend before, [], .error ⟨key, existing.fullName, ref.fullName⟩⟩) := by
  refine ⟨SourceUnit.recast_of_fresh, ?_⟩
  intro hnot
  obtain ⟨before, key, ref, existing, hclash⟩ := Bindings.exists_firstClash hnot
  refine ⟨before, key, ref, existing, hclash, ?_⟩
  unfold SourceUnit.recast
  rw [u.declarations_eq, hclash.bindAll]

/-- A method without a body. -/
def Source.Member.bare (name : String) : Source.Member :=
  .method ⟨name, [], none, [], none, .none⟩

/-- A class with two methods of one name, an annotation type, and a class
between them that has a method of that name too. -/
def nestedUnit : SourceUnit :=
  (SourceUnit.ofClass "A" "A" [.bare "go",
    .type { Source.TypeDecl.empty "B" .classType with members := [.bare "go"] },
    .bare "go", .type (.empty "C" .annotationType), .bare "stop"]).within "p"

/-- A table that has the method of the inner class. -/
def takenTable : Bindings := ⟨[("p.A.B#go", .member "X" "Y")]⟩

theorem a_taken_method_ends_a_unit_half_way :
    (∃ target, (nestedUnit.recast .empty).result = .ok target) ∧
    (nestedUnit.recast .empty).bindings.entries = [("p.A", .type (some "P") "A"),
      ("p.A#go", .member "P.A" "Go"), ("p.A.B", .type (some "P") "A.B"),
      ("p.A.B#go", .member "P.A.B" "Go"), ("p.A#stop", .member "P.A" "Stop")] ∧
    nestedUnit.recast takenTable = ⟨takenTable.extend (nestedUnit.declared.take 3), [],
      .error ⟨"p.A.B#go", "X.Y", "P.A.B.Go"⟩⟩ := by
  have hfresh : Bindings.empty.Fresh nestedUnit.declared :=
    ⟨by decide +kernel, fun _ _ => rfl⟩
  have hnot : ¬ takenTable.Fresh nestedUnit.declared := by
    intro h
    exact absurd (h.free "p.A.B#go" (by decide +kernel)) (by decide +kernel)
  have hbindAll : takenTable.bindAll nestedUnit.declared =
      (takenTable.extend (nestedUnit.declared.take 3),
        some ⟨"p.A.B#go", "X.Y", "P.A.B.Go"⟩) := by
    decide +kernel
  obtain ⟨hbindings, hok⟩ := (a_unit_binds_its_sites_up_to_the_first_clash nestedUnit .empty).1 hfresh
  obtain ⟨before, key, ref, existing, hclash, hrecast⟩ :=
    (a_unit_binds_its_sites_up_to_the_first_clash nestedUnit takenTable).2 hnot
  obtain ⟨hbefore, herror⟩ := Prod.mk.inj (hclash.bindAll.symm.trans hbindAll)
  refine ⟨hok, ?_, ?_⟩
  · rw [hbindings]
    decide +kernel
  · rw [hrecast, hbefore, Option.some.inj herror]

end Recast
