-- Recasting a unit reads the table of bindings at the identities that the
-- unit declares and at those that its leaves name, and nowhere else. Units
-- that are apart from each other can therefore be recast in any order.
import Recast.CSharp.Unit
import Recast.Proofs.SameLeaves
import Recast.Proofs.Unit
import Mathlib.Data.List.Nodup

namespace Recast

open Bindings (AgreeOn)

/-! ## What a unit looks up -/

/-- The identities that are looked up at a leaf. -/
def Leaf.lookups : Leaf → List String
  | .type ref => ref.identities
  | .call _ (some identity) => [memberKeyOfBinding identity]
  | .method _ _ (some identity) => [memberKeyOfBinding identity]
  | _ => []

/-- The identities that are looked up when the unit is recast. -/
def SourceUnit.lookups (u : SourceUnit) : List String := u.leaves.flatMap Leaf.lookups

variable {b b' : Bindings} {space : Option String} {leaf : Leaf}

/-! ## What is made of a leaf -/

mutual

theorem TypeRef.rename_congr {f g : String → String} : ∀ {t : TypeRef},
    (∀ name ∈ t.identities, f name = g name) → t.rename f = t.rename g
  | ⟨name, args, dims⟩, h => by
    have hargs : renameAll f args = renameAll g args :=
      renameAll_congr fun arg harg => h arg (List.mem_cons_of_mem _ harg)
    rw [rename, rename, h name List.mem_cons_self, hargs]

theorem TypeRef.renameAll_congr {f g : String → String} : ∀ {ts : List TypeRef},
    (∀ name ∈ (allParts ts).map (·.name), f name = g name) → renameAll f ts = renameAll g ts
  | [], _ => rfl
  | t :: ts, h => by
    rw [allParts, List.map_append, List.forall_mem_append] at h
    rw [renameAll, renameAll, rename_congr h.1, renameAll_congr h.2]

end

namespace Recasting

theorem type?_congr {identity : String} (h : b.find? identity = b'.find? identity) :
    Scope.type? ⟨b, space⟩ identity = Scope.type? ⟨b', space⟩ identity := by
  unfold Scope.type?
  rw [h]

theorem memberName_congr {identity : String} (h : AgreeOn [memberKeyOfBinding identity] b b') :
    Scope.memberName ⟨b, space⟩ identity = Scope.memberName ⟨b', space⟩ identity := by
  unfold Scope.memberName
  rw [h _ (List.mem_singleton_self _)]

/-- Tables that agree on what is looked up at a leaf make the same of it. -/
theorem leaf?_congr (h : AgreeOn leaf.lookups b b') :
    Scope.leaf? ⟨b, space⟩ leaf = Scope.leaf? ⟨b', space⟩ leaf := by
  cases leaf with
  | type ref =>
    refine congrArg (fun ref => some (Leaf.type ref)) (TypeRef.rename_congr ?_)
    intro name hname
    unfold Scope.nameOf
    rw [type?_congr (h name hname)]
  | call method binding =>
    cases binding with
    | none => rfl
    | some identity => exact congrArg (fun name => some (Leaf.call name none)) (memberName_congr h)
  | method path name binding =>
    cases binding with
    | none => rfl
    | some identity =>
      exact congrArg (fun name => some (Leaf.method path name none)) (memberName_congr h)
  | literal | name | self | unary | binary | lost => rfl

/-- They also note the same. -/
theorem meet_congr (h : AgreeOn leaf.lookups b b') (notes : Notes) :
    notes.meet ⟨b, space⟩ leaf = notes.meet ⟨b', space⟩ leaf := by
  cases leaf with
  | type ref =>
    have hneeded : ref.identities.filterMap (Scope.needed? ⟨b, space⟩) =
        ref.identities.filterMap (Scope.needed? ⟨b', space⟩) := by
      refine List.filterMap_congr ?_
      intro name hname
      unfold Scope.needed?
      rw [type?_congr (h name hname)]
    exact congrArg notes.needing hneeded
  | literal | name | self | unary | binary | call | method | lost => rfl

theorem after_congr {leaves : List Leaf} (h : ∀ leaf ∈ leaves, AgreeOn leaf.lookups b b')
    (notes : Notes) : notes.after ⟨b, space⟩ leaves = notes.after ⟨b', space⟩ leaves := by
  induction leaves generalizing notes with
  | nil => rfl
  | cons leaf leaves ih =>
    rw [List.forall_mem_cons] at h
    rw [Notes.after_cons, Notes.after_cons, meet_congr h.1, ih h.2]

end Recasting

/-! ## One unit and two tables -/

open Recasting

namespace Recasting.Outcome

/-- What is seen of an outcome: the target unit and its text, or the error,
and the warnings. -/
def shown (header : String) (outcome : Outcome) :
    Except BindError (TargetUnit × String) × List Warning :=
  (outcome.result.map fun target => (target, CSharp.render header target), outcome.warnings)

end Recasting.Outcome

namespace SourceUnit

variable {u v : SourceUnit}

/-- The identities at which the table is read when the unit is recast. -/
def consulted (u : SourceUnit) : List String := u.declaredKeys ++ u.lookups

/-- The types of a unit come out the same, with the same notes. -/
theorem recastTypes_congr (h : AgreeOn u.lookups b b') : u.recastTypes b = u.recastTypes b' := by
  have hleaves : ∀ leaf ∈ u.leaves, AgreeOn leaf.lookups b b' :=
    fun leaf hleaf => h.mono fun _ hkey => List.mem_flatMap.mpr ⟨leaf, hleaf, hkey⟩
  have hsame : Scope.SameAt ⟨b, u.space⟩ ⟨b', u.space⟩ u.leaves :=
    fun leaf hleaf => leaf?_congr (hleaves leaf hleaf)
  refine Prod.ext ?_ ?_
  · have hgives := fun bound => (gives_typeDecls ⟨bound, u.space⟩ u.qualify u.types .empty).1
    exact (hgives b).trans (hsame.typeDecls.trans (hgives b').symm)
  · rw [notes_recastTypes, notes_recastTypes, after_congr hleaves]

/-- Tables that agree where the unit reads them take the same entries of
the unit, and all else that recasting it gives is the same. -/
theorem recast_congr (h : AgreeOn u.consulted b b') :
    b.accepted u.declarations = b'.accepted u.declarations ∧
      (u.recast b).result = (u.recast b').result ∧
      (u.recast b).warnings = (u.recast b').warnings := by
  have hdeclared : AgreeOn (keysOf u.declarations) b b' := h.mono fun _ => List.mem_append_left _
  have hlookups : AgreeOn u.lookups b b' := h.mono fun _ => List.mem_append_right _
  obtain ⟨haccepted, herror⟩ := hdeclared.bindAll
  refine ⟨haccepted, ?_⟩
  cases hbind : (b'.bindAll u.declarations).2 with
  | some e =>
    rw [recast_of_refused hbind, recast_of_refused (herror.trans hbind)]
    exact ⟨rfl, rfl⟩
  | none =>
    have htypes := recastTypes_congr (hlookups.extend u.declarations)
    rw [recast_of_bound hbind, recast_of_bound (herror.trans hbind)]
    unfold targetOf
    rw [htypes]
    exact ⟨rfl, rfl⟩

theorem shown_congr (header : String) (h : AgreeOn u.consulted b b') :
    (u.recast b).shown header = (u.recast b').shown header := by
  obtain ⟨_, hresult, hwarnings⟩ := recast_congr h
  unfold Outcome.shown
  rw [hresult, hwarnings]

/-! ## Units in any order -/

/-- Neither unit declares an identity that the other declares or looks up. -/
structure Apart (u v : SourceUnit) : Prop where
  left : ∀ key ∈ u.declaredKeys, key ∉ v.consulted
  right : ∀ key ∈ v.declaredKeys, key ∉ u.consulted

theorem accepted_declared {key : String} (h : key ∈ keysOf (b.accepted u.declarations)) :
    key ∈ u.declaredKeys :=
  List.map_subset Prod.fst (b.accepted_prefix u.declarations).subset h

theorem Apart.symm (h : u.Apart v) : v.Apart u := ⟨h.right, h.left⟩

/-- Recasting a unit changes nothing where a unit apart from it reads. -/
theorem Apart.agreeOn (h : u.Apart v) (b : Bindings) :
    AgreeOn v.consulted b (u.recast b).bindings := by
  rw [recast_bindings]
  refine Bindings.agreeOn_extend b ?_
  intro key hread haccepted
  exact h.left key (accepted_declared haccepted) hread

end SourceUnit

namespace Bindings

variable {units : List SourceUnit}

/-- If the units are apart, each comes out as it does alone, and the table
has at its end what it takes of each. -/
theorem recastAll_apart (header : String) (hapart : units.Pairwise SourceUnit.Apart)
    (hsame : ∀ u ∈ units, AgreeOn u.consulted b b') :
    (b'.recastAll units).map (fun p => (p.1, p.2.shown header)) =
        units.map (fun u => (u, (u.recast b).shown header)) ∧
      b'.afterAll units = b'.extend (units.flatMap fun u => b.accepted u.declarations) := by
  induction units generalizing b' with
  | nil => exact ⟨rfl, (b'.extend_nil).symm⟩
  | cons u rest ih =>
    rw [List.pairwise_cons] at hapart
    have hfirst : AgreeOn u.consulted b b' := hsame u List.mem_cons_self
    have haccepted := (SourceUnit.recast_congr hfirst).1
    -- what the first unit binds is not read by the others
    have hrest : ∀ v ∈ rest, AgreeOn v.consulted b (u.recast b').bindings := by
      intro v hv key hkey
      rw [hsame v (List.mem_cons_of_mem _ hv) key hkey]
      exact (hapart.1 v hv).agreeOn b' key hkey
    obtain ⟨hshown, hafter⟩ := ih hapart.2 hrest
    constructor
    · rw [recastAll, List.map_cons, List.map_cons, hshown, SourceUnit.shown_congr header hfirst]
    · have hstep : b'.afterAll (u :: rest) = (u.recast b').bindings.afterAll rest := rfl
      rw [hstep, hafter, u.recast_bindings, extend_extend, List.flatMap_cons, haccepted]

/-- The identities that the table takes of units that are apart are all
different. -/
theorem nodup_accepted (b : Bindings) (hapart : units.Pairwise SourceUnit.Apart) :
    (keysOf (units.flatMap fun u => b.accepted u.declarations)).Nodup := by
  unfold keysOf
  rw [List.map_flatMap, List.nodup_flatMap]
  refine ⟨fun u _ => (b.accepted_fresh u.declarations).nodup, hapart.imp ?_⟩
  intro u v h key hu hv
  refine h.left key (SourceUnit.accepted_declared hu) ?_
  exact List.mem_append_left _ (SourceUnit.accepted_declared hv)

end Bindings

/-- From two tables that agree where a unit reads them, the unit comes out
the same. So units of which none declares what another declares or looks
up come out the same in all orders, each as it does alone, and the same
identities are bound to the same in the end. -/
theorem units_apart_come_out_the_same_in_all_orders (header : String) :
    (∀ (u : SourceUnit) (b b' : Bindings), AgreeOn u.consulted b b' →
      (u.recast b).result = (u.recast b').result ∧
        (u.recast b).warnings = (u.recast b').warnings) ∧
    ∀ (b : Bindings) (units order : List SourceUnit), units.Pairwise SourceUnit.Apart →
      order.Perm units →
      (b.recastAll units).map (fun p => (p.1, p.2.shown header)) =
          units.map (fun u => (u, (u.recast b).shown header)) ∧
        (b.recastAll order).map (fun p => (p.1, p.2.shown header)) =
          order.map (fun u => (u, (u.recast b).shown header)) ∧
        (b.afterAll order).entries.Perm (b.afterAll units).entries ∧
        ∀ key, (b.afterAll order).find? key = (b.afterAll units).find? key := by
  constructor
  · intro u b b' h
    exact (SourceUnit.recast_congr h).2
  · intro b units order hapart horder
    have hapart' : order.Pairwise SourceUnit.Apart :=
      (horder.pairwise_iff SourceUnit.Apart.symm).mpr hapart
    have hself : ∀ units : List SourceUnit, ∀ u ∈ units, AgreeOn u.consulted b b :=
      fun _ _ _ _ _ => rfl
    obtain ⟨hshown, hafter⟩ := Bindings.recastAll_apart header hapart (hself units)
    obtain ⟨hshown', hafter'⟩ := Bindings.recastAll_apart header hapart' (hself order)
    have hentries := horder.flatMap_right fun u => b.accepted u.declarations
    refine ⟨hshown, hshown', ?_, ?_⟩
    · rw [hafter, hafter']
      exact hentries.append_left b.entries
    · intro key
      rw [hafter, hafter', Bindings.find?_extend, Bindings.find?_extend,
        lookup_perm hentries (b.nodup_accepted hapart')]

/-- A class of the package `a` that calls its own method. -/
def callingUnit : SourceUnit :=
  (SourceUnit.ofClass "A" "A" [.calling "go" "go" "a.A.go"]).within "a"

/-- A class of the package `b` that holds another of its kind. -/
def holdingUnit : SourceUnit :=
  (SourceUnit.ofClass "B" "B" [.fieldOf "next" (.named "b.B"), .lossyField]).within "b"

theorem two_units_apart_come_out_the_same :
    (AgreeOn callingUnit.consulted .empty (holdingUnit.recast .empty).bindings ∧
      (callingUnit.recast .empty).result =
        (callingUnit.recast (holdingUnit.recast .empty).bindings).result) ∧
    [callingUnit, holdingUnit].Pairwise SourceUnit.Apart ∧
      (Bindings.empty.recastAll [holdingUnit, callingUnit]).map
          (fun p => (p.1, p.2.shown "// header\n")) =
        [holdingUnit, callingUnit].map
          (fun u => (u, (u.recast .empty).shown "// header\n")) ∧
      ∀ key, (Bindings.empty.afterAll [holdingUnit, callingUnit]).find? key =
        (Bindings.empty.afterAll [callingUnit, holdingUnit]).find? key := by
  obtain ⟨htables, horders⟩ := units_apart_come_out_the_same_in_all_orders "// header\n"
  have hagree : AgreeOn callingUnit.consulted .empty (holdingUnit.recast .empty).bindings := by
    unfold Bindings.AgreeOn
    decide +kernel
  have hapart : [callingUnit, holdingUnit].Pairwise SourceUnit.Apart :=
    List.pairwise_pair.mpr ⟨by decide +kernel, by decide +kernel⟩
  obtain ⟨_, hshown, _, hfind⟩ := horders .empty [callingUnit, holdingUnit]
    [holdingUnit, callingUnit] hapart (List.Perm.swap ..)
  exact ⟨⟨hagree, (htables _ _ _ hagree).1⟩, hapart, hshown, hfind⟩

end Recast
