-- Sets of names, kept in the order of their characters.

namespace Recast.Text

/-- Each name is smaller than all names behind it. -/
def Rising (names : List String) : Prop := names.Pairwise fun a b => compare a b = .lt

instance (names : List String) : Decidable (Rising names) :=
  inferInstanceAs (Decidable (names.Pairwise _))

/-- A set of names, as a list in rising order without repeats. -/
@[ext]
structure NameSet where
  names : List String
  rising : Rising names
deriving Repr, DecidableEq

namespace NameSet

def empty : NameSet := ⟨[], .nil⟩

instance : Inhabited NameSet := ⟨empty⟩

/-- The list with a name put at its place, unless it is there. -/
def place (name : String) : List String → List String
  | [] => [name]
  | n :: ns =>
    match compare name n with
    | .lt => name :: n :: ns
    | .eq => n :: ns
    | .gt => n :: place name ns

theorem lt_of_mem_place {low name : String} {names : List String} (hname : compare low name = .lt)
    (hnames : ∀ n ∈ names, compare low n = .lt) : ∀ n ∈ place name names, compare low n = .lt := by
  fun_induction place name names with
  | case1 => simpa using hname
  | case2 n ns => simpa [hname] using hnames
  | case3 n ns => exact hnames
  | case4 n ns hgt ih =>
    simp only [List.forall_mem_cons] at hnames ⊢
    exact ⟨hnames.1, ih hnames.2⟩

theorem rising_place {name : String} {names : List String} (h : Rising names) :
    Rising (place name names) := by
  fun_induction place name names with
  | case1 => exact List.pairwise_singleton ..
  | case2 n ns hlt =>
    refine List.pairwise_cons.mpr ⟨fun m hm => ?_, h⟩
    obtain rfl | hm := List.mem_cons.mp hm
    · exact hlt
    · exact Std.TransCmp.lt_trans hlt (List.rel_of_pairwise_cons h hm)
  | case3 n ns => exact h
  | case4 n ns hgt ih =>
    have hrest := List.pairwise_cons.mp h
    exact List.pairwise_cons.mpr
      ⟨lt_of_mem_place (Std.OrientedCmp.lt_of_gt hgt) hrest.1, ih hrest.2⟩

def insert (s : NameSet) (name : String) : NameSet := ⟨place name s.names, rising_place s.rising⟩

/-- The set of the names of a list. -/
def ofList (names : List String) : NameSet := names.foldl insert empty

theorem place_of_forall_gt {name : String} {names : List String}
    (h : ∀ n ∈ names, compare name n = .gt) : place name names = names ++ [name] := by
  induction names with
  | nil => rfl
  | cons n ns ih =>
    rw [List.forall_mem_cons] at h
    rw [place, h.1, ih h.2, List.cons_append]

theorem names_foldl_insert {s : NameSet} {more : List String} (h : Rising (s.names ++ more)) :
    (more.foldl insert s).names = s.names ++ more := by
  induction more generalizing s with
  | nil => exact (List.append_nil _).symm
  | cons name more ih =>
    have hlast : (s.insert name).names = s.names ++ [name] :=
      place_of_forall_gt fun n hn => Std.OrientedCmp.gt_of_lt
        ((List.pairwise_append.mp h).2.2 n hn name List.mem_cons_self)
    rw [List.foldl_cons, ih (by rwa [hlast, List.append_assoc]), hlast, List.append_assoc]
    rfl

/-- A set is the set of its names. -/
theorem ofList_names (s : NameSet) : ofList s.names = s :=
  NameSet.ext (names_foldl_insert s.rising)

def isEmpty (s : NameSet) : Bool := s.names.isEmpty

end NameSet

end Recast.Text
