-- What readers get from values. A value carries some data for a reader if it
-- can be printed and the reader gets the data from it, given room for all the
-- containers of the value.
import Recast.Json.Reader
import Recast.Proofs.Json.Text

namespace Recast.Json

/-! ## Depth -/

mutual

/-- The containers that are nested in the value, itself included. -/
def depth : Json → Nat
  | .array items => itemsDepth items + 1
  | .object fields => fieldsDepth fields + 1
  | _ => 0

def itemsDepth : List Json → Nat
  | [] => 0
  | j :: js => max j.depth (itemsDepth js)

def fieldsDepth : List (String × Json) → Nat
  | [] => 0
  | (_, j) :: fields => max j.depth (fieldsDepth fields)

end

/-! ## Whole numbers -/

theorem isUnsigned_repr (n : Nat) : isUnsigned (Nat.repr n).toList = true := by
  have hdigits := Text.all_isDigit_repr n
  obtain ⟨c, cs, hn, hc⟩ := Text.exists_repr n
  rcases Nat.eq_zero_or_pos n with rfl | hpos
  · decide
  · have hzero := Text.head?_repr_ne hpos
    rw [hn] at hdigits hzero ⊢
    rw [List.all_cons, Bool.and_eq_true] at hdigits
    have hend : (cs ++ []).dropWhile Char.isDigit = [] := Text.dropWhile_row hdigits.2 rfl
    rw [List.append_nil] at hend
    rw [isUnsigned, hc, hend]
    · rfl
    · rintro rfl
      exact hzero rfl

theorem isNumber_repr (n : Nat) : isNumber (Nat.repr n).toList = true := by
  have hnumber := isUnsigned_repr n
  obtain ⟨c, cs, hn, hc⟩ := Text.exists_repr n
  rw [hn] at hnumber ⊢
  rw [isNumber, hnumber]
  intro _ heq
  obtain rfl := (List.cons.inj heq).1
  exact absurd hc (by decide)

theorem wellFormed_ofInt (n : Int) : (ofInt n).wellFormed = true := by
  unfold ofInt
  split
  · have htext : ("-" ++ Nat.repr n.natAbs).toList = '-' :: (Nat.repr n.natAbs).toList := by
      simp
    rw [wellFormed, htext]
    exact isUnsigned_repr n.natAbs
  · exact isNumber_repr n.natAbs

theorem natOfDigits_repr (n : Nat) : natOfDigits (Nat.repr n).toList = n :=
  Text.ofDigitChars_repr n

/-- A row of digits behind an optional minus has no other parts. -/
theorem partsOf_digits {lexeme : String} {negative : Bool} {c : Char} {cs : List Char}
    (hdigits : (c :: cs).all Char.isDigit = true)
    (h : lexeme.toList = (if negative then ['-'] else []) ++ c :: cs) :
    partsOf lexeme = ⟨negative, c :: cs, [], 0, true⟩ := by
  have htake : ((c :: cs) ++ []).takeWhile Char.isDigit = c :: cs := Text.takeWhile_row hdigits rfl
  have hdrop : ((c :: cs) ++ []).dropWhile Char.isDigit = [] := Text.dropWhile_row hdigits rfl
  rw [List.append_nil] at htake hdrop
  unfold partsOf
  split
  rename_i sign ds heq
  have hsign : sign = negative ∧ ds = c :: cs := by
    rw [h] at heq
    cases negative with
    | true => simpa [eq_comm] using heq
    | false =>
      rw [if_neg Bool.false_ne_true, List.nil_append] at heq
      split at heq
      · rename_i hminus
        obtain rfl := (List.cons.inj hminus).1
        exact absurd hdigits (by simp)
      · simpa [eq_comm] using heq
  obtain ⟨rfl, rfl⟩ := hsign
  rw [htake, hdrop]
  rfl

theorem intOf?_ofInt {n : Int} {lexeme : String} (h : ofInt n = .number lexeme) :
    intOf? lexeme = some n := by
  have hvalue := natOfDigits_repr n.natAbs
  have hdigits := Text.all_isDigit_repr n.natAbs
  obtain ⟨c, cs, hn, -⟩ := Text.exists_repr n.natAbs
  rw [hn] at hvalue hdigits
  have htext : lexeme.toList = (if decide (n < 0) then ['-'] else []) ++ c :: cs := by
    rw [ofInt, Json.number.injEq] at h
    rw [← h, ← hn]
    split <;> simp [*]
  rw [intOf?, partsOf_digits hdigits htext, hvalue]
  by_cases hneg : n < 0
  · have hpos : n.natAbs ≠ 0 := by omega
    simp only [hneg, decide_true, Bool.not_true, Bool.false_eq_true, if_false, if_true, hpos]
    congr 1
    omega
  · simp only [hneg, decide_false, Bool.not_true, Bool.false_eq_true, if_false]
    congr 1
    omega

/-! ## Carried data -/

namespace Reader

/-- The value can be printed, and the reader gets this from it, given room for
its containers. -/
structure Carries (r : Reader α) (j : Json) (a : α) : Prop where
  wellFormed : j.wellFormed = true
  reads : ∀ room, j.depth ≤ room → r room j = some a

section

variable {r : Reader α} {j : Json} {a : α}

theorem Carries.map {f : α → β} (h : Carries r j a) :
    Carries (fun room j => (r room j).map f) j (f a) where
  wellFormed := h.wellFormed
  reads room hroom := by rw [h.reads room hroom, Option.map_some]

/-- Where a reader may take as many steps down as there is room, the depth of
the value is enough. -/
theorem carries_of_deep (read : Nat → Reader α)
    (h : ∀ deep, j.depth ≤ deep → Carries (read deep) j a) :
    Carries (fun room j => read room room j) j a where
  wellFormed := (h j.depth (Nat.le_refl _)).wellFormed
  reads room hroom := (h room hroom).reads room hroom

/-! ### Single values -/

theorem carries_text (s : String) : Carries text (.text s) s := ⟨rfl, fun _ _ => rfl⟩

theorem carries_bool (b : Bool) : Carries bool (.bool b) b := ⟨rfl, fun _ _ => rfl⟩

theorem carries_char (c : Char) : Carries char (.text (String.ofList [c])) c := by
  refine ⟨rfl, fun _ _ => ?_⟩
  rw [char, String.toList_ofList]

theorem carries_intBetween {low high n : Int} (hlow : low ≤ n) (hhigh : n < high) :
    Carries (intBetween low high) (ofInt n) n := by
  refine ⟨wellFormed_ofInt n, fun room _ => ?_⟩
  have hlexeme : ∃ lexeme, ofInt n = .number lexeme := ⟨_, rfl⟩
  obtain ⟨lexeme, hlexeme⟩ := hlexeme
  rw [hlexeme, intBetween, intOf?_ofInt hlexeme]
  simp [hlow, hhigh]

theorem ofNat_eq (n : Nat) : ofNat n = ofInt n := by
  rw [ofInt, if_neg (by omega)]
  rfl

/-- A number below a bound, and what it stands for. -/
theorem carries_below {n : Nat} {high : Int} (hn : (n : Int) < high) {f : Int → α} (hf : f n = a) :
    Carries (fun room j => (intBetween 0 high room j).map f) (.ofNat n) a := by
  rw [ofNat_eq, ← hf]
  exact (carries_intBetween (by omega) hn).map

theorem carries_uint8 (n : UInt8) : Carries uint8 (.ofNat n.toNat) n := by
  have hn := n.toNat_lt
  exact carries_below (by omega) (by simp)

theorem carries_uint32 (n : UInt32) : Carries uint32 (.ofNat n.toNat) n := by
  have hn := n.toNat_lt
  exact carries_below (by omega) (by simp)

theorem carries_uint64 (n : UInt64) : Carries uint64 (.ofNat n.toNat) n := by
  have hn := n.toNat_lt
  exact carries_below (by omega) (by simp)

theorem carries_int64 (n : Int64) : Carries int64 (.ofInt n.toInt) n := by
  have hlow := n.le_toInt
  have hhigh := n.toInt_lt
  have hcarries : Carries int64 (.ofInt n.toInt) (Int64.ofInt n.toInt) :=
    (carries_intBetween (by omega) (by omega)).map
  rwa [Int64.ofInt_toInt] at hcarries

theorem carries_null : Carries (nullable r) .null none := ⟨rfl, fun _ _ => rfl⟩

theorem Carries.nullable (h : Carries r j a) (hne : j ≠ .null) :
    Carries (nullable r) j (some a) := by
  refine ⟨h.wellFormed, fun room hroom => ?_⟩
  rw [Reader.nullable, h.reads room hroom]
  · rfl
  · exact hne

theorem carries_ofOption {write : α → Json} {value : Option α}
    (h : ∀ a, value = some a → Carries r (write a) a ∧ write a ≠ .null) :
    Carries (nullable r) (.ofOption write value) value := by
  cases value with
  | none => exact carries_null
  | some a => exact (h a rfl).1.nullable (h a rfl).2

/-- A name from a table. -/
theorem carries_oneOf {table : List (String × α)} {tag : String} (h : table.lookup tag = some a) :
    Carries (oneOf table) (.text tag) a := ⟨rfl, fun _ _ => h⟩

/-! ### Lists -/

theorem carries_nil : Carries (list r) (.array []) [] := by
  refine ⟨rfl, fun room hroom => ?_⟩
  obtain ⟨room, rfl⟩ : ∃ k, room = k + 1 := ⟨room - 1, by simp [depth] at hroom; omega⟩
  rfl

theorem Carries.cons {js : List Json} {as : List α} (h : Carries r j a)
    (hs : Carries (list r) (.array js) as) : Carries (list r) (.array (j :: js)) (a :: as) := by
  refine ⟨?_, fun room hroom => ?_⟩
  · have hjs : wellFormedItems js = true := hs.wellFormed
    rw [Json.wellFormed, wellFormedItems, h.wellFormed, hjs]
    rfl
  · rw [depth, itemsDepth] at hroom
    obtain ⟨room, rfl⟩ : ∃ k, room = k + 1 := ⟨room - 1, by omega⟩
    have hrest := hs.reads (room + 1) (by rw [depth]; omega)
    rw [list] at hrest ⊢
    rw [List.mapM_cons, h.reads room (by omega), hrest]
    rfl

theorem carries_list {write : α → Json} {as : List α} (h : ∀ a ∈ as, Carries r (write a) a) :
    Carries (list r) (.array (as.map write)) as := by
  induction as with
  | nil => exact carries_nil
  | cons a as ih =>
    rw [List.forall_mem_cons] at h
    exact h.1.cons (ih h.2)

end

/-! ### Choices -/

/-- A form with a payload is read by the reader of its tag. -/
theorem carries_tagged {r r' : Reader α} {tag : String} {payload : Json} {a : α}
    (hr : ∀ room j, r (room + 1) (.tagged tag j) = r' room j) (h : Carries r' payload a) :
    Carries r (.tagged tag payload) a := by
  refine ⟨?_, fun room hroom => ?_⟩
  · rw [Json.tagged, Json.wellFormed, wellFormedFields, h.wellFormed]
    rfl
  · rw [Json.tagged, depth, fieldsDepth] at hroom
    obtain ⟨room, rfl⟩ : ∃ k, room = k + 1 := ⟨room - 1, by omega⟩
    rw [hr, h.reads room (by omega)]

/-! ### Records -/

theorem mem_of_lookup {fields : List (String × Json)} {name : String} {j : Json}
    (h : fields.lookup name = some j) : (name, j) ∈ fields := by
  induction fields with
  | nil => simp at h
  | cons f fields ih =>
    obtain ⟨key, j'⟩ := f
    rw [List.lookup_cons] at h
    split at h
    · rename_i heq
      simp_all
    · exact List.mem_cons_of_mem _ (ih h)

theorem depth_le_fieldsDepth {fields : List (String × Json)} {f : String × Json}
    (h : f ∈ fields) : f.2.depth ≤ fieldsDepth fields := by
  induction fields with
  | nil => cases h
  | cons f' fields ih =>
    rw [fieldsDepth]
    obtain rfl | h := List.mem_cons.mp h
    · exact Nat.le_max_left ..
    · exact Nat.le_trans (ih h) (Nat.le_max_right ..)

theorem keysOnce_of_nodup {names : List String} {fields : List (String × Json)}
    (h : (fields.map (·.1)).Nodup) : keysOnce names fields = true := by
  rw [keysOnce, List.all_eq_true]
  intro name _
  have hcount : (fields.filter (·.1 == name)).length = (fields.map (·.1)).count name := by
    rw [List.count, List.countP_map, List.countP_eq_length_filter]
    rfl
  rw [decide_eq_true_eq, hcount, h.count]
  split <;> omega

/-- The last fields of a record can be printed, and all its fields together
give this, given room for the containers in them. -/
structure Builds (fields last : List (String × Json)) (build : Nat → Fields → Option α) (a : α) :
    Prop where
  wellFormed : wellFormedFields last = true
  reads : ∀ room, fieldsDepth fields ≤ room → build room ⟨false, fields⟩ = some a

namespace Builds

variable {fields last : List (String × Json)} {name : String} {j : Json} {r : Reader β} {b : β}
  {a : α} {build : β → Nat → Fields → Option α}

theorem pure : Builds fields [] (fun _ _ => some a) a := ⟨rfl, fun _ _ => rfl⟩

theorem wellFormed_cons (h : Carries r j b) (hlast : Builds fields last (build b) a) :
    wellFormedFields ((name, j) :: last) = true := by
  rw [wellFormedFields, h.wellFormed, hlast.wellFormed]
  rfl

theorem required (h : Carries r j b) (hname : fields.lookup name = some j)
    (hlast : Builds fields last (build b) a) :
    Builds fields ((name, j) :: last)
      (fun room f => f.required name r room >>= fun b => build b room f) a := by
  refine ⟨wellFormed_cons h hlast, fun room hroom => ?_⟩
  have hdepth := depth_le_fieldsDepth (mem_of_lookup hname)
  have hread := h.reads room (Nat.le_trans hdepth hroom)
  simp only [Fields.required, hname, Option.bind_some, hread, Option.bind_eq_bind]
  exact hlast.reads room hroom

theorem defaulted {value : β} (h : Carries r j b) (hname : fields.lookup name = some j)
    (hlast : Builds fields last (build b) a) :
    Builds fields ((name, j) :: last)
      (fun room f => f.defaulted name r room value >>= fun b => build b room f) a := by
  refine ⟨wellFormed_cons h hlast, fun room hroom => ?_⟩
  have hdepth := depth_le_fieldsDepth (mem_of_lookup hname)
  have hread := h.reads room (Nat.le_trans hdepth hroom)
  simp only [Fields.defaulted, hname, hread, Option.bind_eq_bind, Option.bind_some]
  exact hlast.reads room hroom

/-- A field that is left out has its own value. -/
theorem missing {value : β} (hname : fields.lookup name = none)
    (hlast : Builds fields last (build value) a) :
    Builds fields last
      (fun room f => f.defaulted name r room value >>= fun b => build b room f) a := by
  refine ⟨hlast.wellFormed, fun room hroom => ?_⟩
  simp only [Fields.defaulted, hname, Option.bind_eq_bind, Option.bind_some]
  exact hlast.reads room hroom

end Builds

namespace Builds

variable {fields last : List (String × Json)} {name : String} {j : Json} {r : Reader β}
  {b : Option β} {a : α} {build : Option β → Nat → Fields → Option α}

theorem optional (h : Carries (Reader.nullable r) j b) (hname : fields.lookup name = some j)
    (hlast : Builds fields last (build b) a) :
    Builds fields ((name, j) :: last)
      (fun room f => f.optional name r room >>= fun b => build b room f) a :=
  defaulted h hname hlast

theorem absent (hname : fields.lookup name = none) (hlast : Builds fields last (build none) a) :
    Builds fields last (fun room f => f.optional name r room >>= fun b => build b room f) a :=
  missing hname hlast

theorem nullable (h : Carries (Reader.nullable r) j b) (hname : fields.lookup name = some j)
    (hlast : Builds fields last (build b) a) :
    Builds fields ((name, j) :: last)
      (fun room f => f.nullable name r room >>= fun b => build b room f) a where
  wellFormed := wellFormed_cons h hlast
  reads := (optional h hname hlast).reads

end Builds

/-- A record that is written as an object with each key once. -/
theorem carries_record {names : List String} {build : Nat → Fields → Option α} {a : α}
    {fields : List (String × Json)} (hkeys : (fields.map (·.1)).Nodup)
    (h : Builds fields fields build a) : Carries (record names build) (.object fields) a := by
  refine ⟨h.wellFormed, fun room hroom => ?_⟩
  rw [depth] at hroom
  obtain ⟨room, rfl⟩ : ∃ k, room = k + 1 := ⟨room - 1, by omega⟩
  rw [record, if_pos (keysOnce_of_nodup hkeys)]
  exact h.reads room (by omega)

end Reader

/-- What a value carries is read from its text, if the value is not nested too
deep. -/
theorem read?_of_carries {r : Reader α} {j : Json} {a : α} (h : Reader.Carries r j a)
    (hdepth : j.depth ≤ fullRoom) : read? r j.print = some a := by
  rw [read?, parse?_print h.wellFormed, Option.bind_some, h.reads fullRoom hdepth]

end Recast.Json
