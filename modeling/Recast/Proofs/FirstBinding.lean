-- The first binding of an identity. A table is asked to bind single
-- identities and to recast whole units, in any order. Every attempt to bind
-- meets the table that the attempt before it left, and so at every moment
-- an identity is bound to what the first attempt for it brought.
import Recast.Proofs.Bindings

namespace Recast

/-! ## Attempts to bind -/

/-- An attempt to bind an identity, with the table that it met. -/
structure Bid where
  table : Bindings
  identity : String
  ref : TargetRef

namespace Bid

/-- What the table answers: the new table, or why there is none. -/
def answer (bid : Bid) : Except BindError Bindings := bid.table.bind bid.identity bid.ref

/-- The table behind the attempt. -/
def left (bid : Bid) : Bindings :=
  match bid.answer with
  | .ok table => table
  | .error _ => bid.table

/-- The attempt is for this identity. -/
def isFor (identity : String) (bid : Bid) : Bool := bid.identity == identity

variable {bid : Bid}

theorem answer_of_some {existing : TargetRef} (h : bid.table.find? bid.identity = some existing) :
    bid.answer = .error ⟨bid.identity, existing.fullName, bid.ref.fullName⟩ := by
  simp [answer, Bindings.bind, h]

theorem answer_of_none (h : bid.table.find? bid.identity = none) :
    bid.answer = .ok (bid.table.extend [(bid.identity, bid.ref)]) := by
  simp [answer, Bindings.bind, Bindings.extend, h]

theorem left_of_some {existing : TargetRef} (h : bid.table.find? bid.identity = some existing) :
    bid.left = bid.table := by
  simp [left, answer_of_some h]

theorem left_of_none (h : bid.table.find? bid.identity = none) :
    bid.left = bid.table.extend [(bid.identity, bid.ref)] := by
  simp [left, answer_of_none h]

/-- An attempt succeeds exactly when its identity is free. -/
theorem isOk_answer_iff : bid.answer.isOk = true ↔ bid.table.find? bid.identity = none := by
  cases h : bid.table.find? bid.identity with
  | none => simp [answer_of_none h, Except.isOk, Except.toBool]
  | some existing => simp [answer_of_some h, Except.isOk, Except.toBool]

end Bid

/-! ## Attempts in a row -/

namespace Bindings

/-- Attempts from one table to another. Each meets the table that the one
before it left. -/
inductive Chain : Bindings → List Bid → Bindings → Prop
  | nil {b : Bindings} : Chain b [] b
  | cons {bid : Bid} {bids : List Bid} {b' : Bindings} :
      Chain bid.left bids b' → Chain bid.table (bid :: bids) b'

variable {b b₁ b' : Bindings} {bids bids' : List Bid}

theorem Chain.append (h : Chain b bids b₁) (h' : Chain b₁ bids' b') :
    Chain b (bids ++ bids') b' := by
  induction h with
  | nil => exact h'
  | cons _ ih => exact .cons (ih h')

/-- Every attempt of a row stands behind a row of its own. -/
theorem Chain.before {early later : List Bid} {bid : Bid}
    (h : Chain b (early ++ bid :: later) b') : Chain b early bid.table := by
  induction early generalizing b with
  | nil =>
    cases h
    exact .nil
  | cons first early ih =>
    cases h with
    | cons hrest => exact .cons (ih hrest)

/-- The table is what these attempts, and no others, have made of it. -/
structure MadeBy (bids : List Bid) (b : Bindings) : Prop where
  find? : ∀ identity, b.find? identity = (bids.find? (·.isFor identity)).map (·.ref)
  size : b.size = (bids.filter (·.answer.isOk)).length

theorem madeBy_empty : MadeBy [] empty := ⟨fun _ => rfl, rfl⟩

/-- One more attempt. -/
theorem MadeBy.step {bid : Bid} (h : MadeBy bids bid.table) : MadeBy (bids ++ [bid]) bid.left := by
  cases hfree : bid.table.find? bid.identity with
  | some existing =>
    -- refused: the first attempt for the identity is among those before
    have hanswer := Bid.answer_of_some hfree
    rw [Bid.left_of_some hfree]
    refine ⟨?_, ?_⟩
    · intro identity
      rw [h.find?, List.find?_append]
      cases hfirst : bids.find? (·.isFor identity) with
      | some first => rfl
      | none =>
        have hother : bid.isFor identity = false := by
          rw [Bool.eq_false_iff]
          intro hsame
          have hbound := h.find? bid.identity
          rw [eq_of_beq hsame, hfirst] at hbound
          rw [eq_of_beq hsame, hbound] at hfree
          cases hfree
        simp [hother]
    · rw [h.size, List.filter_append, List.length_append]
      simp [hanswer, Except.isOk, Except.toBool]
  | none =>
    have hanswer := Bid.answer_of_none hfree
    rw [Bid.left_of_none hfree]
    refine ⟨?_, ?_⟩
    · intro identity
      rw [find?_extend, h.find?, List.find?_append]
      cases hfirst : bids.find? (·.isFor identity) with
      | some first => rfl
      | none =>
        by_cases hsame : bid.identity = identity
        · simp [Bid.isFor, hsame]
        · have hne : (identity == bid.identity) = false := by
            rw [beq_eq_false_iff_ne]
            exact Ne.symm hsame
          simp [Bid.isFor, hsame, hne, List.lookup_cons]
    · rw [List.filter_append, List.length_append, ← h.size]
      simp [hanswer, Except.isOk, Except.toBool, extend, Bindings.size]

/-- Attempts behind those that have made a table. -/
theorem Chain.madeBy {early : List Bid} (h : Chain b bids b') (hearly : MadeBy early b) :
    MadeBy (early ++ bids) b' := by
  induction h generalizing early with
  | nil => simpa using hearly
  | @cons bid bids b' _ ih =>
    have hnext := ih hearly.step
    rwa [List.append_assoc] at hnext

/-- What is bound stays bound. -/
theorem Chain.find?_of_some {identity : String} {ref : TargetRef} (h : Chain b bids b')
    (hbound : b.find? identity = some ref) : b'.find? identity = some ref := by
  induction h with
  | nil => exact hbound
  | @cons bid bids b' _ ih =>
    refine ih ?_
    cases hfree : bid.table.find? bid.identity with
    | some existing => rwa [Bid.left_of_some hfree]
    | none =>
      rw [Bid.left_of_none hfree]
      exact find?_extend_of_some hbound _

end Bindings

/-- How an attempt comes out behind those before it. -/
structure Bid.Settled (early : List Bid) (bid : Bid) : Prop where
  /-- The table holds what the first attempt for each identity brought. -/
  met : ∀ identity, bid.table.find? identity = (early.find? (·.isFor identity)).map (·.ref)
  succeeds : bid.answer.isOk = true ↔ ∀ other ∈ early, other.identity ≠ bid.identity
  refused : ∀ e, bid.answer = .error e → bid.left = bid.table ∧
    ∃ first, early.find? (·.isFor bid.identity) = some first ∧
      e = ⟨bid.identity, first.ref.fullName, bid.ref.fullName⟩

theorem Bindings.MadeBy.settled {early : List Bid} {bid : Bid} (h : MadeBy early bid.table) :
    bid.Settled early := by
  refine ⟨h.find?, ?_, ?_⟩
  · rw [Bid.isOk_answer_iff, h.find?, Option.map_eq_none_iff, List.find?_eq_none]
    simp [Bid.isFor]
  · intro e he
    have hmet := h.find? bid.identity
    cases hfirst : early.find? (·.isFor bid.identity) with
    | none =>
      rw [hfirst] at hmet
      rw [Bid.answer_of_none hmet] at he
      cases he
    | some first =>
      rw [hfirst] at hmet
      rw [Bid.answer_of_some hmet] at he
      cases he
      exact ⟨Bid.left_of_some hmet, first, rfl, rfl⟩

/-! ## Units and single binds -/

namespace Bindings

variable {b : Bindings}

/-- The attempts that binding some entries makes: one after the other, up
to the first that is refused. -/
def bidsFor (b : Bindings) : List (String × TargetRef) → List Bid
  | [] => []
  | (identity, ref) :: rest =>
    ⟨b, identity, ref⟩ ::
      match b.bind identity ref with
      | .ok b' => b'.bidsFor rest
      | .error _ => []

theorem bidsFor_cons_of_some {key : String} {existing : TargetRef}
    (h : b.find? key = some existing) (ref : TargetRef) (rest : List (String × TargetRef)) :
    b.bidsFor ((key, ref) :: rest) = [⟨b, key, ref⟩] := by
  simp [bidsFor, bind, h]

theorem bidsFor_cons_of_none {key : String} (h : b.find? key = none) (ref : TargetRef)
    (rest : List (String × TargetRef)) :
    b.bidsFor ((key, ref) :: rest) = ⟨b, key, ref⟩ :: (b.extend [(key, ref)]).bidsFor rest := by
  simp [bidsFor, bind, extend, h]

/-- The attempts lead to the table that binding leaves. -/
theorem chain_bidsFor (b : Bindings) (entries : List (String × TargetRef)) :
    Chain b (b.bidsFor entries) (b.bindAll entries).1 := by
  induction entries generalizing b with
  | nil => exact .nil
  | cons entry rest ih =>
    obtain ⟨key, ref⟩ := entry
    cases hkey : b.find? key with
    | some existing =>
      rw [bidsFor_cons_of_some hkey, bindAll_cons_of_some hkey]
      have hleft : (Bid.mk b key ref).left = b := Bid.left_of_some hkey
      have hend : Chain (Bid.mk b key ref).left [] b := by
        rw [hleft]
        exact .nil
      exact .cons hend
    | none =>
      rw [bidsFor_cons_of_none hkey, bindAll_cons_of_none hkey]
      have hleft : (Bid.mk b key ref).left = b.extend [(key, ref)] := Bid.left_of_none hkey
      have hrest := ih (b.extend [(key, ref)])
      rw [← hleft] at hrest ⊢
      exact .cons hrest

/-- The attempts are made in the order of the entries. -/
theorem bidsFor_prefix (b : Bindings) (entries : List (String × TargetRef)) :
    (b.bidsFor entries).map (fun bid => (bid.identity, bid.ref)) <+: entries := by
  induction entries generalizing b with
  | nil => exact List.prefix_refl _
  | cons entry rest ih =>
    obtain ⟨key, ref⟩ := entry
    cases hkey : b.find? key with
    | some existing =>
      rw [bidsFor_cons_of_some hkey]
      exact List.prefix_append [(key, ref)] rest
    | none =>
      rw [bidsFor_cons_of_none hkey, List.map_cons, List.prefix_cons_inj]
      exact ih _

/-- Binding is refused when one of its attempts is. -/
theorem bindAll_snd_iff (b : Bindings) (entries : List (String × TargetRef)) (e : BindError) :
    (b.bindAll entries).2 = some e ↔ ∃ bid ∈ b.bidsFor entries, bid.answer = .error e := by
  induction entries generalizing b with
  | nil => simp [bindAll, bidsFor]
  | cons entry rest ih =>
    obtain ⟨key, ref⟩ := entry
    cases hkey : b.find? key with
    | some existing =>
      have hanswer : (Bid.mk b key ref).answer = _ := Bid.answer_of_some hkey
      rw [bidsFor_cons_of_some hkey, bindAll_cons_of_some hkey]
      simp [hanswer]
    | none =>
      have hanswer : (Bid.mk b key ref).answer = _ := Bid.answer_of_none hkey
      rw [bidsFor_cons_of_none hkey, bindAll_cons_of_none hkey, ih]
      simp [hanswer]

end Bindings

theorem SourceUnit.recast_error_iff (u : SourceUnit) (b : Bindings) (e : BindError) :
    (u.recast b).result = .error e ↔ ∃ bid ∈ b.bidsFor u.declarations, bid.answer = .error e := by
  rw [← Bindings.bindAll_snd_iff]
  cases hbind : (b.bindAll u.declarations).2 with
  | none => simp [recast_of_bound hbind]
  | some e' => simp [recast_of_refused hbind]

/-- What can be asked of a table. -/
inductive Ask
  | bind (identity : String) (ref : TargetRef)
  | recast (u : SourceUnit)

namespace Ask

/-- The attempts that one call makes. -/
def bids (b : Bindings) : Ask → List Bid
  | .bind identity ref => [⟨b, identity, ref⟩]
  | .recast u => b.bidsFor u.declarations

/-- The table that one call leaves. -/
def left (b : Bindings) : Ask → Bindings
  | .bind identity ref => (Bid.mk b identity ref).left
  | .recast u => (u.recast b).bindings

theorem chain (b : Bindings) (ask : Ask) : b.Chain (ask.bids b) (ask.left b) := by
  cases ask with
  | bind identity ref => exact @Bindings.Chain.cons ⟨b, identity, ref⟩ [] _ .nil
  | recast u =>
    have hleft : (u.recast b).bindings = (b.bindAll u.declarations).1 := by
      rw [u.recast_bindings, b.bindAll_fst]
    change b.Chain (b.bidsFor u.declarations) (u.recast b).bindings
    rw [hleft]
    exact b.chain_bidsFor u.declarations

end Ask

namespace Bindings

/-- The attempts of some calls, oldest first. -/
def bidsOf (b : Bindings) : List Ask → List Bid
  | [] => []
  | ask :: rest => ask.bids b ++ (ask.left b).bidsOf rest

/-- The table after some calls. -/
def leftBy (b : Bindings) (asks : List Ask) : Bindings := asks.foldl Ask.left b

theorem chain_bidsOf (b : Bindings) (asks : List Ask) : b.Chain (b.bidsOf asks) (b.leftBy asks) := by
  induction asks generalizing b with
  | nil => exact .nil
  | cons ask rest ih => exact (ask.chain b).append (ih (ask.left b))

end Bindings

/-- Over any calls on one table, whether they come through or stop half-way,
an identity is bound to what the first attempt for it brought, at every
moment from then on. An attempt succeeds if there was none for its identity
before; else it changes nothing, and its error names both references. The
table is as long as the number of attempts that succeeded. -/
theorem the_first_binding_of_an_identity_stays (asks : List Ask) :
    let bids := Bindings.empty.bidsOf asks
    let table := Bindings.empty.leftBy asks
    (∀ identity, table.find? identity = (bids.find? (·.isFor identity)).map (·.ref)) ∧
    table.size = (bids.filter (·.answer.isOk)).length ∧
    (∀ early bid later, bids = early ++ bid :: later → bid.Settled early) ∧
    (∀ early later, asks = early ++ later → ∀ identity ref,
      (Bindings.empty.leftBy early).find? identity = some ref → table.find? identity = some ref) ∧
    (∀ early u later, asks = early ++ .recast u :: later →
      let met := Bindings.empty.leftBy early
      (met.bidsFor u.declarations).map (fun bid => (bid.identity, bid.ref)) <+: u.declarations ∧
      ∀ e, (u.recast met).result = .error e ↔
        ∃ bid ∈ met.bidsFor u.declarations, bid.answer = .error e) := by
  intro bids table
  have hchain : Bindings.empty.Chain bids table := Bindings.empty.chain_bidsOf asks
  have hmade := hchain.madeBy Bindings.madeBy_empty
  refine ⟨hmade.find?, hmade.size, ?_, ?_, ?_⟩
  · intro early bid later hbids
    rw [hbids] at hchain
    exact (hchain.before.madeBy Bindings.madeBy_empty).settled
  · intro early later hasks identity ref hbound
    have htable : table = (Bindings.empty.leftBy early).leftBy later := by
      change Bindings.empty.leftBy asks = _
      rw [hasks]
      exact List.foldl_append
    rw [htable]
    exact (Bindings.chain_bidsOf _ later).find?_of_some hbound
  · intro early u later _
    exact ⟨Bindings.bidsFor_prefix _ _, u.recast_error_iff _⟩

/-- A unit with two classes. The second of them is bound before the unit is
recast, and the first is bound again behind it. -/
def twoClasses : SourceUnit :=
  { SourceUnit.empty "U" with types := [.empty "A" .classType, .empty "B" .classType] }

def asksAround : List Ask :=
  [.bind "B" (.type none "X"), .recast twoClasses, .bind "A" (.type (some "N") "Y")]

theorem a_unit_that_stops_half_way_keeps_what_it_bound :
    (Bindings.empty.leftBy asksAround).find? "A" = some (.type none "A") ∧
      (Bindings.empty.leftBy asksAround).find? "B" = some (.type none "X") ∧
      (Bindings.empty.leftBy asksAround).size = 2 ∧
      (twoClasses.recast (Bindings.empty.leftBy [.bind "B" (.type none "X")])).result =
        .error ⟨"B", "X", "B"⟩ ∧
      ∃ early bid, Bindings.empty.bidsOf asksAround = early ++ [bid] ∧ bid.Settled early ∧
        bid.answer = .error ⟨"A", "A", "N.Y"⟩ := by
  obtain ⟨hfind, hsize, hsettled, _, herror⟩ := the_first_binding_of_an_identity_stays asksAround
  refine ⟨(hfind "A").trans rfl, (hfind "B").trans rfl, hsize.trans rfl, ?_, ?_⟩
  · refine ((herror [.bind "B" (.type none "X")] twoClasses _ rfl).2 _).mpr ?_
    exact ⟨_, List.mem_of_getElem? (i := 1) rfl, rfl⟩
  · exact ⟨_, _, rfl, hsettled ((Bindings.empty.bidsOf asksAround).take 3) _ [] rfl, rfl⟩

end Recast
