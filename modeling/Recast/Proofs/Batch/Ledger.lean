-- The ledger of a run. Every unit that is prepared brings problems, and
-- those of a unit that comes through are owed until it is emitted or
-- dropped. A run pays all it owes, with one exception: when all units are
-- prepared first and one of them breaks the run off, nothing is dropped,
-- and what the units behind it hold stays owed.
import Recast.Proofs.Batch.Log

namespace Recast.Batch

variable {V α : Type}

/-! ## What prepared units hold -/

/-- The problems that wait with a prepared unit. -/
def held : Option Prepared → List Problem
  | some (.ok pending) => pending.diagnostics.problems
  | _ => []

def heldAll (entries : List (SourceUnit × Option Prepared)) : List Problem :=
  entries.flatMap fun entry => held entry.2

/-- The result breaks the whole run off. -/
def breaksOff : Except RunError α → Bool
  | .ok _ => false
  | .error e => e.isFatal

/-- What was prepared of the unit breaks the whole run off. -/
def breaks (prepared : Option Prepared) : Bool := prepared.any breaksOff

/-- What waits behind the first unit that breaks the run off. -/
def heldBehind : List (SourceUnit × Option Prepared) → List Problem
  | [] => []
  | entry :: rest => if breaks entry.2 then heldAll rest else heldBehind rest

/-- Units that the signal left out hold nothing. -/
theorem heldAll_filter (entries : List (SourceUnit × Option Prepared)) :
    heldAll (entries.filter (·.2.isSome)) = heldAll entries := by
  induction entries with
  | nil => rfl
  | cons entry rest ih =>
    obtain ⟨u, prepared⟩ := entry
    cases prepared with
    | none => exact ih
    | some q => exact congrArg (held (some q) ++ ·) ih

theorem heldAll_append (entries others : List (SourceUnit × Option Prepared)) :
    heldAll (entries ++ others) = heldAll entries ++ heldAll others := List.flatMap_append

theorem heldBehind_filter (entries : List (SourceUnit × Option Prepared)) :
    heldBehind (entries.filter (·.2.isSome)) = heldBehind entries := by
  induction entries with
  | nil => rfl
  | cons entry rest ih =>
    obtain ⟨u, prepared⟩ := entry
    cases prepared with
    | none => exact ih
    | some q =>
      have hcons : ((u, some q) :: rest).filter (·.2.isSome) =
          (u, some q) :: rest.filter (·.2.isSome) := rfl
      rw [hcons]
      unfold heldBehind
      rw [heldAll_filter, ih]

/-- The problems that a run never writes: it breaks off while units that
were prepared before are waiting. -/
def unsaid (options : Options) (entries : List (SourceUnit × Option Prepared)) :
    Except RunError Summary → List Problem
  | .ok _ => []
  | .error _ => if options.parallel then heldBehind entries else []

/-! ## Ledgers -/

/-- The books of a worker. `P` tells the calls that were made and the
problems that are owed. -/
structure Worker.Ledger (worker : Worker (StateM V)) (f : Preparing)
    (P : List Call → List Problem → V → Prop) : Prop where
  perm : ∀ calls owed owed' v, owed.Perm owed' → P calls owed v → P calls owed' v
  prepare : ∀ calls owed bindings u, Ensures (P calls owed) (worker.prepare bindings u)
    fun result v => result = f bindings u ∧
      P (calls ++ [⟨u, bindings⟩]) (owed ++ held (some result.1)) v
  emit : ∀ calls owed pending,
    Ensures (P calls (pending.diagnostics.problems ++ owed)) (worker.emit pending)
      fun result v => breaksOff result = false ∧ P calls owed v
  discard : ∀ calls owed pending,
    Ensures (P calls (pending.diagnostics.problems ++ owed)) (worker.discard pending)
      fun _ v => P calls owed v

/-- The calls of a run, put to the places of their units. -/
structure Arranged (options : Options) (order : List Nat) (units : List SourceUnit)
    (calls arranged : List Call) : Prop where
  perm : arranged.Perm calls
  places : (arranged.map (·.unit)).Sublist units
  inOrder : InOrder options order units → arranged = calls

/-- Calls whose entries stand in a list have the places of these entries. -/
theorem places_of_filter {f : Preparing} {arranged : List Call}
    {entries : List (SourceUnit × Option Prepared)}
    (h : entries.filter (·.2.isSome) = arranged.map (·.entry f)) :
    (arranged.map (·.unit)).Sublist (entries.map (·.1)) := by
  have hunits : arranged.map (·.unit) = (entries.filter (·.2.isSome)).map (·.1) := by
    rw [h, List.map_map]
    rfl
  rw [hunits]
  exact List.filter_sublist.map _

/-- What follows a unit fits to what was prepared of it. -/
def Next.Fits (prepared : Option Prepared) : Next → Prop
  | .proceed _ => breaks prepared = false
  | .stop _ => True
  | .fatal _ => breaks prepared = true

theorem Worker.follow_fits {options : Options} {summary : Summary} {u : SourceUnit}
    {prepared : Prepared} {result : Except RunError Report}
    (h : breaksOff result = breaksOff prepared) :
    (follow options summary u result).Fits (some prepared) := by
  have hbreaks : breaks (some prepared) = breaksOff result := h.symm
  cases result with
  | ok report => exact hbreaks
  | error e =>
    unfold follow
    dsimp only
    split
    · rename_i he
      exact hbreaks.trans he
    · rename_i he
      split
      · exact hbreaks.trans (Bool.eq_false_iff.mpr he)
      · trivial

namespace Worker.Ledger

variable {worker : Worker (StateM V)} {f : Preparing} {P : List Call → List Problem → V → Prop}
  (h : worker.Ledger f P) (options : Options) (signal : Signal) (calls : List Call)
  (owed : List Problem)
include h

/-! ## Paying for a unit -/

theorem drop (prepared : Option Prepared) :
    Ensures (P calls (held prepared ++ owed)) (worker.drop prepared) fun _ => P calls owed := by
  unfold Worker.drop
  split
  · exact (h.discard calls owed _).bind fun _ => Ensures.pure fun _ hv => hv
  · rename_i hnot
    have hnone : held prepared = [] := by
      unfold held
      split
      · exact absurd rfl (hnot _)
      · rfl
    rw [hnone]
    exact Ensures.pure fun _ hv => hv

theorem dropAll (entries : List (SourceUnit × Option Prepared)) :
    Ensures (P calls (heldAll entries)) (worker.dropAll entries) fun _ => P calls [] := by
  induction entries with
  | nil => exact Ensures.pure fun _ hv => hv
  | cons entry rest ih => exact (h.drop calls (heldAll rest) entry.2).bind fun _ => ih

theorem conclude (prepared : Prepared) :
    Ensures (P calls (held (some prepared) ++ owed)) (worker.conclude prepared) fun result v =>
      breaksOff result = breaksOff prepared ∧ P calls owed v := by
  cases prepared with
  | error e => exact Ensures.pure fun _ hv => ⟨rfl, hv⟩
  | ok pending => exact h.emit calls owed pending

/-- A unit is paid for, whether the run is stopped before it or not. -/
theorem emitUnit (progress : Progress) (summary : Summary) (u : SourceUnit)
    (prepared : Option Prepared) :
    Ensures (P calls (held prepared ++ owed))
      (worker.emitUnit options signal progress summary u prepared)
      fun next v => next.Fits prepared ∧ P calls owed v := by
  unfold Worker.emitUnit
  split
  · exact (h.drop calls owed prepared).bind fun _ => Ensures.pure fun _ hv => ⟨trivial, hv⟩
  · cases prepared with
    | none => exact Ensures.pure fun _ hv => ⟨trivial, hv⟩
    | some q =>
      refine (h.conclude calls owed q).bind ?_
      intro result
      exact Ensures.pure fun _ hv => ⟨follow_fits hv.1, hv.2⟩

/-! ## Preparing units -/

theorem prepareUnit (bindings : Bindings) (progress : Progress) (u : SourceUnit) :
    Ensures (P calls owed) (worker.prepareUnit signal bindings progress u) fun result v =>
      ∃ new : List Call, [(u, result.1)].filter (·.2.isSome) = new.map (·.entry f) ∧
        P (calls ++ new) (owed ++ held result.1) v := by
  unfold Worker.prepareUnit
  split
  · refine Ensures.pure fun v hv => ⟨[], rfl, ?_⟩
    have hnone : owed ++ held none = owed := List.append_nil owed
    rw [List.append_nil, hnone]
    exact hv
  · refine (h.prepare calls owed bindings u).bind ?_
    intro result
    refine Ensures.pure fun v hv => ⟨[⟨u, bindings⟩], ?_, hv.2⟩
    rw [hv.1]
    rfl

/-- One after the other, the calls come in the order of the units. -/
theorem prepareEach (bindings : Bindings) (progress : Progress) (units : List SourceUnit) :
    Ensures (P calls owed) (worker.prepareEach signal bindings progress units) fun result v =>
      result.1.map (·.1) = units ∧
      ∃ new : List Call, result.1.filter (·.2.isSome) = new.map (·.entry f) ∧
        P (calls ++ new) (owed ++ heldAll result.1) v := by
  induction units generalizing bindings progress calls owed with
  | nil =>
    refine Ensures.pure fun v hv => ⟨rfl, [], rfl, ?_⟩
    simpa [heldAll] using hv
  | cons u rest ih =>
    refine (h.prepareUnit signal calls owed bindings progress u).bind ?_
    rintro ⟨prepared, bindings, progress⟩
    refine Ensures.of_exists fun new => Ensures.of_and fun hnew => ?_
    refine (ih (calls ++ new) (owed ++ held prepared) bindings progress).bind ?_
    rintro ⟨others, bindings, progress⟩
    refine Ensures.of_and fun hunits => Ensures.of_exists fun more => Ensures.of_and fun hmore =>
      Ensures.pure fun v hv => ?_
    refine ⟨congrArg (u :: ·) hunits, new ++ more, ?_, ?_⟩
    · rw [List.map_append, ← hnew, ← hmore, ← List.filter_append]
      rfl
    · rw [List.append_assoc, List.append_assoc] at hv
      exact hv

/-- At whatever place a unit is prepared, the calls can be put to the places
of their units. -/
theorem prepareAt (bindings : Bindings) (progress : Progress) (place : Nat)
    (entries : List (SourceUnit × Option Prepared)) {arranged : List Call}
    (hentries : entries.filter (·.2.isSome) = arranged.map (·.entry f))
    (hperm : arranged.Perm calls) :
    Ensures (P calls (heldAll entries)) (worker.prepareAt signal bindings progress place entries)
      fun result v => result.1.map (·.1) = entries.map (·.1) ∧ ∃ calls arranged : List Call,
        result.1.filter (·.2.isSome) = arranged.map (·.entry f) ∧ arranged.Perm calls ∧
        P calls (heldAll result.1) v := by
  rcases worker.prepareAt_cases signal bindings progress place entries with
    hnone | ⟨early, u, late, rfl, rfl⟩
  · rw [hnone]
    exact Ensures.pure fun v hv => ⟨rfl, calls, arranged, hentries, hperm, hv⟩
  · rw [worker.prepareAt_append]
    refine (h.prepareUnit signal calls _ bindings progress u).bind ?_
    rintro ⟨prepared, bindings, progress⟩
    refine Ensures.of_exists fun new => Ensures.of_and fun hnew => Ensures.pure fun v hv => ?_
    -- the calls before and behind the place
    have hsplit : arranged.map (·.entry f) =
        early.filter (·.2.isSome) ++ late.filter (·.2.isSome) := by
      rw [← hentries, List.filter_append]
      rfl
    obtain ⟨before, behind, rfl, hbefore, hbehind⟩ := List.map_eq_append_iff.mp hsplit
    refine ⟨by simp, calls ++ new, before ++ new ++ behind, ?_, ?_, ?_⟩
    · have hhere : ((u, prepared) :: late).filter (·.2.isSome) =
          [(u, prepared)].filter (·.2.isSome) ++ late.filter (·.2.isSome) := by
        rw [← List.filter_append]
        rfl
      rw [List.filter_append, hhere, hnew, ← hbefore, ← hbehind, List.map_append, List.map_append,
        List.append_assoc]
    · rw [List.append_assoc]
      exact ((List.perm_append_comm.append_left before).trans
        (List.Perm.of_eq (List.append_assoc ..).symm)).trans (hperm.append_right new)
    · refine h.perm _ _ _ v ?_ hv
      have hwaiting : heldAll ((u, none) :: late) = heldAll late := rfl
      have hready : heldAll ((u, prepared) :: late) = held prepared ++ heldAll late := rfl
      rw [heldAll_append, heldAll_append, hwaiting, hready, List.append_assoc]
      exact List.perm_append_comm.append_left _

theorem prepareAll (bindings : Bindings) (progress : Progress)
    (entries : List (SourceUnit × Option Prepared)) (order : List Nat) {arranged : List Call}
    (hentries : entries.filter (·.2.isSome) = arranged.map (·.entry f))
    (hperm : arranged.Perm calls) :
    Ensures (P calls (heldAll entries)) (worker.prepareAll signal bindings progress entries order)
      fun result v => result.1.map (·.1) = entries.map (·.1) ∧ ∃ calls arranged : List Call,
        result.1.filter (·.2.isSome) = arranged.map (·.entry f) ∧ arranged.Perm calls ∧
        P calls (heldAll result.1) v := by
  induction order generalizing bindings progress entries calls arranged with
  | nil => exact Ensures.pure fun v hv => ⟨rfl, calls, arranged, hentries, hperm, hv⟩
  | cons place order ih =>
    refine (h.prepareAt signal calls bindings progress place entries hentries hperm).bind ?_
    rintro ⟨entries', bindings, progress⟩
    refine Ensures.of_and fun hunits => Ensures.of_exists fun calls =>
      Ensures.of_exists fun arranged => Ensures.of_and fun hentries =>
        Ensures.of_and fun hperm => ?_
    rw [← hunits]
    exact ih calls bindings progress entries' hentries hperm

/-! ## Whole runs -/

/-- A run that takes units in turn owes nothing at its end. -/
theorem runInTurn (bindings : Bindings) (progress : Progress) (summary : Summary)
    (units : List SourceUnit) :
    Ensures (P calls []) (worker.runInTurn options signal bindings progress summary units)
      fun _ v => ∃ new : List Call, (new.map (·.unit)).Sublist units ∧ P (calls ++ new) [] v := by
  induction units generalizing bindings progress summary calls with
  | nil =>
    refine Ensures.pure fun v hv => ⟨[], List.Sublist.refl _, ?_⟩
    rw [List.append_nil]
    exact hv
  | cons u rest ih =>
    refine (h.prepareUnit signal calls [] bindings progress u).bind ?_
    rintro ⟨prepared, bindings, progress⟩
    refine Ensures.of_exists fun new => Ensures.of_and fun hnew => ?_
    have hplace : (new.map (·.unit)).Sublist [u] := places_of_filter hnew
    have hended : ∀ v, P (calls ++ new) [] v → ∃ new : List Call,
        (new.map (·.unit)).Sublist (u :: rest) ∧ P (calls ++ new) [] v :=
      fun v hv => ⟨new, hplace.trans (List.sublist_append_left [u] rest), hv⟩
    -- the unit is paid for before the next one is prepared
    have hemit := h.emitUnit options signal (calls ++ new) [] progress summary u prepared
    rw [List.append_nil] at hemit
    refine hemit.bind ?_
    intro next
    refine Ensures.of_and fun _ => ?_
    cases next with
    | proceed summary =>
      refine (ih (calls ++ new) bindings progress.checked summary).weaken ?_
      rintro _ v ⟨more, hmore, hv⟩
      refine ⟨new ++ more, ?_, ?_⟩
      · rw [List.map_append]
        exact hplace.append hmore
      · rw [← List.append_assoc]
        exact hv
    | stop summary => exact Ensures.pure hended
    | fatal e => exact Ensures.pure hended

/-- Emitting pays for all units, or for those up to one that breaks the
run off. -/
theorem emitAll (progress : Progress) (summary : Summary)
    (entries : List (SourceUnit × Option Prepared)) :
    Ensures (P calls (heldAll entries)) (worker.emitAll options signal progress summary entries)
      fun result => P calls (if result.isOk then [] else heldBehind entries) := by
  induction entries generalizing progress summary with
  | nil => exact Ensures.pure fun _ hv => hv
  | cons entry rest ih =>
    refine (h.emitUnit options signal calls (heldAll rest) progress summary entry.1 entry.2).bind ?_
    intro next
    refine Ensures.of_and fun hfits => ?_
    cases next with
    | proceed summary =>
      have hbreaks : breaks entry.2 = false := hfits
      have hbehind : heldBehind (entry :: rest) = heldBehind rest := if_neg (by simp [hbreaks])
      rw [hbehind]
      exact ih progress.checked summary
    | stop summary => exact (h.dropAll calls rest).bind fun _ => Ensures.pure fun _ hv => hv
    | fatal e =>
      -- the units behind this one are not dropped
      have hbehind : heldBehind (entry :: rest) = heldAll rest := if_pos hfits
      rw [hbehind]
      exact Ensures.pure fun _ hv => hv

/-- Behind units that are all prepared, a run owes at its end what it leaves
unsaid. -/
theorem emitPrepared (hparallel : options.parallel = true) (order : List Nat)
    (bindings : Bindings) (progress : Progress) {entries : List (SourceUnit × Option Prepared)}
    {arranged : List Call} (hentries : entries.filter (·.2.isSome) = arranged.map (·.entry f))
    (hperm : arranged.Perm calls)
    (hin : InOrder options order (entries.map (·.1)) → arranged = calls) :
    Ensures (P calls (heldAll entries))
      (do return (← worker.emitAll options signal progress .empty entries, bindings))
      fun result v => ∃ calls arranged,
        Arranged options order (entries.map (·.1)) calls arranged ∧
          P calls (unsaid options (arranged.map (·.entry f)) result.1) v := by
  refine (h.emitAll options signal calls progress .empty entries).bind ?_
  intro result
  refine Ensures.pure fun v hv => ⟨calls, arranged, ⟨hperm, places_of_filter hentries, hin⟩, ?_⟩
  unfold unsaid
  cases result with
  | ok summary => exact hv
  | error e =>
    rw [← hentries, hparallel, heldBehind_filter]
    exact hv

/-- A run owes at its end what it leaves unsaid, in whatever order its units
are taken up. -/
theorem runIn (order : List Nat) (bindings : Bindings) (units : List SourceUnit) :
    Ensures (P [] []) (worker.runIn options signal order bindings units) fun result v =>
      ∃ calls arranged, Arranged options order units calls arranged ∧
        P calls (unsaid options (arranged.map (·.entry f)) result.1) v := by
  cases hparallel : options.parallel with
  | false =>
    rw [worker.runIn_inOrder (.inl hparallel), worker.run_eq, if_neg (by simp [hparallel])]
    refine (h.runInTurn options signal [] bindings ⟨0, []⟩ .empty units).weaken ?_
    rintro result v ⟨calls, hplaces, hv⟩
    refine ⟨calls, calls, ⟨List.Perm.refl _, hplaces, fun _ => rfl⟩, ?_⟩
    unfold unsaid
    split
    · exact hv
    · rw [if_neg (by simp [hparallel])]
      exact hv
  | true =>
    by_cases hin : InOrder options order units
    · rw [worker.runIn_inOrder hin, worker.run_eq, if_pos hparallel]
      refine (h.prepareEach signal [] [] bindings ⟨0, []⟩ units).bind ?_
      rintro ⟨entries, bindings, progress⟩
      refine Ensures.of_and fun hunits => Ensures.of_exists fun calls =>
        Ensures.of_and fun hcalls => ?_
      subst hunits
      exact h.emitPrepared options signal calls hparallel order bindings progress hcalls
        (List.Perm.refl _) fun _ => rfl
    · have hwaiting : (waiting units).filter (·.2.isSome) = ([] : List Call).map (·.entry f) := by
        simp [waiting]
      have hnone : heldAll (waiting units) = [] := by
        rw [← heldAll_filter, hwaiting]
        rfl
      have hprepare := h.prepareAll signal [] bindings ⟨0, []⟩ (waiting units) order hwaiting
        (List.Perm.refl _)
      rw [hnone, units_waiting] at hprepare
      unfold Worker.runIn
      rw [if_pos hparallel]
      refine hprepare.bind ?_
      rintro ⟨entries, bindings, progress⟩
      refine Ensures.of_and fun hunits => Ensures.of_exists fun calls =>
        Ensures.of_exists fun arranged => Ensures.of_and fun hentries =>
          Ensures.of_and fun hperm => ?_
      subst hunits
      exact h.emitPrepared options signal calls hparallel order bindings progress hentries hperm
        fun h => absurd h hin

end Worker.Ledger

end Recast.Batch
