-- The course of a run, told without its lines. Units are emitted one after
-- the other, from the first on; the run may be stopped before a unit, it
-- may stop behind a unit that failed, and it may break off at one. Both
-- ways to run take such a course, in whatever order units are prepared.
import Recast.Proofs.Unit
import Recast.Proofs.Batch.Order

namespace Recast.Batch

variable {m : Type → Type} {W : Type}

/-- A function that tells what preparing a unit gives. -/
abbrev Preparing := Bindings → SourceUnit → Prepared × Bindings

/-- A worker that only emits: preparing and dropping a unit do nothing
besides. -/
structure Worker.Plain [Monad m] (worker : Worker m) (f : Preparing) : Prop where
  prepare : ∀ bindings u, worker.prepare bindings u = pure (f bindings u)
  discard : ∀ pending, worker.discard pending = pure pending.diagnostics.problems

/-- A run stops behind a unit only if that unit failed. -/
theorem Worker.follow_stop {options : Options} {s s' : Summary} {u : SourceUnit}
    {result : Except RunError Report} (h : follow options s u result = .stop s') :
    options.keepGoing = false ∧ ∃ e, result = .error e := by
  unfold follow at h
  split at h
  · cases h
  · split at h
    · cases h
    · split at h
      · cases h
      · rename_i e _ hk
        exact ⟨by simpa using hk, e, rfl⟩

/-! ## Calls -/

/-- A call to prepare a unit. -/
structure Call where
  unit : SourceUnit
  bindings : Bindings

/-- What a call prepares. -/
def Call.prepared (f : Preparing) (call : Call) : Prepared := (f call.bindings call.unit).1

/-- The unit of a call, with what was prepared of it. -/
def Call.entry (f : Preparing) (call : Call) : SourceUnit × Option Prepared :=
  (call.unit, some (call.prepared f))

/-- The calls that prepare these units one after the other. -/
def callsFor (f : Preparing) (bindings : Bindings) : List SourceUnit → List Call
  | [] => []
  | u :: rest => ⟨u, bindings⟩ :: callsFor f (f bindings u).2 rest

/-- The bindings after these units. -/
def boundBy (f : Preparing) (bindings : Bindings) : List SourceUnit → Bindings
  | [] => bindings
  | u :: rest => boundBy f (f bindings u).2 rest

theorem units_callsFor (f : Preparing) (bindings : Bindings) (units : List SourceUnit) :
    (callsFor f bindings units).map (·.unit) = units := by
  induction units generalizing bindings with
  | nil => rfl
  | cons u rest ih => exact congrArg (u :: ·) (ih _)

theorem callsFor_take (f : Preparing) (bindings : Bindings) (units : List SourceUnit) (n : Nat) :
    callsFor f bindings (units.take n) = (callsFor f bindings units).take n := by
  induction units generalizing bindings n with
  | nil => simp [callsFor]
  | cons u rest ih =>
    cases n with
    | zero => rfl
    | succ n => simp only [List.take_succ_cons, callsFor, ih]

/-- Entries that calls have made are the entries of some of these calls. -/
theorem exists_calls {f : Preparing} {made : List Call}
    {entries : List (SourceUnit × Option Prepared)}
    (h : ∀ entry ∈ entries, entry ∈ made.map (·.entry f)) :
    ∃ calls : List Call, entries = calls.map (·.entry f) ∧ ∀ call ∈ calls, call ∈ made := by
  induction entries with
  | nil => exact ⟨[], rfl, by simp⟩
  | cons entry rest ih =>
    obtain ⟨call, hcall, rfl⟩ := List.mem_map.mp (h entry List.mem_cons_self)
    obtain ⟨calls, rfl, hcalls⟩ := ih fun entry he => h entry (List.mem_cons_of_mem _ he)
    exact ⟨call :: calls, rfl, List.forall_mem_cons.mpr ⟨hcall, hcalls⟩⟩

theorem prepared_of_entries {f : Preparing} {calls : List Call} {qs : List Prepared}
    (h : (calls.map (·.entry f)).map (·.2) = qs.map some) : calls.map (·.prepared f) = qs := by
  have hsome : (calls.map (·.prepared f)).map some = qs.map some := by
    rw [← h, List.map_map, List.map_map]
    rfl
  exact (List.map_inj_right fun _ _ => Option.some.inj).mp hsome

theorem isSome_of_prepared {entries : List (SourceUnit × Option Prepared)} {qs : List Prepared}
    (h : entries.map (·.2) = qs.map some) : ∀ entry ∈ entries, entry.2.isSome := by
  intro entry he
  have hmem : entry.2 ∈ qs.map some := by
    rw [← h]
    exact List.mem_map_of_mem he
  obtain ⟨q, _, hq⟩ := List.mem_map.mp hmem
  rw [← hq]
  rfl

/-! ## Courses -/

/-- How a run over some units ends, from a summary and a state on. -/
inductive Ends (worker : Worker (StateM W)) (options : Options) :
    List (SourceUnit × Option Prepared) → Summary → W → Except RunError Summary → W → Prop
  | done {s w} : Ends worker options [] s w (.ok s) w
  /-- The signal was raised before the unit was emitted. -/
  | cancelled {entry rest s w} :
      Ends worker options (entry :: rest) s w (.ok { s with cancelled := true }) w
  | stopped {u q rest s s' w w' result} : (worker.conclude q).run w = (result, w') →
      Worker.follow options s u result = .stop s' →
      Ends worker options ((u, some q) :: rest) s w (.ok s') w'
  | fatal {u q rest s e w w' result} : (worker.conclude q).run w = (result, w') →
      Worker.follow options s u result = .fatal e →
      Ends worker options ((u, some q) :: rest) s w (.error e) w'
  | proceed {u q rest s s' out w w₁ w' result} : (worker.conclude q).run w = (result, w₁) →
      Worker.follow options s u result = .proceed s' →
      Ends worker options rest s' w₁ out w' →
      Ends worker options ((u, some q) :: rest) s w out w'

/-- Two lists of entries are the same up to a unit that is left out in the
second. -/
inductive SameUntilLeftOut :
    List (SourceUnit × Option Prepared) → List (SourceUnit × Option Prepared) → Prop
  | nil : SameUntilLeftOut [] []
  | left {entry u rest others} : SameUntilLeftOut (entry :: rest) ((u, none) :: others)
  | cons {entry rest others} : SameUntilLeftOut rest others →
      SameUntilLeftOut (entry :: rest) (entry :: others)

/-- A run is stopped before a unit that is left out, so what stands behind it
makes no difference. -/
theorem Ends.of_leftOut {worker : Worker (StateM W)} {options : Options}
    {entries others : List (SourceUnit × Option Prepared)} {s : Summary} {w w' : W}
    {out : Except RunError Summary} (h : Ends worker options others s w out w')
    (hsame : SameUntilLeftOut entries others) : Ends worker options entries s w out w' := by
  induction h generalizing entries with
  | done =>
    cases hsame
    exact .done
  | cancelled =>
    cases hsame with
    | left => exact .cancelled
    | cons => exact .cancelled
  | stopped hc hf =>
    cases hsame
    exact .stopped hc hf
  | fatal hc hf =>
    cases hsame
    exact .fatal hc hf
  | proceed hc hf _ ih =>
    cases hsame with
    | cons hrest => exact .proceed hc hf (ih hrest)

/-! ## The steps of a plain worker -/

/-- The units that a run takes up, in the order in which it does. -/
def takenUp (options : Options) (order : List Nat) (units : List SourceUnit) : List SourceUnit :=
  if options.parallel then order.filterMap (units[·]?) else units

/-- The units are taken up as they come. -/
def InOrder (options : Options) (order : List Nat) (units : List SourceUnit) : Prop :=
  options.parallel = false ∨ order = List.range units.length

theorem filterMap_places (units : List SourceUnit) :
    (List.range units.length).filterMap (units[·]?) = units := by
  induction units with
  | nil => rfl
  | cons u rest ih =>
    have hfirst : (u :: rest)[0]? = some u := rfl
    rw [List.length_cons, List.range_succ_eq_map, List.filterMap_cons_some hfirst,
      List.filterMap_map]
    exact congrArg (u :: ·) ih

theorem takenUp_inOrder {options : Options} {order : List Nat} {units : List SourceUnit}
    (h : InOrder options order units) : takenUp options order units = units := by
  unfold takenUp
  rcases h with hp | rfl
  · rw [hp]
    rfl
  · rw [filterMap_places, ite_self]

/-- What a run has prepared of its units, in its order. All that was prepared
was prepared by calls one after the other. -/
structure PreparedIn (f : Preparing) (options : Options) (order : List Nat) (bindings : Bindings)
    (units : List SourceUnit) (entries : List (SourceUnit × Option Prepared)) : Prop where
  ofUnits : entries.map (·.1) = units
  calls : ∃ taken, taken.Sublist (takenUp options order units) ∧
    ∀ entry ∈ entries, entry.2.isSome → entry ∈ (callsFor f bindings taken).map (·.entry f)
  inOrder : InOrder options order units → entries = (callsFor f bindings units).map (·.entry f)

theorem preparedIn_callsFor {f : Preparing} {options : Options} {order : List Nat}
    {bindings : Bindings} {units : List SourceUnit} (h : InOrder options order units) :
    PreparedIn f options order bindings units ((callsFor f bindings units).map (·.entry f)) where
  ofUnits := by
    rw [List.map_map]
    exact units_callsFor f bindings units
  calls := by
    refine ⟨units, ?_, fun _ he _ => he⟩
    simp only [takenUp_inOrder h, List.Sublist.refl]
  inOrder _ := rfl

theorem Worker.runIn_inOrder [Monad m] (worker : Worker m) {options : Options} {signal : Signal}
    {order : List Nat} {bindings : Bindings} {units : List SourceUnit}
    (h : InOrder options order units) : worker.runIn options signal order bindings units =
      worker.run options signal bindings units := by
  rcases h with hp | rfl
  · unfold Worker.run Worker.runIn
    simp only [hp, Bool.false_eq_true, if_false]
  · rfl

/-- Where one place has been filled, an entry is the new one or was there
before. -/
theorem mem_of_mem_filled {early late : List (SourceUnit × Option Prepared)} {u : SourceUnit}
    {old new : Option Prepared} {entry : SourceUnit × Option Prepared}
    (h : entry ∈ early ++ (u, new) :: late) :
    entry = (u, new) ∨ entry ∈ early ++ (u, old) :: late := by
  rw [List.mem_append, List.mem_cons] at h
  rcases h with hearly | hhere | hlate
  · exact .inr (List.mem_append_left _ hearly)
  · exact .inl hhere
  · exact .inr (List.mem_append_right _ (List.mem_cons_of_mem _ hlate))

namespace Worker.Plain

section

variable [Monad m] [LawfulMonad m] {worker : Worker m} {f : Preparing} (h : worker.Plain f)
include h

theorem drop (prepared : Option Prepared) : worker.drop prepared = pure () := by
  unfold Worker.drop
  split
  · rw [h.discard, pure_bind]
  · rfl

theorem dropAll (entries : List (SourceUnit × Option Prepared)) :
    worker.dropAll entries = pure () := by
  induction entries with
  | nil => rfl
  | cons entry rest ih =>
    unfold Worker.dropAll
    rw [h.drop, pure_bind, ih]

/-- Either the unit is left out, or it is prepared. -/
theorem prepareUnit_cases (signal : Signal) (bindings : Bindings) (progress : Progress)
    (u : SourceUnit) :
    worker.prepareUnit signal bindings progress u = pure (none, bindings, progress.checked) ∨
      worker.prepareUnit signal bindings progress u =
        pure (some (f bindings u).1, (f bindings u).2,
          progress.checked.after u (f bindings u).1) := by
  unfold Worker.prepareUnit
  split
  · exact Or.inl rfl
  · rw [h.prepare, pure_bind]
    exact Or.inr rfl

/-- Preparing the unit at a place either changes no entry, or prepares a unit
that waits there. -/
theorem prepareAt_cases (signal : Signal) (bindings : Bindings) (progress : Progress)
    (place : Nat) (entries : List (SourceUnit × Option Prepared)) :
    (∃ progress', worker.prepareAt signal bindings progress place entries =
        pure (entries, bindings, progress')) ∨
      ∃ early u late progress', entries = early ++ (u, none) :: late ∧ early.length = place ∧
        worker.prepareAt signal bindings progress place entries =
          pure (early ++ (u, some (f bindings u).1) :: late, (f bindings u).2, progress') := by
  rcases worker.prepareAt_cases signal bindings progress place entries with
    hnone | ⟨early, u, late, rfl, rfl⟩
  · exact Or.inl ⟨progress, hnone⟩
  · rw [worker.prepareAt_append]
    rcases h.prepareUnit_cases signal bindings progress u with hu | hu
    · exact Or.inl ⟨progress.checked, by rw [hu, pure_bind]⟩
    · exact Or.inr ⟨early, u, late, _, rfl, rfl, by rw [hu, pure_bind]⟩

/-- In any order, an entry is one that was there before or one that a call
has made. -/
theorem prepareAll_calls (signal : Signal) (bindings : Bindings) (progress : Progress)
    (entries : List (SourceUnit × Option Prepared)) (order : List Nat) :
    ∃ entries' bound progress' taken,
      worker.prepareAll signal bindings progress entries order =
        pure (entries', bound, progress') ∧
      entries'.map (·.1) = entries.map (·.1) ∧
      taken.Sublist (order.filterMap ((entries.map (·.1))[·]?)) ∧
      ∀ entry ∈ entries', entry ∈ entries ∨
        entry ∈ (callsFor f bindings taken).map (·.entry f) := by
  induction order generalizing bindings progress entries with
  | nil => exact ⟨entries, bindings, progress, [], rfl, rfl, .slnil, fun _ he => .inl he⟩
  | cons place order ih =>
    unfold Worker.prepareAll
    rcases h.prepareAt_cases signal bindings progress place entries with
      ⟨progress₁, hat⟩ | ⟨early, u, late, progress₁, rfl, rfl, hat⟩
    · obtain ⟨entries', bound, progress', taken, hall, hunits, htaken, hmade⟩ :=
        ih bindings progress₁ entries
      refine ⟨entries', bound, progress', taken, ?_, hunits, ?_, hmade⟩
      · rw [hat, pure_bind]
        exact hall
      · exact htaken.trans ((List.sublist_cons_self place order).filterMap _)
    · obtain ⟨entries', bound, progress', taken, hall, hunits, htaken, hmade⟩ :=
        ih (f bindings u).2 progress₁ (early ++ (u, some (f bindings u).1) :: late)
      have hsame : (early ++ (u, some (f bindings u).1) :: late).map (·.1) =
          (early ++ (u, none) :: late).map (·.1) := by simp
      rw [hsame] at hunits htaken
      refine ⟨entries', bound, progress', u :: taken, ?_, hunits, ?_, ?_⟩
      · rw [hat, pure_bind]
        exact hall
      · have hplace : ((early ++ (u, none) :: late).map (·.1))[early.length]? = some u := by simp
        rw [List.filterMap_cons_some hplace]
        exact htaken.cons_cons u
      · intro entry he
        have hcalls : (callsFor f bindings (u :: taken)).map (·.entry f) =
            (u, some (f bindings u).1) ::
              (callsFor f (f bindings u).2 taken).map (·.entry f) := rfl
        rw [hcalls]
        rcases hmade entry he with hold | hnew
        · rcases mem_of_mem_filled hold with rfl | hbefore
          · exact .inr List.mem_cons_self
          · exact .inl hbefore
        · exact .inr (List.mem_cons_of_mem _ hnew)

/-- One after the other, the units are prepared by the calls for them, up to
one that is left out. -/
theorem prepareEach_calls (signal : Signal) (bindings : Bindings) (progress : Progress)
    (units : List SourceUnit) : ∃ entries bound progress',
      worker.prepareEach signal bindings progress units = pure (entries, bound, progress') ∧
      SameUntilLeftOut ((callsFor f bindings units).map (·.entry f)) entries := by
  induction units generalizing bindings progress with
  | nil => exact ⟨[], bindings, progress, rfl, .nil⟩
  | cons u rest ih =>
    unfold Worker.prepareEach
    rcases h.prepareUnit_cases signal bindings progress u with hu | hu
    · obtain ⟨entries, bound, progress', he, _⟩ := ih bindings progress.checked
      refine ⟨(u, none) :: entries, bound, progress', ?_, .left⟩
      rw [hu, pure_bind]
      dsimp only
      rw [he, pure_bind]
    · obtain ⟨entries, bound, progress', he, hsame⟩ :=
        ih (f bindings u).2 (progress.checked.after u (f bindings u).1)
      refine ⟨(u, some (f bindings u).1) :: entries, bound, progress', ?_, .cons hsame⟩
      rw [hu, pure_bind]
      dsimp only
      rw [he, pure_bind]

end

variable {worker : Worker (StateM W)} {f : Preparing} (h : worker.Plain f) (options : Options)
  (signal : Signal)
include h

/-- Either the run is stopped here, or the unit is concluded. -/
theorem emitUnit_cases (progress : Progress) (s : Summary) (u : SourceUnit)
    (prepared : Option Prepared) (w : W) :
    (worker.emitUnit options signal progress s u prepared).run w =
        (.stop { s with cancelled := true }, w) ∨
      ∃ q result w', prepared = some q ∧ (worker.conclude q).run w = (result, w') ∧
        (worker.emitUnit options signal progress s u prepared).run w =
          (follow options s u result, w') := by
  unfold Worker.emitUnit
  rw [h.drop, pure_bind]
  split
  · exact Or.inl rfl
  · cases prepared with
    | none => exact Or.inl rfl
    | some q => exact Or.inr ⟨q, _, _, rfl, rfl, rfl⟩

/-! ## Both ways to run -/

theorem runInTurn_ends (bindings : Bindings) (progress : Progress) (s : Summary)
    (units : List SourceUnit) (w : W) :
    Ends worker options ((callsFor f bindings units).map (·.entry f)) s w
      ((worker.runInTurn options signal bindings progress s units).run w).1.1
      ((worker.runInTurn options signal bindings progress s units).run w).2 := by
  induction units generalizing bindings progress s w with
  | nil => exact .done
  | cons u rest ih =>
    unfold Worker.runInTurn
    rcases h.prepareUnit_cases signal bindings progress u with hu | hu
    · rw [hu, pure_bind, StateT.run_bind]
      rcases h.emitUnit_cases options signal progress.checked s u none w with
        he | ⟨q, _, _, hq, _, _⟩
      · rw [he]
        exact .cancelled
      · cases hq
    · rw [hu, pure_bind, StateT.run_bind]
      rcases h.emitUnit_cases options signal (progress.checked.after u (f bindings u).1) s u
        (some (f bindings u).1) w with he | ⟨q, result, w₁, hq, hc, he⟩
      · rw [he]
        exact .cancelled
      · cases hq
        rw [he]
        cases hf : follow options s u result with
        | proceed s' => exact .proceed hc hf (ih _ _ s' w₁)
        | stop s' => exact .stopped hc hf
        | fatal e => exact .fatal hc hf

theorem emitAll_ends (progress : Progress) (s : Summary)
    (entries : List (SourceUnit × Option Prepared)) (w : W) :
    Ends worker options entries s w
      ((worker.emitAll options signal progress s entries).run w).1
      ((worker.emitAll options signal progress s entries).run w).2 := by
  induction entries generalizing progress s w with
  | nil => exact .done
  | cons entry rest ih =>
    obtain ⟨u, prepared⟩ := entry
    unfold Worker.emitAll
    rw [StateT.run_bind]
    rcases h.emitUnit_cases options signal progress s u prepared w with
      he | ⟨q, result, w₁, rfl, hc, he⟩
    · rw [he]
      simp only [h.dropAll, pure_bind]
      exact .cancelled
    · rw [he]
      cases hf : follow options s u result with
      | proceed s' => exact .proceed hc hf (ih _ s' w₁)
      | stop s' =>
        simp only [h.dropAll, pure_bind]
        exact .stopped hc hf
      | fatal e => exact .fatal hc hf

/-- A run that takes the units up as they come takes a course through the
calls for them, whenever the signal is raised. -/
theorem run_ends (bindings : Bindings) (units : List SourceUnit) (w : W) :
    Ends worker options ((callsFor f bindings units).map (·.entry f)) .empty w
      ((worker.run options signal bindings units).run w).1.1
      ((worker.run options signal bindings units).run w).2 := by
  rw [worker.run_eq]
  split
  · obtain ⟨entries, bound, progress, hp, hsame⟩ :=
      h.prepareEach_calls signal bindings ⟨0, []⟩ units
    rw [hp, pure_bind]
    exact (h.emitAll_ends options signal progress .empty entries w).of_leftOut hsame
  · exact h.runInTurn_ends options signal bindings ⟨0, []⟩ .empty units w

/-- Every run takes a course, in whatever order the units are taken up. -/
theorem runIn_ends (order : List Nat) (bindings : Bindings) (units : List SourceUnit) (w : W) :
    ∃ entries, PreparedIn f options order bindings units entries ∧
      Ends worker options entries .empty w
        ((worker.runIn options signal order bindings units).run w).1.1
        ((worker.runIn options signal order bindings units).run w).2 := by
  by_cases hin : InOrder options order units
  · refine ⟨_, preparedIn_callsFor hin, ?_⟩
    rw [worker.runIn_inOrder hin]
    exact h.run_ends options signal bindings units w
  · have hp : options.parallel = true := by
      cases hp : options.parallel with
      | true => rfl
      | false => exact absurd (.inl hp) hin
    obtain ⟨entries, bound, progress, taken, hall, hof, htaken, hmade⟩ :=
      h.prepareAll_calls signal bindings ⟨0, []⟩ (waiting units) order
    rw [units_waiting] at hof htaken
    refine ⟨entries, ⟨hof, ⟨taken, ?_, ?_⟩, fun h => absurd h hin⟩, ?_⟩
    · unfold takenUp
      rw [if_pos hp]
      exact htaken
    · intro entry he hsome
      rcases hmade entry he with hold | hnew
      · obtain ⟨u, _, rfl⟩ := List.mem_map.mp hold
        cases hsome
      · exact hnew
    · unfold Worker.runIn
      rw [if_pos hp, hall, pure_bind]
      exact h.emitAll_ends options signal progress .empty entries w

end Worker.Plain

end Recast.Batch

namespace Recast

/-- Without its lines, the work of a setup is plain. -/
theorem Setup.quiet_plain [Monad m] [LawfulMonad m] (setup : Setup m) (dest : Destination m) :
    (setup.quiet.worker dest).Plain setup.prepared where
  prepare bindings u := setup.quiet_prepare bindings u
  discard pending := by
    have h := setup.writeLines_quiet pending.diagnostics.problems
    exact (congrArg (· >>= fun _ => pure pending.diagnostics.problems) h).trans (pure_bind _ _)

end Recast
