-- The order in which units are prepared. Whatever it is, a step fills the place
-- of one unit that waits, or does nothing. In the order in which the units
-- come, the places are filled from the first on, so that one unit after the
-- other is prepared.
import Recast.Batch

namespace Recast.Batch.Worker

variable {m : Type → Type} [Monad m] [LawfulMonad m] (worker : Worker m) (options : Options)
  (signal : Signal) (bindings : Bindings) (progress : Progress)

theorem units_waiting (units : List SourceUnit) : (waiting units).map (·.1) = units := by
  unfold waiting
  rw [List.map_map]
  exact List.map_id' units

/-! ## One place -/

theorem prepareAt_append (early late : List (SourceUnit × Option Prepared)) (u : SourceUnit) :
    worker.prepareAt signal bindings progress early.length (early ++ (u, none) :: late) = (do
      let (prepared, bindings, progress) ← worker.prepareUnit signal bindings progress u
      return (early ++ (u, prepared) :: late, bindings, progress)) := by
  induction early with
  | nil => rfl
  | cons entry early ih =>
    rw [List.cons_append, List.length_cons, prepareAt, ih]
    simp

/-- Either the place is that of a unit that waits, or nothing happens. -/
theorem prepareAt_cases (place : Nat) (entries : List (SourceUnit × Option Prepared)) :
    worker.prepareAt signal bindings progress place entries =
        pure (entries, bindings, progress) ∨
      ∃ early u late, entries = early ++ (u, none) :: late ∧ early.length = place := by
  induction entries generalizing place with
  | nil =>
    refine Or.inl ?_
    rw [prepareAt]
    · exact fun _ _ _ h => by cases h
    · exact fun _ _ _ _ h => by cases h
  | cons entry rest ih =>
    cases place with
    | zero =>
      obtain ⟨u, prepared⟩ := entry
      cases prepared with
      | none => exact Or.inr ⟨[], u, rest, rfl, rfl⟩
      | some q => exact Or.inl rfl
    | succ place =>
      rcases ih place with hnone | ⟨early, u, late, rfl, rfl⟩
      · refine Or.inl ?_
        rw [prepareAt, hnone, pure_bind]
      · exact Or.inr ⟨entry :: early, u, late, rfl, rfl⟩

/-! ## As the units come -/

/-- Prepares one unit after the other. -/
def prepareEach (bindings : Bindings) (progress : Progress) :
    List SourceUnit → m (List (SourceUnit × Option Prepared) × Bindings × Progress)
  | [] => return ([], bindings, progress)
  | u :: rest => do
    let (prepared, bindings, progress) ← worker.prepareUnit signal bindings progress u
    let (others, bindings, progress) ← prepareEach bindings progress rest
    return ((u, prepared) :: others, bindings, progress)

/-- Behind places that are filled, the others are filled one after the other. -/
theorem prepareAll_behind (done : List (SourceUnit × Option Prepared)) (units : List SourceUnit) :
    worker.prepareAll signal bindings progress (done ++ waiting units)
        (List.range' done.length units.length) = (do
      let (entries, bindings, progress) ← worker.prepareEach signal bindings progress units
      return (done ++ entries, bindings, progress)) := by
  induction units generalizing bindings progress done with
  | nil => simp [waiting, prepareAll, prepareEach]
  | cons u rest ih =>
    have hwaiting : waiting (u :: rest) = (u, none) :: waiting rest := rfl
    have hstep : ∀ (prepared : Option Prepared) (bindings : Bindings) (progress : Progress),
        worker.prepareAll signal bindings progress (done ++ (u, prepared) :: waiting rest)
            (List.range' (done.length + 1) rest.length) = (do
          let (entries, bindings, progress) ← worker.prepareEach signal bindings progress rest
          return (done ++ (u, prepared) :: entries, bindings, progress)) := by
      intro prepared bindings progress
      have hrest := ih bindings progress (done ++ [(u, prepared)])
      simpa only [List.append_assoc, List.singleton_append, List.length_append,
        List.length_singleton] using hrest
    rw [hwaiting, List.length_cons, List.range'_succ, prepareAll, prepareAt_append, prepareEach]
    simp only [bind_assoc, pure_bind, hstep]

/-- A run that takes the units up as they come. -/
theorem run_eq (units : List SourceUnit) : worker.run options signal bindings units =
    if options.parallel then do
      let (entries, bindings, progress) ← worker.prepareEach signal bindings ⟨0, []⟩ units
      return (← worker.emitAll options signal progress .empty entries, bindings)
    else worker.runInTurn options signal bindings ⟨0, []⟩ .empty units := by
  have hall : worker.prepareAll signal bindings ⟨0, []⟩ (waiting units) (List.range units.length) =
      worker.prepareEach signal bindings ⟨0, []⟩ units := by
    rw [List.range_eq_range']
    exact (worker.prepareAll_behind signal bindings ⟨0, []⟩ [] units).trans (bind_pure _)
  unfold run runIn
  rw [hall]

end Recast.Batch.Worker
