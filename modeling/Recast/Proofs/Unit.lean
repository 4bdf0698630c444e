-- One unit. What preparing it gives is a function of the configuration,
-- the bindings and the unit, and so are the problems that are recorded
-- for it. Preparing itself writes lines only for a unit that does not
-- come through.
import Recast.Proofs.Views

namespace Recast

/-! ## The problems of a unit -/

/-- The problem that a warning of a unit becomes. -/
def Warning.problem (w : Warning) (unit : Path) : Problem :=
  .ofSpan .warning unit w.span w.message

namespace Diagnostics

@[simp] theorem unit_addParsed_foldl (ps : List Problem) (d : Diagnostics) :
    (ps.foldl addParsed d).unit = d.unit := by
  induction ps generalizing d with
  | nil => rfl
  | cons p ps ih => exact ih (d.addParsed p)

theorem problems_addParsed_foldl (ps : List Problem) (d : Diagnostics) :
    (ps.foldl addParsed d).problems = d.problems ++ ps := by
  induction ps generalizing d with
  | nil => simp
  | cons p ps ih =>
    rw [List.foldl_cons, ih]
    simp [problems, addParsed]

theorem keptProblems_addParsed_foldl (ps : List Problem) (d : Diagnostics) :
    (ps.foldl addParsed d).keptProblems = d.keptProblems := by
  induction ps generalizing d with
  | nil => rfl
  | cons p ps ih =>
    rw [List.foldl_cons, ih]
    simp [keptProblems, addParsed]

@[simp] theorem unit_addWarnings (ws : List Warning) (d : Diagnostics) :
    (d.addWarnings ws).unit = d.unit := by
  induction ws generalizing d with
  | nil => rfl
  | cons w ws ih => exact ih (d.addWarning w.span w.message)

@[simp] theorem problems_addWarnings (ws : List Warning) (d : Diagnostics) :
    (d.addWarnings ws).problems = d.problems ++ ws.map (·.problem d.unit) := by
  induction ws generalizing d with
  | nil => simp [addWarnings]
  | cons w ws ih =>
    have h := ih (d.addWarning w.span w.message)
    simp only [addWarnings, List.foldl_cons] at h ⊢
    rw [h]
    simp [problems, addWarning, Warning.problem]

@[simp] theorem keptProblems_addWarnings (ws : List Warning) (d : Diagnostics) :
    (d.addWarnings ws).keptProblems = d.keptProblems ++ ws.map (·.problem d.unit) := by
  induction ws generalizing d with
  | nil => simp [addWarnings]
  | cons w ws ih =>
    have h := ih (d.addWarning w.span w.message)
    simp only [addWarnings, List.foldl_cons] at h ⊢
    rw [h]
    simp [keptProblems, addWarning, Warning.problem]

end Diagnostics

namespace SourceUnit

@[simp] theorem unit_diagnostics (u : SourceUnit) : u.diagnostics.unit = u.path := by
  simp [diagnostics, Diagnostics.start]

@[simp] theorem problems_diagnostics (u : SourceUnit) : u.diagnostics.problems = u.errors := by
  unfold diagnostics
  rw [Diagnostics.problems_addParsed_foldl]
  rfl

@[simp] theorem keptProblems_diagnostics (u : SourceUnit) : u.diagnostics.keptProblems = [] := by
  unfold diagnostics
  rw [Diagnostics.keptProblems_addParsed_foldl]
  rfl

end SourceUnit

/-! ## Preparing -/

namespace Setup

variable {m : Type → Type} (setup : Setup m) (bindings : Bindings) (u : SourceUnit)

/-- The unit has errors, and errors are not ignored. -/
def refuses : Bool := u.hasErrors && !setup.config.ignoreErrors

/-- The problems that are recorded for a unit: its errors, and the
warnings of recasting it, if it is recast. -/
def recorded : List Problem :=
  if setup.refuses u then u.errors
  else u.errors ++ (u.recast bindings).warnings.map (·.problem u.path)

/-- What preparing a unit gives, and the bindings it leaves. -/
def prepared : Batch.Prepared × Bindings :=
  if setup.refuses u then (.error (.aborted u.path u.errors.length), bindings)
  else
    let outcome := u.recast bindings
    match outcome.result with
    | .error e => (.error (.internal e), outcome.bindings)
    | .ok target =>
      (.ok ⟨target, setup.textOf target, [.parsed, .validated, .recast],
        u.diagnostics.addWarnings outcome.warnings⟩, outcome.bindings)

/-- A unit that came through holds its errors and its warnings. -/
theorem diagnostics_of_prepared {pending : Pending}
    (h : (setup.prepared bindings u).1 = .ok pending) : setup.refuses u = false ∧
      pending.diagnostics = u.diagnostics.addWarnings (u.recast bindings).warnings := by
  unfold prepared at h
  split at h
  · cases h
  · rename_i hr
    dsimp only at h
    split at h
    · cases h
    · cases h
      exact ⟨Bool.eq_false_iff.mpr hr, rfl⟩

theorem problems_of_prepared {pending : Pending} (h : (setup.prepared bindings u).1 = .ok pending) :
    pending.diagnostics.problems = setup.recorded bindings u := by
  obtain ⟨hr, hd⟩ := setup.diagnostics_of_prepared bindings u h
  rw [hd]
  unfold recorded
  simp [hr]

/-- A unit that does not come through has errors, or binds a name twice. -/
theorem error_of_prepared {e : RunError} (h : (setup.prepared bindings u).1 = .error e) :
    e = .aborted u.path u.errors.length ∨ ∃ cause, e = .internal cause := by
  unfold prepared at h
  split at h
  · cases h
    exact Or.inl rfl
  · dsimp only at h
    split at h
    · cases h
      exact Or.inr ⟨_, rfl⟩
    · cases h

/-- A unit keeps its path. -/
theorem path_of_prepared {pending : Pending} (h : (setup.prepared bindings u).1 = .ok pending) :
    pending.target.path = u.path := by
  unfold prepared SourceUnit.recast at h
  split at h
  · cases h
  · dsimp only at h
    split at h
    · cases h
    · rename_i target ht
      cases h
      dsimp only
      split at ht
      · cases ht
      · cases ht
        rfl

variable [Monad m] [LawfulMonad m]

/-- A unit that comes through writes nothing yet, and one that does not
writes all its lines. -/
theorem prepare_eq : setup.prepare bindings u =
    (match (setup.prepared bindings u).1 with
      | .ok _ => pure ()
      | .error _ => setup.sink.writeLines (setup.recorded bindings u)) >>= fun _ =>
    pure (setup.prepared bindings u) := by
  unfold prepare prepared recorded refuses
  split
  · simp [Diagnostics.abandon]
  · dsimp only
    cases (u.recast bindings).result with
    | error e => simp [Diagnostics.abandon]
    | ok target => simp

/-- Without lines, preparing a unit does nothing but tell what it comes to. -/
theorem quiet_prepare : setup.quiet.prepare bindings u = pure (setup.prepared bindings u) := by
  have hprepare := setup.quiet.prepare_eq bindings u
  rw [writeLines_quiet] at hprepare
  refine hprepare.trans ?_
  split
  · rw [pure_bind]
    rfl
  · rw [pure_bind]
    rfl

/-! ## Emitting -/

theorem path_of_emit {W : Type} {setup : Setup (StateM W)} {dest : Destination (StateM W)}
    {pending : Pending} {report : Report} {w w' : W}
    (h : (setup.emit dest pending).run.run w = (.ok report, w')) :
    report.path = pending.target.path := by
  unfold emit at h
  obtain ⟨problems, w₁, _, h⟩ := attempt_bind_ok h
  obtain ⟨stages, w₂, _, h⟩ := attempt_bind_ok h
  cases h
  rfl

/-- A unit that fails when it is emitted has failed at its markers, or
behind them at its text. -/
theorem emit_error {W : Type} {setup : Setup (StateM W)} {dest : Destination (StateM W)}
    {pending : Pending} {e : RunError} {w w' : W}
    (h : (setup.emit dest pending).run.run w = (.error e, w')) :
    (∃ cause, e = .markers cause ∧
      (pending.diagnostics.finish setup.sink).run.run w = (.error cause, w')) ∨
    (∃ cause problems text w₁, e = .output pending.target.path cause ∧
      (pending.diagnostics.finish setup.sink).run.run w = (.ok problems, w₁) ∧
      pending.text = some text ∧
      (dest.write pending.target text).run.run w₁ = (.error cause, w')) := by
  unfold emit at h
  rcases attempt_bind_error h with hm | ⟨problems, w₁, hm, h⟩
  · exact Or.inl (attempt_adapt_error hm)
  · refine Or.inr ?_
    rcases attempt_bind_error h with hd | ⟨stages, w₂, _, h⟩
    · unfold deliver at hd
      split at hd
      · cases hd
      · rename_i text htext
        rcases attempt_bind_error hd with hw | ⟨_, w₂, _, hw⟩
        · obtain ⟨cause, he, hw⟩ := attempt_adapt_error hw
          exact ⟨cause, problems, text, w₁, he, attempt_adapt_ok hm, htext, hw⟩
        · cases hw
    · cases h

/-- Told without its lines, a unit ends when it is prepared, and nothing
is touched, or it is emitted. -/
theorem quiet_process_cases {W : Type} {setup : Setup (StateM W)} {dest : Destination (StateM W)}
    {bindings bound : Bindings} {u : SourceUnit} {result : Except RunError Report} {w w' : W}
    (h : (setup.quiet.process dest bindings u).run w = ((result, bound), w')) :
    (∃ e, setup.prepared bindings u = (.error e, bound) ∧ result = .error e ∧ w' = w) ∨
    ∃ pending, setup.prepared bindings u = (.ok pending, bound) ∧
      (setup.quiet.emit dest pending).run.run w = (result, w') := by
  unfold process at h
  rw [quiet_prepare, pure_bind] at h
  rcases hp : setup.prepared bindings u with ⟨e | pending, bound'⟩
  · rw [hp] at h
    cases h
    exact Or.inl ⟨e, rfl, rfl, rfl⟩
  · rw [hp] at h
    rcases hemit : (setup.quiet.emit dest pending).run.run w with ⟨result', w₁⟩
    have hrun := (run_bind_of hemit).symm.trans h
    cases hrun
    exact Or.inr ⟨pending, rfl, hemit⟩

/-- No failure at emitting stops the whole run. -/
theorem emit_not_fatal {W : Type} {setup : Setup (StateM W)} {dest : Destination (StateM W)}
    {pending : Pending} {e : RunError} {w w' : W}
    (h : (setup.emit dest pending).run.run w = (.error e, w')) : e.isFatal = false := by
  rcases emit_error h with ⟨cause, rfl, _⟩ | ⟨cause, _, _, _, rfl, _⟩
  · rfl
  · rfl

end Setup

/-! ## What a unit keeps -/

section

variable {W : Type} {sink : Sink (StateM W)} {P Q : W → Prop}

theorem Sink.settle_keeps {x : Attempt (StateM W) MarkerError Unit}
    (hx : Ensures Q x.run fun _ => Q) : Ensures Q (sink.settle x).run fun _ => Q := by
  refine hx.bind ?_
  intro result
  split
  · exact Ensures.pure fun _ h => h
  · exact Ensures.pure fun _ h => h

/-- What holds behind the lines, and is kept by the store, holds wherever
finishing a unit ends. -/
theorem Diagnostics.finish_keeps (d : Diagnostics)
    (hlines : Ensures P (sink.writeLines d.problems) fun _ => Q)
    (hclear : ∀ unit, Ensures Q (sink.store.clear unit).run fun _ => Q)
    (hadd : ∀ unit marker, Ensures Q (sink.store.add unit marker).run fun _ => Q) :
    Ensures P (d.finish sink).run fun _ => Q := by
  have hfirst : Ensures P
      (liftM (sink.writeLines d.problems) : Attempt (StateM W) MarkerError Unit).run fun _ => Q :=
    hlines.bind fun _ => Ensures.pure fun _ h => h
  have hcleared : Ensures Q (sink.clear d.unit).run fun _ => Q := by
    unfold Sink.clear
    split
    · exact Sink.settle_keeps (hclear d.unit)
    · exact Ensures.pure fun _ h => h
  have hkept : ∀ ps, Ensures Q (sink.keepAll d.unit ps).run fun _ => Q := by
    intro ps
    induction ps with
    | nil => exact Ensures.pure fun _ h => h
    | cons p ps ih =>
      have hone : Ensures Q (sink.keep d.unit p).run fun _ => Q := by
        unfold Sink.keep
        split
        · exact Sink.settle_keeps (hadd d.unit _)
        · exact Ensures.pure fun _ h => h
      exact hone.attempt_bind fun _ => ih
  unfold Diagnostics.finish
  refine hfirst.attempt_bind fun _ => hcleared.attempt_bind fun _ => ?_
  exact (hkept d.keptProblems).attempt_bind fun _ => Ensures.pure fun _ h => h

/-- What holds behind the diagnostics, and is kept by the destination, holds
wherever emitting a unit ends. -/
theorem Setup.emit_keeps {setup : Setup (StateM W)} {dest : Destination (StateM W)}
    {pending : Pending}
    (hfinish : Ensures P (pending.diagnostics.finish setup.sink).run fun _ => Q)
    (hwrite : ∀ unit text, Ensures Q (dest.write unit text).run fun _ => Q) :
    Ensures P (setup.emit dest pending).run fun _ => Q := by
  unfold Setup.emit
  refine (hfinish.adapt _).attempt_bind ?_
  intro _
  have hdeliver : Ensures Q (Setup.deliver dest pending).run fun _ => Q := by
    unfold Setup.deliver
    split
    · exact Ensures.pure fun _ h => h
    · exact ((hwrite _ _).adapt _).attempt_bind fun _ => Ensures.pure fun _ h => h
  refine hdeliver.attempt_bind ?_
  intro _
  exact Ensures.pure fun _ h => h

end

/-! ## Small units -/

/-- A unit with one class. -/
def SourceUnit.ofClass (path : Path) (name : String) (members : List Source.Member) :
    SourceUnit :=
  ⟨path, none, [], [{ Source.TypeDecl.empty name .classType with members := members }], []⟩

/-- A field whose initial value has no counterpart. -/
def Source.Member.lossyField : Source.Member :=
  .field ⟨"f", .named "T", [], some (.anonymousClass (.named "T") ⟨0, 1, 1⟩), .none⟩

def Source.Member.fieldOf (name : String) (ty : TypeRef) : Source.Member :=
  .field ⟨name, ty, [], none, .none⟩

/-- A method whose body is one call of a method with a known identity. -/
def Source.Member.calling (name method identity : String) : Source.Member :=
  .method ⟨name, [], none, [], some [.expr (.call none method (some identity) [])], .none⟩

def SourceUnit.within (package : String) (u : SourceUnit) : SourceUnit :=
  { u with package := some package }

/-- Prints the header and nothing else. -/
def Renderer.headerOnly : Renderer := ⟨"none", "txt", fun header _ => header⟩

/-- Refuses every text. -/
def Destination.full [Monad m] : Destination m := ⟨fun _ _ => throw (.refused "disk full")⟩

end Recast
