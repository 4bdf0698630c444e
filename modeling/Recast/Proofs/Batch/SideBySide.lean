-- Two runs side by side that nothing stops: they go on at failures, and no
-- signal is raised. If the work on single units is alike from states that a
-- relation ties together, both runs go on or break off at the same unit,
-- and a relation between their summaries that recording keeps holds to the
-- end. The summaries need not be equal: one run may have recorded more.
import Recast.Proofs.Alike
import Recast.Proofs.Batch.Order

namespace Recast

variable {V W α β γ : Type} {R : V → W → Prop}

/-! ## Two actions side by side -/

theorem Alike.refl (x : StateM V α) : Alike Eq x x := by
  rintro v _ rfl
  exact ⟨rfl, rfl⟩

theorem Alike.of_exists {ι : Type} {R : ι → V → W → Prop} {x : StateM V α} {y : StateM W α}
    (h : ∀ i, Alike (R i) x y) : Alike (fun v w => ∃ i, R i v w) x y := by
  rintro v w ⟨i, hR⟩
  obtain ⟨hresult, hends⟩ := h i v w hR
  exact ⟨hresult, i, hends⟩

/-- From states that `R` relates, both actions give results and states that
`Q` relates. -/
def Related (R : V → W → Prop) (x : StateM V α) (y : StateM W β) (Q : α → β → V → W → Prop) :
    Prop :=
  ∀ v w, R v w → Q (x.run v).1 (y.run w).1 (x.run v).2 (y.run w).2

namespace Related

variable {Q : β → γ → V → W → Prop}

theorem pure {b : β} {c : γ} (h : ∀ v w, R v w → Q b c v w) :
    Related R (Pure.pure b) (Pure.pure c) Q := h

theorem of_alike {x : StateM V α} {y : StateM W α} (h : Alike R x y) :
    Related R x y fun a b v w => a = b ∧ R v w := h

theorem bind {x : StateM V α} {y : StateM W α} {f : α → StateM V β} {g : α → StateM W γ}
    {S : α → α → V → W → Prop} (hx : Related R x y S)
    (hf : ∀ a b, Related (S a b) (f a) (g b) Q) : Related R (x >>= f) (y >>= g) Q := by
  intro v w h
  exact hf _ _ _ _ (hx v w h)

theorem of_and {p : Prop} {x : StateM V β} {y : StateM W γ} (h : p → Related R x y Q) :
    Related (fun v w => p ∧ R v w) x y Q := by
  rintro v w ⟨hp, hR⟩
  exact h hp v w hR

end Related

namespace Batch

/-! ## Summaries with one more failure -/

/-- The second summary counts one more unit that was given up, and has
failures of its own. -/
def Summary.OneMore (s s' : Summary) : Prop :=
  s' = { s with aborted := s.aborted + 1, failures := s'.failures }

theorem Summary.OneMore.record {s s' : Summary} (h : s.OneMore s') (report : Report) :
    (s.record report).OneMore (s'.record report) := by
  unfold OneMore at h ⊢
  rw [h]
  unfold Summary.record
  split
  · rfl
  · rfl

theorem Summary.OneMore.recordFailure {s s' : Summary} (h : s.OneMore s') (path : Path)
    (e : RunError) : (s.recordFailure path e).OneMore (s'.recordFailure path e) := by
  unfold OneMore at h ⊢
  rw [h]
  unfold Summary.recordFailure
  split
  · rfl
  · rfl

/-- Summaries that stay in a relation, whatever is recorded in both. -/
structure Summary.Stable (Q : Summary → Summary → Prop) : Prop where
  record : ∀ s s' report, Q s s' → Q (s.record report) (s'.record report)
  recordFailure : ∀ s s' path e, Q s s' → Q (s.recordFailure path e) (s'.recordFailure path e)

theorem Summary.stable_eq : Summary.Stable Eq where
  record _ _ _ h := by rw [h]
  recordFailure _ _ _ _ h := by rw [h]

/-- Recording does not cancel. -/
theorem Summary.stable_notCancelled : Summary.Stable fun s _ => s.cancelled = false where
  record s _ report h := by
    unfold Summary.record
    split
    · exact h
    · exact h
  recordFailure s _ path e h := by
    unfold Summary.recordFailure
    split
    · exact h
    · exact h

theorem Summary.stable_oneMore : Summary.Stable Summary.OneMore where
  record _ _ report h := h.record report
  recordFailure _ _ path e h := h.recordFailure path e

/-- Two runs go on, or break off with one error. -/
inductive Next.Both (Q : Summary → Summary → Prop) : Next → Next → Prop
  | proceed {s s' : Summary} : Q s s' → Both Q (.proceed s) (.proceed s')
  | fatal {e : RunError} : Both Q (.fatal e) (.fatal e)

theorem Worker.follow_both {Q : Summary → Summary → Prop} (hQ : Summary.Stable Q)
    {options : Options} (hkeep : options.keepGoing = true) {s s' : Summary} (h : Q s s')
    (u : SourceUnit) (result : Except RunError Report) :
    Next.Both Q (follow options s u result) (follow options s' u result) := by
  cases result with
  | ok report => exact .proceed (hQ.record s s' report h)
  | error e =>
    unfold follow
    dsimp only
    rw [if_pos hkeep, if_pos hkeep]
    split
    · exact .fatal
    · exact .proceed (hQ.recordFailure s s' u.path e h)

/-! ## Runs that nothing stops -/

/-- Prepared units, as a run that nothing stops has them. -/
def ready (entries : List (SourceUnit × Prepared)) : List (SourceUnit × Option Prepared) :=
  entries.map fun entry => (entry.1, some entry.2)

/-- How two runs end that nothing stops: with summaries that `Q` relates, or
with one error. -/
inductive EndBoth (Q : Summary → Summary → Prop) (E R : V → V → Prop) :
    Except RunError Summary → Except RunError Summary → V → V → Prop
  | summary {s s' : Summary} {v v' : V} :
      Q s s' → R v v' → EndBoth Q E R (.ok s) (.ok s') v v'
  | error {e : RunError} {v v' : V} : E v v' → EndBoth Q E R (.error e) (.error e) v v'

theorem Worker.alike_refl (worker : Worker (StateM V)) : worker.Alike Eq worker where
  prepare _ _ := Recast.Alike.refl _
  emit _ := Recast.Alike.refl _
  discard _ := Recast.Alike.refl _

theorem Worker.alike_of_exists {ι : Type} {R : ι → V → V → Prop} {worker : Worker (StateM V)}
    (h : ∀ i, worker.Alike (R i) worker) : worker.Alike (fun v v' => ∃ i, R i v v') worker where
  prepare bindings u := Recast.Alike.of_exists fun i => (h i).prepare bindings u
  emit pending := Recast.Alike.of_exists fun i => (h i).emit pending
  discard pending := Recast.Alike.of_exists fun i => (h i).discard pending

namespace Worker.Alike

variable {worker : Worker (StateM V)} {R : V → V → Prop} (h : worker.Alike R worker)
include h

theorem prepareUnit_never (bindings : Bindings) (progress progress' : Progress) (u : SourceUnit) :
    Related R (worker.prepareUnit .never bindings progress u)
      (worker.prepareUnit .never bindings progress' u) fun r r' v v' =>
        (∃ q, r.1 = some q ∧ r'.1 = some q ∧ r.2.1 = r'.2.1) ∧ R v v' := by
  refine (Related.of_alike (h.prepare bindings u)).bind ?_
  rintro r r'
  refine Related.of_and ?_
  rintro rfl
  exact Related.pure fun v v' hR => ⟨⟨r.1, rfl, rfl, rfl⟩, hR⟩

theorem emitUnit_never {Q : Summary → Summary → Prop} (hQ : Summary.Stable Q) {options : Options}
    (hkeep : options.keepGoing = true) {s s' : Summary} (hs : Q s s')
    (progress progress' : Progress) (u : SourceUnit) (q : Prepared) :
    Related R (worker.emitUnit options .never progress s u (some q))
      (worker.emitUnit options .never progress' s' u (some q)) fun next next' v v' =>
        next.Both Q next' ∧ R v v' := by
  refine (Related.of_alike (h.conclude q)).bind ?_
  rintro result result'
  refine Related.of_and ?_
  rintro rfl
  exact Related.pure fun v v' hR => ⟨follow_both hQ hkeep hs u result, hR⟩

theorem prepareEach_never (bindings : Bindings) (progress progress' : Progress)
    (units : List SourceUnit) :
    Related R (worker.prepareEach .never bindings progress units)
      (worker.prepareEach .never bindings progress' units) fun r r' v v' =>
        (∃ entries, r.1 = ready entries ∧ r'.1 = ready entries ∧ r.2.1 = r'.2.1) ∧ R v v' := by
  induction units generalizing bindings progress progress' with
  | nil => exact Related.pure fun v v' hR => ⟨⟨[], rfl, rfl, rfl⟩, hR⟩
  | cons u rest ih =>
    refine (h.prepareUnit_never bindings progress progress' u).bind ?_
    rintro ⟨_, bound, progress⟩ ⟨_, _, progress'⟩
    refine Related.of_and ?_
    rintro ⟨q, rfl, rfl, rfl⟩
    refine (ih bound progress progress').bind ?_
    rintro ⟨_, bound, progress⟩ ⟨_, _, progress'⟩
    refine Related.of_and ?_
    rintro ⟨entries, rfl, rfl, rfl⟩
    exact Related.pure fun v v' hR => ⟨⟨(u, q) :: entries, rfl, rfl, rfl⟩, hR⟩

theorem runInTurn_never {Q : Summary → Summary → Prop} (hQ : Summary.Stable Q)
    {E : V → V → Prop} (hE : ∀ v v', R v v' → E v v') {s s' : Summary} (hs : Q s s')
    (bindings : Bindings) (progress progress' : Progress) (units : List SourceUnit) :
    Related R (worker.runInTurn ⟨false, true⟩ .never bindings progress s units)
      (worker.runInTurn ⟨false, true⟩ .never bindings progress' s' units) fun r r' v v' =>
        r.2 = r'.2 ∧ EndBoth Q E R r.1 r'.1 v v' := by
  induction units generalizing bindings progress progress' s s' with
  | nil => exact Related.pure fun v v' hR => ⟨rfl, .summary hs hR⟩
  | cons u rest ih =>
    refine (h.prepareUnit_never bindings progress progress' u).bind ?_
    rintro ⟨_, bound, progress⟩ ⟨_, _, progress'⟩
    refine Related.of_and ?_
    rintro ⟨q, rfl, rfl, rfl⟩
    refine (h.emitUnit_never hQ rfl hs progress progress' u q).bind ?_
    intro next next'
    refine Related.of_and ?_
    intro hnext
    cases hnext with
    | proceed hs => exact ih hs bound progress.checked progress'.checked
    | fatal => exact Related.pure fun v v' hR => ⟨rfl, .error (hE v v' hR)⟩

theorem emitAll_never {Q : Summary → Summary → Prop} (hQ : Summary.Stable Q)
    {E : V → V → Prop} (hE : ∀ v v', R v v' → E v v') {s s' : Summary} (hs : Q s s')
    (progress progress' : Progress) (entries : List (SourceUnit × Prepared)) :
    Related R (worker.emitAll ⟨true, true⟩ .never progress s (ready entries))
      (worker.emitAll ⟨true, true⟩ .never progress' s' (ready entries)) (EndBoth Q E R) := by
  induction entries generalizing progress progress' s s' with
  | nil => exact Related.pure fun v v' hR => .summary hs hR
  | cons entry rest ih =>
    refine (h.emitUnit_never hQ rfl hs progress progress' entry.1 entry.2).bind ?_
    intro next next'
    refine Related.of_and ?_
    intro hnext
    cases hnext with
    | proceed hs => exact ih hs progress.checked progress'.checked
    | fatal => exact Related.pure fun v v' hR => .error (hE v v' hR)

/-- What is stable holds of the summaries of two runs over the same units. -/
theorem run_never {Q : Summary → Summary → Prop} (hQ : Summary.Stable Q)
    (hempty : Q .empty .empty) (parallel : Bool) (bindings : Bindings) (units : List SourceUnit) :
    Related R (worker.run ⟨parallel, true⟩ .never bindings units)
      (worker.run ⟨parallel, true⟩ .never bindings units) fun r r' v v' =>
        EndBoth Q R R r.1 r'.1 v v' := by
  rw [worker.run_eq]
  cases parallel with
  | false =>
    intro v v' hR
    exact (h.runInTurn_never hQ (fun _ _ hR => hR) hempty bindings ⟨0, []⟩ ⟨0, []⟩ units v v' hR).2
  | true =>
    refine (h.prepareEach_never bindings ⟨0, []⟩ ⟨0, []⟩ units).bind ?_
    rintro ⟨_, bound, progress⟩ ⟨_, _, progress'⟩
    refine Related.of_and ?_
    rintro ⟨entries, rfl, rfl, rfl⟩
    refine (h.emitAll_never hQ (fun _ _ hR => hR) hempty progress progress' entries).bind ?_
    intro out out'
    exact Related.pure fun v v' hends => hends

end Worker.Alike

end Batch

end Recast
