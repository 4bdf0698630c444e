-- What a unit that fails leaves of its markers. A unit that does not come
-- to be emitted leaves them alone. A unit that fails while it is emitted
-- does not: its old markers are cleared first, and its new ones are added
-- before its text is written.
import Recast.Proofs.MarkerMap
import Recast.Proofs.World

namespace Recast

variable {τ σ : Type} {get : τ → Path → List Marker} {valid : τ → Prop}

/-! ## Stores that hold what they take -/

/-- `get` tells the markers that the store holds for a path. An operation
that is refused changes none of them. -/
structure MarkerStore.Holds (store : MarkerStore (StateM τ)) (get : τ → Path → List Marker)
    (valid : τ → Prop) : Prop where
  valid_clear : ∀ unit t, valid t → valid ((store.clear unit).run.run t).2
  valid_add : ∀ unit marker t, valid t → valid ((store.add unit marker).run.run t).2
  clear : ∀ unit t p, valid t → get ((store.clear unit).run.run t).2 p =
    if ((store.clear unit).run.run t).1.isOk && p.same unit then [] else get t p
  add : ∀ unit marker t p, valid t → get ((store.add unit marker).run.run t).2 p =
    if ((store.add unit marker).run.run t).1.isOk && p.same unit then get t p ++ [marker]
    else get t p

/-- The store refuses nothing. -/
structure MarkerStore.TakesAll (store : MarkerStore (StateM τ)) (valid : τ → Prop) : Prop where
  clear : ∀ unit t, valid t → ((store.clear unit).run.run t).1.isOk
  add : ∀ unit marker t, valid t → ((store.add unit marker).run.run t).1.isOk

theorem MarkerStore.memory_holds :
    (MarkerStore.memory : MarkerStore (StateM MarkerMap)).Holds MarkerMap.get MarkerMap.Sorted where
  valid_clear unit _ ht := MarkerMap.sorted_clear ht unit
  valid_add unit marker _ ht := MarkerMap.sorted_add ht unit marker
  clear unit t p _ := MarkerMap.get_clear t unit p
  add unit marker _ p ht := MarkerMap.get_add ht unit p marker

theorem MarkerStore.memory_takesAll :
    (MarkerStore.memory : MarkerStore (StateM MarkerMap)).TakesAll MarkerMap.Sorted where
  clear _ _ _ := rfl
  add _ _ _ _ := rfl

/-- The destination leaves the markers alone. -/
def Destination.LeavesMarkers (dest : Destination (StateM τ)) (get : τ → Path → List Marker) :
    Prop :=
  ∀ unit text t p, get ((dest.write unit text).run.run t).2 p = get t p

/-- From a state on, `get` tells the markers that the store holds. -/
structure MarkerView (store : MarkerStore (StateM τ)) (dest : Destination (StateM τ))
    (get : τ → Path → List Marker) (valid : τ → Prop) (t : τ) : Prop where
  holds : store.Holds get valid
  leaves : dest.LeavesMarkers get
  start : valid t

/-! ### Stores in a world -/

theorem MarkerStore.Holds.onRest {store : MarkerStore (StateM τ)} (h : store.Holds get valid) :
    (store.onRest : MarkerStore (StateM (World σ τ))).Holds (fun w => get w.rest)
      fun w => valid w.rest where
  valid_clear unit w := h.valid_clear unit w.rest
  valid_add unit marker w := h.valid_add unit marker w.rest
  clear unit w := h.clear unit w.rest
  add unit marker w := h.add unit marker w.rest

theorem MarkerStore.TakesAll.onRest {store : MarkerStore (StateM τ)} (h : store.TakesAll valid) :
    (store.onRest : MarkerStore (StateM (World σ τ))).TakesAll fun w => valid w.rest where
  clear unit w := h.clear unit w.rest
  add unit marker w := h.add unit marker w.rest

/-! ## Keeping markers -/

/-- What the policy makes of a result of the store. -/
def MarkerFailure.settled (policy : MarkerFailure) (result : Except MarkerError Unit) :
    Except MarkerError Unit :=
  match policy with
  | .log => .ok ()
  | .fail => result

@[simp] theorem MarkerFailure.settled_ok (policy : MarkerFailure) :
    policy.settled (.ok ()) = .ok () := by
  cases policy <;> rfl

namespace Sink

variable {sink : Sink (StateM τ)}

theorem run_settle {x : Attempt (StateM τ) MarkerError Unit} {result : Except MarkerError Unit}
    {t t' : τ} (h : x.run.run t = (result, t')) :
    (sink.settle x).run.run t = (sink.markerFailure.settled result, t') := by
  unfold Sink.settle
  refine (run_bind_of h).trans ?_
  cases result <;> cases sink.markerFailure <;> rfl

theorem run_clear (hm : sink.emitMarkers = true) {unit : Path} {result : Except MarkerError Unit}
    {t t' : τ} (h : (sink.store.clear unit).run.run t = (result, t')) :
    (sink.clear unit).run.run t = (sink.markerFailure.settled result, t') := by
  unfold Sink.clear
  rw [if_pos hm]
  exact run_settle h

theorem run_keep (hm : sink.emitMarkers = true) {unit : Path} {p : Problem}
    {result : Except MarkerError Unit} {t t' : τ}
    (h : (sink.store.add unit (.ofProblem p)).run.run t = (result, t')) :
    (sink.keep unit p).run.run t = (sink.markerFailure.settled result, t') := by
  unfold Sink.keep
  rw [if_pos hm]
  exact run_settle h

/-! ## Failures of the store -/

theorem fail_of_settle_error {x : Attempt (StateM τ) MarkerError Unit} {e : MarkerError} {t t' : τ}
    (h : (sink.settle x).run.run t = (.error e, t')) : sink.markerFailure = .fail := by
  rcases hx : x.run.run t with ⟨result, t₁⟩
  rw [run_settle hx] at h
  cases hpolicy : sink.markerFailure with
  | log =>
    rw [hpolicy] at h
    cases h
  | fail => rfl

theorem fail_of_keepAll_error {unit : Path} {ps : List Problem} {e : MarkerError} {t t' : τ}
    (h : (sink.keepAll unit ps).run.run t = (.error e, t')) : sink.markerFailure = .fail := by
  induction ps generalizing t with
  | nil => cases h
  | cons p ps ih =>
    rcases attempt_bind_error h with hkeep | ⟨_, t₁, _, hrest⟩
    · unfold Sink.keep at hkeep
      split at hkeep
      · exact fail_of_settle_error hkeep
      · cases hkeep
    · exact ih hrest

/-- A unit fails at its markers only if the policy says so. -/
theorem fail_of_finish_error {d : Diagnostics} {e : MarkerError} {t t' : τ}
    (h : (d.finish sink).run.run t = (.error e, t')) : sink.markerFailure = .fail := by
  unfold Diagnostics.finish at h
  rcases attempt_bind_error h with hlines | ⟨_, t₁, _, h⟩
  · cases hlines
  rcases attempt_bind_error h with hclear | ⟨_, t₂, _, h⟩
  · unfold Sink.clear at hclear
    split at hclear
    · exact fail_of_settle_error hclear
    · cases hclear
  rcases attempt_bind_error h with hkeep | ⟨_, t₃, _, h⟩
  · exact fail_of_keepAll_error hkeep
  · cases h

/-! ## What is added -/

/-- Which markers were added, told from how the adding ended. -/
def Kept (sink : Sink (StateM τ)) (valid : τ → Prop) (fresh kept : List Marker) :
    Except MarkerError α → Prop
  | .ok _ => sink.markerFailure = .fail ∨ sink.store.TakesAll valid → kept = fresh
  | .error _ => ∃ k, k < fresh.length ∧ kept = fresh.take k

theorem Kept.taken {fresh kept : List Marker} {result : Except MarkerError Unit}
    (h : sink.Kept valid fresh kept result) (marker : Marker) :
    sink.Kept valid (marker :: fresh) (marker :: kept) result := by
  cases result with
  | ok _ => exact fun hall => congrArg (marker :: ·) (h hall)
  | error e =>
    obtain ⟨k, hk, rfl⟩ := h
    exact ⟨k + 1, Nat.succ_lt_succ hk, rfl⟩

/-- If the policy lets a refused operation pass, not all need be done. -/
theorem not_all_done (hlog : sink.markerFailure = .log)
    (hrefused : ¬ sink.store.TakesAll valid) :
    ¬ (sink.markerFailure = .fail ∨ sink.store.TakesAll valid) := by
  rintro (hfail | hall)
  · rw [hlog] at hfail
    cases hfail
  · exact hrefused hall

/-- Under the path of a unit, adding leaves the markers that it was able to
add behind those that were there. -/
theorem keepAll_kept (h : sink.store.Holds get valid) (hm : sink.emitMarkers = true)
    (unit : Path) (ps : List Problem) {t t' : τ} {result : Except MarkerError Unit} (ht : valid t)
    (hrun : (sink.keepAll unit ps).run.run t = (result, t')) :
    ∃ kept, kept.Sublist (ps.map Marker.ofProblem) ∧ get t' unit = get t unit ++ kept ∧
      sink.Kept valid (ps.map Marker.ofProblem) kept result := by
  induction ps generalizing t with
  | nil =>
    cases hrun
    exact ⟨[], List.Sublist.refl _, (List.append_nil _).symm, fun _ => rfl⟩
  | cons p ps ih =>
    rcases hadd : (sink.store.add unit (.ofProblem p)).run.run t with ⟨added, t₁⟩
    have hget := h.add unit (.ofProblem p) t unit ht
    have hvalid := h.valid_add unit (.ofProblem p) t ht
    rw [hadd, Path.same_refl, Bool.and_true] at hget
    rw [hadd] at hvalid
    unfold Sink.keepAll at hrun
    rw [ExceptT.run_bind, run_bind_of (run_keep hm hadd)] at hrun
    cases added with
    | ok _ =>
      rw [MarkerFailure.settled_ok] at hrun
      obtain ⟨kept, hsub, hkept, hend⟩ := ih hvalid hrun
      refine ⟨.ofProblem p :: kept, hsub.cons_cons _, ?_, hend.taken _⟩
      rw [hkept, hget]
      exact List.append_assoc _ [_] kept
    | error e =>
      -- whether the others are tried depends on the policy alone
      cases hpolicy : sink.markerFailure with
      | log =>
        rw [hpolicy] at hrun
        obtain ⟨kept, hsub, hkept, _⟩ := ih hvalid hrun
        refine ⟨kept, hsub.cons _, hkept.trans (congrArg (· ++ kept) hget), ?_⟩
        cases result with
        | ok _ =>
          refine fun hdone => absurd hdone (not_all_done hpolicy ?_)
          intro hall
          have hok := hall.add unit (.ofProblem p) t ht
          rw [hadd] at hok
          cases hok
        | error e =>
          have hfail := fail_of_keepAll_error hrun
          rw [hpolicy] at hfail
          cases hfail
      | fail =>
        rw [hpolicy] at hrun
        cases hrun
        exact ⟨[], List.nil_sublist _, hget.trans (List.append_nil _).symm, 0, Nat.succ_pos _, rfl⟩

/-- The same, for an attempt that goes on behind the adding. -/
theorem keepAll_then (h : sink.store.Holds get valid) (hm : sink.emitMarkers = true)
    {unit : Path} {ps : List Problem} {a : α} {t t' : τ} {result : Except MarkerError α}
    (ht : valid t)
    (hrun : (sink.keepAll unit ps >>= fun _ => pure a : Attempt (StateM τ) MarkerError α).run.run t =
      (result, t')) :
    ∃ kept, kept.Sublist (ps.map Marker.ofProblem) ∧ get t' unit = get t unit ++ kept ∧
      sink.Kept valid (ps.map Marker.ofProblem) kept result := by
  rcases hadd : (sink.keepAll unit ps).run.run t with ⟨added, t₁⟩
  obtain ⟨kept, hsub, hkept, hend⟩ := keepAll_kept h hm unit ps ht hadd
  rw [ExceptT.run_bind, run_bind_of hadd] at hrun
  cases added with
  | ok _ =>
    cases hrun
    exact ⟨kept, hsub, hkept, hend⟩
  | error e =>
    cases hrun
    exact ⟨kept, hsub, hkept, hend⟩

/-- What is left of the markers of a unit, told from how finishing it
ended. -/
def Left (sink : Sink (StateM τ)) (valid : τ → Prop) (cleared : Bool) (fresh kept : List Marker) :
    Except MarkerError α → Prop
  | .ok _ =>
    sink.markerFailure = .fail ∨ sink.store.TakesAll valid → cleared = true ∧ kept = fresh
  | .error _ => if cleared then ∃ k, k < fresh.length ∧ kept = fresh.take k else kept = []

/-- Finishing a unit first clears its markers and then adds the new ones. -/
theorem finish_left (h : sink.store.Holds get valid) (hm : sink.emitMarkers = true)
    (hquiet : ∀ ps, sink.writeLines ps = pure ()) (d : Diagnostics) {t t' : τ}
    {result : Except MarkerError (List Problem)} (ht : valid t)
    (hrun : (d.finish sink).run.run t = (result, t')) :
    ∃ kept, kept.Sublist (d.keptProblems.map Marker.ofProblem) ∧
      get t' d.unit =
        (if ((sink.store.clear d.unit).run.run t).1.isOk then [] else get t d.unit) ++ kept ∧
      sink.Left valid ((sink.store.clear d.unit).run.run t).1.isOk
        (d.keptProblems.map Marker.ofProblem) kept result := by
  have hfail : ∀ e, result = .error e → sink.markerFailure = .fail := by
    rintro e rfl
    exact fail_of_finish_error hrun
  rcases hclear : (sink.store.clear d.unit).run.run t with ⟨cleared, t₁⟩
  have hget := h.clear d.unit t d.unit ht
  have hvalid := h.valid_clear d.unit t ht
  rw [hclear, Path.same_refl, Bool.and_true] at hget
  rw [hclear] at hvalid
  have hfinish : d.finish sink = (do
      sink.clear d.unit
      sink.keepAll d.unit d.keptProblems
      return d.problems) := by
    unfold Diagnostics.finish
    rw [hquiet]
    rfl
  rw [hfinish, ExceptT.run_bind, run_bind_of (run_clear hm hclear)] at hrun
  cases cleared with
  | ok _ =>
    rw [MarkerFailure.settled_ok] at hrun
    obtain ⟨kept, hsub, hkept, hend⟩ := keepAll_then h hm hvalid hrun
    refine ⟨kept, hsub, hkept.trans (congrArg (· ++ kept) hget), ?_⟩
    cases result with
    | ok problems => exact fun hall => ⟨rfl, hend hall⟩
    | error e => exact hend
  | error e =>
    cases hpolicy : sink.markerFailure with
    | log =>
      rw [hpolicy] at hrun
      obtain ⟨kept, hsub, hkept, _⟩ := keepAll_then h hm hvalid hrun
      refine ⟨kept, hsub, hkept.trans (congrArg (· ++ kept) hget), ?_⟩
      cases result with
      | ok problems =>
        refine fun hdone => absurd hdone (not_all_done hpolicy ?_)
        intro hall
        have hok := hall.clear d.unit t ht
        rw [hclear] at hok
        cases hok
      | error e =>
        rw [hpolicy] at hfail
        cases hfail e rfl
    | fail =>
      rw [hpolicy] at hrun
      cases hrun
      exact ⟨[], List.nil_sublist _, hget.trans (List.append_nil _).symm, rfl⟩

end Sink

/-! ## A unit that fails -/

/-- The marker of a warning spans the place of the warning, and ends at the
greatest offset at the latest. -/
def Warning.marker (w : Warning) : Marker where
  message := w.message
  severity := .warning
  charStart := w.span.start
  charEnd := .ofNat (min (w.span.start.toNat + w.span.len.toNat) 0xffffffffffffffff)
  line := w.span.line
  transient := true

theorem Span.stop_eq (s : Span) :
    s.stop = .ofNat (min (s.start.toNat + s.len.toNat) 0xffffffffffffffff) := by
  unfold Span.stop
  split
  · rename_i hfits
    rw [Nat.min_eq_left (by omega), UInt64.ofNat_add, UInt64.ofNat_toNat, UInt64.ofNat_toNat]
  · rename_i hlarge
    rw [Nat.min_eq_right (by omega)]
    rfl

theorem Marker.ofProblem_warning (w : Warning) (unit : Path) :
    Marker.ofProblem (w.problem unit) = w.marker := by
  unfold Warning.marker
  rw [← Span.stop_eq]
  rfl

/-- The markers of a unit's warnings. -/
def SourceUnit.freshMarkers (u : SourceUnit) (bindings : Bindings) : List Marker :=
  (u.recast bindings).warnings.map Warning.marker

/-- A unit that came through keeps its fresh markers under its path. -/
theorem Setup.kept_of_prepared {m : Type → Type} {setup : Setup m} {bindings : Bindings}
    {u : SourceUnit} {pending : Pending} (h : (setup.prepared bindings u).1 = .ok pending) :
    pending.diagnostics.unit = u.path ∧
      pending.diagnostics.keptProblems.map Marker.ofProblem = u.freshMarkers bindings := by
  obtain ⟨_, hd⟩ := setup.diagnostics_of_prepared bindings u h
  rw [hd]
  exact ⟨by simp, by simp [SourceUnit.freshMarkers, Marker.ofProblem_warning]⟩

section

variable {W : Type} {setup : Setup (StateM W)} {dest : Destination (StateM W)}
  {get : W → Path → List Marker} {valid : W → Prop} {bindings : Bindings} {u : SourceUnit}
  {pending : Pending} {w w' : W} (hview : MarkerView setup.sink.store dest get valid w)
  (hmarkers : setup.sink.emitMarkers = true)
  (hp : (setup.prepared bindings u).1 = .ok pending)
include hview hmarkers hp

/-- Finishing a unit that came through, told without its lines. -/
theorem Setup.quiet_finish_left {result : Except MarkerError (List Problem)}
    (h : (pending.diagnostics.finish setup.quiet.sink).run.run w = (result, w')) :
    let cleared := ((setup.sink.store.clear u.path).run.run w).1.isOk
    ∃ kept, kept.Sublist (u.freshMarkers bindings) ∧
      get w' u.path = (if cleared then [] else get w u.path) ++ kept ∧
      setup.quiet.sink.Left valid cleared (u.freshMarkers bindings) kept result := by
  have hholds : setup.quiet.sink.store.Holds get valid := hview.holds
  obtain ⟨hunit, hfresh⟩ := Setup.kept_of_prepared hp
  have hleft := Sink.finish_left hholds hmarkers setup.writeLines_quiet pending.diagnostics
    hview.start h
  rw [hunit, hfresh] at hleft
  exact hleft

/-- A unit that fails at its markers leaves those it had if they could not be
cleared, or else the first of the new ones. -/
theorem Setup.quiet_markers_left {cause : MarkerError}
    (h : (pending.diagnostics.finish setup.quiet.sink).run.run w = (.error cause, w')) :
    if ((setup.sink.store.clear u.path).run.run w).1.isOk then
      ∃ k, k < (u.freshMarkers bindings).length ∧
        get w' u.path = (u.freshMarkers bindings).take k
    else get w' u.path = get w u.path := by
  obtain ⟨kept, _, hafter, hadded⟩ := Setup.quiet_finish_left hview hmarkers hp h
  unfold Sink.Left at hadded
  generalize ((setup.sink.store.clear u.path).run.run w).1.isOk = cleared at hafter hadded
  cases cleared with
  | true =>
    obtain ⟨k, hk, rfl⟩ := hadded
    exact ⟨k, hk, hafter⟩
  | false =>
    have hnone : kept = [] := hadded
    rw [hnone, List.append_nil] at hafter
    exact hafter

/-- A unit whose text is refused leaves its new markers. -/
theorem Setup.quiet_output_left {problems : List Problem} {text : String}
    {cause : IoFailure} {w₁ : W}
    (h : (pending.diagnostics.finish setup.quiet.sink).run.run w = (.ok problems, w₁))
    (hwrite : (dest.write pending.target text).run.run w₁ = (.error cause, w')) :
    let cleared := ((setup.sink.store.clear u.path).run.run w).1.isOk
    ∃ kept, kept.Sublist (u.freshMarkers bindings) ∧
      get w' u.path = (if cleared then [] else get w u.path) ++ kept ∧
      (setup.sink.markerFailure = .fail ∨ setup.sink.store.TakesAll valid →
        cleared = true ∧ kept = u.freshMarkers bindings) := by
  obtain ⟨kept, hsub, hafter, hend⟩ := Setup.quiet_finish_left hview hmarkers hp h
  have hleaves := hview.leaves pending.target text w₁ u.path
  rw [hwrite] at hleaves
  exact ⟨kept, hsub, hleaves.trans hafter, hend⟩

end

/-- A unit that has errors, or that binds a name twice, leaves its markers
as they were. A unit that fails while it is emitted leaves behind what was
cleared and added until then. -/
theorem what_a_failed_unit_leaves_of_its_markers {W : Type} (setup : Setup (StateM W))
    (dest : Destination (StateM W)) (held : W → τ) (hapart : setup.Separates dest held)
    (bindings bound : Bindings) (u : SourceUnit) (e : RunError) (w w' : W)
    (hmarkers : setup.sink.emitMarkers = true)
    (h : (setup.process dest bindings u).run w = ((.error e, bound), w')) :
    let store := setup.sink.store
    let fresh := u.freshMarkers bindings
    let cleared := ((store.clear u.path).run.run w).1.isOk
    match e with
    | .aborted _ _ => held w' = held w
    | .internal _ => held w' = held w
    | .markers _ => setup.sink.markerFailure = .fail ∧
        ∀ (get : τ → Path → List Marker) (valid : τ → Prop),
          MarkerView store dest (fun w => get (held w)) (fun w => valid (held w)) w →
          if cleared then ∃ k, k < fresh.length ∧ get (held w') u.path = fresh.take k
          else get (held w') u.path = get (held w) u.path
    | .output _ _ => ∀ (get : τ → Path → List Marker) (valid : τ → Prop),
        MarkerView store dest (fun w => get (held w)) (fun w => valid (held w)) w →
        ∃ kept, kept.Sublist fresh ∧
          get (held w') u.path = (if cleared then [] else get (held w) u.path) ++ kept ∧
          (setup.sink.markerFailure = .fail ∨ store.TakesAll (fun w => valid (held w)) →
            cleared = true ∧ kept = fresh) := by
  intro store fresh cleared
  -- without its lines, the unit leaves the same behind
  have halike := hapart.process bindings u w w rfl
  rcases hquiet : (setup.quiet.process dest bindings u).run w with ⟨⟨result, bound'⟩, w₁⟩
  rw [h, hquiet] at halike
  obtain ⟨hresult, hheld⟩ := halike
  cases hresult
  rw [show held w' = held w₁ from hheld]
  rcases Setup.quiet_process_cases hquiet with ⟨_, hp, he, rfl⟩ | ⟨pending, hp, hemit⟩
  · cases he
    rcases Setup.error_of_prepared _ bindings u (congrArg Prod.fst hp) with rfl | ⟨cause, rfl⟩
    · rfl
    · rfl
  · have hp := congrArg Prod.fst hp
    rcases Setup.emit_error hemit with
      ⟨cause, rfl, hfinish⟩ | ⟨cause, problems, text, w₂, rfl, hfinish, _, hwrite⟩
    · have hfail : setup.quiet.sink.markerFailure = .fail := Sink.fail_of_finish_error hfinish
      exact ⟨hfail, fun get valid hview => Setup.quiet_markers_left hview hmarkers hp hfinish⟩
    · exact fun get valid hview => Setup.quiet_output_left hview hmarkers hp hfinish hwrite

/-! ## A text that is refused -/

/-- A marker that an earlier run left. -/
def staleMarker : Marker := ⟨"stale", .warning, 0, 1, 1, true⟩

def staleMarkers : MarkerMap := MarkerMap.empty.add "A" staleMarker

/-- A unit with these members is processed, and its text is refused. -/
def refusedRun (members : List Source.Member) :
    (Except RunError Report × Bindings) × World Unit MarkerMap :=
  ((World.setup ⟨"", false, true, .log⟩ .headerOnly .nowhere .memory).process
    Destination.full.onRest .empty (.ofClass "A" "A" members)).run ⟨(), staleMarkers⟩

theorem staleMarkers_view : MarkerView (MarkerStore.memory.onRest) Destination.full.onRest
    (fun w => w.rest.get) (fun w => w.rest.Sorted) (⟨(), staleMarkers⟩ : World Unit MarkerMap) where
  holds := MarkerStore.memory_holds.onRest
  leaves _ _ _ _ := rfl
  start := MarkerMap.sorted_add MarkerMap.sorted_empty "A" staleMarker

theorem a_refused_text_leaves_the_new_markers :
    (refusedRun [.lossyField]).2.rest.get "A" =
      [⟨"anonymous class of 'T' is not supported", .warning, 0, 1, 1, true⟩] := by
  have hleft := what_a_failed_unit_leaves_of_its_markers
    (World.setup ⟨"", false, true, .log⟩ .headerOnly .nowhere .memory) Destination.full.onRest
    World.rest (World.separates _ _ _ _ _) .empty _ (.ofClass "A" "A" [.lossyField])
    (.output "A" (.refused "disk full")) ⟨(), staleMarkers⟩ (refusedRun [.lossyField]).2 rfl rfl
  obtain ⟨kept, _, hafter, hall⟩ := hleft MarkerMap.get MarkerMap.Sorted staleMarkers_view
  obtain ⟨_, hkept⟩ := hall (Or.inr MarkerStore.memory_takesAll.onRest)
  rw [hkept] at hafter
  exact hafter

/-- The marker that was stored for the unit is gone, although the unit never
reached the destination. -/
theorem a_refused_text_clears_the_old_markers :
    (refusedRun []).1.1 = .error (.output "A" (.refused "disk full")) ∧
      staleMarkers.get "A" = [staleMarker] ∧ (refusedRun []).2.rest.get "A" = [] :=
  ⟨rfl, rfl, rfl⟩

end Recast
