-- Logs of what a run does. A worker can note the units that it prepares or
-- those that it emits; that changes nothing in what it does, and workers
-- that are alike note the same.
import Recast.Proofs.Batch.Course

namespace Recast

variable {V W N α : Type} {R : V → W → Prop}

/-! ## Actions that are noted -/

/-- An action with a log beside it, which notes something of the result. -/
def noting (note : α → List N) (x : StateM V α) : StateM (V × List N) α :=
  fun s => ((x.run s.1).1, ((x.run s.1).2, s.2 ++ note (x.run s.1).1))

theorem run_noting {x : StateM V α} {a : α} {v v' : V} (note : α → List N) (log : List N)
    (h : x.run v = (a, v')) : (noting note x).run (v, log) = (a, (v', log ++ note a)) := by
  change ((x.run v).1, ((x.run v).2, log ++ note (x.run v).1)) = _
  rw [h]

theorem run_noting_nothing {x : StateM V α} {a : α} {v v' : V} (log : List N)
    (h : x.run v = (a, v')) :
    (noting (fun _ => ([] : List N)) x).run (v, log) = (a, (v', log)) := by
  rw [run_noting _ log h, List.append_nil]

/-- The log changes nothing in what an action does. -/
theorem noting_alike (note : α → List N) (x : StateM V α) :
    Alike (fun s v => s.1 = v) (noting note x) x := by
  rintro s _ rfl
  exact ⟨rfl, rfl⟩

/-- Actions that are alike note the same. -/
theorem Alike.noting {x : StateM V α} {y : StateM W α} (h : Alike R x y) (note : α → List N) :
    Alike (fun s t => R s.1 t.1 ∧ s.2 = t.2) (Recast.noting note x) (Recast.noting note y) := by
  rintro ⟨v, log⟩ ⟨w, _⟩ ⟨hR, rfl⟩
  obtain ⟨hresult, hR'⟩ := h v w hR
  exact ⟨hresult, hR', congrArg (fun a => log ++ note a) hresult⟩

theorem noting_pure (a : α) :
    noting (fun _ => ([] : List N)) (pure a : StateM V α) = pure a := by
  funext s
  exact congrArg (fun log => (a, (s.1, log))) (List.append_nil s.2)

namespace Batch

/-! ## Workers that note what they do -/

/-- The worker with a log of what its calls and its emissions are to note. -/
def Worker.noting (worker : Worker (StateM V)) (ofCall : Call → List N)
    (ofEmission : Pending → List N) : Worker (StateM (V × List N)) where
  prepare bindings u := Recast.noting (fun _ => ofCall ⟨u, bindings⟩) (worker.prepare bindings u)
  emit pending := Recast.noting (fun _ => ofEmission pending) (worker.emit pending)
  discard pending := Recast.noting (fun _ => []) (worker.discard pending)

/-- The worker that logs every call to prepare a unit. -/
def Worker.logged (worker : Worker (StateM V)) : Worker (StateM (V × List Call)) :=
  worker.noting (fun call => [call]) fun _ => []

/-- The worker that lists every unit it emits. -/
def Worker.listed (worker : Worker (StateM V)) : Worker (StateM (V × List Pending)) :=
  worker.noting (fun _ => []) fun pending => [pending]

variable {worker : Worker (StateM V)} (ofCall : Call → List N) (ofEmission : Pending → List N)

theorem Worker.noting_alike (worker : Worker (StateM V)) :
    (worker.noting ofCall ofEmission).Alike (fun s v => s.1 = v) worker where
  prepare _ _ := Recast.noting_alike _ _
  emit _ := Recast.noting_alike _ _
  discard _ := Recast.noting_alike _ _

theorem Worker.Alike.noting {other : Worker (StateM W)} (h : worker.Alike R other) :
    (worker.noting ofCall ofEmission).Alike (fun s t => R s.1 t.1 ∧ s.2 = t.2)
      (other.noting ofCall ofEmission) where
  prepare bindings u := (h.prepare bindings u).noting _
  emit pending := (h.emit pending).noting _
  discard pending := (h.discard pending).noting _

/-- Workers that are alike make the same calls. -/
theorem Worker.Alike.logged {other : Worker (StateM W)} (h : worker.Alike R other) :
    worker.logged.Alike (fun s t => R s.1 t.1 ∧ s.2 = t.2) other.logged := h.noting _ _

/-- Workers that are alike emit the same units. -/
theorem Worker.Alike.listed {other : Worker (StateM W)} (h : worker.Alike R other) :
    worker.listed.Alike (fun s t => R s.1 t.1 ∧ s.2 = t.2) other.listed := h.noting _ _

/-- A run that is noted is the run that is not. -/
theorem Worker.runIn_of_noting {options : Options} {signal : Signal} {order : List Nat}
    {bindings : Bindings} {units : List SourceUnit} {out : Except RunError Summary × Bindings}
    {v v' : V} {log : List N}
    (h : ((worker.noting ofCall ofEmission).runIn options signal order bindings units).run (v, []) =
      (out, (v', log))) :
    (worker.runIn options signal order bindings units).run v = (out, v') := by
  have halike := (worker.noting_alike ofCall ofEmission).runIn options signal order bindings units
    (v, []) v rfl
  rw [h] at halike
  exact Prod.ext halike.1.symm halike.2.symm

theorem Worker.run_logged_prepare {bindings : Bindings} {u : SourceUnit}
    {result : Prepared × Bindings} {v v' : V} (log : List Call)
    (h : (worker.prepare bindings u).run v = (result, v')) :
    (worker.logged.prepare bindings u).run (v, log) = (result, (v', log ++ [⟨u, bindings⟩])) :=
  run_noting (fun _ => [Call.mk u bindings]) log h

theorem Worker.Plain.listed {f : Preparing} (h : worker.Plain f) : worker.listed.Plain f where
  prepare bindings u := by
    have hprepare := congrArg (Recast.noting fun _ => ([] : List Pending)) (h.prepare bindings u)
    exact hprepare.trans (noting_pure _)
  discard pending := by
    have hdiscard := congrArg (Recast.noting fun _ => ([] : List Pending)) (h.discard pending)
    exact hdiscard.trans (noting_pure _)

end Batch

end Recast
