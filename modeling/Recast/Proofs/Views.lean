-- Views of a state. An action goes by a view if the view shows all that the
-- action looks at and changes there; it leaves a view alone if the view is the
-- same afterwards. If the lines of a run leave alone what its store and its
-- destination go by, the run can be told without its lines: it is the same run
-- with a stream that keeps nothing.
import Recast.Proofs.Alike

namespace Recast

variable {W D τ α β ε : Type}

/-- Two states look the same. -/
def SameIn (view : W → D) (w w' : W) : Prop := view w = view w'

/-- From states that look the same the action gives the same, and they look
the same afterwards. -/
def GoesBy (view : W → D) (x : StateM W α) : Prop := Alike (SameIn view) x x

/-- The action leaves the view alone. -/
def Leaves (view : W → D) (x : StateM W α) : Prop := ∀ w, view (x.run w).2 = view w

/-- An attempt leaves alone what each of its steps leaves alone. -/
theorem Leaves.attempt_bind {view : W → D} {x : Attempt (StateM W) ε α}
    {f : α → Attempt (StateM W) ε β} (hx : Leaves view x.run) (hf : ∀ a, Leaves view (f a).run) :
    Leaves view (x >>= f).run := by
  intro w
  have hfirst : Ensures (view · = view w) x.run fun _ => (view · = view w) :=
    fun w' hw => (hx w').trans hw
  exact hfirst.attempt_bind (fun a w' hw => (hf a w').trans hw) w rfl

/-! ## Streams, stores and destinations -/

/-- The view shows all that the stream goes by. -/
structure TextStream.GoesBy (stream : TextStream (StateM W)) (view : W → D) : Prop where
  write : ∀ s, Recast.GoesBy view (stream.write s).run
  flush : Recast.GoesBy view stream.flush.run

/-- The stream leaves the view alone. -/
structure TextStream.Leaves (stream : TextStream (StateM W)) (view : W → D) : Prop where
  write : ∀ s, Recast.Leaves view (stream.write s).run
  flush : Recast.Leaves view stream.flush.run

/-- The view shows all that the store goes by. -/
structure MarkerStore.GoesBy (store : MarkerStore (StateM W)) (view : W → D) : Prop where
  clear : ∀ unit, Recast.GoesBy view (store.clear unit).run
  add : ∀ unit marker, Recast.GoesBy view (store.add unit marker).run

/-- The store leaves the view alone. -/
structure MarkerStore.Leaves (store : MarkerStore (StateM W)) (view : W → D) : Prop where
  clear : ∀ unit, Recast.Leaves view (store.clear unit).run
  add : ∀ unit marker, Recast.Leaves view (store.add unit marker).run

/-- The view shows all that the destination goes by. -/
def Destination.GoesBy (dest : Destination (StateM W)) (view : W → D) : Prop :=
  ∀ unit text, Recast.GoesBy view (dest.write unit text).run

/-- The destination leaves the view alone. -/
def Destination.Leaves (dest : Destination (StateM W)) (view : W → D) : Prop :=
  ∀ unit text, Recast.Leaves view (dest.write unit text).run

theorem TextStream.GoesBy.alike {stream : TextStream (StateM W)} {view : W → D}
    (h : stream.GoesBy view) : stream.Alike (SameIn view) stream := ⟨h.write, h.flush⟩

namespace TextStream.Leaves

variable {stream : TextStream (StateM W)} {view : W → D} (h : stream.Leaves view)
include h

theorem put (s : String) : Recast.Leaves view (stream.put s).run := by
  intro w
  unfold TextStream.put
  split
  · rfl
  · exact h.write s w

theorem putAll (pieces : List String) : Recast.Leaves view (stream.putAll pieces).run := by
  induction pieces with
  | nil => exact fun _ => rfl
  | cons s rest ih => exact (h.put s).attempt_bind fun _ => ih

/-- Lines leave alone what every single text leaves alone. -/
theorem putLines (ps : List Problem) : Recast.Leaves view (stream.putLines ps) := by
  intro w
  unfold TextStream.putLines
  split
  · rfl
  · exact ((h.putAll (linePieces ps)).attempt_bind fun _ => h.flush) w

end TextStream.Leaves

/-! ## A stream that keeps nothing -/

def TextStream.nowhere [Monad m] : TextStream m where
  write _ := pure ()
  flush := pure ()

theorem TextStream.nowhere_leaves (view : W → D) :
    (TextStream.nowhere : TextStream (StateM W)).Leaves view where
  write _ _ := rfl
  flush _ := rfl

theorem MarkerStore.nowhere_leaves (view : W → D) :
    (MarkerStore.nowhere : MarkerStore (StateM W)).Leaves view where
  clear _ _ := rfl
  add _ _ _ := rfl

theorem TextStream.putAll_nowhere [Monad m] [LawfulMonad m] (pieces : List String) :
    (TextStream.nowhere (m := m)).putAll pieces = pure () := by
  induction pieces with
  | nil => rfl
  | cons s rest ih =>
    have hput : (TextStream.nowhere (m := m)).put s = pure () := by
      unfold TextStream.put
      split
      · rfl
      · rfl
    unfold TextStream.putAll
    rw [hput, ih, pure_bind]

theorem TextStream.putLines_nowhere [Monad m] [LawfulMonad m] (ps : List Problem) :
    (TextStream.nowhere (m := m)).putLines ps = pure () := by
  unfold TextStream.putLines
  split
  · rfl
  · rw [TextStream.putAll_nowhere]
    simp [TextStream.nowhere]

/-! ## The run without its lines -/

namespace Setup

/-- The setup with another stream for its lines. -/
def withStream {m : Type → Type} (setup : Setup m) (stream : TextStream m) : Setup m :=
  { setup with sink := { setup.sink with stream := stream } }

/-- The setup that writes no lines. -/
def quiet [Monad m] (setup : Setup m) : Setup m := setup.withStream .nowhere

@[simp] theorem writeLines_quiet [Monad m] [LawfulMonad m] (setup : Setup m)
    (ps : List Problem) : setup.quiet.sink.writeLines ps = pure () :=
  TextStream.putLines_nowhere ps

/-- The store and the destination go by what they hold, and the lines leave
that alone. -/
structure Separates (setup : Setup (StateM W)) (dest : Destination (StateM W)) (held : W → τ) :
    Prop where
  stream : setup.sink.stream.Leaves held
  store : setup.sink.store.GoesBy held
  dest : dest.GoesBy held

namespace Separates

variable {setup : Setup (StateM W)} {dest : Destination (StateM W)} {held : W → τ}
  (h : setup.Separates dest held) {stream : TextStream (StateM W)} (hstream : stream.Leaves held)
include h

include hstream in
/-- Where the lines go makes no difference to what is held. -/
theorem withStream : setup.Alike (SameIn held) (setup.withStream stream) := by
  refine ⟨rfl, rfl, Sink.alike_of_store rfl rfl ?_ h.store.clear h.store.add⟩
  intro ps w w' hsame
  exact ⟨rfl, ((h.stream.putLines ps w).trans hsame).trans (hstream.putLines ps w').symm⟩

theorem process (bindings : Bindings) (u : SourceUnit) :
    Recast.Alike (SameIn held) (setup.process dest bindings u)
      (setup.quiet.process dest bindings u) :=
  (h.withStream (TextStream.nowhere_leaves held)).process h.dest bindings u

/-- What is held goes through a run as if no line were written. -/
theorem worker_quiet : (setup.worker dest).Alike (SameIn held) (setup.quiet.worker dest) :=
  (h.withStream (TextStream.nowhere_leaves held)).worker h.dest

/-- A run comes out the same from states in which the same is held. -/
theorem worker_self : (setup.worker dest).Alike (SameIn held) (setup.worker dest) :=
  (h.withStream h.stream).worker h.dest

end Separates

end Setup

end Recast
