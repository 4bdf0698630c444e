-- The lines of a run. On a stream that takes every text, a unit that is
-- emitted or dropped adds the lines of all its problems, and preparing
-- adds them only for a unit that does not come through. A store and a
-- destination that leave the page alone add nothing.
import Recast.Proofs.Unit

namespace Recast

variable {W τ α : Type}

/-! ## Lines -/

/-- The line of a problem, with its end. -/
def Problem.fullLine (p : Problem) : String := p.text ++ "\n"

/-- The lines of some problems, one after the other. -/
def linesText (ps : List Problem) : String := String.join (ps.map Problem.fullLine)

theorem linesText_append (ps qs : List Problem) :
    linesText (ps ++ qs) = linesText ps ++ linesText qs := by
  unfold linesText
  rw [List.map_append, String.join_append]

theorem join_linePieces (ps : List Problem) : String.join (linePieces ps) = linesText ps := by
  induction ps with
  | nil => rfl
  | cons p ps ih =>
    have hcons : linePieces (p :: ps) = (p.pieces ++ ["\n"]) ++ linePieces ps := rfl
    have hline : String.join (p.pieces ++ ["\n"]) = p.fullLine := by
      rw [String.join_append]
      rfl
    rw [hcons, String.join_append, hline, ih]
    unfold linesText
    rw [List.map_cons, String.join_cons]

theorem length_linesText_perm {ps qs : List Problem} (h : ps.Perm qs) :
    (linesText ps).length = (linesText qs).length := by
  unfold linesText
  rw [String.length_join, String.length_join]
  exact ((h.map _).map _).sum_nat

/-- Every line has at least its end. -/
theorem length_le_linesText (ps : List Problem) : ps.length ≤ (linesText ps).length := by
  unfold linesText
  rw [String.length_join]
  induction ps with
  | nil => simp
  | cons p ps ih =>
    have hline : p.fullLine.length = p.text.length + 1 := by
      unfold Problem.fullLine
      rw [String.length_append]
      rfl
    simp only [List.map_cons, List.sum_cons, List.length_cons]
    omega

/-! ## Streams that take every text -/

/-- The stream takes every text. -/
def TextStream.Accepts (stream : TextStream (StateM W)) : Prop :=
  ∀ s w, ((stream.write s).run.run w).1 = .ok ()

theorem TextStream.Accepts.put {stream : TextStream (StateM W)} (h : stream.Accepts) (s : String)
    (w : W) : ((stream.put s).run.run w).1 = .ok () := by
  unfold TextStream.put
  split
  · rfl
  · exact h s w

/-- The stream takes every text and puts it behind what it holds. -/
structure TextStream.Keeps (stream : TextStream (StateM W)) (text : W → String) : Prop where
  accepts : stream.Accepts
  appends : ∀ s w, text ((stream.write s).run.run w).2 = text w ++ s
  flush : ∀ w, text (stream.flush.run.run w).2 = text w

/-- A stream whose state is all that was written. -/
def TextStream.buffer : TextStream (StateM String) where
  write s := modifyThe String (· ++ s)
  flush := pure ()

theorem TextStream.buffer_keeps : TextStream.buffer.Keeps id where
  accepts _ _ := rfl
  appends _ _ := rfl
  flush _ := rfl

namespace TextStream.Keeps

variable {stream : TextStream (StateM W)} {text : W → String} (h : stream.Keeps text)
include h

theorem put (s : String) (w : W) :
    ∃ w', (stream.put s).run.run w = (.ok (), w') ∧ text w' = text w ++ s := by
  unfold TextStream.put
  split
  · rename_i hs
    rw [String.isEmpty_iff] at hs
    exact ⟨w, rfl, by simp [hs]⟩
  · exact ⟨_, Prod.ext (h.accepts s w) rfl, h.appends s w⟩

theorem putAll (pieces : List String) (w : W) :
    ∃ w', (stream.putAll pieces).run.run w = (.ok (), w') ∧
      text w' = text w ++ String.join pieces := by
  induction pieces generalizing w with
  | nil => exact ⟨w, rfl, by simp⟩
  | cons s rest ih =>
    obtain ⟨w₁, hput, htext⟩ := h.put s w
    obtain ⟨w', hrest, htext'⟩ := ih w₁
    refine ⟨w', ?_, ?_⟩
    · unfold TextStream.putAll
      rw [attempt_bind_of_ok hput]
      exact hrest
    · rw [htext', htext, String.join_cons, String.append_assoc]

/-- Writing problems adds their lines. -/
theorem putLines (ps : List Problem) (w : W) :
    text ((stream.putLines ps).run w).2 = text w ++ linesText ps := by
  obtain ⟨w', hput, htext⟩ := h.putAll (linePieces ps) w
  unfold TextStream.putLines
  split
  · rename_i hps
    rw [List.isEmpty_iff] at hps
    subst hps
    exact (String.append_empty).symm
  · rw [ExceptT.run_bind, bind_assoc, run_bind_of hput]
    rw [← join_linePieces, ← htext]
    exact h.flush w'

end TextStream.Keeps

/-! ## The lines of a unit -/

/-- The stream keeps its lines as a text that the store and the destination
leave alone. -/
structure Setup.LinesOn (setup : Setup (StateM W)) (dest : Destination (StateM W))
    (text : W → String) : Prop where
  keeps : setup.sink.stream.Keeps text
  store : setup.sink.store.Leaves text
  dest : dest.Leaves text

/-- The lines that are written when a unit is prepared. -/
def Setup.linesAtOnce {m : Type → Type} (setup : Setup m) (bindings : Bindings) (u : SourceUnit) :
    Batch.Prepared × Bindings → List Problem
  | (.ok _, _) => []
  | (.error _, _) => setup.recorded bindings u

namespace Setup.LinesOn

variable {setup : Setup (StateM W)} {dest : Destination (StateM W)} {text : W → String}
  (h : setup.LinesOn dest text) {s : String}
include h

theorem writeLines (ps : List Problem) :
    Ensures (text · = s) (setup.sink.writeLines ps) fun _ => (text · = s ++ linesText ps) := by
  rintro w rfl
  exact h.keeps.putLines ps w

theorem finish (d : Diagnostics) :
    Ensures (text · = s) (d.finish setup.sink).run fun _ => (text · = s ++ linesText d.problems) :=
  d.finish_keeps (h.writeLines d.problems) (fun unit w hw => (h.store.clear unit w).trans hw)
    fun unit marker w hw => (h.store.add unit marker w).trans hw

/-- Emitting a unit writes its lines, and nothing else. -/
theorem emit (pending : Pending) :
    Ensures (text · = s) (setup.emit dest pending).run
      fun _ => (text · = s ++ linesText pending.diagnostics.problems) :=
  Setup.emit_keeps (h.finish pending.diagnostics) fun unit t w hw => (h.dest unit t w).trans hw

/-- Dropping a unit writes its lines too. -/
theorem discard (pending : Pending) :
    Ensures (text · = s) (setup.discard pending)
      fun _ => (text · = s ++ linesText pending.diagnostics.problems) :=
  (h.writeLines pending.diagnostics.problems).bind fun _ => Ensures.pure fun _ hw => hw

/-- Preparing a unit writes its lines if it does not come through. -/
theorem prepare (bindings : Bindings) (u : SourceUnit) :
    Ensures (text · = s) (setup.prepare bindings u) fun result w =>
      result = setup.prepared bindings u ∧
        match result.1 with
        | .ok _ => text w = s
        | .error _ => text w = s ++ linesText (setup.recorded bindings u) := by
  rw [Setup.prepare_eq]
  cases hp : (setup.prepared bindings u).1 with
  | ok pending =>
    refine Ensures.bind (S := fun _ => (text · = s)) (Ensures.pure fun _ hw => hw) ?_
    intro _
    refine Ensures.pure fun w hw => ⟨rfl, ?_⟩
    rw [hp]
    exact hw
  | error e =>
    refine (h.writeLines _).bind ?_
    intro _
    refine Ensures.pure fun w hw => ⟨rfl, ?_⟩
    rw [hp]
    exact hw

/-- The lines that preparing a unit writes are all its lines, or none. -/
theorem prepare_text (bindings : Bindings) (u : SourceUnit) (w : W) :
    text ((setup.prepare bindings u).run w).2 =
      text w ++ linesText (setup.linesAtOnce bindings u ((setup.prepare bindings u).run w).1) := by
  obtain ⟨_, htext⟩ := h.prepare bindings u w rfl
  rcases hrun : (setup.prepare bindings u).run w with ⟨⟨q, bound⟩, w'⟩
  rw [hrun] at htext
  cases q with
  | ok pending => exact htext.trans String.append_empty.symm
  | error e => exact htext

end Setup.LinesOn

/-! ## A block of lines -/

/-- The same is held in both states. Their texts have the same front, behind
which the second has a block that the first does not have, and then the same
lines. -/
def Inserted (held : W → τ) (text : W → String) (front block : String) (w w' : W) : Prop :=
  held w = held w' ∧ ∃ late : List Problem,
    text w = front ++ linesText late ∧ text w' = front ++ block ++ linesText late

theorem inserted_start {held : W → τ} {text : W → String} {front block : String} {w w' : W}
    (hheld : held w = held w') (htext : text w = front) (htext' : text w' = front ++ block) :
    Inserted held text front block w w' := by
  have hnone : linesText [] = "" := rfl
  exact ⟨hheld, [], by rw [htext, hnone, String.append_empty],
    by rw [htext', hnone, String.append_empty]⟩

/-- An action that writes its lines at the end keeps the block where it is. -/
theorem inserted_alike {held : W → τ} {text : W → String} {front block : String}
    {x : StateM W α} (hheld : GoesBy held x) (lines : α → List Problem)
    (htext : ∀ w, text (x.run w).2 = text w ++ linesText (lines (x.run w).1)) :
    Alike (Inserted held text front block) x x := by
  rintro w w' ⟨hsame, late, hw, hw'⟩
  obtain ⟨hequal, hends⟩ := hheld w w' hsame
  refine ⟨hequal, hends, late ++ lines (x.run w).1, ?_, ?_⟩
  · rw [htext, hw, linesText_append, String.append_assoc]
  · rw [htext, hw', ← hequal, linesText_append, String.append_assoc]

/-- A run keeps the block where it is. -/
theorem Setup.LinesOn.worker_inserted {setup : Setup (StateM W)} {dest : Destination (StateM W)}
    {held : W → τ} {text : W → String} (hlines : setup.LinesOn dest text)
    (hapart : setup.Separates dest held) (front block : String) :
    (setup.worker dest).Alike (Inserted held text front block) (setup.worker dest) where
  prepare bindings u := inserted_alike (hapart.worker_self.prepare bindings u)
    (setup.linesAtOnce bindings u) (hlines.prepare_text bindings u)
  emit pending := inserted_alike (hapart.worker_self.emit pending)
    (fun _ => pending.diagnostics.problems) fun w => hlines.emit pending w rfl
  discard pending := inserted_alike (hapart.worker_self.discard pending)
    (fun _ => pending.diagnostics.problems) fun w => hlines.discard pending w rfl

end Recast
