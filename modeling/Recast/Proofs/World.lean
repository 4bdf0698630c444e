-- A world in two parts: the page that takes the lines of diagnostics, and
-- the rest, where markers are stored and texts are written. In such a world
-- no line reaches what the store and the destination hold, and neither of
-- them reaches the page.
import Recast.Proofs.Lines

namespace Recast

variable {σ τ α : Type}

structure World (σ τ : Type) where
  /-- What the stream of lines holds. -/
  page : σ
  /-- What the store of markers and the destination hold. -/
  rest : τ

namespace World

/-- An action on the page alone. -/
def onPage (x : StateM σ α) : StateM (World σ τ) α :=
  fun w => ((x.run w.page).1, { w with page := (x.run w.page).2 })

/-- An action on the rest alone. -/
def onRest (x : StateM τ α) : StateM (World σ τ) α :=
  fun w => ((x.run w.rest).1, { w with rest := (x.run w.rest).2 })

theorem onRest_goesBy (x : StateM τ α) : GoesBy World.rest (onRest (σ := σ) x) := by
  intro w w' h
  exact ⟨congrArg (fun t => (x.run t).1) h, congrArg (fun t => (x.run t).2) h⟩

end World

/-! ## Streams, stores and destinations of one part -/

def TextStream.onPage (stream : TextStream (StateM σ)) : TextStream (StateM (World σ τ)) where
  write s := ExceptT.mk (World.onPage (stream.write s).run)
  flush := ExceptT.mk (World.onPage stream.flush.run)

def MarkerStore.onRest (store : MarkerStore (StateM τ)) : MarkerStore (StateM (World σ τ)) where
  clear unit := ExceptT.mk (World.onRest (store.clear unit).run)
  add unit marker := ExceptT.mk (World.onRest (store.add unit marker).run)

def Destination.onRest (dest : Destination (StateM τ)) : Destination (StateM (World σ τ)) where
  write unit text := ExceptT.mk (World.onRest (dest.write unit text).run)

theorem TextStream.onPage_leaves (stream : TextStream (StateM σ)) :
    (stream.onPage : TextStream (StateM (World σ τ))).Leaves World.rest where
  write _ _ := rfl
  flush _ := rfl

theorem TextStream.Accepts.onPage {stream : TextStream (StateM σ)} (h : stream.Accepts) :
    (stream.onPage : TextStream (StateM (World σ τ))).Accepts := fun s w => h s w.page

theorem TextStream.Keeps.onPage {stream : TextStream (StateM σ)} {text : σ → String}
    (h : stream.Keeps text) :
    (stream.onPage : TextStream (StateM (World σ τ))).Keeps fun w => text w.page where
  accepts s w := h.accepts s w.page
  appends s w := h.appends s w.page
  flush w := h.flush w.page

namespace World

/-- A setup whose lines go to the page and whose markers go to the rest. -/
def setup (config : RunConfig) (renderer : Renderer) (stream : TextStream (StateM σ))
    (store : MarkerStore (StateM τ)) : Setup (StateM (World σ τ)) :=
  ⟨config, renderer, config.sink stream.onPage store.onRest⟩

variable (config : RunConfig) (renderer : Renderer) {stream : TextStream (StateM σ)}
  (store : MarkerStore (StateM τ)) (dest : Destination (StateM τ))

theorem separates (stream : TextStream (StateM σ)) :
    (setup config renderer stream store).Separates dest.onRest World.rest where
  stream := stream.onPage_leaves
  store := ⟨fun _ => onRest_goesBy _, fun _ _ => onRest_goesBy _⟩
  dest _ _ := onRest_goesBy _

theorem linesOn {text : σ → String} (h : stream.Keeps text) :
    (setup config renderer stream store).LinesOn dest.onRest fun w => text w.page where
  keeps := h.onPage
  store := ⟨fun _ _ => rfl, fun _ _ _ => rfl⟩
  dest _ _ _ := rfl

end World

end Recast
