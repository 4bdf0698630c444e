-- What a program works on: the markers and the list of written files that it
-- keeps itself, and a machine, which has the disk and the streams. Actions on
-- the machine leave alone what the program keeps. In a world, a session is the
-- rest beside the page, and stores and destinations of the session stay what
-- they are there.
import Recast.Proofs.Lifting
import Recast.Proofs.World

namespace Recast

variable {δ σ τ α ε : Type}

/-- What a program has while it runs. -/
structure Session (δ : Type) where
  /-- The markers that the store in a file holds in memory. -/
  markers : MarkerMap
  /-- The files that were written so far. -/
  written : Written
  machine : δ

namespace Session

instance : MonadStateOf MarkerMap (StateM (Session δ)) where
  get := fun s => (s.markers, s)
  set markers := fun s => ((), { s with markers := markers })
  modifyGet f := fun s => ((f s.markers).1, { s with markers := (f s.markers).2 })

instance : MonadStateOf Written (StateM (Session δ)) where
  get := fun s => (s.written, s)
  set written := fun s => ((), { s with written := written })
  modifyGet f := fun s => ((f s.written).1, { s with written := (f s.written).2 })

/-! ## The machine of a session -/

/-- An action on the machine leaves alone what the program keeps. -/
def ofMachine : Lifting δ (Session δ) where
  act x := fun s => ((x.run s.machine).1, { s with machine := (x.run s.machine).2 })
  act_pure _ := rfl
  act_bind _ _ := rfl

theorem run_ofMachine {x : Attempt (StateM δ) ε α} {s : Session δ} {result : Except ε α} {d : δ}
    (h : x.run.run s.machine = (result, d)) :
    (ofMachine.attempt x).run.run s = (result, { s with machine := d }) := by
  have hrun : (ofMachine.attempt x).run.run s =
      ((x.run.run s.machine).1, { s with machine := (x.run.run s.machine).2 }) := rfl
  rw [hrun, h]

end Session

/-- A disk of the machine, for the program. -/
def Disk.onMachine (disk : Disk (StateM δ)) : Disk (StateM (Session δ)) :=
  Session.ofMachine.disk disk

def TextStream.onMachine (stream : TextStream (StateM δ)) : TextStream (StateM (Session δ)) :=
  Session.ofMachine.stream stream

/-! ## The rest of a world -/

/-- An action on the rest leaves the page alone. -/
def World.ofRest : Lifting τ (World σ τ) where
  act := World.onRest
  act_pure _ := rfl
  act_bind _ _ := rfl

def Disk.onRest (disk : Disk (StateM τ)) : Disk (StateM (World σ τ)) := World.ofRest.disk disk

def TextStream.onRest (stream : TextStream (StateM τ)) : TextStream (StateM (World σ τ)) :=
  World.ofRest.stream stream

/-- What is kept in the rest is kept in the world. -/
instance [MonadStateOf α (StateM τ)] : MonadStateOf α (StateM (World σ τ)) where
  get := World.onRest get
  set a := World.onRest (set a)
  modifyGet f := World.onRest (modifyGet f)

section

variable {S : Type} [MonadStateOf S (StateM τ)]

theorem World.get_ofRest :
    (getThe S : Attempt (StateM (World σ τ)) ε S) = World.ofRest.attempt (getThe S) := rfl

theorem World.set_ofRest (a : S) :
    (set a : Attempt (StateM (World σ τ)) ε PUnit) = World.ofRest.attempt (set a) := rfl

end

/-- The markers that are kept in a file of the rest are kept there alone. -/
theorem MarkerFile.store_onRest [MonadStateOf MarkerMap (StateM τ)] (disk : Disk (StateM τ))
    (file : Path) :
    store (disk.onRest : Disk (StateM (World σ τ))) file = (store disk file).onRest := by
  have hclear : ∀ unit, (store (disk.onRest : Disk (StateM (World σ τ))) file).clear unit =
      World.ofRest.attempt ((store disk file).clear unit) := by
    intro unit
    unfold store Disk.onRest
    dsimp only
    rw [World.ofRest.attempt_bind, World.get_ofRest]
    refine congrArg _ (funext fun markers => ?_)
    split
    · rw [World.ofRest.attempt_bind, World.set_ofRest, World.ofRest.disk_persist]
    · rfl
  have hadd : ∀ unit marker, (store (disk.onRest : Disk (StateM (World σ τ))) file).add unit marker =
      World.ofRest.attempt ((store disk file).add unit marker) := by
    intro unit marker
    unfold store Disk.onRest
    dsimp only
    rw [World.ofRest.attempt_bind, World.get_ofRest]
    refine congrArg _ (funext fun markers => ?_)
    rw [World.ofRest.attempt_bind, World.set_ofRest, World.ofRest.disk_persist]
  exact congr (congrArg MarkerStore.mk (funext hclear)) (funext fun unit => funext (hadd unit))

theorem Destination.stream_onRest (out : TextStream (StateM τ)) :
    Destination.stream (out.onRest : TextStream (StateM (World σ τ))) =
      (Destination.stream out).onRest := by
  have hwrite : ∀ (unit : TargetUnit) (text : String),
      (Destination.stream (out.onRest : TextStream (StateM (World σ τ)))).write unit text =
        World.ofRest.attempt ((Destination.stream out).write unit text) := by
    intro unit text
    unfold Destination.stream TextStream.onRest
    dsimp only
    rw [World.ofRest.attempt_bind, World.ofRest.stream_put]
    rfl
  exact congrArg Destination.mk (funext fun unit => funext (hwrite unit))

/-- Texts that go to a directory of the rest go nowhere else. -/
theorem Destination.directory_onRest [MonadStateOf Written (StateM τ)] (disk : Disk (StateM τ))
    (dir : OutputDir) :
    Destination.directory (disk.onRest : Disk (StateM (World σ τ))) dir =
      (Destination.directory disk dir).onRest := by
  have hwrite : ∀ (unit : TargetUnit) (text : String),
      (Destination.directory (disk.onRest : Disk (StateM (World σ τ))) dir).write unit text =
        World.ofRest.attempt ((Destination.directory disk dir).write unit text) := by
    intro unit text
    unfold Destination.directory Disk.onRest
    dsimp only
    rw [World.ofRest.attempt_bind, World.get_ofRest]
    refine congrArg _ (funext fun written => ?_)
    split
    · rfl
    · rw [World.ofRest.disk_writeWithDirs, World.ofRest.attempt_bind]
      rfl
  exact congrArg Destination.mk (funext fun unit => funext (hwrite unit))

end Recast
