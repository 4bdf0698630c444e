-- Actions on a part of a state act on the whole of it. What is put together
-- from such actions is itself an action on the part: files that are written,
-- markers that are kept in a file, and texts that go to a stream.
import Recast.Proofs.Actions

namespace Recast

variable {V W α β ε : Type}

/-- How actions on `V` act on `W`. To do nothing stays to do nothing, and one
action after the other stays one after the other. -/
structure Lifting (V W : Type) where
  act : {α : Type} → StateM V α → StateM W α
  act_pure : ∀ {α : Type} (a : α), act (pure a) = pure a
  act_bind : ∀ {α β : Type} (x : StateM V α) (f : α → StateM V β),
    act (x >>= f) = act x >>= fun a => act (f a)

namespace Lifting

variable (lift : Lifting V W)

/-! ## Attempts -/

def attempt (x : Attempt (StateM V) ε α) : Attempt (StateM W) ε α := ExceptT.mk (lift.act x.run)

theorem attempt_pure (a : α) :
    lift.attempt (pure a : Attempt (StateM V) ε α) = pure a := lift.act_pure (Except.ok a)

/-- Attempts that go on from one another are lifted one by one. -/
theorem attempt_bind (x : Attempt (StateM V) ε α) (f : α → Attempt (StateM V) ε β) :
    lift.attempt (x >>= f) = lift.attempt x >>= fun a => lift.attempt (f a) := by
  have hcont : ∀ result : Except ε α, lift.act (ExceptT.bindCont f result) =
      ExceptT.bindCont (fun a => lift.attempt (f a)) result := by
    intro result
    cases result with
    | error e => exact lift.act_pure (Except.error e)
    | ok a => rfl
  have hbind := lift.act_bind x.run (ExceptT.bindCont f)
  rw [funext hcont] at hbind
  exact hbind

theorem attempt_adapt {ε' : Type} (x : Attempt (StateM V) ε α) (f : ε → ε') :
    lift.attempt (ExceptT.adapt f x) = ExceptT.adapt f (lift.attempt x) := by
  have hmap : lift.act (Except.mapError f <$> x.run) = Except.mapError f <$> lift.act x.run := by
    rw [map_eq_pure_bind, map_eq_pure_bind, lift.act_bind]
    congr 1
    funext result
    exact lift.act_pure _
  exact hmap

/-! ## Disks and streams -/

def disk (disk : Disk (StateM V)) : Disk (StateM W) where
  read p := lift.attempt (disk.read p)
  present p := lift.act (disk.present p)
  write p text := lift.attempt (disk.write p text)
  createDirs p := lift.attempt (disk.createDirs p)

def stream (stream : TextStream (StateM V)) : TextStream (StateM W) where
  write s := lift.attempt (stream.write s)
  flush := lift.attempt stream.flush

theorem stream_put (stream : TextStream (StateM V)) (s : String) :
    (lift.stream stream).put s = lift.attempt (stream.put s) := by
  unfold TextStream.put
  split
  · exact (lift.attempt_pure ()).symm
  · rfl

/-- A file is written on the part, and the directory around it made. -/
theorem disk_writeWithDirs (disk : Disk (StateM V)) (file : Path) (text : String) :
    (lift.disk disk).writeWithDirs file text = lift.attempt (disk.writeWithDirs file text) := by
  unfold Disk.writeWithDirs
  cases file.parent? with
  | none => rfl
  | some parent => exact (lift.attempt_bind _ _).symm

theorem disk_persist (disk : Disk (StateM V)) (file : Path) (markers : MarkerMap) :
    MarkerFile.persist (lift.disk disk) file markers =
      lift.attempt (MarkerFile.persist disk file markers) := by
  have hwrite : MarkerFile.write (lift.disk disk) file markers =
      lift.attempt (MarkerFile.write disk file markers) := by
    unfold MarkerFile.write
    cases file.parent? with
    | none => rfl
    | some parent =>
      dsimp only
      split
      · rfl
      · exact (lift.attempt_bind _ _).symm
  unfold MarkerFile.persist
  rw [hwrite, lift.attempt_adapt]

end Lifting

end Recast
