-- Actions on a state: what an action ensures, and when two actions on two
-- states are alike. Both carry over to actions that go on from one
-- another, and to attempts, which a failure ends.
import Recast.Batch

namespace Recast

variable {V W α β ε : Type} {R : V → W → Prop}

/-- An action goes on from what the one before it gave. -/
theorem run_bind_of {x : StateM W α} {f : α → StateM W β} {a : α} {w w' : W}
    (h : x.run w = (a, w')) : (x >>= f).run w = (f a).run w' := by
  rw [StateT.run_bind, h]
  rfl

/-- Behind a step that succeeds, an attempt goes on. -/
theorem attempt_bind_of_ok {x : Attempt (StateM W) ε α} {f : α → Attempt (StateM W) ε β} {a : α}
    {w w' : W} (h : x.run.run w = (.ok a, w')) : (x >>= f).run.run w = (f a).run.run w' := by
  rw [ExceptT.run_bind]
  exact run_bind_of h

/-- A step that fails ends an attempt. -/
theorem attempt_bind_of_error {x : Attempt (StateM W) ε α} {f : α → Attempt (StateM W) ε β} {e : ε}
    {w w' : W} (h : x.run.run w = (.error e, w')) : (x >>= f).run.run w = (.error e, w') := by
  rw [ExceptT.run_bind]
  exact run_bind_of h

/-- An attempt that succeeds has succeeded step by step. -/
theorem attempt_bind_ok {x : Attempt (StateM W) ε α} {f : α → Attempt (StateM W) ε β} {b : β}
    {w w' : W} (h : (x >>= f).run.run w = (.ok b, w')) :
    ∃ a w₁, x.run.run w = (.ok a, w₁) ∧ (f a).run.run w₁ = (.ok b, w') := by
  rcases hx : x.run.run w with ⟨a | a, w₁⟩
  · rw [attempt_bind_of_error hx] at h
    cases h
  · rw [attempt_bind_of_ok hx] at h
    exact ⟨a, w₁, rfl, h⟩

/-- An attempt that fails has failed at its first step or behind it. -/
theorem attempt_bind_error {x : Attempt (StateM W) ε α} {f : α → Attempt (StateM W) ε β} {e : ε}
    {w w' : W} (h : (x >>= f).run.run w = (.error e, w')) :
    x.run.run w = (.error e, w') ∨
      ∃ a w₁, x.run.run w = (.ok a, w₁) ∧ (f a).run.run w₁ = (.error e, w') := by
  rcases hx : x.run.run w with ⟨a | a, w₁⟩
  · rw [attempt_bind_of_error hx] at h
    cases h
    exact Or.inl rfl
  · rw [attempt_bind_of_ok hx] at h
    exact Or.inr ⟨a, w₁, rfl, h⟩

theorem attempt_adapt_error {ε' : Type} {x : Attempt (StateM W) ε α} {f : ε → ε'} {e : ε'}
    {w w' : W} (h : (ExceptT.adapt f x).run.run w = (.error e, w')) :
    ∃ cause, e = f cause ∧ x.run.run w = (.error cause, w') := by
  rw [ExceptT.run_adapt, map_eq_pure_bind] at h
  rcases hx : x.run.run w with ⟨a | a, w₁⟩
  · rw [run_bind_of hx] at h
    cases h
    exact ⟨a, rfl, rfl⟩
  · rw [run_bind_of hx] at h
    cases h

theorem attempt_adapt_ok {ε' : Type} {x : Attempt (StateM W) ε α} {f : ε → ε'} {a : α}
    {w w' : W} (h : (ExceptT.adapt f x).run.run w = (.ok a, w')) :
    x.run.run w = (.ok a, w') := by
  rw [ExceptT.run_adapt, map_eq_pure_bind] at h
  rcases hx : x.run.run w with ⟨b | b, w₁⟩
  · rw [run_bind_of hx] at h
    cases h
  · rw [run_bind_of hx] at h
    cases h
    rfl

theorem attempt_adapt_of_ok {ε' : Type} {x : Attempt (StateM W) ε α} {a : α} {w w' : W}
    (h : x.run.run w = (.ok a, w')) (f : ε → ε') :
    (ExceptT.adapt f x).run.run w = (.ok a, w') := by
  rw [ExceptT.run_adapt, map_eq_pure_bind, run_bind_of h]
  rfl

/-! ## What an action ensures -/

/-- From every state with `P`, the action gives a result and a state with
`Q`. -/
def Ensures (P : W → Prop) (x : StateM W α) (Q : α → W → Prop) : Prop :=
  ∀ w, P w → Q (x.run w).1 (x.run w).2

namespace Ensures

variable {P : W → Prop} {Q : β → W → Prop}

theorem pure {Q : α → W → Prop} {a : α} (h : ∀ w, P w → Q a w) : Ensures P (Pure.pure a) Q := h

theorem weaken {x : StateM W α} {Q Q' : α → W → Prop} (hx : Ensures P x Q)
    (h : ∀ a w, Q a w → Q' a w) : Ensures P x Q' := by
  intro w hw
  exact h _ _ (hx w hw)

theorem of_exists {ι : Type} {P : ι → W → Prop} {x : StateM W β}
    (h : ∀ i, Ensures (P i) x Q) : Ensures (fun w => ∃ i, P i w) x Q := by
  rintro w ⟨i, hw⟩
  exact h i w hw

theorem of_and {p : Prop} {x : StateM W β} (h : p → Ensures P x Q) :
    Ensures (fun w => p ∧ P w) x Q := by
  rintro w ⟨hp, hw⟩
  exact h hp w hw

theorem bind {x : StateM W α} {f : α → StateM W β} {S : α → W → Prop} (hx : Ensures P x S)
    (hf : ∀ a, Ensures (S a) (f a) Q) : Ensures P (x >>= f) Q := by
  intro w hw
  exact hf _ _ (hx w hw)

/-- What both steps of an attempt ensure holds wherever it ends. -/
theorem attempt_bind {x : Attempt (StateM W) ε α} {f : α → Attempt (StateM W) ε β}
    {Q : W → Prop} (hx : Ensures P x.run fun _ => Q) (hf : ∀ a, Ensures Q (f a).run fun _ => Q) :
    Ensures P (x >>= f).run fun _ => Q := by
  rw [ExceptT.run_bind]
  refine hx.bind ?_
  intro result
  cases result with
  | error e => exact Ensures.pure fun _ h => h
  | ok a => exact hf a

/-- Behind a step that succeeds, an attempt goes on. -/
theorem attempt_bind_ok {x : Attempt (StateM W) ε α} {f : α → Attempt (StateM W) ε β}
    {S : W → Prop} {Q : Except ε β → W → Prop}
    (hx : Ensures P x.run fun result w => result.isOk ∧ S w)
    (hf : ∀ a, Ensures S (f a).run Q) : Ensures P (x >>= f).run Q := by
  rw [ExceptT.run_bind]
  refine hx.bind ?_
  intro result
  refine Ensures.of_and fun hok => ?_
  cases result with
  | error e => cases hok
  | ok a => exact hf a

theorem adapt {ε' : Type} {x : Attempt (StateM W) ε α} {Q : W → Prop}
    (hx : Ensures P x.run fun _ => Q) (f : ε → ε') :
    Ensures P (ExceptT.adapt f x).run fun _ => Q := by
  rw [ExceptT.run_adapt, map_eq_pure_bind]
  exact hx.bind fun _ => Ensures.pure fun _ h => h

end Ensures

/-! ## Actions that are alike -/

/-- From states that `R` relates, both actions give the same and end in
states that `R` relates. -/
def Alike (R : V → W → Prop) (x : StateM V α) (y : StateM W α) : Prop :=
  ∀ v w, R v w → (x.run v).1 = (y.run w).1 ∧ R (x.run v).2 (y.run w).2

namespace Alike

theorem pure (a : α) : Alike R (Pure.pure a) (Pure.pure a) := by
  intro v w h
  exact ⟨rfl, h⟩

theorem bind {x : StateM V α} {y : StateM W α} {f : α → StateM V β} {g : α → StateM W β}
    (hx : Alike R x y) (hf : ∀ a, Alike R (f a) (g a)) : Alike R (x >>= f) (y >>= g) := by
  intro v w h
  obtain ⟨ha, hR⟩ := hx v w h
  have hfa := hf (x.run v).1 _ _ hR
  rw [ha] at hfa
  have hl : (x >>= f).run v = (f (y.run w).1).run (x.run v).2 := by rw [← ha]; rfl
  rw [hl]
  exact hfa

/-- Attempts are alike when they are alike as actions; a failure ends
both of them. -/
theorem attempt_bind {x : Attempt (StateM V) ε α} {y : Attempt (StateM W) ε α}
    {f : α → Attempt (StateM V) ε β} {g : α → Attempt (StateM W) ε β}
    (hx : Alike R x.run y.run) (hf : ∀ a, Alike R (f a).run (g a).run) :
    Alike R (x >>= f).run (y >>= g).run := by
  rw [ExceptT.run_bind, ExceptT.run_bind]
  apply hx.bind
  intro result
  cases result with
  | error e => exact Alike.pure _
  | ok a => exact hf a

theorem adapt {ε' : Type} {x : Attempt (StateM V) ε α} {y : Attempt (StateM W) ε α}
    (hx : Alike R x.run y.run) (f : ε → ε') :
    Alike R (ExceptT.adapt f x).run (ExceptT.adapt f y).run := by
  rw [ExceptT.run_adapt, ExceptT.run_adapt, map_eq_pure_bind, map_eq_pure_bind]
  exact hx.bind fun _ => Alike.pure _

end Alike

end Recast
