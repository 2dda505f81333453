set_option autoImplicit false

namespace ScriptFrontend

/-- Where the step succeeds, it leaves no more than it found. -/
def Shrinks {ε σ α : Type} (size : σ → Nat) (x : EStateM ε σ α) : Prop :=
  ∀ ⦃s t : σ⦄ ⦃a : α⦄, x s = .ok a t → size t ≤ size s

namespace Shrinks

variable {ε σ α β : Type} {size : σ → Nat}

theorem pure (a : α) : Shrinks size (pure a : EStateM ε σ α) := by
  intro s t b hb
  simp only [Pure.pure, EStateM.pure, EStateM.Result.ok.injEq] at hb
  simp [hb.2]

theorem bind {x : EStateM ε σ α} {f : α → EStateM ε σ β} (hx : Shrinks size x)
    (hf : ∀ a, Shrinks size (f a)) : Shrinks size (x >>= f) := by
  intro s t b hb
  simp only [Bind.bind, EStateM.bind] at hb
  split at hb
  · rename_i a u hu
    exact Nat.le_trans (hf a hb) (hx hu)
  · simp at hb

end Shrinks

end ScriptFrontend
