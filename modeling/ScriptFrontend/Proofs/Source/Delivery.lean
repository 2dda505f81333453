import ScriptFrontend.Source.Basic

set_option autoImplicit false

namespace ScriptFrontend.Source

variable {σ α ε : Type} [Source σ α ε]

/-- `R` relates sources to the items they still have. The item read last can be put back, and behind
the last one every read meets the end. -/
structure Delivery (R : σ → List α → Prop) : Prop where
  item : ∀ {s : σ} {a : α} {l : List α}, R s (a :: l) →
    ∃ t, read s = .ok (some a) t ∧ R t l ∧ R (unread a t) (a :: l)
  stop : ∀ {s : σ}, R s [] → ∃ t, read s = .ok none t ∧ R t []

/-- The source gives exactly these items, and then the end of the input for ever. -/
def Delivers (s : σ) (l : List α) : Prop :=
  ∃ R : σ → List α → Prop, Delivery R ∧ R s l

namespace Delivers

theorem item {s : σ} {a : α} {l : List α} (h : Delivers s (a :: l)) :
    ∃ t, read s = .ok (some a) t ∧ Delivers t l ∧ Delivers (unread a t) (a :: l) := by
  obtain ⟨R, hR, hs⟩ := h
  obtain ⟨t, hr, ht, hu⟩ := hR.item hs
  exact ⟨t, hr, ⟨R, hR, ht⟩, ⟨R, hR, hu⟩⟩

theorem stop {s : σ} (h : Delivers s []) : ∃ t, read s = .ok none t ∧ Delivers t [] := by
  obtain ⟨R, hR, hs⟩ := h
  obtain ⟨t, hr, ht⟩ := hR.stop hs
  exact ⟨t, hr, ⟨R, hR, ht⟩⟩

end Delivers

end ScriptFrontend.Source

namespace ScriptFrontend.Feed

variable {α ε : Type}

theorem delivers_ofList (l : List α) : Source.Delivers (ofList l : Feed α ε) l := by
  refine ⟨fun s l => s = ofList l, ⟨?_, ?_⟩, rfl⟩
  · intro s a l hs
    subst hs
    exact ⟨ofList l, rfl, rfl, rfl⟩
  · intro s hs
    subst hs
    exact ⟨ofList [], rfl, rfl⟩

end ScriptFrontend.Feed
