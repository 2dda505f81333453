import ScriptFrontend.Proofs.Source.Recorded
import ScriptFrontend.Proofs.Source.Replay
import ScriptFrontend.Source.Decoder

/-! What readers cost.

A measure of the source falls with every item that is read, and rises again where the item is taken
back. What a reader adds to the measure is the sum of what its steps add (`Adds.bind`). Such measures
count the calls that are made (`metered_effort`) and the items that are used up (`metered_items`).
-/

set_option autoImplicit false

namespace ScriptFrontend

def Capped {ε ς α : Type} (m : ς → Int) (level : Int) (result : α → Int) (failure : Int) :
    EStateM.Result ε ς α → Prop
  | .ok a t => m t ≤ level + result a
  | .error _ t => m t ≤ level + failure

/-- The step adds no more to the measure than is said for its result, or for its failure. -/
def Adds {ε ς α : Type} (m : ς → Int) (result : α → Int) (failure : Int) (x : EStateM ε ς α) :
    Prop :=
  ∀ ⦃h⦄, Capped m (m h) result failure (x h)

section Adds

variable {ε ς α β : Type} {m : ς → Int} {level level' : Int} {result result' : α → Int}
  {failure failure' : Int} {x : EStateM ε ς α}

theorem Capped.mono {r : EStateM.Result ε ς α} (h : Capped m level result failure r)
    (hr : ∀ a, level + result a ≤ level' + result' a)
    (hf : level + failure ≤ level' + failure') : Capped m level' result' failure' r := by
  cases r with
  | ok a t => exact Int.le_trans h (hr a)
  | error e t => exact Int.le_trans h hf

theorem Capped.lift {r : EStateM.Result ε ς α} (h : Capped m level result failure r)
    (hl : level ≤ level') : Capped m level' result failure r :=
  h.mono (fun _ => Int.add_le_add_right hl _) (Int.add_le_add_right hl _)

theorem Capped.left {bound : Int} {r : EStateM.Result ε ς α}
    (h : Capped m level (fun _ => bound) bound r) : m (Decoder.left r) ≤ level + bound := by
  cases r <;> exact h

theorem Adds.capped (hx : Adds m result failure x) (h : ς) :
    Capped m (m h) result failure (x h) :=
  @hx h

theorem Adds.ok {h t : ς} {a : α} (hx : Adds m result failure x) (ht : x h = .ok a t) :
    m t ≤ m h + result a := by
  have hr := hx.capped h
  rwa [ht] at hr

theorem Adds.error {h t : ς} {e : ε} (hx : Adds m result failure x) (ht : x h = .error e t) :
    m t ≤ m h + failure := by
  have hr := hx.capped h
  rwa [ht] at hr

theorem Adds.pure {a : α} (ha : 0 ≤ result a) :
    Adds m result failure (Pure.pure a : EStateM ε ς α) := by
  intro h
  change m h ≤ m h + result a
  omega

theorem Adds.mono (hx : Adds m result failure x) (hr : ∀ a, result a ≤ result' a)
    (hf : failure ≤ failure') : Adds m result' failure' x :=
  fun h => (hx.capped h).mono (fun a => Int.add_le_add_left (hr a) _) (Int.add_le_add_left hf _)

/-- What is left for the second step is what the first one did not add. -/
theorem Adds.bind {final : β → Int} {f : α → EStateM ε ς β} (hx : Adds m result failure x)
    (hf : ∀ a, Adds m (fun b => final b - result a) (failure' - result a) (f a))
    (hle : failure ≤ failure') : Adds m final failure' (x >>= f) := by
  intro h
  simp only [Bind.bind, EStateM.bind]
  cases ht : x h with
  | error e t =>
    have := hx.error ht
    change m t ≤ m h + failure'
    omega
  | ok a t =>
    have := hx.ok ht
    dsimp only
    exact ((hf a).capped t).mono (fun b => by omega) (by omega)

end Adds

namespace Source

variable {σ α ε : Type} [Source σ α ε]

def price (item stop : Int) : Option α → Int
  | some _ => -item
  | none => stop

/-- An item that is read takes `item` off the measure. One that is read and taken back adds at most
`back` to it, and an end or a failure at most `stop`. -/
structure Metered (m : σ → Int) (item back stop : Int) : Prop where
  of_item : ∀ {s t a}, read s = .ok (some a) t → m t + item ≤ m s ∧ m (unread a t) ≤ m s + back
  of_stop : ∀ {s t}, read s = .ok none t → m t ≤ m s + stop
  of_fail : ∀ {s t e}, read s = .error e t → m t ≤ m s + stop
  order : 0 ≤ stop ∧ stop ≤ back ∧ back ≤ item

end Source

namespace Recorded

variable {σ α ε : Type} [Source σ α ε]

/-- The calls so far, and three more for all that can still be read: an item is read, taken back and
read again. -/
def effort (r : Recorded σ α ε) : Int :=
  r.calls.length + 3 * Source.size r

theorem effort_start (source : σ) :
    (start source : Recorded σ α ε).effort = 3 * Source.size source :=
  Int.zero_add _

theorem calls_le_effort (r : Recorded σ α ε) : r.calls.length ≤ r.effort := by
  unfold effort
  omega

theorem metered_effort : Source.Metered (effort : Recorded σ α ε → Int) 2 2 1 where
  of_item {r t a} h := by
    have hsize := Source.size_item h
    have hback := Source.size_unread a t
    obtain ⟨s, -, rfl⟩ := read_ok h
    have hcalls : (Source.unread a (⟨s, r.calls ++ [.read r.source (.ok (some a))]⟩ :
        Recorded σ α ε)).calls.length = r.calls.length + 2 := by
      change (r.calls ++ _ ++ _).length = _
      simp
    unfold effort
    rw [hcalls, List.length_append, List.length_singleton]
    omega
  of_stop {r t} h := by
    have hsize := Source.size_end h
    obtain ⟨s, -, rfl⟩ := read_ok h
    simp only [effort, List.length_append, List.length_singleton]
    omega
  of_fail {r t e} h := by
    have hsize := Source.size_fail h
    obtain ⟨s, -, rfl⟩ := read_error h
    simp only [effort, List.length_append, List.length_singleton]
    omega
  order := by decide

theorem metered {m : σ → Int} {item back stop : Int} (hm : Source.Metered m item back stop) :
    Source.Metered (fun r : Recorded σ α ε => m r.source) item back stop where
  of_item h := by
    obtain ⟨s, hs, rfl⟩ := read_ok h
    exact hm.of_item hs
  of_stop h := by
    obtain ⟨s, hs, rfl⟩ := read_ok h
    exact hm.of_stop hs
  of_fail h := by
    obtain ⟨s, hs, rfl⟩ := read_error h
    exact hm.of_fail hs
  order := hm.order

end Recorded

namespace Feed

variable {α ε : Type}

theorem metered_items :
    Source.Metered (fun s : Feed α ε => (s.items.length : Int)) 1 0 0 where
  of_item {s t a} h := by
    obtain ⟨_ | ⟨_ | _ | _, later⟩⟩ := s <;> cases h
    simp [items_item]
  of_stop {s t} h := by
    obtain ⟨_ | ⟨_ | _ | _, later⟩⟩ := s <;> cases h
    all_goals simp [items, List.filterMap_cons, Event.item?]
  of_fail {s t e} h := by
    obtain ⟨_ | ⟨_ | _ | _, later⟩⟩ := s <;> cases h
    simp [items, List.filterMap_cons, Event.item?]
  order := by decide

end Feed

end ScriptFrontend
