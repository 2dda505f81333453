import ScriptFrontend.Source.Basic

set_option autoImplicit false

namespace ScriptFrontend

variable {σ α ε : Type}

def Event.item? : Event α ε → Option α
  | item a => some a
  | _ => none

def Feed.items (s : Feed α ε) : List α :=
  s.events.filterMap Event.item?

theorem Feed.items_item (a : α) (later : List (Event α ε)) :
    (⟨.item a :: later⟩ : Feed α ε).items = a :: (⟨later⟩ : Feed α ε).items := rfl

theorem Event.eq_of_fail {items : List α} {e d : ε} {seen later rest : List (Event α ε)}
    (hf : ∀ d, .fail d ∉ seen)
    (h : items.map .item ++ .fail e :: later = seen ++ .fail d :: rest) :
    seen = items.map .item ∧ e = d := by
  induction items generalizing seen with
  | nil =>
    cases seen with
    | nil => simp_all
    | cons event seen =>
      obtain rfl : fail e = event := (List.cons.inj h).1
      exact absurd (List.mem_cons_self ..) (hf e)
  | cons a items ih =>
    cases seen with
    | nil => cases h
    | cons event seen =>
      obtain ⟨rfl, hrest⟩ := List.cons.inj h
      obtain ⟨rfl, he⟩ := ih (fun d hd => hf d (List.mem_cons_of_mem _ hd)) hrest
      exact ⟨rfl, he⟩

def Event.reply : Event α ε → Except ε (Option α)
  | item a => .ok (some a)
  | stop => .ok none
  | fail e => .error e

namespace Source

/-- What reads give where the events come one by one. Each flag says whether the item that was read
is put back at once, and then it comes again. -/
def expected : List (Event α ε) → List Bool → List (Except ε (Option α))
  | _, [] => []
  | [], _ :: backs => .ok none :: expected [] backs
  | .item a :: events, back :: backs =>
    .ok (some a) :: expected (if back then .item a :: events else events) backs
  | .stop :: events, _ :: backs => .ok none :: expected events backs
  | .fail e :: events, _ :: backs => .error e :: expected events backs

theorem expected_forever (n : Nat) :
    expected ([] : List (Event α ε)) (List.replicate n false) = List.replicate n (.ok none) := by
  induction n with
  | zero => rfl
  | succ n ih => simp [List.replicate_succ, expected, ih]

theorem expected_forward (events : List (Event α ε)) (n : Nat) :
    expected events (List.replicate (events.length + n) false) =
      events.map Event.reply ++ List.replicate n (.ok none) := by
  induction events with
  | nil => simpa using expected_forever n
  | cons event events ih =>
    have hl : (event :: events).length + n = events.length + n + 1 := by
      simp only [List.length_cons]
      omega
    rw [hl, List.replicate_succ]
    cases event <;> simp [expected, Event.reply, ih]

variable [Source σ α ε]

/-- Reads once for each flag, and puts the item back where the flag is set. -/
def replies (s : σ) : List Bool → List (Except ε (Option α))
  | [] => []
  | back :: backs =>
    match read s with
    | .ok none t => .ok none :: replies t backs
    | .ok (some a) t => .ok (some a) :: replies (if back then unread a t else t) backs
    | .error e t => .error e :: replies t backs

/-- `R` relates sources to the events they still have. The item read last can be put back, and
behind the last event every read meets the end. -/
structure Replay (R : σ → List (Event α ε) → Prop) : Prop where
  item : ∀ {s : σ} {a : α} {events : List (Event α ε)}, R s (.item a :: events) →
    ∃ t, read s = .ok (some a) t ∧ R t events ∧ R (unread a t) (.item a :: events)
  stop : ∀ {s : σ} {events : List (Event α ε)}, R s (.stop :: events) →
    ∃ t, read s = .ok none t ∧ R t events
  fail : ∀ {s : σ} {e : ε} {events : List (Event α ε)}, R s (.fail e :: events) →
    ∃ t, read s = .error e t ∧ R t events
  exhausted : ∀ {s : σ}, R s [] → ∃ t, read s = .ok none t ∧ R t []

/-- The source does exactly these things, and then meets the end of the input for ever. -/
def Replays (s : σ) (events : List (Event α ε)) : Prop :=
  ∃ R : σ → List (Event α ε) → Prop, Replay R ∧ R s events

namespace Replays

variable {s : σ} {a : α} {e : ε} {events : List (Event α ε)}

theorem item (h : Replays s (.item a :: events)) :
    ∃ t, read s = .ok (some a) t ∧ Replays t events ∧ Replays (unread a t) (.item a :: events) := by
  obtain ⟨R, hR, hs⟩ := h
  obtain ⟨t, hr, ht, hu⟩ := hR.item hs
  exact ⟨t, hr, ⟨R, hR, ht⟩, ⟨R, hR, hu⟩⟩

theorem stop (h : Replays s (.stop :: events)) :
    ∃ t, read s = .ok none t ∧ Replays t events := by
  obtain ⟨R, hR, hs⟩ := h
  obtain ⟨t, hr, ht⟩ := hR.stop hs
  exact ⟨t, hr, ⟨R, hR, ht⟩⟩

theorem fail (h : Replays s (.fail e :: events)) :
    ∃ t, read s = .error e t ∧ Replays t events := by
  obtain ⟨R, hR, hs⟩ := h
  obtain ⟨t, hr, ht⟩ := hR.fail hs
  exact ⟨t, hr, ⟨R, hR, ht⟩⟩

theorem exhausted (h : Replays s ([] : List (Event α ε))) :
    ∃ t, read s = .ok none t ∧ Replays t ([] : List (Event α ε)) := by
  obtain ⟨R, hR, hs⟩ := h
  obtain ⟨t, hr, ht⟩ := hR.exhausted hs
  exact ⟨t, hr, ⟨R, hR, ht⟩⟩

theorem of_item {t : σ} (h : Replays s events) (hr : read s = .ok (some a) t) :
    ∃ later, events = .item a :: later ∧ Replays t later ∧
      Replays (unread a t) (.item a :: later) := by
  match events, h with
  | [], h =>
    obtain ⟨u, hu, -⟩ := h.exhausted
    cases hu.symm.trans hr
  | .item b :: later, h =>
    obtain ⟨u, hu, hlater, hback⟩ := h.item
    cases hu.symm.trans hr
    exact ⟨later, rfl, hlater, hback⟩
  | .stop :: later, h =>
    obtain ⟨u, hu, -⟩ := h.stop
    cases hu.symm.trans hr
  | .fail d :: later, h =>
    obtain ⟨u, hu, -⟩ := h.fail
    cases hu.symm.trans hr

theorem of_stop {t : σ} (h : Replays s events) (hr : read s = .ok none t) :
    events = [] ∧ Replays t [] ∨ ∃ later, events = .stop :: later ∧ Replays t later := by
  match events, h with
  | [], h =>
    obtain ⟨u, hu, hlater⟩ := h.exhausted
    cases hu.symm.trans hr
    exact .inl ⟨rfl, hlater⟩
  | .item b :: later, h =>
    obtain ⟨u, hu, -⟩ := h.item
    cases hu.symm.trans hr
  | .stop :: later, h =>
    obtain ⟨u, hu, hlater⟩ := h.stop
    cases hu.symm.trans hr
    exact .inr ⟨later, rfl, hlater⟩
  | .fail d :: later, h =>
    obtain ⟨u, hu, -⟩ := h.fail
    cases hu.symm.trans hr

theorem of_fail {t : σ} (h : Replays s events) (hr : read s = .error e t) :
    ∃ later, events = .fail e :: later ∧ Replays t later := by
  match events, h with
  | [], h =>
    obtain ⟨u, hu, -⟩ := h.exhausted
    cases hu.symm.trans hr
  | .item b :: later, h =>
    obtain ⟨u, hu, -⟩ := h.item
    cases hu.symm.trans hr
  | .stop :: later, h =>
    obtain ⟨u, hu, -⟩ := h.stop
    cases hu.symm.trans hr
  | .fail d :: later, h =>
    obtain ⟨u, hu, hlater⟩ := h.fail
    cases hu.symm.trans hr
    exact ⟨later, rfl, hlater⟩

theorem replies_eq (h : Replays s events) (backs : List Bool) :
    replies s backs = expected events backs := by
  induction backs generalizing s events with
  | nil => simp [replies, expected]
  | cons back backs ih =>
    match events, h with
    | [], h =>
      obtain ⟨t, hr, ht⟩ := h.exhausted
      simp [replies, expected, hr, ih ht]
    | .item a :: events, h =>
      obtain ⟨t, hr, ht, hu⟩ := h.item
      have hnext : Replays (if back then unread a t else t)
          (if back then .item a :: events else events) := by
        cases back with
        | false => exact ht
        | true => exact hu
      simp [replies, expected, hr, ih hnext]
    | .stop :: events, h =>
      obtain ⟨t, hr, ht⟩ := h.stop
      simp [replies, expected, hr, ih ht]
    | .fail e :: events, h =>
      obtain ⟨t, hr, ht⟩ := h.fail
      simp [replies, expected, hr, ih ht]

end Replays

end Source

theorem Feed.replays (events : List (Event α ε)) :
    Source.Replays (⟨events⟩ : Feed α ε) events := by
  refine ⟨fun s l => s = ⟨l⟩, ⟨?_, ?_, ?_, ?_⟩, rfl⟩
  · rintro _ a l rfl
    exact ⟨⟨l⟩, rfl, rfl, rfl⟩
  · rintro _ l rfl
    exact ⟨⟨l⟩, rfl, rfl⟩
  · rintro _ e l rfl
    exact ⟨⟨l⟩, rfl, rfl⟩
  · rintro _ rfl
    exact ⟨⟨[]⟩, rfl, rfl⟩

end ScriptFrontend
