/-! Sources: streams of finitely many items that are read one at a time.

A read gives an item, the end of the input, or a failure, and a source may go on after an end or a
failure. Its `size` bounds how many items it can still give, and loops over a source end because of
it.
-/

set_option autoImplicit false

namespace ScriptFrontend

/-- A source `σ` of items `α` that can fail with `ε`, and that takes back the item read last. -/
class Source (σ : Type) (α ε : outParam Type) where
  read : σ → EStateM.Result ε σ (Option α)
  unread : α → σ → σ
  size : σ → Nat
  size_item : ∀ {s t : σ} {a : α}, read s = .ok (some a) t → size t < size s
  size_end : ∀ {s t : σ}, read s = .ok none t → size t ≤ size s
  size_fail : ∀ {s t : σ} {e : ε}, read s = .error e t → size t ≤ size s
  size_unread : ∀ (a : α) (s : σ), size (unread a s) ≤ size s + 1

namespace Source

/-- A source that does not fail for ever, so that all of it can be read. -/
class Drainable (σ : Type) {α ε : outParam Type} [Source σ α ε] : Prop where
  size_fail_lt : ∀ {s t : σ} {e : ε}, read s = .error e t → size t < size s

variable {σ α ε : Type} [Source σ α ε]

def drain [Drainable σ] (s : σ) : List (Except ε α) :=
  go s []
where
  go (s : σ) (earlier : List (Except ε α)) : List (Except ε α) :=
    match h : read s with
    | .ok none _ => earlier.reverse
    | .ok (some a) t =>
      have := size_item h
      go t (.ok a :: earlier)
    | .error e t =>
      have := Drainable.size_fail_lt h
      go t (.error e :: earlier)
  termination_by size s

end Source

inductive Event (α ε : Type) where
  | item (a : α)
  | stop
  | fail (error : ε)
deriving DecidableEq

/-- A source that replays events, and then stays at its end. -/
structure Feed (α ε : Type) where
  events : List (Event α ε)
deriving DecidableEq

namespace Feed

variable {α ε : Type}

def ofList (items : List α) : Feed α ε :=
  ⟨items.map .item⟩

def read : Feed α ε → EStateM.Result ε (Feed α ε) (Option α)
  | ⟨[]⟩ => .ok none ⟨[]⟩
  | ⟨.item a :: rest⟩ => .ok (some a) ⟨rest⟩
  | ⟨.stop :: rest⟩ => .ok none ⟨rest⟩
  | ⟨.fail e :: rest⟩ => .error e ⟨rest⟩

def unread (a : α) (s : Feed α ε) : Feed α ε :=
  ⟨.item a :: s.events⟩

theorem length_of_read_item {s t : Feed α ε} {a : α} (h : s.read = .ok (some a) t) :
    t.events.length < s.events.length := by
  rcases s with ⟨_ | ⟨_ | _ | _, rest⟩⟩ <;> simp [read] at h
  simp [← h.2]

theorem length_of_read_end {s t : Feed α ε} (h : s.read = .ok none t) :
    t.events.length ≤ s.events.length := by
  rcases s with ⟨_ | ⟨_ | _ | _, rest⟩⟩ <;> simp [read] at h
  all_goals simp [← h]

theorem length_of_read_fail {s t : Feed α ε} {e : ε} (h : s.read = .error e t) :
    t.events.length < s.events.length := by
  rcases s with ⟨_ | ⟨_ | _ | _, rest⟩⟩ <;> simp [read] at h
  simp [← h.2]

instance : Source (Feed α ε) α ε where
  read := read
  unread := unread
  size s := s.events.length
  size_item := length_of_read_item
  size_end := length_of_read_end
  size_fail h := Nat.le_of_lt (length_of_read_fail h)
  size_unread _ _ := by simp [unread]

instance : Source.Drainable (Feed α ε) where
  size_fail_lt := length_of_read_fail

@[simp]
theorem unread_mk (a : α) (events : List (Event α ε)) :
    Source.unread a (⟨events⟩ : Feed α ε) = ⟨.item a :: events⟩ := rfl

end Feed

end ScriptFrontend
