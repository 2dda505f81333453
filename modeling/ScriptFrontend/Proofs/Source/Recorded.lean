import ScriptFrontend.Source.Basic

/-! Sources that keep a record of the calls made on them.

A recorded source gives what the source in it gives (`Recorded.similar`). So a run over it is the
run over that source, and afterwards the record tells what was called, and in which order.
-/

set_option autoImplicit false

namespace ScriptFrontend

variable {σ τ α ε : Type}

namespace Source

inductive Call (σ α ε : Type) where
  | read (on : σ) (reply : Except ε (Option α))
  | unread (on : σ) (item : α)

/-- No item is taken back but by the call right behind the read that gave it. -/
def Disciplined [Source σ α ε] (calls : List (Call σ α ε)) : Prop :=
  ∀ before on a after, calls = before ++ .unread on a :: after →
    ∃ earlier s, before = earlier ++ [.read s (.ok (some a))] ∧ Source.read s = .ok (some a) on

section Disciplined

variable [Source σ α ε] {calls : List (Call σ α ε)}

theorem disciplined_nil : Disciplined ([] : List (Call σ α ε)) := by
  intro before on a after h
  simp at h

theorem Disciplined.snoc {call : Call σ α ε} (h : Disciplined calls)
    (hc : ∀ on a, call = .unread on a →
      ∃ earlier s, calls = earlier ++ [.read s (.ok (some a))] ∧
        Source.read s = .ok (some a) on) : Disciplined (calls ++ [call]) := by
  intro before on a after he
  obtain rfl | ⟨after, last, rfl⟩ := List.eq_nil_or_concat after
  · obtain ⟨rfl, hlast⟩ := List.append_inj' he rfl
    exact hc on a (List.cons.inj hlast).1
  · rw [List.concat_eq_append, ← List.cons_append, ← List.append_assoc] at he
    obtain ⟨rfl, -⟩ := List.append_inj' he rfl
    exact h _ _ _ _ rfl

theorem Disciplined.read (h : Disciplined calls) (on : σ) (reply : Except ε (Option α)) :
    Disciplined (calls ++ [.read on reply]) :=
  h.snoc fun _ _ he => by cases he

theorem Disciplined.unread {s t : σ} {a : α} (h : Disciplined calls)
    (hr : Source.read s = .ok (some a) t) :
    Disciplined (calls ++ [.read s (.ok (some a))] ++ [.unread t a]) := by
  refine (h.read _ _).snoc fun on b he => ?_
  cases he
  exact ⟨calls, s, rfl, hr⟩

theorem Disciplined.read_of_unread {on : σ} {a : α} (h : Disciplined calls)
    (hm : .unread on a ∈ calls) : ∃ s, Source.read s = .ok (some a) on := by
  obtain ⟨before, after, rfl⟩ := List.append_of_mem hm
  obtain ⟨-, s, -, hr⟩ := h _ _ _ _ rfl
  exact ⟨s, hr⟩

end Disciplined

/-- Related sources do the same, and stay related, also when the item is taken back. Behind a
failure less may be true of them. -/
structure Similar [Source σ α ε] [Source τ α ε] (R E : σ → τ → Prop) : Prop where
  weaken : ∀ {s t}, R s t → E s t
  item : ∀ {s s' t a}, R s t → read s = .ok (some a) s' →
    ∃ t', read t = .ok (some a) t' ∧ R s' t' ∧ R (unread a s') (unread a t')
  stop : ∀ {s s' t}, R s t → read s = .ok none s' → ∃ t', read t = .ok none t' ∧ R s' t'
  fail : ∀ {s s' t e}, R s t → read s = .error e s' → ∃ t', read t = .error e t' ∧ E s' t'

/-- What stays true of a source, whatever is done with it. -/
structure Keeps [Source σ α ε] (P : σ → Prop) : Prop where
  item : ∀ {s t a}, P s → read s = .ok (some a) t → P t ∧ P (unread a t)
  stop : ∀ {s t}, P s → read s = .ok none t → P t
  fail : ∀ {s t e}, P s → read s = .error e t → P t

theorem Keeps.similar [Source σ α ε] {P : σ → Prop} (hP : Keeps P) :
    Similar (fun s t : σ => s = t ∧ P s) (fun s t : σ => s = t ∧ P s) where
  weaken := id
  item hr h := by
    obtain ⟨rfl, hs⟩ := hr
    obtain ⟨ht, hback⟩ := hP.item hs h
    exact ⟨_, h, ⟨rfl, ht⟩, rfl, hback⟩
  stop hr h := by
    obtain ⟨rfl, hs⟩ := hr
    exact ⟨_, h, rfl, hP.stop hs h⟩
  fail hr h := by
    obtain ⟨rfl, hs⟩ := hr
    exact ⟨_, h, rfl, hP.fail hs h⟩

end Source

structure Recorded (σ α ε : Type) where
  source : σ
  calls : List (Source.Call σ α ε) := []

namespace Recorded

def start (source : σ) : Recorded σ α ε :=
  { source }

variable [Source σ α ε]

def read (r : Recorded σ α ε) : EStateM.Result ε (Recorded σ α ε) (Option α) :=
  match Source.read r.source with
  | .ok a s => .ok a ⟨s, r.calls ++ [.read r.source (.ok a)]⟩
  | .error e s => .error e ⟨s, r.calls ++ [.read r.source (.error e)]⟩

def unread (a : α) (r : Recorded σ α ε) : Recorded σ α ε :=
  ⟨Source.unread a r.source, r.calls ++ [.unread r.source a]⟩

theorem read_ok {r t : Recorded σ α ε} {a : Option α} (h : r.read = .ok a t) :
    ∃ s, Source.read r.source = .ok a s ∧ t = ⟨s, r.calls ++ [.read r.source (.ok a)]⟩ := by
  unfold read at h
  split at h <;> cases h
  exact ⟨_, ‹_›, rfl⟩

theorem read_error {r t : Recorded σ α ε} {e : ε} (h : r.read = .error e t) :
    ∃ s, Source.read r.source = .error e s ∧ t = ⟨s, r.calls ++ [.read r.source (.error e)]⟩ := by
  unfold read at h
  split at h <;> cases h
  exact ⟨_, ‹_›, rfl⟩

instance : Source (Recorded σ α ε) α ε where
  read := read
  unread := unread
  size r := Source.size r.source
  size_item h := by
    obtain ⟨s, hs, rfl⟩ := read_ok h
    exact Source.size_item hs
  size_end h := by
    obtain ⟨s, hs, rfl⟩ := read_ok h
    exact Source.size_end hs
  size_fail h := by
    obtain ⟨s, hs, rfl⟩ := read_error h
    exact Source.size_fail hs
  size_unread a r := Source.size_unread a r.source

/-- The recorded source stands where the other one does, and its record is in order. -/
structure Beside (r : Recorded σ α ε) (s : σ) : Prop where
  source : r.source = s
  disciplined : Source.Disciplined r.calls

theorem beside_start (s : σ) : (start s : Recorded σ α ε).Beside s :=
  ⟨rfl, Source.disciplined_nil⟩

theorem similar :
    Source.Similar (Beside : Recorded σ α ε → σ → Prop) (Beside : Recorded σ α ε → σ → Prop) where
  weaken := id
  item hb h := by
    obtain ⟨rfl, hd⟩ := hb
    obtain ⟨s, hs, rfl⟩ := read_ok h
    exact ⟨s, hs, ⟨rfl, hd.read _ _⟩, rfl, hd.unread hs⟩
  stop hb h := by
    obtain ⟨rfl, hd⟩ := hb
    obtain ⟨s, hs, rfl⟩ := read_ok h
    exact ⟨s, hs, rfl, hd.read _ _⟩
  fail hb h := by
    obtain ⟨rfl, hd⟩ := hb
    obtain ⟨s, hs, rfl⟩ := read_error h
    exact ⟨s, hs, rfl, hd.read _ _⟩

theorem keeps {P : σ → Prop} (hP : Source.Keeps P) :
    Source.Keeps fun r : Recorded σ α ε => P r.source where
  item hr h := by
    obtain ⟨s, hs, rfl⟩ := read_ok h
    exact hP.item hr hs
  stop hr h := by
    obtain ⟨s, hs, rfl⟩ := read_ok h
    exact hP.stop hr hs
  fail hr h := by
    obtain ⟨s, hs, rfl⟩ := read_error h
    exact hP.fail hr hs

end Recorded

end ScriptFrontend
