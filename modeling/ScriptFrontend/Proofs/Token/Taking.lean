import ScriptFrontend.Proofs.Source.Delivery
import ScriptFrontend.Proofs.Token.Place

/-! What readers take from a text.

A head stands between the part of a text that was read and the part that is still to come. A reader
is described by the piece it takes there and by its result, or by the error it fails with. A
character that is taken back is part of no piece.
-/

set_option autoImplicit false

namespace ScriptFrontend

variable {σ α β : Type} [Source σ Char InputError]

structure Head.Between (h : Head σ) (before after : List Char) : Prop where
  cursor : h.cursor = .after before
  source : Source.Delivers h.source after

namespace Head.Between

variable {h : Head σ} {before after : List Char}

theorem start {source : σ} {text : List Char} (hd : Source.Delivers source text) :
    Head.Between { source } [] text :=
  ⟨rfl, hd⟩

theorem read_end (hb : h.Between before []) : ∃ t, read h = .ok none t ∧ t.Between before [] := by
  obtain ⟨s, hr, hs⟩ := hb.source.stop
  exact ⟨{ h with source := s }, by simp [read, hr], ⟨hb.cursor, hs⟩⟩

theorem read_item {c : Char} (hb : h.Between before (c :: after)) :
    ∃ t, read h = .ok (some c) t ∧ t.Between (before ++ [c]) after ∧
      (t.unread c h.cursor).Between before (c :: after) := by
  obtain ⟨s, hr, hs, hu⟩ := hb.source.item
  have hk : h.cursor.step c = .after (before ++ [c]) := by rw [Cursor.after_snoc, hb.cursor]
  exact ⟨⟨s, h.cursor.step c⟩, by simp [read, hr], ⟨hk, hs⟩, ⟨hb.cursor, hu⟩⟩

theorem last_snoc {c : Char} (hb : h.Between (before ++ [c]) after) :
    h.cursor.last = .behind before := by
  rw [hb.cursor, Cursor.last_snoc]

end Head.Between

/-- Behind `before` the reader takes `used`, leaves `after` and gives `a`. -/
def Takes (x : Lex σ α) (before used after : List Char) (a : α) : Prop :=
  ∀ h : Head σ, h.Between before (used ++ after) →
    ∃ t, x h = .ok a t ∧ t.Between (before ++ used) after

/-- Behind `before`, with `after` to come, the reader fails with `e`. -/
def Fails (x : Lex σ α) (before after : List Char) (e : LexError) : Prop :=
  ∀ h : Head σ, h.Between before after → ∃ t, x h = .error e t

namespace Takes

variable {before used more after : List Char} {x : Lex σ α} {f : α → Lex σ β} {a : α} {b : β}

theorem pure (a : α) : Takes (Pure.pure a : Lex σ α) before [] after a := by
  intro h hb
  exact ⟨h, rfl, by simpa using hb⟩

theorem bind (hx : Takes x before used (more ++ after) a)
    (hf : Takes (f a) (before ++ used) more after b) :
    Takes (x >>= f) before (used ++ more) after b := by
  intro h hb
  rw [List.append_assoc] at hb
  obtain ⟨t, ht, hbt⟩ := hx h hb
  obtain ⟨v, hv, hbv⟩ := hf t hbt
  refine ⟨v, ?_, by simpa using hbv⟩
  simp only [Bind.bind, EStateM.bind, ht, hv]

theorem bind_nil (hx : Takes x before used after a) (hf : Takes (f a) (before ++ used) [] after b) :
    Takes (x >>= f) before used after b := by
  have h : Takes (x >>= f) before (used ++ []) after b := hx.bind hf
  simpa using h

theorem read (c : Char) : Takes (Head.read : Lex σ (Option Char)) before [c] after (some c) := by
  intro h hb
  obtain ⟨t, hr, ht, -⟩ := hb.read_item
  exact ⟨t, hr, ht⟩

theorem read_end : Takes (Head.read : Lex σ (Option Char)) before [] [] none := by
  intro h hb
  obtain ⟨t, hr, ht⟩ := hb.read_end
  exact ⟨t, hr, by simpa using ht⟩

end Takes

namespace Fails

variable {before used after : List Char} {x : Lex σ α} {f : α → Lex σ β} {a : α} {e : LexError}

theorem fail (cause : LexCause) :
    Fails (Head.fail cause : Lex σ α) before after ⟨cause, some (Cursor.after before).last⟩ := by
  intro h hb
  exact ⟨h, by rw [Head.fail, hb.cursor]⟩

theorem bind (hx : Fails x before after e) : Fails (x >>= f) before after e := by
  intro h hb
  obtain ⟨t, ht⟩ := hx h hb
  exact ⟨t, by simp only [Bind.bind, EStateM.bind, ht]⟩

theorem bind_right {cs : List Char} (hc : used ++ after = cs) (hx : Takes x before used after a)
    (hf : Fails (f a) (before ++ used) after e) : Fails (x >>= f) before cs e := by
  subst hc
  intro h hb
  obtain ⟨t, ht, hbt⟩ := hx h hb
  obtain ⟨v, hv⟩ := hf t hbt
  exact ⟨v, by simp only [Bind.bind, EStateM.bind, ht, hv]⟩

theorem read_bind {c : Char} {f : Option Char → Lex σ β}
    (hf : Fails (f (some c)) (before ++ [c]) after e) :
    Fails (Head.read >>= f) before (c :: after) e :=
  bind_right rfl (Takes.read c) hf

end Fails

end ScriptFrontend
