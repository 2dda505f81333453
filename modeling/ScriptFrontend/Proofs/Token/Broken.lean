import ScriptFrontend.Proofs.Source.Delivery
import ScriptFrontend.Proofs.Source.Replay
import ScriptFrontend.Proofs.Token.Lockstep

/-! A scan of a text that breaks off, against a scan of the text that goes on.

A reader that gets its result before the first source fails has not read past the place where that
one breaks off. It gets the same result from a source that goes on there, in any way.
-/

set_option autoImplicit false

namespace ScriptFrontend

variable {σ τ : Type} [Source σ Char InputError] [Source τ Char InputError]

namespace Head

/-- The second head has `more` before it, behind all that the first one gets before it fails. -/
structure Outlasts (more : List Char) (h : Head σ) (g : Head τ) : Prop where
  cursor : h.cursor = g.cursor
  sources : ∃ (text : List Char) (e : InputError) (later : List (Event Char InputError)),
    Source.Replays h.source (text.map .item ++ .fail e :: later) ∧
      Source.Delivers g.source (text ++ more)

variable {more : List Char} {h t : Head σ} {g : Head τ}

theorem Outlasts.read_ne_end (hr : Outlasts more h g) : read h ≠ .ok none t := by
  intro ht
  obtain ⟨text, e, later, hs, -⟩ := hr.sources
  cases text with
  | nil =>
    obtain ⟨s, hf, -⟩ := hs.fail
    simp [read, hf] at ht
  | cons c text =>
    obtain ⟨s, hsr, -⟩ := hs.item
    simp [read, hsr] at ht

theorem Outlasts.read_item (hr : Outlasts more h g) {c : Char} (ht : read h = .ok (some c) t) :
    ∃ u : Head τ, read g = .ok (some c) u ∧ Outlasts more t u ∧
      ∀ k, Outlasts more (t.unread c k) (u.unread c k) := by
  obtain ⟨text, e, later, hs, hd⟩ := hr.sources
  cases text with
  | nil =>
    obtain ⟨s, hf, -⟩ := hs.fail
    simp [read, hf] at ht
  | cons d text =>
    obtain ⟨s, hsr, hs', hsu⟩ := hs.item
    obtain ⟨s', hdr, hd', hdu⟩ := hd.item
    simp only [read, hsr, EStateM.Result.ok.injEq, Option.some.injEq] at ht
    obtain ⟨rfl, rfl⟩ := ht
    refine ⟨⟨s', g.cursor.step d⟩, by simp [read, hdr], ?_, fun k => ?_⟩
    · exact ⟨congrArg (Cursor.step · d) hr.cursor, text, e, later, hs', hd'⟩
    · exact ⟨rfl, d :: text, e, later, hsu, hdu⟩

theorem Outlasts.lockstep : Lockstep (Outlasts (σ := σ) (τ := τ) more) where
  cursor hr := hr.cursor
  item {h g t c} hr ht := by
    obtain ⟨u, hu, htu, hback⟩ := hr.read_item ht
    exact ⟨u, hu, htu, hr.cursor ▸ hback h.cursor⟩
  stop hr ht := absurd ht hr.read_ne_end

end Head

namespace Scanner

structure Outlasts (more : List Char) (s : Scanner σ) (t : Scanner τ) : Prop where
  phase : s.phase = t.phase
  head : s.head.Outlasts more t.head

theorem Outlasts.run {more : List Char} {s : Scanner σ} {t : Scanner τ} (hr : s.Outlasts more t) :
    s.run.1 <+: t.run.1 :=
  (Abreast.run Head.Outlasts.lockstep ⟨hr.phase, hr.head⟩).1

end Scanner

end ScriptFrontend
