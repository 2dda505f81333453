import ScriptFrontend.Proofs.Source.Recorded
import ScriptFrontend.Proofs.Token.Calls
import ScriptFrontend.Source.Decoder

/-! Tokens that are scanned when they are asked for.

The parser holds a scanner and has room for one token that it took back. That gives what the tokens
give that are scanned beforehand (`Lookahead.similar`).
-/

set_option autoImplicit false

namespace ScriptFrontend

structure Lookahead (σ : Type) where
  scanner : Scanner σ
  held : Option Token := none

namespace Scanner

variable {σ : Type} [Source σ Char InputError] {s t : Scanner σ}

theorem feed_true {token : Token} (h : s.advance = (true, t))
    (ht : t.phase = .scanning (some token)) : s.feed.events = .item token :: t.feed.events := by
  simp [feed, run_true h, current?, ht]

theorem feed_false (h : s.advance = (false, t)) : s.feed.events = t.error?.toList.map .fail := by
  simp [feed, run_false h]

omit [Source σ Char InputError] in
theorem pending_of_ended (h : ¬s.Scanning) (ho : s.owed = none) : s.pending = 0 := by
  obtain ⟨head, phase⟩ := s
  cases phase with
  | scanning last => exact absurd ⟨last, rfl⟩ h
  | finished => rfl
  | failed e => cases ho
  | reported e => rfl

theorem owed_of_advance (h : s.advance = (false, t)) (ho : s.owed = s.error?) :
    t.owed = t.error? := by
  by_cases hs : s.Scanning
  · exact (ended_of_advance h).2 hs
  · cases h.symm.trans (advance_of_ended hs)
    exact ho

end Scanner

namespace Lookahead

open Scanner

variable {σ : Type} [Source σ Char InputError]

def read (l : Lookahead σ) : EStateM.Result LexError (Lookahead σ) (Option Token) :=
  match l.held with
  | some token => .ok (some token) { l with held := none }
  | none =>
    match l.scanner.next with
    | (none, s) => .ok none ⟨s, none⟩
    | (some (.ok token), s) => .ok (some token) ⟨s, none⟩
    | (some (.error e), s) => .error e ⟨s, none⟩

def unread (token : Token) (l : Lookahead σ) : Lookahead σ :=
  { l with held := some token }

def size (l : Lookahead σ) : Nat :=
  l.scanner.pending * (l.scanner.size + 1) + if l.held.isSome then 1 else 0

/-- All that a read can do. Only the token that was taken back is given without the scanner. -/
inductive Reads (l : Lookahead σ) : EStateM.Result LexError (Lookahead σ) (Option Token) → Prop where
  | held {token : Token} : l.held = some token →
      Reads l (.ok (some token) { l with held := none })
  | token {token : Token} {t : Scanner σ} : l.held = none → l.scanner.advance = (true, t) →
      t.phase = .scanning (some token) → Reads l (.ok (some token) ⟨t, none⟩)
  | stop {t : Scanner σ} : l.held = none → l.scanner.advance = (false, t) → t.owed = none →
      Reads l (.ok none ⟨t.told, none⟩)
  | fail {t : Scanner σ} {e : LexError} : l.held = none → l.scanner.advance = (false, t) →
      t.owed = some e → Reads l (.error e ⟨t.told, none⟩)

theorem reads_read (l : Lookahead σ) : l.Reads l.read := by
  obtain ⟨s, _ | token⟩ := l
  · obtain ⟨token, t, ha, ht, hn⟩ | ⟨t, ha, hn⟩ := s.next_cases
    · simpa only [read, hn] using .token rfl ha ht
    · cases ho : t.owed with
      | none => simpa only [read, hn, ho, Option.map_none] using .stop rfl ha ho
      | some e => simpa only [read, hn, ho, Option.map_some] using .fail rfl ha ho
  · exact .held rfl

theorem reads_of_eq {l : Lookahead σ}
    {r : EStateM.Result LexError (Lookahead σ) (Option Token)} (h : l.read = r) : l.Reads r :=
  h ▸ l.reads_read

theorem size_of_read_token {l t : Lookahead σ} {token : Token} (h : l.read = .ok (some token) t) :
    t.size < l.size := by
  cases reads_of_eq h with
  | held hh => simp [size, hh]
  | token hh ha _ =>
    obtain ⟨hs, ht⟩ := pending_advance ha
    simp [size, hh, hs, ht, size_advance ha]

theorem size_told {l : Lookahead σ} {t : Scanner σ} (h : l.scanner.advance = (false, t)) :
    size ⟨t.told, none⟩ ≤ l.size := by
  have hp := pending_of_ended (told_of_ended (ended_of_advance h).1) (owed_told t)
  simp [size, hp]

theorem size_of_read_end {l t : Lookahead σ} (h : l.read = .ok none t) : t.size ≤ l.size := by
  cases reads_of_eq h with
  | stop _ ha _ => exact size_told ha

theorem size_of_read_fail {l t : Lookahead σ} {e : LexError} (h : l.read = .error e t) :
    t.size ≤ l.size := by
  cases reads_of_eq h with
  | fail _ ha _ => exact size_told ha

instance : Source (Lookahead σ) Token LexError where
  read := read
  unread := unread
  size := size
  size_item := size_of_read_token
  size_end := size_of_read_end
  size_fail := size_of_read_fail
  size_unread token l := by
    simp only [size, unread, Option.isSome_some, if_true]
    omega

theorem held_read {l t : Lookahead σ} {token : Token} (h : l.read = .ok (some token) t) :
    t.held = none := by
  cases reads_of_eq h <;> rfl

/-- The feed holds what the lookahead has still to give, and the error is not told yet. -/
structure Ahead (l : Lookahead σ) (f : Feed Token LexError) : Prop where
  events : f.events = l.held.toList.map .item ++ l.scanner.feed.events
  owed : l.scanner.owed = l.scanner.error?

/-- Tokens that are scanned when they are asked for are the ones that are scanned beforehand. -/
theorem similar :
    Source.Similar (Ahead : Lookahead σ → Feed Token LexError → Prop) fun _ _ => True where
  weaken _ := trivial
  item {l l' f token} ha h := by
    obtain ⟨events⟩ := f
    obtain ⟨rfl, ho⟩ := ha
    cases reads_of_eq h with
    | held hh =>
      rw [hh]
      exact ⟨⟨l.scanner.feed.events⟩, rfl, ⟨rfl, ho⟩, rfl, ho⟩
    | @token _ t hh hs ht =>
      have ho : t.owed = t.error? := by simp [owed, error?, ht]
      rw [hh, feed_true hs ht]
      exact ⟨t.feed, rfl, ⟨rfl, ho⟩, rfl, ho⟩
  stop {l l' f} ha h := by
    obtain ⟨events⟩ := f
    obtain ⟨rfl, ho⟩ := ha
    cases reads_of_eq h with
    | @stop t hh hs hn =>
      have he : t.error? = none := (owed_of_advance hs ho).symm.trans hn
      have htold := feed_false (advance_of_ended (told_of_ended (ended_of_advance hs).1))
      rw [hh, feed_false hs, he]
      exact ⟨⟨[]⟩, rfl, by simp [htold, he], by simp [he]⟩
  fail {l l' f e} ha h := by
    obtain ⟨events⟩ := f
    obtain ⟨rfl, ho⟩ := ha
    cases reads_of_eq h with
    | @fail t _ hh hs he =>
      have he : t.error? = some e := (owed_of_advance hs ho).symm.trans he
      rw [hh, feed_false hs, he]
      exact ⟨⟨[]⟩, rfl, trivial⟩

theorem scanner_read (l : Lookahead σ) :
    ∃ calls, (Decoder.left l.read).scanner = l.scanner.after calls := by
  unfold read
  split
  · exact ⟨[], rfl⟩
  · refine ⟨[.next], ?_⟩
    split <;> simp [after, call, Decoder.left, *]

theorem keeps_after (s : Scanner σ) :
    Source.Keeps fun l : Lookahead σ => ∃ calls, l.scanner = s.after calls := by
  have hkeep {l : Lookahead σ} {r : EStateM.Result LexError (Lookahead σ) (Option Token)}
      (hl : ∃ calls, l.scanner = s.after calls) (h : l.read = r) :
      ∃ calls, (Decoder.left r).scanner = s.after calls := by
    obtain ⟨calls, hl⟩ := hl
    obtain ⟨more, hm⟩ := l.scanner_read
    exact ⟨calls ++ more, by rw [← h, hm, hl, after_append]⟩
  exact ⟨fun hl h => ⟨hkeep hl h, hkeep hl h⟩, hkeep, hkeep⟩

end Lookahead

end ScriptFrontend
