import ScriptFrontend.Proofs.Numeral.Digits
import ScriptFrontend.Proofs.Token.Stream

set_option autoImplicit false

namespace ScriptFrontend

open Longest

variable {σ : Type} [Source σ Char InputError]

namespace Scanner

/-- The next call gives the token of `lexeme`, and behind it the scan stands before `rest`. -/
def Yields (s : Scanner σ) (before lexeme rest : List Char) (kind : Kind) (value : Value) : Prop :=
  ∃ t : Scanner σ, s.advance = (true, t) ∧ t.current? = some ⟨.behind before, kind, value⟩ ∧
    t.Stands kind.continuesStatement (before ++ lexeme) rest

/-- The next call gives no token but fails for this cause. -/
def Refuses (s : Scanner σ) (cause : LexCause) : Prop :=
  ∃ t : Scanner σ, s.advance = (false, t) ∧ t.error?.map (·.cause) = some cause

variable {s : Scanner σ} {continues : Bool} {before cs : List Char} {c : Char}

theorem yields_lexeme {kind : Kind} {value : Value} (hm : c ≠ '#') (hb : Text.isBlank c = false)
    (hd : decode c (tail c cs).1 = some (kind, value))
    (hs : s.Stands continues before (c :: cs)) :
    s.Yields before (c :: (tail c cs).1) (tail c cs).2 kind value := by
  obtain ⟨last, hp, rfl⟩ := hs.scanning
  obtain ⟨t, hbt, ht⟩ := Token.scan_lexeme (Scanner.continues last) hm hb hs.between
  rw [← tail_append c cs] at hbt
  obtain ⟨u, hu, hbu⟩ := Lexeme.takes_lexeme (.behind before) _ hd t hbt
  rw [hu] at ht
  refine ⟨⟨u, .scanning (some ⟨.behind before, kind, value⟩)⟩, ?_, rfl, ⟨_, rfl, rfl⟩, ?_⟩
  · simp [advance, hp, ht]
  · simpa using hbu

theorem refuses_flaw {used : List Char} {cause : LexCause} (hm : c ≠ '#')
    (hb : Text.isBlank c = false) (hf : Flaw c cs used cause)
    (hs : s.Stands continues before (c :: cs)) : s.Refuses cause := by
  obtain ⟨last, hp, rfl⟩ := hs.scanning
  obtain ⟨t, hbt, ht⟩ := Token.scan_lexeme (Scanner.continues last) hm hb hs.between
  obtain ⟨u, hu⟩ := Lexeme.fails_flaw (.behind before) (before ++ [c]) hf t hbt
  rw [hu] at ht
  refine ⟨⟨u, .failed ⟨cause, some (Cursor.after (before ++ [c] ++ used)).last⟩⟩, ?_, rfl⟩
  simp [advance, hp, ht]

theorem not_refuses_of_yields {lexeme rest : List Char} {kind : Kind} {value : Value}
    {cause : LexCause} (hy : s.Yields before lexeme rest kind value) : ¬s.Refuses cause := by
  obtain ⟨t, ht, -⟩ := hy
  intro hr
  obtain ⟨u, hu, -⟩ := hr
  rw [ht] at hu
  cases hu

section Number

theorem form_of_isDigit (h : c.isDigit) :
    Form.of c = .number ∧ c ≠ '#' ∧ Text.isBlank c = false :=
  Numeral.of_isDigit
    (P := fun c => Form.of c = .number ∧ c ≠ '#' ∧ Text.isBlank c = false) (by decide +kernel) h

theorem ne_point_of_isDigit (h : c.isDigit) : c ≠ '.' := by
  rintro rfl
  exact absurd h (by decide)

variable (hc : c.isDigit) (hs : s.Stands continues before (c :: cs))

include hc hs

theorem yields_number {kind : Kind} {value : Value}
    (hd : decodeNumber (c :: (numberTail cs).1) = .ok (kind, value)) :
    s.Yields before (c :: (numberTail cs).1) (numberTail cs).2 kind value := by
  obtain ⟨hf, hm, hb⟩ := form_of_isDigit hc
  have ht : tail c cs = numberTail cs := by simp [tail, hf]
  have h : decode c (tail c cs).1 = some (kind, value) := by
    simp [decode, hf, ht, hd, Except.toOption]
  simpa [ht] using yields_lexeme hm hb h hs

theorem refuses_number {fault : Numeral.Fault}
    (hd : decodeNumber (c :: (numberTail cs).1) = .error fault) :
    s.Refuses (.malformedNumber (String.ofList (c :: (numberTail cs).1)) fault.message) := by
  obtain ⟨hf, hm, hb⟩ := form_of_isDigit hc
  exact refuses_flaw hm hb (.number hf hd) hs

end Number

end Scanner

end ScriptFrontend
