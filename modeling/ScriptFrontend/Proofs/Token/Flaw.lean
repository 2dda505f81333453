import ScriptFrontend.Proofs.Token.Readers

/-! What is wrong with a lexeme that has no meaning.

The cause, and how much of the text was read when it showed, depend on the lexeme and on what follows
it, and on nothing that stands before it. The readers fail for the same cause at the character that
was read last (`fails_flaw`).
-/

set_option autoImplicit false

namespace ScriptFrontend

namespace Longest

/-- A string literal goes wrong for a cause that shows when so much of the text behind its opening
quote was read. -/
inductive StringFlaw : List Char → List Char → LexCause → Prop where
  | cut {cs : List Char} : CutShort cs → StringFlaw cs cs .unterminatedString
  | wrong {p rest : List Char} {c : Char} : WrongEscape p c →
      StringFlaw (p ++ rest) p (.invalidEscape (String.ofList ['\\', 'x', c]))
  | piece {p cs used : List Char} {c : Char} {cause : LexCause} : Spells '"' p c →
      StringFlaw cs used cause → StringFlaw (p ++ cs) (p ++ used) cause

inductive CharacterFlaw : List Char → List Char → LexCause → Prop where
  | empty (rest : List Char) : CharacterFlaw ('\'' :: rest) ['\''] .emptyChar
  | cut {cs : List Char} : CutShort cs → CharacterFlaw cs cs .unterminatedChar
  | wrong {p rest : List Char} {c : Char} : WrongEscape p c →
      CharacterFlaw (p ++ rest) p (.invalidEscape (String.ofList ['\\', 'x', c]))
  | unclosed {p : List Char} {c : Char} : Spells '\'' p c → CharacterFlaw p p .unterminatedChar
  | long {p rest : List Char} {c d : Char} : Spells '\'' p c → d ≠ '\'' →
      CharacterFlaw (p ++ d :: rest) (p ++ [d]) .charTooLong

/-- What is wrong with the lexeme that starts with `first` before `cs`, and how much of `cs` was
read when it showed. -/
inductive Flaw (first : Char) (cs : List Char) : List Char → LexCause → Prop where
  | string {used : List Char} {cause : LexCause} : Form.of first = .string →
      StringFlaw cs used cause → Flaw first cs used cause
  | character {used : List Char} {cause : LexCause} : Form.of first = .character →
      CharacterFlaw cs used cause → Flaw first cs used cause
  | number {fault : Numeral.Fault} : Form.of first = .number →
      decodeNumber (first :: (numberTail cs).1) = .error fault →
      Flaw first cs (numberTail cs).1
        (.malformedNumber (String.ofList (first :: (numberTail cs).1)) fault.message)
  | sign : Form.of first = .sign →
      Symbol.ofSpelling? (String.ofList (first :: (signTail first cs).1)) = none →
      Flaw first cs [] (.unexpectedChar first)

variable {cs : List Char}

theorem exists_stringFlaw (hu : unquote '"' (quotedTail '"' cs).1 = none) :
    ∃ used cause, StringFlaw cs used cause := by
  induction cs using quoted_induction '"' with
  | close rest =>
    rw [quotedTail_close delimits_string, unquote_close delimits_string] at hu
    cases hu
  | piece p c rest hp ih =>
    rw [quotedTail_piece delimits_string hp, unquote_piece hp, Option.map_eq_none_iff] at hu
    obtain ⟨used, cause, hf⟩ := ih hu
    exact ⟨p ++ used, cause, .piece hp hf⟩
  | cut cs hc => exact ⟨cs, _, .cut hc⟩
  | wrong p c rest hw => exact ⟨p, _, .wrong hw⟩

theorem exists_characterFlaw (hu : ∀ c, unquote '\'' (quotedTail '\'' cs).1 ≠ some [c]) :
    ∃ used cause, CharacterFlaw cs used cause := by
  obtain ⟨rest, rfl⟩ | ⟨p, c, rest, hp, rfl⟩ | hc | ⟨p, c, rest, hw, rfl⟩ := quoted_cases '\'' cs
  · exact ⟨_, _, .empty rest⟩
  · cases rest with
    | nil => exact ⟨p, _, by simpa using CharacterFlaw.unclosed hp⟩
    | cons d rest =>
      have hd : d ≠ '\'' := by
        intro hd
        subst hd
        refine hu c ?_
        rw [quotedTail_piece delimits_character hp, quotedTail_close delimits_character,
          unquote_piece hp, unquote_close delimits_character]
        rfl
      exact ⟨_, _, .long hp hd⟩
  · exact ⟨cs, _, .cut hc⟩
  · exact ⟨p, _, .wrong hw⟩

theorem exists_flaw {first : Char} (hd : decode first (tail first cs).1 = none) :
    ∃ used cause, Flaw first cs used cause := by
  unfold tail decode at hd
  cases hf : Form.of first with
  | word => simp [hf] at hd
  | string =>
    obtain rfl := Lexeme.eq_of_form_string hf
    simp only [hf, Option.map_eq_none_iff] at hd
    obtain ⟨used, cause, h⟩ := exists_stringFlaw hd
    exact ⟨used, cause, .string hf h⟩
  | character =>
    obtain rfl := Lexeme.eq_of_form_character hf
    simp only [hf] at hd
    have hone : ∀ c, unquote '\'' (quotedTail '\'' cs).1 ≠ some [c] := by
      intro c hu
      simp [hu] at hd
    obtain ⟨used, cause, h⟩ := exists_characterFlaw hone
    exact ⟨used, cause, .character hf h⟩
  | number =>
    simp only [hf] at hd
    cases hn : decodeNumber (first :: (numberTail cs).1) with
    | error fault => exact ⟨_, _, .number hf hn⟩
    | ok meaning => simp [hn, Except.toOption] at hd
  | sign =>
    simp only [hf, Option.map_eq_none_iff] at hd
    exact ⟨[], _, .sign hf hd⟩

end Longest

open Longest

variable {σ : Type} [Source σ Char InputError]

namespace Lexeme

variable {cs used : List Char} {cause : LexCause}

theorem fails_stringBody (taken before : List Char) (hf : StringFlaw cs used cause) :
    Fails (stringBody taken : Lex σ (List Char)) before cs
      ⟨cause, some (Cursor.after (before ++ used)).last⟩ := by
  rw [stringBody_eq]
  induction hf generalizing taken before with
  | cut hc => exact .bind_right (List.append_nil _) (takes_cut '"' before hc) (.fail _)
  | wrong hw => exact .bind (fails_wrong before _ hw)
  | @piece p cs used c cause hp _ ih =>
    have hrest := ih (c :: taken) (before ++ p)
    rw [← stringBody_eq, List.append_assoc] at hrest
    exact .bind_right rfl (takes_piece before cs hp) hrest

theorem fails_character (start : Position) (before : List Char)
    (hf : CharacterFlaw cs used cause) :
    Fails (character start : Lex σ Token) before cs
      ⟨cause, some (Cursor.after (before ++ used)).last⟩ := by
  cases hf with
  | empty rest => exact .bind_right rfl (takes_close before rest delimits_character) (.fail _)
  | cut hc => exact .bind_right (List.append_nil cs) (takes_cut '\'' before hc) (.fail _)
  | wrong hw => exact .bind (fails_wrong before _ hw)
  | unclosed hp =>
    rw [← List.append_nil (before ++ cs)]
    exact .bind_right (List.append_nil cs) (takes_piece before [] hp)
      (.bind_right rfl Takes.read_end (.fail _))
  | @long p rest c d hp hd =>
    rw [← List.append_assoc]
    refine .bind_right rfl (takes_piece before (d :: rest) hp) (.read_bind ?_)
    split
    · simp_all
    · exact .fail _
    · contradiction

/-- A lexeme with a flaw is refused for it, at the character that was read last. -/
theorem fails_flaw {first : Char} (start : Position) (before : List Char)
    (hf : Flaw first cs used cause) :
    Fails (Lexeme.read start first : Lex σ Token) before cs
      ⟨cause, some (Cursor.after (before ++ used)).last⟩ := by
  rw [read_eq_form]
  cases hf with
  | string hform hf =>
    rw [hform]
    exact .bind (fails_stringBody [] before hf)
  | character hform hf =>
    rw [hform]
    exact fails_character start before hf
  | number hform hd =>
    rw [hform]
    exact fails_number start before (ne_point_of_form_number hform) hd
  | sign hform hs =>
    rw [hform, List.append_nil]
    exact fails_sign start before hs

end Lexeme

end ScriptFrontend
