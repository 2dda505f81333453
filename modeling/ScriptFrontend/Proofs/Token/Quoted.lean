import ScriptFrontend.Proofs.Token.Longest
import ScriptFrontend.Proofs.Token.Taking

/-! Quoted literals piece by piece.

At any point of a quoted text there stands the delimiter, or a piece that spells one character, or
the text ends, or an escape goes wrong (`quoted_cases`). Both the readers and longest match are
described by these four cases, so they agree.
-/

set_option autoImplicit false

namespace ScriptFrontend

open Longest

/-- A piece of a quoted text and the character it stands for. -/
inductive Spells (delimiter : Char) : List Char → Char → Prop where
  | raw {c : Char} : c ≠ delimiter → c ≠ '\\' → Spells delimiter [c] c
  | escaped {c : Char} : c ≠ 'x' → Spells delimiter ['\\', c] (unescape c)
  | hex {a b : Char} {high low : Nat} : Numeral.digit? 16 a = some high →
      Numeral.digit? 16 b = some low →
      Spells delimiter ['\\', 'x', a, b] (Char.ofNat (16 * high + low))

inductive CutShort : List Char → Prop where
  | empty : CutShort []
  | backslash : CutShort ['\\']
  | x : CutShort ['\\', 'x']
  | high {a : Char} {high : Nat} : Numeral.digit? 16 a = some high → CutShort ['\\', 'x', a]

inductive WrongEscape : List Char → Char → Prop where
  | high {a : Char} : Numeral.digit? 16 a = none → WrongEscape ['\\', 'x', a] a
  | low {a b : Char} {high : Nat} : Numeral.digit? 16 a = some high →
      Numeral.digit? 16 b = none → WrongEscape ['\\', 'x', a, b] b

structure Delimits (delimiter : Char) : Prop where
  not_backslash : delimiter ≠ '\\'
  not_digit : Numeral.digit? 16 delimiter = none

theorem Spells.length_pos {delimiter c : Char} {p : List Char} (hp : Spells delimiter p c) :
    0 < p.length := by
  cases hp <;> simp

theorem delimits_string : Delimits '"' := ⟨by decide, by decide⟩

theorem delimits_character : Delimits '\'' := ⟨by decide, by decide⟩

theorem quoted_cases (delimiter : Char) (cs : List Char) :
    (∃ rest, cs = delimiter :: rest) ∨
      (∃ p c rest, Spells delimiter p c ∧ cs = p ++ rest) ∨
      CutShort cs ∨ ∃ p c rest, WrongEscape p c ∧ cs = p ++ rest := by
  cases cs with
  | nil => exact .inr (.inr (.inl .empty))
  | cons c cs =>
    by_cases hd : c = delimiter
    · exact .inl ⟨cs, by rw [hd]⟩
    by_cases hb : c = '\\'
    case neg => exact .inr (.inl ⟨[c], c, cs, .raw hd hb, rfl⟩)
    subst hb
    cases cs with
    | nil => exact .inr (.inr (.inl .backslash))
    | cons c cs =>
      by_cases hx : c = 'x'
      case neg => exact .inr (.inl ⟨['\\', c], _, cs, .escaped hx, rfl⟩)
      subst hx
      cases cs with
      | nil => exact .inr (.inr (.inl .x))
      | cons a cs =>
        cases ha : Numeral.digit? 16 a with
        | none => exact .inr (.inr (.inr ⟨_, a, cs, .high ha, rfl⟩))
        | some high =>
          cases cs with
          | nil => exact .inr (.inr (.inl (.high ha)))
          | cons b cs =>
            cases hb : Numeral.digit? 16 b with
            | none => exact .inr (.inr (.inr ⟨_, b, cs, .low ha hb, rfl⟩))
            | some low => exact .inr (.inl ⟨_, _, cs, .hex ha hb, rfl⟩)

/-- Induction along a quoted text, piece by piece. -/
@[elab_as_elim]
theorem quoted_induction (delimiter : Char) {P : List Char → Prop}
    (close : ∀ rest, P (delimiter :: rest))
    (piece : ∀ p c rest, Spells delimiter p c → P rest → P (p ++ rest))
    (cut : ∀ cs, CutShort cs → P cs)
    (wrong : ∀ p c rest, WrongEscape p c → P (p ++ rest)) (cs : List Char) : P cs := by
  induction hn : cs.length using Nat.strongRecOn generalizing cs with
  | ind n ih =>
    obtain ⟨rest, rfl⟩ | ⟨p, c, rest, hp, rfl⟩ | hc | ⟨p, c, rest, hw, rfl⟩ :=
      quoted_cases delimiter cs
    · exact close rest
    · have := hp.length_pos
      rw [List.length_append] at hn
      exact piece p c rest hp (ih rest.length (by omega) rest rfl)
    · exact cut cs hc
    · exact wrong p c rest hw

namespace Longest

section Pieces

variable {delimiter : Char} (hq : Delimits delimiter)

theorem quotedTail_raw {c : Char} (hd : c ≠ delimiter) (hb : c ≠ '\\') (cs : List Char) :
    quotedTail delimiter (c :: cs) =
      (c :: (quotedTail delimiter cs).1, (quotedTail delimiter cs).2) := by
  cases cs <;> simp [quotedTail, hd, hb]

theorem quotedTail_escape (c : Char) (cs : List Char) :
    quotedTail delimiter ('\\' :: c :: cs) =
      ('\\' :: c :: (quotedTail delimiter cs).1, (quotedTail delimiter cs).2) := by
  simp [quotedTail]

include hq

theorem quotedTail_close (cs : List Char) :
    quotedTail delimiter (delimiter :: cs) = ([delimiter], cs) := by
  cases cs <;> simp [quotedTail, hq.not_backslash]

theorem quotedTail_digit {a : Char} {d : Nat} (ha : Numeral.digit? 16 a = some d)
    (cs : List Char) :
    quotedTail delimiter (a :: cs) =
      (a :: (quotedTail delimiter cs).1, (quotedTail delimiter cs).2) := by
  apply quotedTail_raw
  · intro h
    rw [h, hq.not_digit] at ha
    cases ha
  · intro h
    rw [h] at ha
    cases ha

theorem quotedTail_piece {p : List Char} {c : Char} (hp : Spells delimiter p c) (cs : List Char) :
    quotedTail delimiter (p ++ cs) =
      (p ++ (quotedTail delimiter cs).1, (quotedTail delimiter cs).2) := by
  cases hp with
  | raw hd hb => exact quotedTail_raw hd hb cs
  | escaped hx => exact quotedTail_escape _ cs
  | hex ha hb =>
    simp only [List.cons_append, List.nil_append]
    rw [quotedTail_escape, quotedTail_digit hq ha, quotedTail_digit hq hb]

theorem unquote_close (cs : List Char) :
    unquote delimiter (delimiter :: cs) = if cs.isEmpty then some [] else none := by
  have := hq.not_backslash
  simp [unquote, this]

omit hq

theorem unquote_piece {p : List Char} {c : Char} (hp : Spells delimiter p c) (cs : List Char) :
    unquote delimiter (p ++ cs) = (unquote delimiter cs).map (c :: ·) := by
  cases hp with
  | raw hd hb => simp [unquote, hd, hb]
  | escaped hx => simp [unquote, hx]
  | hex ha hb => simp [unquote, ha, hb]

theorem unquote_x {cs : List Char}
    (h : ∀ a b rest, cs = a :: b :: rest →
      Numeral.digit? 16 a = none ∨ Numeral.digit? 16 b = none) :
    unquote delimiter ('\\' :: 'x' :: cs) = none := by
  match cs, h with
  | [], _ => simp [unquote]
  | [a], _ => simp [unquote]
  | a :: b :: rest, h =>
    obtain ha | hb := h a b rest rfl
    · simp [unquote, ha]
    · simp only [unquote, hb]
      split <;> simp_all

theorem unquote_cut (hq : Delimits delimiter) {cs : List Char} (hc : CutShort cs) :
    unquote delimiter (quotedTail delimiter cs).1 = none := by
  have hd := Ne.symm hq.not_backslash
  cases hc with
  | empty => rfl
  | backslash => simp [quotedTail, unquote, hd]
  | x => simp [quotedTail, unquote]
  | high => simp [quotedTail, unquote]

theorem unquote_wrong {p : List Char} {c : Char} (hw : WrongEscape p c) (cs : List Char) :
    unquote delimiter (quotedTail delimiter (p ++ cs)).1 = none := by
  cases hw with
  | high ha =>
    simp only [List.cons_append, List.nil_append, quotedTail_escape]
    refine unquote_x fun a b rest hr => .inl ?_
    have ht := quotedTail_append delimiter (c :: cs)
    rw [hr] at ht
    simp only [List.cons_append, List.cons.injEq] at ht
    rwa [ht.1]
  | @low a _ high ha hb =>
    simp only [List.cons_append, List.nil_append, quotedTail_escape]
    refine unquote_x fun a' b rest hr => .inr ?_
    have ht := quotedTail_append delimiter (a :: c :: cs)
    rw [hr] at ht
    simp only [List.cons_append, List.cons.injEq] at ht
    rwa [ht.2.1]

end Pieces

/-- Pieces and the delimiter behind them at the start of a text, and what the pieces spell. -/
inductive Unquotes (delimiter : Char) : List Char → List Char → Prop where
  | close (rest : List Char) : Unquotes delimiter (delimiter :: rest) []
  | piece {p cs text : List Char} {c : Char} : Spells delimiter p c →
      Unquotes delimiter cs text → Unquotes delimiter (p ++ cs) (c :: text)

theorem unquotes_of_unquote {delimiter : Char} {cs text : List Char} (hq : Delimits delimiter)
    (hu : unquote delimiter (quotedTail delimiter cs).1 = some text) :
    Unquotes delimiter cs text := by
  induction cs using quoted_induction delimiter generalizing text with
  | close rest =>
    rw [quotedTail_close hq, unquote_close hq] at hu
    obtain rfl : [] = text := by simpa using hu
    exact .close rest
  | piece p c rest hp ih =>
    rw [quotedTail_piece hq hp, unquote_piece hp, Option.map_eq_some_iff] at hu
    obtain ⟨more, hm, rfl⟩ := hu
    exact .piece hp (ih hm)
  | cut cs hc =>
    rw [unquote_cut hq hc] at hu
    cases hu
  | wrong p c rest hw =>
    rw [unquote_wrong hw] at hu
    cases hu

end Longest

namespace Lexeme

variable {σ : Type} [Source σ Char InputError]

theorem takes_hexDigit {a : Char} {d : Nat} (before after : List Char)
    (ha : Numeral.digit? 16 a = some d) :
    Takes (hexDigit : Lex σ (Option Nat)) before [a] after (some d) := by
  refine (Takes.read a).bind_nil ?_
  simp only [ha]
  exact .pure _

theorem takes_hexDigit_end (before : List Char) :
    Takes (hexDigit : Lex σ (Option Nat)) before [] [] none :=
  Takes.read_end.bind_nil (.pure _)

theorem fails_hexDigit {a : Char} (before after : List Char)
    (ha : Numeral.digit? 16 a = none) :
    Fails (hexDigit : Lex σ (Option Nat)) before (a :: after)
      ⟨.invalidEscape (String.ofList ['\\', 'x', a]), some (Cursor.after (before ++ [a])).last⟩ := by
  refine .bind_right rfl (Takes.read a) ?_
  simp only [ha]
  exact .fail _

theorem takes_escape {c : Char} (before after : List Char) (hx : c ≠ 'x') :
    Takes (escape : Lex σ Piece) before [c] after (.char (unescape c)) := by
  refine (Takes.read c).bind_nil ?_
  split
  · contradiction
  · rename_i h
    cases h
    exact .pure _
  · rename_i h
    cases h
    exact .pure _
  · rename_i h
    cases h
    exact .pure _
  · rename_i h
    cases h
    contradiction
  · rename_i d ht hn hr _ h
    cases h
    have hu : unescape c = c := by
      unfold unescape
      split <;> simp_all
    rw [hu]
    exact .pure _

theorem escape_x {before used after : List Char} {p : Piece}
    (h : Takes (σ := σ) (do
      match ← hexDigit with
      | none => return .cut
      | some high =>
        match ← hexDigit with
        | none => return .cut
        | some low => return .char (Char.ofNat (16 * high + low)))
      (before ++ ['x']) used after p) :
    Takes (escape : Lex σ Piece) before ('x' :: used) after p :=
  (Takes.read 'x').bind h

theorem takes_piece {delimiter : Char} {p : List Char} {c : Char} (before after : List Char)
    (hp : Spells delimiter p c) :
    Takes (piece delimiter : Lex σ Piece) before p after (.char c) := by
  cases hp with
  | raw hd hb =>
    refine (Takes.read c).bind_nil ?_
    simp only [hd, hb, if_false]
    exact .pure _
  | escaped hx => exact (Takes.read '\\').bind (takes_escape _ _ hx)
  | hex ha hb =>
    refine (Takes.read '\\').bind (escape_x ?_)
    refine (takes_hexDigit _ _ ha).bind ?_
    exact (takes_hexDigit _ _ hb).bind_nil (.pure _)

theorem takes_close {delimiter : Char} (before after : List Char) (hq : Delimits delimiter) :
    Takes (piece delimiter : Lex σ Piece) before [delimiter] after .close := by
  refine (Takes.read delimiter).bind_nil ?_
  simp only [hq.not_backslash, if_false, if_true]
  exact .pure _

theorem takes_cut {cs : List Char} (delimiter : Char) (before : List Char) (hc : CutShort cs) :
    Takes (piece delimiter : Lex σ Piece) before cs [] .cut := by
  cases hc with
  | empty => exact Takes.read_end.bind_nil (.pure _)
  | backslash => exact (Takes.read '\\').bind_nil (Takes.read_end.bind_nil (.pure _))
  | x =>
    refine (Takes.read '\\').bind (escape_x ?_)
    exact (takes_hexDigit_end _).bind_nil (.pure _)
  | high ha =>
    refine (Takes.read '\\').bind (escape_x ?_)
    refine (takes_hexDigit _ _ ha).bind_nil ?_
    exact (takes_hexDigit_end _).bind_nil (.pure _)

theorem fails_wrong {delimiter : Char} {p : List Char} {c : Char} (before after : List Char)
    (hw : WrongEscape p c) :
    Fails (piece delimiter : Lex σ Piece) before (p ++ after)
      ⟨.invalidEscape (String.ofList ['\\', 'x', c]), some (Cursor.after (before ++ p)).last⟩ := by
  cases hw with
  | high ha =>
    refine .read_bind (.read_bind (.bind ?_))
    simpa using fails_hexDigit (before ++ ['\\', 'x']) after ha
  | @low a _ high ha hb =>
    refine .read_bind (.read_bind ?_)
    refine .bind_right (by rfl) (takes_hexDigit _ (c :: after) ha) (.bind ?_)
    simpa using fails_hexDigit (before ++ ['\\', 'x', a]) after hb

theorem stringBody_eq (taken : List Char) :
    (stringBody taken : Lex σ (List Char)) = piece '"' >>= fun
      | .cut => Head.fail .unterminatedString
      | .close => pure taken.reverse
      | .char c => stringBody (c :: taken) := by
  funext h
  rw [stringBody]
  simp only [Bind.bind, EStateM.bind]
  split <;> simp_all [Pure.pure, EStateM.pure]

theorem takes_stringBody {cs text : List Char} (taken before : List Char)
    (hu : Unquotes '"' cs text) :
    Takes (stringBody taken : Lex σ (List Char)) before (quotedTail '"' cs).1
      (quotedTail '"' cs).2 (taken.reverse ++ text) := by
  rw [stringBody_eq]
  induction hu generalizing taken before with
  | close rest =>
    rw [quotedTail_close delimits_string]
    refine (takes_close _ _ delimits_string).bind_nil ?_
    simpa using Takes.pure taken.reverse
  | @piece p cs text c hp _ ih =>
    rw [quotedTail_piece delimits_string hp]
    have hr := ih (c :: taken) (before ++ p)
    rw [← stringBody_eq] at hr
    refine (takes_piece before _ hp).bind ?_
    simpa using hr

theorem takes_string {cs text : List Char} (start : Position) (before : List Char)
    (hu : unquote '"' (quotedTail '"' cs).1 = some text) :
    Takes (string start : Lex σ Token) before (quotedTail '"' cs).1 (quotedTail '"' cs).2
      ⟨start, .string, .string (String.ofList text)⟩ :=
  (takes_stringBody [] before (unquotes_of_unquote delimits_string hu)).bind_nil (.pure _)

theorem takes_character {cs : List Char} {c : Char} (start : Position) (before : List Char)
    (hu : unquote '\'' (quotedTail '\'' cs).1 = some [c]) :
    Takes (character start : Lex σ Token) before (quotedTail '\'' cs).1 (quotedTail '\'' cs).2
      ⟨start, .int, .int c.toNat⟩ := by
  cases unquotes_of_unquote delimits_character hu with
  | piece hp hr =>
    cases hr with
    | close rest =>
      rw [quotedTail_piece delimits_character hp, quotedTail_close delimits_character]
      refine (takes_piece before _ hp).bind ?_
      exact (Takes.read '\'').bind_nil (.pure _)

end Lexeme

end ScriptFrontend
