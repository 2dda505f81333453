import ScriptFrontend.Proofs.Token.Broken
import ScriptFrontend.Proofs.Token.ErrorPlace
import ScriptFrontend.Proofs.Token.Literal
import ScriptFrontend.Proofs.Token.LongestMatch

/-! The character that an error is blamed on, and what the error quotes.

A scan that fails stands at the first lexeme without a meaning. The cause of the error tells how
much of that lexeme was read, and the last character that was read stands at the error's place
(`error_found`). What an error quotes ends there. Only an escape that goes wrong at its second digit
is quoted without the first one.
-/

set_option autoImplicit false

namespace ScriptFrontend

open Longest Literal

/-- A literal goes well up to its piece `p`, which is the last of what was read. -/
def Literal.Reaches (used p : List Char) : Prop :=
  (∃ ws : List (Piece '"'), used = '"' :: (body ws ++ p)) ∨ used = '\'' :: p

/-- What was read of the text `here` when the lexeme at its start failed for the cause. -/
def LexCause.Blames (here used : List Char) : LexCause → Prop
  | unexpectedChar c => used = [c]
  | unterminatedString => here.head? = some '"' ∧ used = here
  | unterminatedChar => here.head? = some '\'' ∧ used = here
  | emptyChar => used = ['\'', '\'']
  | charTooLong => ∃ (w : Piece '\'') (c : Char), c ≠ '\'' ∧ used = '\'' :: (w.text ++ [c])
  | invalidEscape text => ∃ p c, WrongEscape p c ∧ Reaches used p ∧
    text = String.ofList ['\\', 'x', c]
  | malformedNumber text _ => ∃ c rest, Form.of c = .number ∧ here = c :: rest ∧
    used = c :: (numberTail rest).1 ∧ text = String.ofList used
  | input _ => False

/-- What the error quotes ends with the last character that was read. It is that character itself,
all of the number, or the escape from its backslash on. -/
def LexCause.Quotes (here used : List Char) : LexCause → Prop
  | unexpectedChar c => [c] <:+ used
  | malformedNumber text _ => text.toList = used ∧ ∃ c rest, Form.of c = .number ∧
    here = c :: rest ∧ used = c :: (numberTail rest).1
  | invalidEscape text => Reaches used text.toList ∧ ∃ c, WrongEscape text.toList c
  | _ => True

/-- An escape goes wrong at its second digit, and the error leaves out the first one. -/
def LexCause.SkipsDigit (_here used : List Char) (cause : LexCause) : Prop :=
  ∃ a high b, Numeral.digit? 16 a = some high ∧ Numeral.digit? 16 b = none ∧
    Reaches used ['\\', 'x', a, b] ∧ cause = .invalidEscape (String.ofList ['\\', 'x', b])

/-- Behind all the lexemes of the text that have a meaning, the next one was read as far as `fits`
the cause, and the last character that was read stands at the error's place. -/
def LexError.FoundIn (fits : List Char → List Char → LexCause → Prop) (text : List Char)
    (e : LexError) : Prop :=
  ∃ before here used i, before = covered (lex text).chunks ++ (lex text).ending.gap ∧
    text = before ++ here ∧ used <+: here ∧ fits here used e.cause ∧
    i + 1 = (before ++ used).length ∧ e.position = some (.ofOffset text i)

namespace Longest

variable {first : Char} {cs used : List Char} {cause : LexCause}

theorem StringFlaw.blames (h : StringFlaw cs used cause) :
    used <+: cs ∧ cause.Blames ('"' :: cs) ('"' :: used) := by
  induction h with
  | cut hc => exact ⟨List.prefix_rfl, rfl, rfl⟩
  | wrong hw => exact ⟨List.prefix_append .., _, _, hw, .inl ⟨[], rfl⟩, rfl⟩
  | @piece p cs used c cause hp hf ih =>
    obtain ⟨hpre, hb⟩ := ih
    refine ⟨(List.prefix_append_right_inj _).2 hpre, ?_⟩
    obtain rfl | ⟨text, rfl⟩ := hf.cause_eq
    · obtain ⟨-, hu⟩ := hb
      exact ⟨rfl, by rw [(List.cons.inj hu).2]⟩
    · obtain ⟨q, d, hw, ⟨ws, hu⟩ | hu, ht⟩ := hb
      · obtain ⟨w, rfl, -⟩ := Piece.exists_piece hp
        refine ⟨q, d, hw, .inl ⟨w :: ws, ?_⟩, ht⟩
        rw [(List.cons.inj hu).2, body_cons, List.append_assoc]
      · cases hu

theorem CharacterFlaw.blames (h : CharacterFlaw cs used cause) :
    used <+: cs ∧ cause.Blames ('\'' :: cs) ('\'' :: used) := by
  cases h with
  | empty rest => exact ⟨⟨rest, rfl⟩, rfl⟩
  | cut hc => exact ⟨List.prefix_rfl, rfl, rfl⟩
  | wrong hw => exact ⟨List.prefix_append .., _, _, hw, .inr rfl, rfl⟩
  | unclosed hp => exact ⟨List.prefix_rfl, rfl, rfl⟩
  | @long p rest c d hp hd =>
    obtain ⟨w, rfl, -⟩ := Piece.exists_piece hp
    exact ⟨⟨rest, by simp⟩, w, d, hd, rfl⟩

theorem Flaw.blames (h : Flaw first cs used cause) :
    used <+: cs ∧ cause.Blames (first :: cs) (first :: used) := by
  cases h with
  | string hf h =>
    obtain rfl := Lexeme.eq_of_form_string hf
    exact h.blames
  | character hf h =>
    obtain rfl := Lexeme.eq_of_form_character hf
    exact h.blames
  | number hf hd => exact ⟨⟨_, numberTail_append cs⟩, first, cs, hf, rfl, rfl, rfl⟩
  | sign hf hs => exact ⟨List.nil_prefix, rfl⟩

end Longest

theorem Literal.Reaches.suffix {used p : List Char} (h : Reaches used p) : p <:+ used := by
  obtain ⟨ws, rfl⟩ | rfl := h
  · exact ⟨'"' :: body ws, by simp⟩
  · exact List.suffix_cons ..

theorem LexCause.Blames.quotes {here used : List Char} {cause : LexCause}
    (h : cause.Blames here used) : cause.Quotes here used ∨ cause.SkipsDigit here used := by
  cases cause with
  | unexpectedChar c =>
    obtain rfl : used = [c] := h
    exact .inl List.suffix_rfl
  | unterminatedString | unterminatedChar | emptyChar | charTooLong => exact .inl trivial
  | invalidEscape text =>
    obtain ⟨p, c, hw, hr, rfl⟩ := h
    cases hw with
    | high ha => exact .inl ⟨by simpa using hr, _, by simpa using WrongEscape.high ha⟩
    | low ha hb => exact .inr ⟨_, _, _, ha, hb, hr, rfl⟩
  | malformedNumber text reason =>
    obtain ⟨c, rest, hc, hh, hu, rfl⟩ := h
    exact .inl ⟨String.toList_ofList .., c, rest, hc, hh, hu⟩
  | input failure => exact h.elim

theorem LexCause.Quotes.not_skipsDigit {here used : List Char} {cause : LexCause}
    (h : cause.Quotes here used) : ¬cause.SkipsDigit here used := by
  rintro ⟨a, high, b, -, -, hr, rfl⟩
  obtain ⟨hq, -⟩ := h
  have hsuffix := List.suffix_of_suffix_length_le hq.suffix hr.suffix (by simp)
  simp [List.suffix_cons_iff] at hsuffix

theorem LexError.FoundIn.both {P Q : List Char → List Char → LexCause → Prop} {text : List Char}
    {e : LexError} (hp : e.FoundIn P text) (hq : e.FoundIn Q text) :
    ∃ here used, P here used e.cause ∧ Q here used e.cause := by
  obtain ⟨before, here, used, i, hb, ht, hu, hP, hi, hpos⟩ := hp
  obtain ⟨before', here', used', j, hb', ht', hu', hQ, hj, hpos'⟩ := hq
  obtain rfl : before = before' := hb.trans hb'.symm
  obtain rfl : here = here' := List.append_cancel_left (ht.symm.trans ht')
  have hlen := congrArg List.length ht
  have hle := hu.length_le
  have hle' := hu'.length_le
  simp only [List.length_append] at hlen hi hj
  have hplace : Position.ofOffset text i = .ofOffset text j :=
    Option.some.inj (hpos.symm.trans hpos')
  have hij : i = j := Position.ofOffset_injective (by omega) (by omega) hplace
  have hpre := List.prefix_of_prefix_length_le hu hu' (by omega)
  obtain rfl := hpre.eq_of_length (by omega)
  exact ⟨here, used, hP, hQ⟩

namespace Scanner

variable {σ : Type} [Source σ Char InputError] {source : σ} {text : List Char} {e : LexError}

theorem error_found (hd : Source.Delivers source text)
    (he : (ofSource source).run.2.error? = some e) : e.FoundIn LexCause.Blames text := by
  have hstuck := (run_ofSource hd).2
  rw [he] at hstuck
  cases hl : (lex text).ending with
  | clean gap => simp [hl, Ending.isStuck] at hstuck
  | stuck gap lexeme rest =>
    obtain ⟨c, taken, rfl, htail, hnone⟩ := (ending_lex text).2 gap lexeme rest hl
    have hdecode : decode c (tail c (taken ++ rest)).1 = none := by rw [htail]; exact hnone
    obtain ⟨used, cause, hf⟩ := exists_flaw hdecode
    obtain ⟨hpre, hb⟩ := hf.blames
    obtain rfl := Option.some.inj (he.symm.trans (error_of_flaw (stands_ofSource hd) hl hf))
    have htext : text = (covered (lex text).chunks ++ gap) ++ c :: (taken ++ rest) := by
      simpa [hl, Ending.text] using (text_lex text).symm
    have hused : c :: used <+: c :: (taken ++ rest) := List.cons_prefix_cons.2 ⟨rfl, hpre⟩
    have hread : (covered (lex text).chunks ++ gap) ++ c :: used <+: text := by
      obtain ⟨more, hmore⟩ := hused
      exact ⟨more, by rw [List.append_assoc, hmore, ← htext]⟩
    refine ⟨covered (lex text).chunks ++ gap, c :: (taken ++ rest), c :: used, _, by rw [hl]; rfl,
      htext, hused, hb, Nat.sub_add_cancel (by simp; omega), ?_⟩
    rw [← Position.ofLast_eq hread (by simp), ← Cursor.last_after]
    simp

/-- An error has a place, and no token before it stands behind that place. It is the place of the
character that the error is blamed on. A failure of the source is placed at the last character
delivered before it, and where a source only fails behind a text, there is no other error than one
of the text. -/
theorem error_placed (source : σ) (e : LexError)
    (he : (ofSource source).run.2.error? = some e) :
    (∃ p, e.position = some p ∧ ∀ t ∈ (ofSource source).run.1, (compare t.position p).isLE) ∧
      (∀ text, Source.Delivers source text → e.FoundIn LexCause.Blames text) ∧
      (∀ events failure, Source.Replays source events → e.cause = .input failure →
        ∃ seen later, events = seen ++ .fail failure :: later ∧ (∀ d, .fail d ∉ seen) ∧
          e.position = some (.ofLast (seen.filterMap Event.item?))) ∧
      ∀ text failure later, Source.Replays source (text.map .item ++ .fail failure :: later) →
        e = ⟨.input failure, some (.ofLast text)⟩ ∨ e.FoundIn LexCause.Blames text := by
  refine ⟨?order, fun text hd => error_found hd he, ?input, ?broken⟩
  case order =>
    obtain ⟨p, hp, -, hle⟩ := error_behind (s := ofSource source) Cursor.past_start rfl he
    exact ⟨p, hp, hle⟩
  case input =>
    intro events failure hr hc
    exact input_error_place hr he hc
  case broken =>
    intro text failure later hr
    have hd : Source.Delivers (Feed.ofList text : Feed Char InputError) (text ++ []) := by
      rw [List.append_nil]
      exact Feed.delivers_ofList text
    have hstart : (ofSource source).Abreast (Head.Outlasts []) (ofSource (Feed.ofList text)) :=
      ⟨rfl, rfl, text, failure, later, hr, hd⟩
    obtain ⟨-, herr⟩ := Abreast.run Head.Outlasts.lockstep hstart
    obtain ⟨-, -, -, -, ⟨d, -, -, hc⟩ | ⟨-, ht, -⟩⟩ := herr e rfl he
    · obtain ⟨seen, rest, hs, hf, hp⟩ := input_error_place hr he hc
      obtain ⟨rfl, rfl⟩ := Event.eq_of_fail hf hs
      obtain ⟨cause, position⟩ := e
      obtain rfl : cause = .input failure := hc
      obtain rfl : position = _ := hp
      simp [List.filterMap_map, Function.comp_def, Event.item?]
    · exact .inr (error_found (Feed.delivers_ofList text) ht)

theorem error_placed_newline :
    let source : Feed Char InputError := .ofList "a\n 'b\n".toList
    let e : LexError := ⟨.charTooLong, some ⟨2, 4⟩⟩
    let gone : InputError := ⟨.other, "gone"⟩
    let broken : Feed Char InputError :=
      ⟨"a\n 'b".toList.map .item ++ .fail gone :: [.item '\'']⟩
    let d : LexError := ⟨.input gone, some ⟨2, 3⟩⟩
    (ofSource source).run.2.error? = some e ∧ e.FoundIn LexCause.Blames "a\n 'b\n".toList ∧
      (ofSource broken).run.2.error? = some d ∧
      (d = ⟨.input gone, some (.ofLast "a\n 'b".toList)⟩ ∨
        d.FoundIn LexCause.Blames "a\n 'b".toList) := by
  intro source e gone broken d
  have he : (ofSource source).run.2.error? = some e := by decide +kernel
  have hd : (ofSource broken).run.2.error? = some d := by decide +kernel
  exact ⟨he, (error_placed source e he).2.1 _ (Feed.delivers_ofList _), hd,
    (error_placed broken d hd).2.2.2 _ _ _ (Feed.replays _)⟩

/-- An error quotes the text up to its place, unless an escape went wrong at its second digit. -/
theorem payload_quotes (hd : Source.Delivers source text)
    (he : (ofSource source).run.2.error? = some e) :
    e.FoundIn LexCause.Quotes text ↔ ¬e.FoundIn LexCause.SkipsDigit text := by
  constructor
  · intro hq hs
    obtain ⟨_, _, hq, hs⟩ := hq.both hs
    exact hq.not_skipsDigit hs
  · intro hs
    obtain ⟨before, here, used, i, hb, ht, hu, hblames, hi, hp⟩ := error_found hd he
    obtain hq | hskip := hblames.quotes
    · exact ⟨before, here, used, i, hb, ht, hu, hq, hi, hp⟩
    · exact absurd ⟨before, here, used, i, hb, ht, hu, hskip, hi, hp⟩ hs

theorem payload_quotes_first_digit :
    let source : Feed Char InputError := .ofList "\"\\xZ".toList
    let e : LexError := ⟨.invalidEscape "\\xZ", some ⟨1, 4⟩⟩
    (ofSource source).run.2.error? = some e ∧
      (e.FoundIn LexCause.Quotes "\"\\xZ".toList ↔
        ¬e.FoundIn LexCause.SkipsDigit "\"\\xZ".toList) := by
  intro source e
  have he : (ofSource source).run.2.error? = some e := by decide +kernel
  exact ⟨he, payload_quotes (Feed.delivers_ofList _) he⟩

/-- Where the second digit of an escape is wrong, the text that the error quotes is nowhere. -/
theorem payload_not_quoted :
    let text := "\"\\x4Z\"".toList
    let e : LexError := ⟨.invalidEscape "\\xZ", some ⟨1, 5⟩⟩
    (ofSource (Feed.ofList text : Feed Char InputError)).run.2.error? = some e ∧
      ¬"\\xZ".toList <:+: text ∧ ¬e.FoundIn LexCause.Quotes text := by
  intro text e
  have hnot : ¬"\\xZ".toList <:+: text := by decide
  refine ⟨by decide +kernel, hnot, ?_⟩
  rintro ⟨before, here, used, i, -, ht, hu, ⟨hr, -⟩, -, -⟩
  refine hnot (hr.suffix.isInfix.trans (hu.isInfix.trans ?_))
  exact ht ▸ (List.suffix_append before here).isInfix

end Scanner

end ScriptFrontend
