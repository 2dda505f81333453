import ScriptFrontend.Proofs.Token.First

set_option autoImplicit false

namespace ScriptFrontend

open Longest

namespace Literal

/-- One character of a quoted text, written as itself or as an escape. -/
inductive Piece (delimiter : Char) where
  | raw (c : Char) (plain : c ≠ delimiter ∧ c ≠ '\\')
  | tab
  | newline
  | carriageReturn
  | code (high low : Numeral.Digit 16)
  | escaped (c : Char) (other : c ∉ ['t', 'n', 'r', 'x'])

namespace Piece

variable {delimiter : Char}

def text : Piece delimiter → List Char
  | raw c _ => [c]
  | tab => ['\\', 't']
  | newline => ['\\', 'n']
  | carriageReturn => ['\\', 'r']
  | code high low => ['\\', 'x', high.char, low.char]
  | escaped c _ => ['\\', c]

def value : Piece delimiter → Char
  | raw c _ | escaped c _ => c
  | tab => '\t'
  | newline => '\n'
  | carriageReturn => '\r'
  | code high low => Char.ofNat (16 * high.value + low.value)

theorem unescape_eq_self {c : Char} (ht : c ≠ 't') (hn : c ≠ 'n') (hr : c ≠ 'r') :
    unescape c = c := by
  unfold unescape
  split <;> simp_all

theorem spells (w : Piece delimiter) : Spells delimiter w.text w.value := by
  cases w with
  | raw c plain => exact .raw plain.1 plain.2
  | tab => exact .escaped (c := 't') (by decide)
  | newline => exact .escaped (c := 'n') (by decide)
  | carriageReturn => exact .escaped (c := 'r') (by decide)
  | code high low =>
    exact .hex (Numeral.digit?_char (by decide) high) (Numeral.digit?_char (by decide) low)
  | escaped c other =>
    simp only [List.mem_cons, List.not_mem_nil, or_false, not_or] at other
    obtain ⟨ht, hn, hr, hx⟩ := other
    have hs : Spells delimiter ['\\', c] (unescape c) := .escaped hx
    rwa [unescape_eq_self ht hn hr] at hs

theorem exists_piece {p : List Char} {c : Char} (hp : Spells delimiter p c) :
    ∃ w : Piece delimiter, w.text = p ∧ w.value = c := by
  cases hp with
  | raw hd hb => exact ⟨.raw c ⟨hd, hb⟩, rfl, rfl⟩
  | hex ha hb =>
    obtain ⟨high, rfl, rfl⟩ := Numeral.exists_digit (by decide) ha
    obtain ⟨low, rfl, rfl⟩ := Numeral.exists_digit (by decide) hb
    exact ⟨.code high low, rfl, rfl⟩
  | @escaped c hx =>
    by_cases ht : c = 't'
    · exact ⟨.tab, by rw [ht]; rfl, by rw [ht]; rfl⟩
    by_cases hn : c = 'n'
    · exact ⟨.newline, by rw [hn]; rfl, by rw [hn]; rfl⟩
    by_cases hr : c = 'r'
    · exact ⟨.carriageReturn, by rw [hr]; rfl, by rw [hr]; rfl⟩
    exact ⟨.escaped c (by simp [ht, hn, hr, hx]), rfl, (unescape_eq_self ht hn hr).symm⟩

end Piece

section Body

variable {delimiter : Char}

def body (ws : List (Piece delimiter)) : List Char :=
  ws.flatMap Piece.text

def value (ws : List (Piece delimiter)) : List Char :=
  ws.map Piece.value

theorem body_cons (w : Piece delimiter) (ws : List (Piece delimiter)) :
    body (w :: ws) = w.text ++ body ws := rfl

theorem quotedTail_body (hq : Delimits delimiter) (ws : List (Piece delimiter))
    (rest : List Char) :
    quotedTail delimiter (body ws ++ delimiter :: rest) = (body ws ++ [delimiter], rest) := by
  induction ws with
  | nil => exact quotedTail_close hq rest
  | cons w ws ih => rw [body_cons, List.append_assoc, quotedTail_piece hq w.spells, ih]; simp

theorem unquote_body (hq : Delimits delimiter) (ws : List (Piece delimiter)) :
    unquote delimiter (body ws ++ [delimiter]) = some (value ws) := by
  induction ws with
  | nil => rw [body, List.flatMap_nil, List.nil_append, unquote_close hq]; rfl
  | cons w ws ih => rw [body_cons, List.append_assoc, unquote_piece w.spells, ih]; rfl

theorem exists_body {cs text : List Char} (hu : Unquotes delimiter cs text) :
    ∃ (ws : List (Piece delimiter)) (rest : List Char), cs = body ws ++ delimiter :: rest ∧
      value ws = text := by
  induction hu with
  | close rest => exact ⟨[], rest, rfl, rfl⟩
  | piece hp _ ih =>
    obtain ⟨w, rfl, rfl⟩ := Piece.exists_piece hp
    obtain ⟨ws, rest, rfl, rfl⟩ := ih
    exact ⟨w :: ws, rest, by rw [body_cons, List.append_assoc], rfl⟩

theorem exists_value (hq : delimiter ∉ ['t', 'n', 'r', 'x']) (text : List Char) :
    ∃ ws : List (Piece delimiter), value ws = text := by
  induction text with
  | nil => exact ⟨[], rfl⟩
  | cons c cs ih =>
    obtain ⟨ws, rfl⟩ := ih
    by_cases hd : c = delimiter
    · exact ⟨.escaped c (hd ▸ hq) :: ws, rfl⟩
    by_cases hb : c = '\\'
    · exact ⟨.escaped c (hb ▸ by decide) :: ws, rfl⟩
    · exact ⟨.raw c ⟨hd, hb⟩ :: ws, rfl⟩

theorem Piece.exists_same {other : Char} (w : Piece delimiter) (h : w.text.head? = some '\\') :
    ∃ v : Piece other, v.text = w.text ∧ v.value = w.value := by
  cases w with
  | raw c plain => exact absurd (Option.some.inj h) plain.2
  | tab => exact ⟨.tab, rfl, rfl⟩
  | newline => exact ⟨.newline, rfl, rfl⟩
  | carriageReturn => exact ⟨.carriageReturn, rfl, rfl⟩
  | code high low => exact ⟨.code high low, rfl, rfl⟩
  | escaped c other => exact ⟨.escaped c other, rfl, rfl⟩

end Body

end Literal

namespace Longest

variable {cs used : List Char} {cause : LexCause}

theorem StringFlaw.cause_eq (h : StringFlaw cs used cause) :
    cause = .unterminatedString ∨ ∃ text, cause = .invalidEscape text := by
  induction h with
  | cut hc => exact .inl rfl
  | wrong hw => exact .inr ⟨_, rfl⟩
  | piece hp _ ih => exact ih

theorem CharacterFlaw.cause_eq (h : CharacterFlaw cs used cause) :
    cause = .emptyChar ∨ cause = .charTooLong ∨ cause = .unterminatedChar ∨
      ∃ text, cause = .invalidEscape text := by
  cases h with
  | empty rest => exact .inl rfl
  | cut hc => exact .inr (.inr (.inl rfl))
  | wrong hw => exact .inr (.inr (.inr ⟨_, rfl⟩))
  | unclosed hp => exact .inr (.inr (.inl rfl))
  | long hp hd => exact .inr (.inl rfl)

end Longest

variable {σ : Type} [Source σ Char InputError]

namespace Scanner

open Literal

variable {s : Scanner σ} {continues : Bool} {before cs : List Char}

theorem form_string : Form.of '"' = .string := by decide +kernel

theorem form_character : Form.of '\'' = .character := by decide +kernel

theorem yields_string (hs : s.Stands continues before ('"' :: cs)) {ws : List (Piece '"')}
    {rest : List Char} (hc : cs = body ws ++ '"' :: rest) :
    s.Yields before ('"' :: (body ws ++ ['"'])) rest .string
      (.string (String.ofList (value ws))) := by
  have ht : tail '"' cs = (body ws ++ ['"'], rest) := by
    rw [hc, tail, form_string]
    exact quotedTail_body delimits_string ws rest
  have hd : decode '"' (tail '"' cs).1 = some (.string, .string (String.ofList (value ws))) := by
    rw [ht, decode, form_string]
    simp only [unquote_body delimits_string ws, Option.map_some]
  simpa [ht] using yields_lexeme (by decide) (by decide) hd hs

theorem refuses_string (hs : s.Stands continues before ('"' :: cs))
    (hc : ¬∃ (ws : List (Piece '"')) (rest : List Char), cs = body ws ++ '"' :: rest) :
    s.Refuses .unterminatedString ∨ ∃ text, s.Refuses (.invalidEscape text) := by
  have hu : unquote '"' (quotedTail '"' cs).1 = none := by
    rw [Option.eq_none_iff_forall_ne_some]
    intro text hu
    obtain ⟨ws, rest, h, -⟩ := exists_body (unquotes_of_unquote delimits_string hu)
    exact hc ⟨ws, rest, h⟩
  obtain ⟨used, cause, hf⟩ := exists_stringFlaw hu
  have hr := refuses_flaw (by decide) (by decide) (.string form_string hf) hs
  obtain rfl | ⟨text, rfl⟩ := hf.cause_eq
  · exact .inl hr
  · exact .inr ⟨text, hr⟩

theorem yields_character (hs : s.Stands continues before ('\'' :: cs)) {w : Piece '\''}
    {rest : List Char} (hc : cs = w.text ++ '\'' :: rest) :
    s.Yields before ('\'' :: (w.text ++ ['\''])) rest .int (.int w.value.toNat) := by
  have hb : w.text = body [w] := (List.append_nil _).symm
  have ht : tail '\'' cs = (w.text ++ ['\''], rest) := by
    rw [hc, tail, form_character, hb]
    exact quotedTail_body delimits_character [w] rest
  have hd : decode '\'' (tail '\'' cs).1 = some (.int, .int w.value.toNat) := by
    rw [ht, decode, form_character, hb]
    simp only [unquote_body delimits_character [w]]
    rfl
  simpa [ht] using yields_lexeme (by decide) (by decide) hd hs

theorem refuses_character (hs : s.Stands continues before ('\'' :: cs))
    (hc : ¬∃ (w : Piece '\'') (rest : List Char), cs = w.text ++ '\'' :: rest) :
    s.Refuses .emptyChar ∨ s.Refuses .charTooLong ∨ s.Refuses .unterminatedChar ∨
      ∃ text, s.Refuses (.invalidEscape text) := by
  have hu : ∀ c, unquote '\'' (quotedTail '\'' cs).1 ≠ some [c] := by
    intro c hu
    obtain ⟨ws, rest, h, hv⟩ := exists_body (unquotes_of_unquote delimits_character hu)
    obtain ⟨w, rfl, -⟩ := List.map_eq_singleton_iff.1 hv
    exact hc ⟨w, rest, by rw [h, body_cons]; simp [body]⟩
  obtain ⟨used, cause, hf⟩ := exists_characterFlaw hu
  have hr := refuses_flaw (by decide) (by decide) (.character form_character hf) hs
  obtain rfl | rfl | rfl | ⟨text, rfl⟩ := hf.cause_eq
  · exact .inl hr
  · exact .inr (.inl hr)
  · exact .inr (.inr (.inl hr))
  · exact .inr (.inr (.inr ⟨text, hr⟩))

/-- A literal gives what its pieces stand for and is left at its closing delimiter. What starts like
a literal and is none is refused at once. Strings stand for all texts there are, and an escape means
the same in a string and in a character literal. -/
theorem literals_decode :
    (∀ (s : Scanner σ) (continues : Bool) (before cs : List Char),
      s.Stands continues before ('"' :: cs) →
        (∀ (ws : List (Piece '"')) (rest : List Char), cs = body ws ++ '"' :: rest →
          s.Yields before ('"' :: (body ws ++ ['"'])) rest .string
            (.string (String.ofList (value ws)))) ∧
        ((¬∃ (ws : List (Piece '"')) (rest : List Char), cs = body ws ++ '"' :: rest) →
          s.Refuses .unterminatedString ∨ ∃ text, s.Refuses (.invalidEscape text))) ∧
    (∀ (s : Scanner σ) (continues : Bool) (before cs : List Char),
      s.Stands continues before ('\'' :: cs) →
        (∀ (w : Piece '\'') (rest : List Char), cs = w.text ++ '\'' :: rest →
          s.Yields before ('\'' :: (w.text ++ ['\''])) rest .int (.int w.value.toNat)) ∧
        ((∃ lexeme rest v, s.Yields before lexeme rest .int v) ↔
          ∃ (w : Piece '\'') (rest : List Char), cs = w.text ++ '\'' :: rest) ∧
        ((¬∃ (w : Piece '\'') (rest : List Char), cs = w.text ++ '\'' :: rest) →
          s.Refuses .emptyChar ∨ s.Refuses .charTooLong ∨ s.Refuses .unterminatedChar ∨
            ∃ text, s.Refuses (.invalidEscape text))) ∧
    (∀ text : String, ∃ ws : List (Piece '"'), String.ofList (value ws) = text) ∧
    (∀ (p : List Char) (c : Char), p.head? = some '\\' →
      ((∃ w : Piece '"', w.text = p ∧ w.value = c) ↔
        ∃ w : Piece '\'', w.text = p ∧ w.value = c)) := by
  refine ⟨?string, ?character, ?every, ?same⟩
  case string =>
    intro s continues before cs hs
    exact ⟨fun ws rest hc => yields_string hs hc, refuses_string hs⟩
  case character =>
    intro s continues before cs hs
    refine ⟨fun w rest hc => yields_character hs hc, ⟨?_, ?_⟩, refuses_character hs⟩
    · intro h
      obtain ⟨lexeme, rest, v, hy⟩ := h
      by_contra hc
      obtain hr | hr | hr | ⟨text, hr⟩ := refuses_character hs hc
      all_goals exact not_refuses_of_yields hy hr
    · intro h
      obtain ⟨w, rest, hc⟩ := h
      exact ⟨_, rest, _, yields_character hs hc⟩
  case every =>
    intro text
    have hv : ∃ ws : List (Piece '"'), value ws = text.toList := exists_value (by decide) _
    obtain ⟨ws, hv⟩ := hv
    exact ⟨ws, by rw [hv, String.ofList_toList]⟩
  case same =>
    intro p c hp
    constructor
    · intro h
      obtain ⟨w, rfl, rfl⟩ := h
      exact w.exists_same hp
    · intro h
      obtain ⟨w, rfl, rfl⟩ := h
      exact w.exists_same hp

theorem literals_decode_escaped :
    (ofSource (.ofList "\"\\\"\\x4aé\" b".toList : Feed Char InputError)).Yields []
        "\"\\\"\\x4aé\"".toList " b".toList .string (.string "\"Jé") ∧
      (ofSource (.ofList "'\\''c".toList : Feed Char InputError)).Yields []
        "'\\''".toList "c".toList .int (.int 39) := by
  have h := literals_decode (σ := Feed Char InputError)
  have hq := stands_ofSource (Feed.delivers_ofList "\"\\\"\\x4aé\" b".toList)
  have hc := stands_ofSource (Feed.delivers_ofList "'\\''c".toList)
  exact ⟨(h.1 _ _ _ _ hq).1
      [.escaped '"' (by decide), .code ⟨4, false⟩ ⟨10, false⟩, .raw 'é' (by decide)] _ rfl,
    (h.2.1 _ _ _ _ hc).1 (.escaped '\'' (by decide)) _ rfl⟩

end Scanner

end ScriptFrontend
