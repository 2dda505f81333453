import ScriptFrontend.Text.Blank
import ScriptFrontend.Token.Lexeme

/-! Longest-match lexing of a text that is there as a whole.

Blank characters and comments are dropped, then the longest lexeme is taken that the first character
left allows, again and again. No character is ever looked at and put back, and no part of the text
is lost (`text_lex`).
-/

set_option autoImplicit false

namespace ScriptFrontend.Longest

/-- Blank characters and comments at the start of a text, and what follows them. A comment goes from
its `#` through the next newline. The flag says whether the text starts inside one. -/
def gap : Bool → List Char → List Char × List Char
  | _, [] => ([], [])
  | true, c :: cs => (c :: (gap (c != '\n') cs).1, (gap (c != '\n') cs).2)
  | false, c :: cs =>
    if c = '#' ∨ Text.isBlank c then (c :: (gap (c == '#') cs).1, (gap (c == '#') cs).2)
    else ([], c :: cs)

inductive Form where
  | word | string | character | number | sign
deriving DecidableEq

def Form.of (first : Char) : Form :=
  if Text.isAlphabetic first || first == '_' then .word
  else if first == '"' then .string
  else if first == '\'' then .character
  else if first.isDigit then .number
  else .sign

def isWordPart (c : Char) : Bool :=
  Text.isAlphanumeric c || c == '_'

def isWholePart (c : Char) : Bool :=
  c.isAlphanum || c == '_'

def isFractionPart (c : Char) : Bool :=
  c.isDigit || c == '_'

def wordTail (cs : List Char) : List Char × List Char :=
  match cs.dropWhile isWordPart with
  | '!' :: rest => (cs.takeWhile isWordPart ++ ['!'], rest)
  | rest => (cs.takeWhile isWordPart, rest)

/-- The longest run of ASCII letters, digits and `_`, and if a point follows, the point and the
longest run of digits and `_` behind it. -/
def numberTail (cs : List Char) : List Char × List Char :=
  match cs.dropWhile isWholePart with
  | '.' :: rest =>
    (cs.takeWhile isWholePart ++ '.' :: rest.takeWhile isFractionPart,
      rest.dropWhile isFractionPart)
  | rest => (cs.takeWhile isWholePart, rest)

/-- All through the first delimiter that is not escaped by a backslash, or to the end of the text.
-/
def quotedTail (delimiter : Char) : List Char → List Char × List Char
  | [] => ([], [])
  | [c] => ([c], [])
  | c :: d :: cs =>
    if c = '\\' then (c :: d :: (quotedTail delimiter cs).1, (quotedTail delimiter cs).2)
    else if c = delimiter then ([c], d :: cs)
    else (c :: (quotedTail delimiter (d :: cs)).1, (quotedTail delimiter (d :: cs)).2)

def signTail (first : Char) : List Char → List Char × List Char
  | [] => ([], [])
  | second :: cs =>
    if (Symbol.ofSpelling? (String.ofList [first, second])).isSome then ([second], cs)
    else ([], second :: cs)

def tail (first : Char) (cs : List Char) : List Char × List Char :=
  match Form.of first with
  | .word => wordTail cs
  | .string | .character => quotedTail first cs
  | .number => numberTail cs
  | .sign => signTail first cs

def unescape : Char → Char
  | 't' => '\t'
  | 'n' => '\n'
  | 'r' => '\r'
  | c => c

/-- The characters that a quoted text stands for, if the delimiter ends it and all its escapes are
right. The opening delimiter is gone already. -/
def unquote (delimiter : Char) : List Char → Option (List Char)
  | [] => none
  | '\\' :: 'x' :: high :: low :: cs =>
    match Numeral.digit? 16 high, Numeral.digit? 16 low with
    | some h, some l => (unquote delimiter cs).map (Char.ofNat (16 * h + l) :: ·)
    | _, _ => none
  | '\\' :: c :: cs =>
    if c = 'x' then none else (unquote delimiter cs).map (unescape c :: ·)
  | c :: cs =>
    if c = delimiter then if cs.isEmpty then some [] else none
    else if c = '\\' then none
    else (unquote delimiter cs).map (c :: ·)

def decodeNumber (lexeme : List Char) : Except Numeral.Fault (Kind × Value) :=
  if '.' ∈ lexeme then (Numeral.float lexeme).map fun x => (.float, .float x)
  else (Numeral.int lexeme).map fun i => (.int, .int i)

def decode (first : Char) (rest : List Char) : Option (Kind × Value) :=
  let text := String.ofList (first :: rest)
  match Form.of first with
  | .word => some (Lexeme.wordKind text, .string text)
  | .string => (unquote first rest).map fun cs => (.string, .string (String.ofList cs))
  | .character =>
    match unquote first rest with
    | some [c] => some (.int, .int c.toNat)
    | _ => none
  | .number => (decodeNumber (first :: rest)).toOption
  | .sign => (Symbol.ofSpelling? text).map fun sign => (.symbol sign, .symbol sign.spelling)

inductive Means (first : Char) (rest : List Char) : Kind → Value → Prop where
  | word : Form.of first = .word →
      Means first rest (Lexeme.wordKind (String.ofList (first :: rest)))
        (.string (String.ofList (first :: rest)))
  | string {text : List Char} : Form.of first = .string → unquote first rest = some text →
      Means first rest .string (.string (String.ofList text))
  | character {c : Char} : Form.of first = .character → unquote first rest = some [c] →
      Means first rest .int (.int c.toNat)
  | number {kind : Kind} {value : Value} : Form.of first = .number →
      decodeNumber (first :: rest) = .ok (kind, value) → Means first rest kind value
  | sign {symbol : Symbol} : Form.of first = .sign →
      Symbol.ofSpelling? (String.ofList (first :: rest)) = some symbol →
      Means first rest (.symbol symbol) (.symbol symbol.spelling)

theorem means_of_decode {first : Char} {rest : List Char} {kind : Kind} {value : Value}
    (h : decode first rest = some (kind, value)) : Means first rest kind value := by
  unfold decode at h
  cases hf : Form.of first with
  | word =>
    simp only [hf, Option.some.injEq, Prod.mk.injEq] at h
    obtain ⟨rfl, rfl⟩ := h
    exact .word hf
  | string =>
    simp only [hf, Option.map_eq_some_iff, Prod.mk.injEq] at h
    obtain ⟨text, hu, rfl, rfl⟩ := h
    exact .string hf hu
  | character =>
    simp only [hf] at h
    split at h
    · rename_i c hu
      obtain ⟨rfl, rfl⟩ := Prod.mk.inj (Option.some.inj h)
      exact .character hf hu
    · cases h
  | number =>
    simp only [hf] at h
    cases hn : decodeNumber (first :: rest) with
    | error fault => simp [hn, Except.toOption] at h
    | ok meaning =>
      simp only [hn, Except.toOption, Option.some.injEq] at h
      exact .number hf (by rw [hn, h])
  | sign =>
    simp only [hf, Option.map_eq_some_iff, Prod.mk.injEq] at h
    obtain ⟨symbol, hs, rfl, rfl⟩ := h
    exact .sign hf hs

theorem decodeNumber_kind {lexeme : List Char} {kind : Kind} {value : Value}
    (h : decodeNumber lexeme = .ok (kind, value)) : kind = .float ∨ kind = .int := by
  unfold decodeNumber at h
  split at h
  · cases hf : Numeral.float lexeme with
    | error => simp [hf, Except.map] at h
    | ok x => simp_all [Except.map]
  · cases hi : Numeral.int lexeme with
    | error => simp [hi, Except.map] at h
    | ok i => simp_all [Except.map]

/-- A lexeme with its meaning, and what was dropped before it. -/
structure Chunk where
  gap : List Char
  lexeme : List Char
  kind : Kind
  value : Value

/-- How a text ends behind its last token. -/
inductive Ending where
  | clean (gap : List Char)
  | stuck (gap lexeme rest : List Char)

structure Lexing where
  chunks : List Chunk
  ending : Ending

theorem isBlank_newline : Text.isBlank '\n' := by decide

theorem gap_blank {c : Char} (hc : c ≠ '#') (hb : Text.isBlank c) (cs : List Char) :
    gap false (c :: cs) = (c :: (gap false cs).1, (gap false cs).2) := by
  simp [gap, hb, show (c == '#') = false by simpa using hc]

theorem gap_comment (cs : List Char) :
    gap false ('#' :: cs) = ('#' :: (gap true cs).1, (gap true cs).2) := by
  simp [gap]

theorem gap_inside {c : Char} (hc : c ≠ '\n') (cs : List Char) :
    gap true (c :: cs) = (c :: (gap true cs).1, (gap true cs).2) := by
  simp [gap, show (c != '\n') = true by simpa using hc]

theorem gap_inside_newline (cs : List Char) :
    gap true ('\n' :: cs) = ('\n' :: (gap false cs).1, (gap false cs).2) := by
  simp [gap]

theorem gap_lexeme {c : Char} (hc : c ≠ '#') (hb : Text.isBlank c = false) (cs : List Char) :
    gap false (c :: cs) = ([], c :: cs) := by
  simp [gap, hc, hb]

theorem gap_of_head_comment {cs : List Char} (h : cs.head? = some '#') :
    gap false cs = gap true cs := by
  cases cs with
  | nil => cases h
  | cons c cs =>
    obtain rfl : c = '#' := by simpa using h
    rw [gap_comment, gap_inside (by decide)]

theorem gap_append (inside : Bool) (cs : List Char) :
    (gap inside cs).1 ++ (gap inside cs).2 = cs := by
  induction cs generalizing inside with
  | nil => cases inside <;> rfl
  | cons c cs ih =>
    cases inside with
    | true => simp [gap, ih]
    | false =>
      unfold gap
      split
      · simp [ih]
      · rfl

theorem gap_gap (inside : Bool) (cs : List Char) :
    gap inside (gap inside cs).1 = ((gap inside cs).1, []) := by
  induction cs generalizing inside with
  | nil => cases inside <;> rfl
  | cons c cs ih =>
    cases inside with
    | true => simp [gap, ih]
    | false =>
      by_cases h : c = '#' ∨ Text.isBlank c
      · simp [gap, h, ih]
      · simp [gap, h]

theorem gap_stops {inside : Bool} {text cs : List Char} {c : Char}
    (h : (gap inside text).2 = c :: cs) : c ≠ '#' ∧ Text.isBlank c = false := by
  induction text generalizing inside with
  | nil => cases inside <;> simp [gap] at h
  | cons d text ih =>
    cases inside with
    | true => exact ih (by simpa [gap] using h)
    | false =>
      unfold gap at h
      split at h
      · exact ih h
      · rename_i hd
        simp only [List.cons.injEq] at h
        rw [← h.1]
        simpa using hd

theorem wordTail_append (cs : List Char) : (wordTail cs).1 ++ (wordTail cs).2 = cs := by
  have h := List.takeWhile_append_dropWhile (p := isWordPart) (l := cs)
  unfold wordTail
  split
  · rename_i rest hr
    rw [hr] at h
    simpa using h
  · exact h

theorem wordTail_cons {c : Char} (h : isWordPart c) (cs : List Char) :
    wordTail (c :: cs) = (c :: (wordTail cs).1, (wordTail cs).2) := by
  simp only [wordTail, List.dropWhile_cons, List.takeWhile_cons, h, if_true]
  split <;> rfl

theorem wordTail_eq_self {cs : List Char} :
    wordTail cs = (cs, []) ↔ cs.dropWhile isWordPart ∈ [[], ['!']] := by
  have ht := List.takeWhile_append_dropWhile (p := isWordPart) (l := cs)
  constructor
  · intro h
    unfold wordTail at h
    split at h <;> simp_all
  · intro h
    simp only [List.mem_cons, List.not_mem_nil, or_false] at h
    obtain hr | hr := h
    · rw [hr, List.append_nil] at ht
      simp [wordTail, hr, ht]
    · rw [hr] at ht
      simp [wordTail, hr, ht]

theorem numberTail_append (cs : List Char) : (numberTail cs).1 ++ (numberTail cs).2 = cs := by
  have h := List.takeWhile_append_dropWhile (p := isWholePart) (l := cs)
  unfold numberTail
  split
  · rename_i rest hr
    rw [hr] at h
    simpa using h
  · exact h

theorem numberTail_cons {c : Char} (h : isWholePart c) (cs : List Char) :
    numberTail (c :: cs) = (c :: (numberTail cs).1, (numberTail cs).2) := by
  simp only [numberTail, List.dropWhile_cons, List.takeWhile_cons, h, if_true]
  split <;> rfl

theorem quotedTail_append (delimiter : Char) (cs : List Char) :
    (quotedTail delimiter cs).1 ++ (quotedTail delimiter cs).2 = cs := by
  fun_induction quotedTail delimiter cs <;> simp_all

theorem signTail_pair {first second : Char} {sign : Symbol} (cs : List Char)
    (h : Symbol.ofSpelling? (String.ofList [first, second]) = some sign) :
    signTail first (second :: cs) = ([second], cs) := by
  simp only [signTail, h, Option.isSome_some, if_true]

theorem signTail_single {first second : Char} (cs : List Char)
    (h : Symbol.ofSpelling? (String.ofList [first, second]) = none) :
    signTail first (second :: cs) = ([], second :: cs) := by
  simp only [signTail, h, Option.isSome_none, Bool.false_eq_true, if_false]

theorem signTail_append (first : Char) (cs : List Char) :
    (signTail first cs).1 ++ (signTail first cs).2 = cs := by
  cases cs with
  | nil => rfl
  | cons c cs => simp only [signTail]; split <;> rfl

theorem tail_append (first : Char) (cs : List Char) :
    (tail first cs).1 ++ (tail first cs).2 = cs := by
  unfold tail
  split
  · exact wordTail_append cs
  · exact quotedTail_append first cs
  · exact quotedTail_append first cs
  · exact numberTail_append cs
  · exact signTail_append first cs

theorem length_tail_lt {text cs : List Char} {c : Char} (h : (gap false text).2 = c :: cs) :
    (tail c cs).2.length < text.length := by
  have hg := congrArg List.length (gap_append false text)
  have ht := congrArg List.length (tail_append c cs)
  simp only [h, List.length_append, List.length_cons] at hg ht
  omega

/-- Drops a gap and takes a lexeme, until nothing is left or a lexeme has no meaning. -/
def lex (text : List Char) : Lexing :=
  match h : (gap false text).2 with
  | [] => ⟨[], .clean (gap false text).1⟩
  | c :: cs =>
    match decode c (tail c cs).1 with
    | none => ⟨[], .stuck (gap false text).1 (c :: (tail c cs).1) (tail c cs).2⟩
    | some (kind, value) =>
      have := length_tail_lt h
      ⟨⟨(gap false text).1, c :: (tail c cs).1, kind, value⟩ :: (lex (tail c cs).2).chunks,
        (lex (tail c cs).2).ending⟩
termination_by text.length

def Chunk.text (k : Chunk) : List Char :=
  k.gap ++ k.lexeme

def covered (chunks : List Chunk) : List Char :=
  chunks.flatMap Chunk.text

@[simp] theorem covered_nil : covered [] = [] := rfl

@[simp] theorem covered_cons (k : Chunk) (ks : List Chunk) :
    covered (k :: ks) = k.gap ++ (k.lexeme ++ covered ks) := by
  simp [covered, Chunk.text]

theorem covered_append (ks ls : List Chunk) : covered (ks ++ ls) = covered ks ++ covered ls := by
  simp [covered]

def Ending.gap : Ending → List Char
  | clean gap | stuck gap _ _ => gap

def Ending.text : Ending → List Char
  | clean gap => gap
  | stuck gap lexeme rest => gap ++ (lexeme ++ rest)

def Ending.isStuck : Ending → Bool
  | clean _ => false
  | stuck .. => true

/-- Lexemes and gaps make up the whole text, each of them in its place. -/
theorem text_lex (text : List Char) :
    covered (lex text).chunks ++ (lex text).ending.text = text := by
  fun_induction lex text with
  | case1 text h => simpa [h, Ending.text] using gap_append false text
  | case2 text c cs h hd =>
    have hg := gap_append false text
    rw [h] at hg
    simpa [Ending.text, tail_append] using hg
  | case3 text c cs h kind value hd _ ih =>
    have hg := gap_append false text
    have ht := tail_append c cs
    rw [h, ← ht, ← ih] at hg
    simpa using hg

end ScriptFrontend.Longest
