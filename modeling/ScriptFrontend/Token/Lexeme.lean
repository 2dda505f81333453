import ScriptFrontend.Source.Progress
import ScriptFrontend.Text.Numeric
import ScriptFrontend.Token.Basic
import ScriptFrontend.Token.Head
import ScriptFrontend.Token.Numeral

/-! Readers of single lexemes. Each is called when the first character has been read. -/

set_option autoImplicit false

namespace ScriptFrontend.Lexeme

variable {σ : Type} [Source σ Char InputError]

/-- What a character means for the lexeme before it. -/
inductive Verdict (β : Type) where
  | more (state : β)
  | last
  | stop

/-- Takes characters for as long as `judge` allows, after the ones already in `taken`, which come in
reverse. -/
def munch {β : Type} (judge : β → Char → Verdict β) (state : β) (taken : List Char) :
    Lex σ (β × List Char) := fun h =>
  match hr : Head.read h with
  | .error e t => .error e t
  | .ok none t => .ok (state, taken.reverse) t
  | .ok (some c) t =>
    have := Head.size_read_item hr
    match judge state c with
    | .more state => munch judge state (c :: taken) t
    | .last => .ok (state, (c :: taken).reverse) t
    | .stop => .ok (state, taken.reverse) (t.unread c h.cursor)
termination_by h => h.size

def judgeWord (_ : Unit) (c : Char) : Verdict Unit :=
  if Text.isAlphanumeric c || c == '_' then .more ()
  else if c == '!' then .last
  else .stop

/-- Letters are taken along before the point, where a base may be named. The state says whether the
point was met. -/
def judgeNumber (fraction : Bool) (c : Char) : Verdict Bool :=
  if fraction then
    if c.isDigit || c == '_' then .more true else .stop
  else if c.isAlphanum || c == '_' then .more false
  else if c == '.' then .more true
  else .stop

def wordKind (text : String) : Kind :=
  match Keyword.ofSpelling? text with
  | some word => .keyword word
  | none => .ident

def word (start : Position) (first : Char) : Lex σ Token := do
  let (_, text) ← munch judgeWord () [first]
  let text := String.ofList text
  return ⟨start, wordKind text, .string text⟩

def number (start : Position) (first : Char) : Lex σ Token := do
  let (fraction, text) ← munch judgeNumber false [first]
  let malformed (fault : Numeral.Fault) : LexCause :=
    .malformedNumber (String.ofList text) fault.message
  if fraction then
    match Numeral.float text with
    | .ok x => return ⟨start, .float, .float x⟩
    | .error fault => Head.fail (malformed fault)
  else
    match Numeral.int text with
    | .ok i => return ⟨start, .int, .int i⟩
    | .error fault => Head.fail (malformed fault)

inductive Piece where
  | char (c : Char)
  | close
  | cut
deriving DecidableEq

def hexDigit : Lex σ (Option Nat) := do
  match ← Head.read with
  | none => return none
  | some c =>
    match Numeral.digit? 16 c with
    | some d => return some d
    | none => Head.fail (.invalidEscape (String.ofList ['\\', 'x', c]))

/-- What follows a backslash. Only `t`, `n`, `r` and `x` have a meaning there; any other character
stands for itself. -/
def escape : Lex σ Piece := do
  match ← Head.read with
  | none => return .cut
  | some 't' => return .char '\t'
  | some 'n' => return .char '\n'
  | some 'r' => return .char '\r'
  | some 'x' =>
    match ← hexDigit with
    | none => return .cut
    | some high =>
      match ← hexDigit with
      | none => return .cut
      | some low => return .char (Char.ofNat (16 * high + low))
  | some c => return .char c

def piece (delimiter : Char) : Lex σ Piece := do
  match ← Head.read with
  | none => return .cut
  | some c =>
    if c = '\\' then escape
    else if c = delimiter then return .close
    else return .char c

theorem shrinks_fail {α : Type} (cause : LexCause) :
    Shrinks Head.size (Head.fail cause : Lex σ α) := by
  intro h t b hb
  simp [Head.fail] at hb

theorem shrinks_read : Shrinks Head.size (Head.read : Lex σ (Option Char)) := by
  intro h t c hc
  cases c with
  | none => exact Head.size_read_end hc
  | some c => exact Nat.le_of_lt (Head.size_read_item hc)

theorem shrinks_munch {β : Type} (judge : β → Char → Verdict β) (state : β)
    (taken : List Char) :
    Shrinks Head.size (munch judge state taken : Lex σ (β × List Char)) := by
  intro h
  fun_induction Lexeme.munch judge state taken h with
  | case1 => simp
  | case2 state taken h t hr =>
    rintro _ _ ⟨⟩
    exact Head.size_read_end hr
  | case3 state taken h c t hr lt next _ ih =>
    intro u a hu
    exact Nat.le_trans (ih hu) (Nat.le_of_lt lt)
  | case4 state taken h c t hr lt =>
    rintro _ _ ⟨⟩
    exact Nat.le_of_lt lt
  | case5 state taken h c t hr lt =>
    rintro _ _ ⟨⟩
    have := Head.size_unread t c h.cursor
    omega

theorem shrinks_word (start : Position) (first : Char) :
    Shrinks Head.size (word start first : Lex σ Token) :=
  .bind (shrinks_munch ..) fun _ => .pure _

theorem shrinks_number (start : Position) (first : Char) :
    Shrinks Head.size (number start first : Lex σ Token) := by
  refine .bind (shrinks_munch ..) fun ⟨fraction, text⟩ => ?_
  dsimp only
  split <;> split
  all_goals first | exact .pure _ | exact shrinks_fail _

theorem shrinks_hexDigit : Shrinks Head.size (hexDigit : Lex σ (Option Nat)) := by
  refine .bind shrinks_read fun c => ?_
  split
  · exact .pure _
  · split
    · exact .pure _
    · exact shrinks_fail _

theorem shrinks_escape : Shrinks Head.size (escape : Lex σ Piece) := by
  refine .bind shrinks_read fun c => ?_
  split
  all_goals first | exact .pure _ | skip
  refine .bind shrinks_hexDigit fun high => ?_
  split
  · exact .pure _
  · refine .bind shrinks_hexDigit fun low => ?_
    split <;> exact .pure _

theorem size_piece_char {delimiter c : Char} {h t : Head σ}
    (hp : piece delimiter h = .ok (.char c) t) : t.size < h.size := by
  simp only [piece, Bind.bind, EStateM.bind] at hp
  split at hp
  · rename_i d s hs
    cases d with
    | none => simp [Pure.pure, EStateM.pure] at hp
    | some d =>
      have lt := Head.size_read_item hs
      dsimp only at hp
      split at hp
      · exact Nat.lt_of_le_of_lt (shrinks_escape hp) lt
      · split at hp <;> simp [Pure.pure, EStateM.pure] at hp
        exact hp.2 ▸ lt
  · simp at hp

theorem shrinks_piece (delimiter : Char) : Shrinks Head.size (piece delimiter : Lex σ Piece) := by
  refine .bind shrinks_read fun c => ?_
  split
  · exact .pure _
  · split
    · exact shrinks_escape
    · split <;> exact .pure _

/-- The rest of a string literal, after the characters in `taken`, which come in reverse. -/
def stringBody (taken : List Char) : Lex σ (List Char) := fun h =>
  match hp : piece '"' h with
  | .error e t => .error e t
  | .ok .cut t => Head.fail .unterminatedString t
  | .ok .close t => .ok taken.reverse t
  | .ok (.char c) t =>
    have := size_piece_char hp
    stringBody (c :: taken) t
termination_by h => h.size

theorem shrinks_stringBody (taken : List Char) :
    Shrinks Head.size (stringBody taken : Lex σ (List Char)) := by
  intro h
  fun_induction Lexeme.stringBody taken h with
  | case1 => simp
  | case2 => simp [Head.fail]
  | case3 taken h t hp =>
    rintro _ _ ⟨⟩
    exact shrinks_piece _ hp
  | case4 taken h c t hp lt ih =>
    intro u a hu
    exact Nat.le_trans (ih hu) (Nat.le_of_lt lt)

def string (start : Position) : Lex σ Token := do
  let text ← stringBody []
  return ⟨start, .string, .string (String.ofList text)⟩

def character (start : Position) : Lex σ Token := do
  match ← piece '\'' with
  | .cut => Head.fail .unterminatedChar
  | .close => Head.fail .emptyChar
  | .char c =>
    match ← Head.read with
    | some '\'' => return ⟨start, .int, .int c.toNat⟩
    | some _ => Head.fail .charTooLong
    | none => Head.fail .unterminatedChar

def signToken (start : Position) (sign : Symbol) : Token :=
  ⟨start, .symbol sign, .symbol sign.spelling⟩

def singleSign (start : Position) (first : Char) : Lex σ Token :=
  match Symbol.ofSpelling? (String.ofList [first]) with
  | some sign => return signToken start sign
  | none => Head.fail (.unexpectedChar first)

/-- A symbol of two characters goes before one of a single character. -/
def sign (start : Position) (first : Char) : Lex σ Token := fun h =>
  match Head.read h with
  | .error e t => .error e t
  | .ok none t => singleSign start first t
  | .ok (some second) t =>
    match Symbol.ofSpelling? (String.ofList [first, second]) with
    | some sign => .ok (signToken start sign) t
    | none => singleSign start first (t.unread second h.cursor)

theorem shrinks_string (start : Position) : Shrinks Head.size (string start : Lex σ Token) :=
  .bind (shrinks_stringBody _) fun _ => .pure _

theorem shrinks_character (start : Position) :
    Shrinks Head.size (character start : Lex σ Token) := by
  refine .bind (shrinks_piece _) fun p => ?_
  split
  · exact shrinks_fail _
  · exact shrinks_fail _
  · refine .bind shrinks_read fun c => ?_
    split
    · exact .pure _
    · exact shrinks_fail _
    · exact shrinks_fail _

theorem shrinks_singleSign (start : Position) (first : Char) :
    Shrinks Head.size (singleSign start first : Lex σ Token) := by
  unfold Lexeme.singleSign
  split
  · exact .pure _
  · exact shrinks_fail _

theorem shrinks_sign (start : Position) (first : Char) :
    Shrinks Head.size (sign start first : Lex σ Token) := by
  intro h t a ha
  simp only [Lexeme.sign] at ha
  split at ha
  · simp at ha
  · rename_i s hs
    exact Nat.le_trans (shrinks_singleSign _ _ ha) (Head.size_read_end hs)
  · rename_i c s hs
    have lt := Head.size_read_item hs
    split at ha
    · simp only [EStateM.Result.ok.injEq] at ha
      exact ha.2 ▸ Nat.le_of_lt lt
    · have := shrinks_singleSign _ _ ha
      have := Head.size_unread s c h.cursor
      omega

/-- The lexeme that starts with `first`, a character that is neither blank nor the start of a
comment. -/
def read (start : Position) (first : Char) : Lex σ Token :=
  if Text.isAlphabetic first || first == '_' then word start first
  else if first == '"' then string start
  else if first == '\'' then character start
  else if first.isDigit then number start first
  else sign start first

theorem shrinks_readLexeme (start : Position) (first : Char) :
    Shrinks Head.size (Lexeme.read start first : Lex σ Token) := by
  unfold Lexeme.read
  repeat' split
  · exact shrinks_word ..
  · exact shrinks_string _
  · exact shrinks_character _
  · exact shrinks_number ..
  · exact shrinks_sign ..

end ScriptFrontend.Lexeme
