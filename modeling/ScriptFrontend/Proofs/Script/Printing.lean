import Mathlib.Data.List.TakeDrop
import Mathlib.Data.List.TakeWhile
import ScriptFrontend.Proofs.Numeral.Integer
import ScriptFrontend.Proofs.Script.Parsing
import ScriptFrontend.Proofs.Token.Extension

/-! Scripts printed one declaration a line, and the lexemes that make up the lines.

A printed word is a lexeme by itself wherever a blank character follows it, so a line is read word
by word.
-/

set_option autoImplicit false

namespace ScriptFrontend

namespace Printing

/-- A letter or `_`, then letters, digits and `_`, then at most one `!`, and no keyword. -/
def isName (text : String) : Bool :=
  match text.toList with
  | [] => false
  | c :: cs =>
    (Text.isAlphabetic c || c == '_') && cs.dropWhile Longest.isWordPart ∈ [[], ['!']] &&
      (Keyword.ofSpelling? text).isNone

structure Name where
  text : String
  isName : isName text

/-- Puts a backslash before every quote and every backslash. -/
def escape (text : List Char) : List Char :=
  text.flatMap fun c => if c = '"' ∨ c = '\\' then ['\\', c] else [c]

def quote (text : String) : String :=
  "\"" ++ String.ofList (escape text.toList) ++ "\""

inductive Operand where
  | int (value : Fin (Nat.pow 2 63))
  | string (text : String)
  | name (id : Name)

namespace Operand

def render : Operand → String
  | int n => n.val.repr
  | string s => quote s
  | name id => id.text

def expr : Operand → Expr
  | int n => .int n.val
  | string s => .string s
  | name id => .name id.text

end Operand

structure ImportLine where
  path : String
  given : Option Name

structure BindingLine where
  name : Name
  stated : Option Name
  value : Operand

inductive Line where
  | imported (what : ImportLine)
  | bound (what : BindingLine)

namespace Line

def isImport : Line → Bool
  | imported _ => true
  | bound _ => false

def render : Line → String
  | imported ⟨path, none⟩ => "import " ++ quote path ++ "\n"
  | imported ⟨path, some given⟩ => "import " ++ quote path ++ " as " ++ given.text ++ "\n"
  | bound ⟨name, none, value⟩ => "let " ++ name.text ++ " = " ++ value.render ++ "\n"
  | bound ⟨name, some stated, value⟩ =>
    "let " ++ name.text ++ " " ++ stated.text ++ " = " ++ value.render ++ "\n"

def declaration (start : Position) : Line → Declaration
  | imported ⟨path, given⟩ => .imported ⟨start, given.elim (baseName path) Name.text, path⟩
  | bound ⟨name, stated, value⟩ =>
    .bound ⟨start, name.text, stated.elim value.expr.ty (fun t => .named t.text), value.expr⟩

/-- What the lines declare from this line of the text on. A string may hold newlines of its own. -/
def declarations (line : Nat) : List Line → List Declaration
  | [] => []
  | l :: ls => l.declaration ⟨line, 1⟩ :: declarations (line + l.render.toList.count '\n') ls

end Line

structure Program where
  imports : List ImportLine
  bindings : List BindingLine

namespace Program

def lines (p : Program) : List Line :=
  p.imports.map .imported ++ p.bindings.map .bound

def text (p : Program) : List Char :=
  p.lines.flatMap fun l => l.render.toList

def declarations (p : Program) : List Declaration :=
  Line.declarations 1 p.lines

end Program

end Printing

namespace Longest

/-- The text is one lexeme with this meaning. -/
def Lexes (text : List Char) (kind : Kind) (value : Value) : Prop :=
  ∃ c cs, text = c :: cs ∧ c ≠ '#' ∧ Text.isBlank c = false ∧ tail c cs = (cs, []) ∧
    decode c cs = some (kind, value)

namespace Lexes

variable {text : List Char} {kind : Kind} {value : Value} (continues : Bool)
  (before more : List Char)

theorem outcome_apart (h : Lexes text kind value) (hm : Apart more) :
    outcome continues before (text ++ more) =
      (outcome kind.continuesStatement (before ++ text) more).after
        [⟨.behind before, kind, value⟩] := by
  obtain ⟨c, cs, rfl, hc, hb, ht, hd⟩ := h
  have he : tail c (cs ++ more) = _ := extends_tail (fun _ => hm) (by rw [ht]; exact hd)
  rw [ht, List.nil_append] at he
  rw [List.cons_append, outcome_lexeme _ _ hc hb (by rw [he]; exact hd), he]

theorem outcome_space (h : Lexes text kind value) :
    outcome continues before (text ++ ' ' :: more) =
      (outcome kind.continuesStatement (before ++ text ++ [' ']) more).after
        [⟨.behind before, kind, value⟩] := by
  have hb : Text.isBlank ' ' := by decide
  have hm : Apart (' ' :: more) := fun c hc => by simpa using (Option.some.inj hc) ▸ hb
  rw [h.outcome_apart continues before _ hm, outcome_blank _ _ (by decide) (by decide) hb]

theorem outcome_newline (h : Lexes text kind value) (hk : kind.continuesStatement = false) :
    outcome continues before (text ++ '\n' :: more) =
      (outcome true (before ++ text ++ ['\n']) more).after
        [⟨.behind before, kind, value⟩, .terminator (.behind (before ++ text))] := by
  rw [h.outcome_apart continues before _ (apart_newline more), Longest.outcome_newline,
    Outcome.after_after, hk]
  rfl

end Lexes

theorem lexes_keyword (word : Keyword) :
    Lexes word.spelling.toList (.keyword word) (.string word.spelling) := by
  cases word <;> exact ⟨_, _, rfl, by decide +kernel⟩

theorem lexes_assign : Lexes ['='] (.symbol .assign) (.symbol "=") :=
  ⟨'=', [], by decide +kernel⟩

end Longest

open Longest

namespace Printing

theorem form_eq_word {c : Char} : Form.of c = .word ↔ Text.isAlphabetic c || c == '_' := by
  unfold Form.of
  split
  · simp_all
  · repeat' split
    all_goals simp_all

theorem wordKind_eq_ident {text : String} :
    Lexeme.wordKind text = .ident ↔ Keyword.ofSpelling? text = none := by
  unfold Lexeme.wordKind
  split <;> simp_all

theorem not_blank_of_word {c : Char} (h : Form.of c = .word) :
    c ≠ '#' ∧ Text.isBlank c = false := by
  constructor
  · rintro rfl
    revert h
    decide +kernel
  · refine Bool.eq_false_iff.2 fun hb => ?_
    have hp := (stops_of_isBlank hb).word
    have hw := form_eq_word.1 h
    simp only [isWordPart, Text.isAlphanumeric, Bool.or_eq_false_iff] at hp
    simp [hp.1.1, hp.2] at hw

theorem form_of_name {c : Char} {cs : List Char} {kind : Kind} {value : Value}
    (hk : kind = .ident ∨ ∃ word, kind = .keyword word) (hd : decode c cs = some (kind, value)) :
    Form.of c = .word := by
  cases means_of_decode hd with
  | word hf => exact hf
  | string hf hu => simp at hk
  | character hf hu => simp at hk
  | number hf hn => obtain rfl | rfl := decodeNumber_kind hn <;> simp at hk
  | sign hf hs => simp at hk

/-- Names are the texts that are one lexeme, an identifier. -/
theorem isName_iff {text : String} : isName text ↔ Lexes text.toList .ident (.string text) := by
  have hname : isName text ↔ ∃ c cs, text.toList = c :: cs ∧ Form.of c = .word ∧
      wordTail cs = (cs, []) ∧ Lexeme.wordKind text = .ident := by
    cases hc : text.toList <;>
      simp [isName, hc, form_eq_word, wordTail_eq_self, wordKind_eq_ident, and_assoc]
  rw [hname]
  constructor
  · intro h
    obtain ⟨c, cs, hc, hf, ht, hk⟩ := h
    have htext : String.ofList (c :: cs) = text := by rw [← hc, String.ofList_toList]
    obtain ⟨hm, hb⟩ := not_blank_of_word hf
    exact ⟨c, cs, hc, hm, hb, by simp [tail, hf, ht], by simp [decode, hf, htext, hk]⟩
  · intro h
    obtain ⟨c, cs, hc, -, -, ht, hd⟩ := h
    have htext : String.ofList (c :: cs) = text := by rw [← hc, String.ofList_toList]
    have hf := form_of_name (.inl rfl) hd
    simp only [tail, hf] at ht
    simp only [decode, hf, htext, Option.some.injEq, Prod.mk.injEq] at hd
    exact ⟨c, cs, hc, hf, ht, hd.1⟩

theorem lexes_name (n : Name) : Lexes n.text.toList .ident (.string n.text) :=
  isName_iff.1 n.isName

theorem spells_escape (c : Char) :
    Spells '"' (if c = '"' ∨ c = '\\' then ['\\', c] else [c]) c := by
  by_cases hc : c = '"' ∨ c = '\\'
  · rw [if_pos hc]
    obtain rfl | rfl := hc
    · exact .escaped (by decide)
    · exact .escaped (by decide)
  · rw [if_neg hc]
    exact .raw (by simp_all) (by simp_all)

theorem escape_cons (c : Char) (cs : List Char) :
    escape (c :: cs) = (if c = '"' ∨ c = '\\' then ['\\', c] else [c]) ++ escape cs := by
  simp [escape]

theorem quotedTail_escape_close (cs : List Char) :
    quotedTail '"' (escape cs ++ ['"']) = (escape cs ++ ['"'], []) := by
  induction cs with
  | nil => rfl
  | cons c cs ih =>
    rw [escape_cons, List.append_assoc, quotedTail_piece delimits_string (spells_escape c), ih]

theorem unquote_escape (cs : List Char) : unquote '"' (escape cs ++ ['"']) = some cs := by
  induction cs with
  | nil => rfl
  | cons c cs ih =>
    rw [escape_cons, List.append_assoc, unquote_piece (spells_escape c), ih]
    rfl

theorem lexes_quote (text : String) : Lexes (quote text).toList .string (.string text) := by
  have hq : (quote text).toList = '"' :: (escape text.toList ++ ['"']) := by simp [quote]
  have hf : Form.of '"' = .string := by decide +kernel
  refine ⟨'"', escape text.toList ++ ['"'], hq, by decide, by decide, ?_, ?_⟩
  · simp [tail, hf, quotedTail_escape_close]
  · simp [decode, hf, unquote_escape]

theorem numberTail_digits {text : List Char} (h : ∀ c ∈ text, c.isDigit) :
    numberTail text = (text, []) := by
  induction text with
  | nil => rfl
  | cons c cs ih =>
    have hc : isWholePart c := by simp [isWholePart, Char.isAlphanum, h c (.head _)]
    rw [numberTail_cons hc, ih fun d hd => h d (.tail _ hd)]

theorem lexes_decimal {n : Nat} (hn : n < Nat.pow 2 63) : Lexes n.repr.toList .int (.int n) := by
  rw [Nat.toList_repr]
  have hi : Numeral.int ([] ++ Nat.toDigits 10 n) = .ok n :=
    Numeral.int_toDigits (r := .decimal) (List.mem_singleton_self []) hn
  rw [List.nil_append] at hi
  have hd : ∀ c ∈ Nat.toDigits 10 n, c.isDigit := fun c hc =>
    Nat.isDigit_of_mem_toDigits (by decide) (by decide) hc
  cases hc : Nat.toDigits 10 n with
  | nil => exact absurd hc Nat.toDigits_ne_nil
  | cons c cs =>
    rw [hc] at hd hi
    obtain ⟨hf, hm, hb⟩ := Scanner.form_of_isDigit (hd c (.head _))
    have ht := numberTail_digits fun d hm => hd d (.tail _ hm)
    have hp : '.' ∉ c :: cs := fun hm => by simpa using hd _ hm
    exact ⟨c, cs, rfl, hm, hb, by simp [tail, hf, ht],
      by simp [decode, hf, decodeNumber, hp, hi, Except.map, Except.toOption]⟩

structure Word where
  text : List Char
  kind : Kind
  value : Value
  lexes : Lexes text kind value
  ends : kind.continuesStatement = false

namespace Word

def keyword (word : Keyword) : Word :=
  ⟨_, _, _, lexes_keyword word, rfl⟩

def assign : Word :=
  ⟨_, _, _, lexes_assign, rfl⟩

def name (n : Name) : Word :=
  ⟨_, _, _, lexes_name n, rfl⟩

def quoted (text : String) : Word :=
  ⟨_, _, _, lexes_quote text, rfl⟩

def operand : Operand → Word
  | .int n => ⟨_, _, _, lexes_decimal n.isLt, rfl⟩
  | .string text => quoted text
  | .name id => name id

end Word

/-- Words with a blank between any two of them, and a newline behind the last one. -/
def phrase : List Word → List Char
  | [] => []
  | [w] => w.text ++ ['\n']
  | w :: ws => w.text ++ ' ' :: phrase ws

def phraseTokens (before : List Char) : List Word → List Token
  | [] => []
  | [w] => [⟨.behind before, w.kind, w.value⟩, .terminator (.behind (before ++ w.text))]
  | w :: ws => ⟨.behind before, w.kind, w.value⟩ :: phraseTokens (before ++ w.text ++ [' ']) ws

theorem outcome_phrase (w : Word) (ws : List Word) (continues : Bool) (before rest : List Char) :
    outcome continues before (phrase (w :: ws) ++ rest) =
      (outcome true (before ++ phrase (w :: ws)) rest).after (phraseTokens before (w :: ws)) := by
  induction ws generalizing w continues before with
  | nil =>
    have hw := w.lexes.outcome_newline continues before rest w.ends
    simpa [phrase, phraseTokens] using hw
  | cons v ws ih =>
    have hw := w.lexes.outcome_space continues before (phrase (v :: ws) ++ rest)
    rw [ih, Outcome.after_after] at hw
    simpa [phrase, phraseTokens] using hw

def Line.words : Line → List Word
  | imported ⟨path, none⟩ => [.keyword .importKw, .quoted path]
  | imported ⟨path, some given⟩ =>
    [.keyword .importKw, .quoted path, .keyword .asKw, .name given]
  | bound ⟨name, none, value⟩ => [.keyword .letKw, .name name, .assign, .operand value]
  | bound ⟨name, some stated, value⟩ =>
    [.keyword .letKw, .name name, .name stated, .assign, .operand value]

theorem Word.text_operand (v : Operand) : (Word.operand v).text = v.render.toList := by
  cases v <;> simp only [Word.operand, Word.quoted, Word.name, Operand.render]

theorem Line.render_eq (l : Line) : l.render.toList = phrase l.words := by
  obtain ⟨path, _ | given⟩ | ⟨name, _ | stated, value⟩ := l <;>
    simp [render, words, phrase, Word.text_operand, Word.keyword, Word.quoted, Word.name,
      Word.assign, Keyword.spelling]

end Printing

end ScriptFrontend
