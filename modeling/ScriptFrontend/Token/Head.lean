import ScriptFrontend.Source.Basic
import ScriptFrontend.Token.LexError

/-! The place where source text is being read: a source of characters and a cursor that counts lines
and columns along with it. A character that is taken back takes the cursor back too.
-/

set_option autoImplicit false

namespace ScriptFrontend

/-- `line` and `column` count what was read: a newline is the last character of its line. -/
structure Cursor where
  line : Nat
  column : Nat
  last : Position
deriving DecidableEq

namespace Cursor

def start : Cursor :=
  ⟨1, 0, .origin⟩

def step (k : Cursor) (c : Char) : Cursor :=
  let last : Position := ⟨k.line, k.column + 1⟩
  if c = '\n' then ⟨k.line + 1, 0, last⟩ else ⟨k.line, k.column + 1, last⟩

end Cursor

structure Head (σ : Type) where
  source : σ
  cursor : Cursor := .start
deriving DecidableEq

/-- Readers of source text. Where one fails, the head stays behind what was read. -/
abbrev Lex (σ : Type) := EStateM LexError (Head σ)

namespace Head

variable {σ α : Type}

def fail (cause : LexCause) : Lex σ α := fun h =>
  .error ⟨cause, some h.cursor.last⟩ h

variable [Source σ Char InputError]

def size (h : Head σ) : Nat :=
  Source.size h.source

def read : Lex σ (Option Char) := fun h =>
  match Source.read h.source with
  | .ok (some c) s => .ok (some c) ⟨s, h.cursor.step c⟩
  | .ok none s => .ok none { h with source := s }
  | .error e s => .error ⟨.input e, some h.cursor.last⟩ { h with source := s }

def unread (h : Head σ) (c : Char) (before : Cursor) : Head σ :=
  ⟨Source.unread c h.source, before⟩

theorem size_read_item {h t : Head σ} {c : Char} (hr : read h = .ok (some c) t) :
    t.size < h.size := by
  simp only [read] at hr
  split at hr <;> simp at hr
  rename_i s hs
  simp only [← hr.2]
  obtain ⟨rfl, _⟩ := hr
  exact Source.size_item hs

theorem size_read_end {h t : Head σ} (hr : read h = .ok none t) : t.size ≤ h.size := by
  simp only [read] at hr
  split at hr <;> simp at hr
  rename_i s hs
  simp only [← hr]
  exact Source.size_end hs

theorem size_unread (h : Head σ) (c : Char) (before : Cursor) :
    (h.unread c before).size ≤ h.size + 1 :=
  Source.size_unread c h.source

end Head

end ScriptFrontend
