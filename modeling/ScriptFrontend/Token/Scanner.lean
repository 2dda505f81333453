import ScriptFrontend.Text.Blank
import ScriptFrontend.Token.Lexeme

/-! From characters to tokens.

A new line ends the statement with a terminator, unless the token before it shows that the statement
goes on. Lines of comment that follow one another directly are one comment, and end as one line.
-/

set_option autoImplicit false

namespace ScriptFrontend

variable {σ : Type} [Source σ Char InputError]

namespace Comment

def skipLine : Lex σ Bool := fun h =>
  match hr : Head.read h with
  | .error e t => .error e t
  | .ok none t => .ok false t
  | .ok (some c) t =>
    have := Head.size_read_item hr
    if c = '\n' then .ok true t else skipLine t
termination_by h => h.size

theorem shrinks_skipLine : Shrinks Head.size (skipLine : Lex σ Bool) := by
  intro h
  fun_induction skipLine h with
  | case1 => simp
  | case2 h t hr =>
    rintro _ _ ⟨⟩
    exact Head.size_read_end hr
  | case3 h t hr lt =>
    rintro _ _ ⟨⟩
    exact Nat.le_of_lt lt
  | case4 h c t hr lt hc ih =>
    intro u a hu
    exact Nat.le_trans (ih hu) (Nat.le_of_lt lt)

/-- Takes a comment whose `#` has been read, along with the newline that ends it. The result is the
place of that newline, or nothing where the input ended first. -/
def skip : Lex σ (Option Position) := fun h =>
  match hl : skipLine h with
  | .error e t => .error e t
  | .ok false t => .ok none t
  | .ok true t =>
    match hr : Head.read t with
    | .error e u => .error e u
    | .ok none u => .ok (some t.cursor.last) u
    | .ok (some c) u =>
      have := Nat.lt_of_lt_of_le (Head.size_read_item hr) (shrinks_skipLine hl)
      if c = '#' then skip u else .ok (some t.cursor.last) (u.unread c t.cursor)
termination_by h => h.size

theorem shrinks_skip : Shrinks Head.size (skip : Lex σ (Option Position)) := by
  intro h
  fun_induction skip h with
  | case1 => simp
  | case2 h t hl =>
    rintro _ _ ⟨⟩
    exact shrinks_skipLine hl
  | case3 => simp
  | case4 h t hl u hr =>
    rintro _ _ ⟨⟩
    exact Nat.le_trans (Head.size_read_end hr) (shrinks_skipLine hl)
  | case5 h t hl u hr lt ih =>
    intro v a hv
    exact Nat.le_trans (ih hv) (Nat.le_of_lt lt)
  | case6 h t hl c u hr lt hc =>
    rintro _ _ ⟨⟩
    have := Head.size_unread u c t.cursor
    omega

end Comment

def Token.terminator (newline : Position) : Token :=
  ⟨newline, .terminator, .symbol "\n"⟩

/-- The next token, or nothing at the end of the input. `continues` says that a new line ends no
statement here. -/
def Token.scan (continues : Bool) : Lex σ (Option Token) := fun h =>
  match hr : Head.read h with
  | .error e t => .error e t
  | .ok none t => .ok none t
  | .ok (some c) t =>
    have := Head.size_read_item hr
    if c = '\n' then
      if continues then scan continues t else .ok (some (terminator t.cursor.last)) t
    else if c = '#' then
      match hc : Comment.skip t with
      | .error e u => .error e u
      | .ok newline u =>
        have := Comment.shrinks_skip hc
        match newline with
        | some newline =>
          if continues then scan continues u else .ok (some (terminator newline)) u
        | none => scan continues u
    else if Text.isBlank c then scan continues t
    else
      match Lexeme.read t.cursor.last c t with
      | .ok token u => .ok (some token) u
      | .error e u => .error e u
termination_by h => h.size

theorem Token.size_scan_token {continues : Bool} {h t : Head σ} {token : Token}
    (hs : scan continues h = .ok (some token) t) : t.size < h.size := by
  fun_induction scan continues h with
  | case1 => simp at hs
  | case2 => simp at hs
  | case3 _ h t' hr lt ih => exact Nat.lt_trans (ih hs) lt
  | case4 _ h t' hr lt =>
    simp only [EStateM.Result.ok.injEq] at hs
    exact hs.2 ▸ lt
  | case5 => simp at hs
  | case6 => rename_i ih; exact Nat.lt_trans (ih hs) (by omega)
  | case7 h t' hr lt _ u newline hc le hk =>
    simp only [EStateM.Result.ok.injEq] at hs
    exact hs.2 ▸ (by omega)
  | case8 => rename_i ih; exact Nat.lt_trans (ih hs) (by omega)
  | case9 h c t' hr lt _ _ _ ih => exact Nat.lt_trans (ih hs) lt
  | case10 h c t' hr lt _ _ _ token' u hl =>
    simp only [EStateM.Result.ok.injEq] at hs
    exact hs.2 ▸ Nat.lt_of_le_of_lt (Lexeme.shrinks_readLexeme _ _ hl) lt
  | case11 => simp at hs

inductive Phase where
  | scanning (last : Option Token)
  | finished
  /-- Stopped by an error that was not handed out yet. -/
  | failed (error : LexError)
  | reported (error : LexError)
deriving DecidableEq

structure Scanner (σ : Type) where
  head : Head σ
  phase : Phase := .scanning none

namespace Scanner

def ofSource (source : σ) : Scanner σ :=
  { head := { source } }

def current? (s : Scanner σ) : Option Token :=
  match s.phase with
  | .scanning last => last
  | _ => none

def error? (s : Scanner σ) : Option LexError :=
  match s.phase with
  | .failed e | .reported e => some e
  | _ => none

/-- At the very start there is no statement that a new line could end. -/
def continues (last : Option Token) : Bool :=
  (last.map fun token => token.kind.continuesStatement).getD true

/-- Scans one token. The result is `false` once the input has ended or an error was met, and stays
so. -/
def advance (s : Scanner σ) : Bool × Scanner σ :=
  match s.phase with
  | .scanning last =>
    match Token.scan (continues last) s.head with
    | .ok (some token) head => (true, ⟨head, .scanning (some token)⟩)
    | .ok none head => (false, ⟨head, .finished⟩)
    | .error e head => (false, ⟨head, .failed e⟩)
  | _ => (false, s)

/-- Gives the tokens one by one, and then the error that stopped the scan, once. -/
def next (s : Scanner σ) : Option (Except LexError Token) × Scanner σ :=
  match s.advance with
  | (true, s) => (s.current?.map .ok, s)
  | (false, s) =>
    match s.phase with
    | .failed e => (some (.error e), { s with phase := .reported e })
    | _ => (none, s)

def size (s : Scanner σ) : Nat :=
  s.head.size

theorem size_advance {s t : Scanner σ} (h : s.advance = (true, t)) : t.size < s.size := by
  simp only [advance] at h
  split at h
  · split at h <;> simp at h
    rename_i hs
    exact h ▸ Token.size_scan_token hs
  · simp at h

def pending (s : Scanner σ) : Nat :=
  match s.phase with
  | .scanning _ | .failed _ => 1
  | .finished | .reported _ => 0

theorem pending_advance {s t : Scanner σ} (h : s.advance = (true, t)) :
    s.pending = 1 ∧ t.pending = 1 := by
  simp only [advance] at h
  split at h
  · split at h <;> simp at h
    simp_all [pending, ← h]
  · simp at h

theorem next_token {s t : Scanner σ} {token : Token} (h : s.next = (some (.ok token), t)) :
    t.pending = s.pending ∧ t.size < s.size := by
  simp only [next] at h
  split at h
  · rename_i u hu
    obtain ⟨-, rfl⟩ := Prod.mk.inj h
    have := pending_advance hu
    exact ⟨by omega, size_advance hu⟩
  · split at h <;> simp at h

theorem next_error {s t : Scanner σ} {e : LexError} (h : s.next = (some (.error e), t)) :
    t.pending < s.pending := by
  simp only [next] at h
  split at h
  · rename_i u hu
    simp only [Prod.mk.injEq, Option.map_eq_some_iff] at h
    simp at h
  · rename_i u hu
    simp only [advance] at hu
    split at h <;> simp at h
    rename_i hp
    split at hu
    · simp_all [pending, ← h.2]
    · simp only [Prod.mk.injEq, true_and] at hu
      subst hu
      simp [pending, ← h.2, hp]

def rest (s : Scanner σ) : List (Except LexError Token) × Scanner σ :=
  go s []
where
  go (s : Scanner σ) (earlier : List (Except LexError Token)) :
      List (Except LexError Token) × Scanner σ :=
    match h : s.next with
    | (none, t) => (earlier.reverse, t)
    | (some (.ok token), t) =>
      have := next_token h
      go t (.ok token :: earlier)
    | (some (.error e), t) =>
      have := next_error h
      go t (.error e :: earlier)
  termination_by (s.pending, s.size)
  decreasing_by
    · rw [this.1]
      exact Prod.Lex.right _ this.2
    · exact Prod.Lex.left _ _ this

def run (s : Scanner σ) : List Token × Scanner σ :=
  go s []
where
  go (s : Scanner σ) (earlier : List Token) : List Token × Scanner σ :=
    match h : s.advance with
    | (false, t) => (earlier.reverse, t)
    | (true, t) =>
      have := size_advance h
      go t (t.current?.toList ++ earlier)
  termination_by s.size

/-- The tokens as a source of their own, which fails where the scan fails. -/
def feed (s : Scanner σ) : Feed Token LexError :=
  let (tokens, t) := s.run
  ⟨tokens.map .item ++ t.error?.toList.map .fail⟩

end Scanner

end ScriptFrontend
