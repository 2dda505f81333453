import ScriptFrontend.Proofs.Token.Stream

set_option autoImplicit false

namespace ScriptFrontend

def Token.isTerminator (t : Token) : Bool :=
  t.kind == .terminator

namespace Longest

/-- What lexing says of a single chunk, wherever it stands. -/
structure Chunk.Sound (k : Chunk) : Prop where
  gap_only : Longest.gap false k.gap = (k.gap, [])
  not_runsOut : ¬RunsOut k.gap
  decoded : ∃ c used, k.lexeme = c :: used ∧ decode c used = some (k.kind, k.value)

/-- The tokens of some lexemes behind `before`, without any terminators. -/
def placed (before : List Char) : List Chunk → List Token
  | [] => []
  | k :: ks => k.token before :: placed (before ++ k.text) ks

theorem wordKind_ne_terminator (word : String) : Lexeme.wordKind word ≠ .terminator := by
  unfold Lexeme.wordKind
  split <;> simp

theorem decode_ne_terminator {c : Char} {used : List Char} {kind : Kind} {value : Value}
    (h : decode c used = some (kind, value)) : kind ≠ .terminator := by
  cases means_of_decode h with
  | word hf => exact wordKind_ne_terminator _
  | string hf hu => simp
  | character hf hu => simp
  | number hf hn =>
    obtain rfl | rfl := decodeNumber_kind hn
    · simp
    · simp
  | sign hf hs => simp

namespace Chunk.Sound

variable {k : Chunk}

theorem kind_ne (h : k.Sound) : k.kind ≠ .terminator := by
  obtain ⟨_, _, _, hd⟩ := h.decoded
  exact decode_ne_terminator hd

theorem lexeme_ne (h : k.Sound) : k.lexeme ≠ [] := by
  obtain ⟨c, used, hl, _⟩ := h.decoded
  simp [hl]

theorem isTerminator (h : k.Sound) (before : List Char) :
    (k.token before).isTerminator = false := by
  simpa [Chunk.token, Token.isTerminator] using h.kind_ne

end Chunk.Sound

theorem sound_lex (text : List Char) : ∀ k ∈ (lex text).chunks, k.Sound := by
  fun_induction lex text with
  | case1 => simp
  | case2 => simp
  | case3 text c cs h kind value hd _ ih =>
    intro k hk
    cases hk with
    | head => exact ⟨gap_gap false text, not_runsOut_gap (by simp [h]), c, _, rfl, hd⟩
    | tail _ hk => exact ih k hk

/-- The text ends in a gap, or in a gap and a lexeme that is the longest one and has no meaning. -/
theorem ending_lex (text : List Char) :
    gap false (lex text).ending.gap = ((lex text).ending.gap, []) ∧
      ∀ before lexeme rest, (lex text).ending = .stuck before lexeme rest →
        ∃ c used, lexeme = c :: used ∧ tail c (used ++ rest) = (used, rest) ∧
          decode c used = none := by
  fun_induction lex text with
  | case1 text h => exact ⟨gap_gap false text, by simp⟩
  | case2 text c cs h hd =>
    refine ⟨gap_gap false text, ?_⟩
    intro before lexeme rest he
    simp only [Ending.stuck.injEq] at he
    obtain ⟨-, rfl, rfl⟩ := he
    exact ⟨c, _, rfl, by rw [tail_append], hd⟩
  | case3 text c cs h kind value hd _ ih => exact ih

theorem isTerminator_breaks {continues : Bool} {before gap : List Char} :
    ∀ t ∈ breaks continues before gap, t.isTerminator := by
  intro t ht
  unfold breaks at ht
  split at ht
  · cases ht
  · obtain ⟨_, _, rfl⟩ := List.mem_map.1 ht
    rfl

theorem filter_weave {continues : Bool} {before : List Char} {ks : List Chunk} {e : Ending}
    (hs : ∀ k ∈ ks, k.Sound) :
    (weave continues before ks e).filter (!·.isTerminator) = placed before ks := by
  induction ks generalizing continues before with
  | nil => simpa [weave, placed] using fun t ht => isTerminator_breaks t ht
  | cons k ks ih =>
    have hb : ∀ t ∈ breaks continues before k.gap, ¬(!t.isTerminator) = true := by
      intro t ht
      simp [isTerminator_breaks t ht]
    have hk := (hs k (.head _)).isTerminator before
    have hks : (weave k.kind.continuesStatement (before ++ k.text) ks e).filter _ = _ :=
      ih fun k hk => hs k (.tail _ hk)
    rw [weave, List.filter_append, List.filter_eq_nil_iff.2 hb, List.filter_cons]
    simp [hk, hks, placed]

theorem map_placed (before : List Char) (ks : List Chunk) :
    (placed before ks).map (fun t => (t.kind, t.value)) = ks.map fun k => (k.kind, k.value) := by
  induction ks generalizing before with
  | nil => rfl
  | cons k ks ih => simp [placed, ih, Chunk.token]

end Longest

open Longest

variable {σ : Type} [Source σ Char InputError]

/-- Without its terminators a scan is longest-match lexing: it gives the same tokens, misses no part
of the text unless it fails, and fails at the first lexeme without a meaning. -/
theorem Scanner.run_longest_match {source : σ} {text : List Char}
    (hd : Source.Delivers source text) :
    ((ofSource source).run.1.filter (!·.isTerminator)).map (fun t => (t.kind, t.value)) =
        (lex text).chunks.map (fun k => (k.kind, k.value)) ∧
      ((ofSource source).run.2.error? = none →
        ∃ gap, (lex text).ending = .clean gap ∧ covered (lex text).chunks ++ gap = text) ∧
      ((ofSource source).run.2.error?.isSome ↔
        ∃ gap c used rest, (lex text).ending = .stuck gap (c :: used) rest ∧
          tail c (used ++ rest) = (used, rest) ∧ decode c used = none) := by
  obtain ⟨hr, he⟩ := run_ofSource hd
  have ht := text_lex text
  have hs := (ending_lex text).2
  refine ⟨by rw [hr, filter_weave (sound_lex text), map_placed], ?_, ?_⟩
  · intro hn
    cases hl : (lex text).ending with
    | clean gap => exact ⟨gap, rfl, by simpa [hl, Ending.text] using ht⟩
    | stuck => simp [hn, hl, Ending.isStuck] at he
  · rw [he]
    constructor
    · intro hstuck
      cases hl : (lex text).ending with
      | clean => simp [hl, Ending.isStuck] at hstuck
      | stuck gap lexeme rest =>
        obtain ⟨c, used, rfl, hu⟩ := hs gap lexeme rest hl
        exact ⟨gap, c, used, rest, rfl, hu⟩
    · intro hx
      obtain ⟨gap, c, used, rest, hl, _⟩ := hx
      rw [hl]
      rfl

theorem Scanner.run_longest_match_signs :
    let source : Feed Char InputError := .ofList "x!=y <== 'a' # c".toList
    ((ofSource source).run.1.filter (!·.isTerminator)).map (fun t => (t.kind, t.value)) =
      [(.ident, .string "x!"), (.symbol .assign, .symbol "="), (.ident, .string "y"),
        (.symbol .lte, .symbol "<="), (.symbol .assign, .symbol "="), (.int, .int 97)] := by
  intro source
  have hd : Source.Delivers source _ := Feed.delivers_ofList _
  exact (run_longest_match hd).1.trans (by decide +kernel)

end ScriptFrontend
