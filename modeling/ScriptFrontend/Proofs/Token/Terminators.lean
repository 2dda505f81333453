import ScriptFrontend.Proofs.Token.Woven

set_option autoImplicit false

namespace ScriptFrontend

namespace Longest

theorem length_breaks_le (continues : Bool) (before gap : List Char) :
    (breaks continues before gap).length ≤ 1 := by
  unfold breaks
  split
  · simp
  · cases lineEnd gap <;> simp

theorem length_breaks {before g : List Char} (hg : gap false g = (g, [])) :
    (breaks false before g).length = 1 ↔ '\n' ∈ g ∧ ¬RunsOut g := by
  have hn : lineEnd g = none ↔ _ := lineEnd_eq_none (by rw [hg])
  have hl : (breaks false before g).length = 1 ↔ lineEnd g ≠ none := by
    cases h : lineEnd g <;> simp [breaks, h]
  rw [hl, ne_eq, hn, not_or, Decidable.not_not]

variable {ks : List Chunk} {e : Ending}

theorem gap_nextGap (hs : ∀ k ∈ ks, k.Sound) (he : gap false e.gap = (e.gap, [])) :
    gap false (nextGap ks e) = (nextGap ks e, []) := by
  cases ks with
  | nil => exact he
  | cons k ks => exact (hs k (.head _)).gap_only

theorem eq_nil_of_runsOut (hs : ∀ k ∈ ks, k.Sound) (h : RunsOut (nextGap ks e)) : ks = [] := by
  cases ks with
  | nil => rfl
  | cons k ks => exact absurd h (hs k (.head _)).not_runsOut

theorem text_nextGap (hs : ∀ k ∈ ks, k.Sound) (he : e.isStuck = false) :
    ∃ rest, covered ks ++ e.text = nextGap ks e ++ rest ∧
      rest.head? = ks.head?.bind (·.lexeme.head?) := by
  cases ks with
  | nil =>
    cases e with
    | clean gap => exact ⟨[], by simp [Ending.text, nextGap, Ending.gap], rfl⟩
    | stuck => cases he
  | cons k ks =>
    refine ⟨k.lexeme ++ (covered ks ++ e.text), by simp [nextGap], ?_⟩
    obtain ⟨c, used, hl, -⟩ := (hs k (.head _)).decoded
    simp [hl]

end Longest

open Longest

variable {σ : Type} [Source σ Char InputError]

/-- The stretch behind a token that can end a statement gives one terminator, if it holds a newline
and does not run out in a comment, and none otherwise. -/
theorem Scanner.terminator_behind {source : σ} {text : List Char} {earlier later : List Token}
    {t : Token} (hd : Source.Delivers source text)
    (he : (ofSource source).run.2.error? = none)
    (hr : (ofSource source).run.1 = earlier ++ t :: later)
    (ht : t.isTerminator = false) (hc : t.kind.continuesStatement = false) :
    ∃ pre k post stretch rest, (lex text).chunks = pre ++ k :: post ∧
      earlier.filter (!·.isTerminator) = placed [] pre ∧ t = k.token (covered pre) ∧
      later.filter (!·.isTerminator) = placed (covered (pre ++ [k])) post ∧
      stretch = nextGap post (lex text).ending ∧ text = covered (pre ++ [k]) ++ (stretch ++ rest) ∧
      rest.head? = post.head?.bind (·.lexeme.head?) ∧
      (later.takeWhile (·.isTerminator)).length ≤ 1 ∧
      ((later.takeWhile (·.isTerminator)).length = 1 ↔ '\n' ∈ stretch ∧ ¬RunsOut stretch) ∧
      (RunsOut stretch → post = []) := by
  obtain ⟨hw, hstuck⟩ := run_ofSource hd
  rw [hw] at hr
  have hs := sound_lex text
  obtain ⟨pre, post', hks, hf, hfound⟩ := weave_split hs hr
  cases hfound with
  | terminator _ h =>
    rw [h] at ht
    cases ht
  | @lexeme k post h hl =>
    have hsp : ∀ k ∈ post, k.Sound := by
      intro k hk
      exact hs k (by simp [hks, hk])
    have hck : k.kind.continuesStatement = false := by simpa [h, Chunk.token] using hc
    rw [hck, List.nil_append] at hl
    have hclean : (lex text).ending.isStuck = false := by simpa [he] using hstuck.symm
    obtain ⟨rest, htext, hrest⟩ := text_nextGap hsp hclean
    have hg := gap_nextGap hsp (ending_lex text).1
    have hall := text_lex text
    refine ⟨pre, k, post, _, rest, hks, hf, by simpa using h, ?_, rfl, ?_, hrest, ?_, ?_,
      eq_nil_of_runsOut hsp⟩
    · rw [hl, filter_weave hsp]
    · rw [← htext]
      simpa [hks, covered_append] using hall.symm
    · rw [hl, takeWhile_weave hsp]
      exact length_breaks_le ..
    · rw [hl, takeWhile_weave hsp]
      exact length_breaks hg

theorem Scanner.terminator_behind_comment :
    let source : Feed Char InputError := .ofList "x # a\ny".toList
    let later : List Token := (ofSource source).run.1.tail
    (later.takeWhile (·.isTerminator)).length = 1 ∧
      ∃ k post, (lex "x # a\ny".toList).chunks = k :: post ∧
        '\n' ∈ nextGap post (lex "x # a\ny".toList).ending := by
  intro source later
  have hr : (ofSource source).run.1 = [] ++ ⟨⟨1, 1⟩, .ident, .string "x"⟩ :: later := by
    decide +kernel
  have hone : (later.takeWhile (·.isTerminator)).length = 1 := by decide +kernel
  obtain ⟨pre, k, post, stretch, rest, hks, hf, -, -, rfl, -, -, -, hiff, -⟩ :=
    terminator_behind (Feed.delivers_ofList _) (by decide +kernel) hr (by decide) (by decide)
  cases pre with
  | nil => exact ⟨hone, k, post, hks, (hiff.1 hone).1⟩
  | cons => simp [placed] at hf

/-- A comment that runs out takes the end of the statement with it, newlines and all. -/
theorem Scanner.terminator_lost :
    let source : Feed Char InputError := .ofList "x # a\n# b".toList
    (ofSource source).run.1 = [⟨⟨1, 1⟩, .ident, .string "x"⟩] ∧
      (ofSource source).run.2.error? = none ∧ Kind.ident.continuesStatement = false ∧
      (lex "x # a\n# b".toList).chunks.map (·.lexeme) = [['x']] ∧
      '\n' ∈ (lex "x # a\n# b".toList).ending.gap := by
  decide +kernel

end ScriptFrontend
