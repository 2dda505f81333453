import ScriptFrontend.Proofs.Token.Stream

/-! What a scan of a text gives, found from the start of the text.

A text starts with a newline, a comment, a blank character or a lexeme. Each of them adds its tokens
to what the rest of the text gives (`run_eq_outcome`).
-/

set_option autoImplicit false

namespace ScriptFrontend

namespace Longest

/-- The tokens of a text, and whether the scan fails behind them. -/
structure Outcome where
  tokens : List Token
  fails : Bool

def Outcome.after (ts : List Token) (o : Outcome) : Outcome :=
  ⟨ts ++ o.tokens, o.fails⟩

theorem Outcome.after_after (ts us : List Token) (o : Outcome) :
    (o.after ts).after us = o.after (us ++ ts) := by
  simp [Outcome.after]

/-- The newline behind `before` as a terminator, where a statement can end. -/
def lineBreak (continues : Bool) (before : List Char) : List Token :=
  if continues then [] else [.terminator (.behind before)]

theorem length_commentEnd_lt {cs u v : List Char} (h : commentEnd cs = some (u, v)) :
    v.length < cs.length := by
  rw [(commentEnd_sound h).1, List.length_append, List.length_cons]
  omega

theorem length_tail_le (c : Char) (cs : List Char) : (tail c cs).2.length ≤ cs.length := by
  have h := congrArg List.length (tail_append c cs)
  rw [List.length_append] at h
  omega

/-- The outcome of the text that follows `before`. -/
def outcome (continues : Bool) (before : List Char) : List Char → Outcome
  | [] => ⟨[], false⟩
  | c :: cs =>
    if c = '\n' then (outcome true (before ++ [c]) cs).after (lineBreak continues before)
    else if c = '#' then
      match h : commentEnd cs with
      | none => ⟨[], false⟩
      | some (u, v) =>
        have := length_commentEnd_lt h
        (outcome true (before ++ c :: u ++ ['\n']) v).after (lineBreak continues (before ++ c :: u))
    else if Text.isBlank c then outcome continues (before ++ [c]) cs
    else
      match decode c (tail c cs).1 with
      | none => ⟨[], true⟩
      | some (kind, value) =>
        have := length_tail_le c cs
        (outcome kind.continuesStatement (before ++ c :: (tail c cs).1) (tail c cs).2).after
          [⟨.behind before, kind, value⟩]
termination_by text => text.length

section Equations

variable (continues : Bool) (before : List Char)

theorem outcome_nil : outcome continues before [] = ⟨[], false⟩ := by
  rw [outcome]

theorem outcome_newline (cs : List Char) :
    outcome continues before ('\n' :: cs) =
      (outcome true (before ++ ['\n']) cs).after (lineBreak continues before) := by
  rw [outcome, if_pos rfl]

theorem outcome_blank {c : Char} (hn : c ≠ '\n') (hm : c ≠ '#') (hb : Text.isBlank c)
    (cs : List Char) :
    outcome continues before (c :: cs) = outcome continues (before ++ [c]) cs := by
  rw [outcome, if_neg hn, if_neg hm, if_pos hb]

theorem outcome_comment {cs u v : List Char} (h : commentEnd cs = some (u, v)) :
    outcome continues before ('#' :: cs) =
      (outcome true (before ++ '#' :: u ++ ['\n']) v).after
        (lineBreak continues (before ++ '#' :: u)) := by
  rw [outcome, if_neg (by decide), if_pos rfl]
  split <;> simp_all

theorem outcome_comment_open {cs : List Char} (h : commentEnd cs = none) :
    outcome continues before ('#' :: cs) = ⟨[], false⟩ := by
  rw [outcome, if_neg (by decide), if_pos rfl]
  split <;> simp_all

variable {c : Char} {cs : List Char}

theorem ne_newline_of_not_blank (hb : Text.isBlank c = false) : c ≠ '\n' := by
  intro h
  rw [h, isBlank_newline] at hb
  cases hb

theorem outcome_lexeme {kind : Kind} {value : Value} (hm : c ≠ '#') (hb : Text.isBlank c = false)
    (hd : decode c (tail c cs).1 = some (kind, value)) :
    outcome continues before (c :: cs) =
      (outcome kind.continuesStatement (before ++ c :: (tail c cs).1) (tail c cs).2).after
        [⟨.behind before, kind, value⟩] := by
  rw [outcome, if_neg (ne_newline_of_not_blank hb), if_neg hm, if_neg (by simp [hb])]
  split <;> simp_all

theorem outcome_stuck (hm : c ≠ '#') (hb : Text.isBlank c = false)
    (hd : decode c (tail c cs).1 = none) :
    outcome continues before (c :: cs) = ⟨[], true⟩ := by
  rw [outcome, if_neg (ne_newline_of_not_blank hb), if_neg hm, if_neg (by simp [hb])]
  split <;> simp_all

end Equations

end Longest

open Longest

variable {σ : Type} [Source σ Char InputError]

namespace Token

variable {before cs : List Char} {h : Head σ}

theorem scan_newline (hb : h.Between before ('\n' :: cs)) :
    ∃ t, scan true h = scan true t ∧ t.Between (before ++ ['\n']) cs := by
  obtain ⟨t, hr, ht, -⟩ := hb.read_item
  exact ⟨t, by simp [scan_item hr], ht⟩

theorem scan_comment {u v : List Char} (he : commentEnd cs = some (u, v))
    (hb : h.Between before ('#' :: cs)) :
    ∃ t, scan true h = scan true t ∧ t.Between (before ++ '#' :: u ++ ['\n']) v := by
  obtain ⟨t, hr, ht, -⟩ := hb.read_item
  obtain ⟨w, hw, hbw⟩ := Comment.skip_between he ht
  exact ⟨w, by simp [scan_item hr, hw], by simpa using hbw⟩

theorem scan_blank (continues : Bool) {c : Char} (hn : c ≠ '\n') (hm : c ≠ '#')
    (hc : Text.isBlank c) (hb : h.Between before (c :: cs)) :
    ∃ t, scan continues h = scan continues t ∧ t.Between (before ++ [c]) cs := by
  obtain ⟨t, hr, ht, -⟩ := hb.read_item
  exact ⟨t, by simp [scan_item hr, hn, hm, hc], ht⟩

end Token

namespace Scanner

variable {s : Scanner σ} {continues : Bool} {before cs : List Char}

theorem run_of_advance {s t : Scanner σ} (h : s.advance = t.advance) : s.run = t.run := by
  cases ht : t.advance with
  | mk more u =>
    cases more with
    | true => rw [run_true ht, run_true (h.trans ht)]
    | false => rw [run_false ht, run_false (h.trans ht)]

theorem run_of_pass {before' cs' : List Char} (hs : s.Stands continues before cs)
    (hg : ∃ t, Token.scan continues s.head = Token.scan continues t ∧ t.Between before' cs') :
    ∃ t : Scanner σ, s.run = t.run ∧ t.Stands continues before' cs' := by
  obtain ⟨last, hp, rfl⟩ := hs.scanning
  obtain ⟨head, hh, hb⟩ := hg
  refine ⟨⟨head, .scanning last⟩, run_of_advance ?_, ⟨last, rfl, rfl⟩, hb⟩
  simp only [advance, hp, hh]

theorem run_of_lineBreak {u v : List Char} (hs : s.Stands continues before cs)
    (he : lineEnd cs = some (u, v))
    (hg : ∃ t, Token.scan true s.head = Token.scan true t ∧
      t.Between (before ++ u ++ ['\n']) v) :
    ∃ t : Scanner σ, s.run = (lineBreak continues (before ++ u) ++ t.run.1, t.run.2) ∧
      t.Stands true (before ++ u ++ ['\n']) v := by
  cases continues with
  | false => exact run_of_line he hs
  | true => exact run_of_pass hs hg

theorem run_of_newline (hs : s.Stands continues before ('\n' :: cs)) :
    ∃ t : Scanner σ, s.run = (lineBreak continues before ++ t.run.1, t.run.2) ∧
      t.Stands true (before ++ ['\n']) cs := by
  have hl : lineEnd ('\n' :: cs) = some ([], cs) := by simp [lineEnd]
  have hg := Token.scan_newline hs.between
  simpa using run_of_lineBreak hs hl (by simpa using hg)

theorem run_of_comment {u v : List Char} (hc : commentEnd cs = some (u, v))
    (hs : s.Stands continues before ('#' :: cs)) :
    ∃ t : Scanner σ, s.run = (lineBreak continues (before ++ '#' :: u) ++ t.run.1, t.run.2) ∧
      t.Stands true (before ++ '#' :: u ++ ['\n']) v := by
  have hl : lineEnd ('#' :: cs) = some ('#' :: u, v) := by simp [lineEnd, hc]
  exact run_of_lineBreak hs hl (Token.scan_comment hc hs.between)

theorem run_of_blank {c : Char} (hn : c ≠ '\n') (hm : c ≠ '#') (hb : Text.isBlank c)
    (hs : s.Stands continues before (c :: cs)) :
    ∃ t : Scanner σ, s.run = t.run ∧ t.Stands continues (before ++ [c]) cs :=
  run_of_pass hs (Token.scan_blank _ hn hm hb hs.between)

theorem run_of_first {c : Char} {kind : Kind} {value : Value} (hm : c ≠ '#')
    (hb : Text.isBlank c = false) (hd : decode c (tail c cs).1 = some (kind, value))
    (hs : s.Stands continues before (c :: cs)) :
    ∃ t : Scanner σ, s.run = (⟨.behind before, kind, value⟩ :: t.run.1, t.run.2) ∧
      t.Stands kind.continuesStatement (before ++ c :: (tail c cs).1) (tail c cs).2 := by
  have hg := gap_lexeme hm hb cs
  have hl : lineEnd (c :: cs) = none := by simp [lineEnd, ne_newline_of_not_blank hb, hm, hb]
  obtain ⟨t, ht, hst⟩ := run_of_lexeme hs (.inr hl) (by rw [hg]) hd
  rw [hg] at ht hst
  exact ⟨t, by simpa using ht, by simpa using hst⟩

/-- A scan gives the outcome of the text that it has before it. -/
theorem run_eq_outcome (hs : s.Stands continues before cs) :
    s.run.1 = (outcome continues before cs).tokens ∧
      s.run.2.error?.isSome = (outcome continues before cs).fails := by
  fun_induction outcome continues before cs generalizing s with
  | case1 continues before =>
    obtain ⟨h1, h2⟩ := run_of_end hs (.inr rfl) rfl
    simp [h1, h2]
  | case2 continues before cs ih =>
    obtain ⟨t, ht, hst⟩ := run_of_newline hs
    obtain ⟨h1, h2⟩ := ih hst
    simp [ht, h1, h2, Outcome.after]
  | case3 continues before cs hc =>
    have hg : gap false ('#' :: cs) = _ := gap_comment cs
    obtain ⟨h1, h2⟩ := run_of_end hs (.inr (by simp [lineEnd, hc]))
      (by rw [hg, gap_of_commentEnd_none hc])
    simp [h1, h2]
  | case4 continues before cs u v hc lt _ ih =>
    obtain ⟨t, ht, hst⟩ := run_of_comment hc hs
    obtain ⟨h1, h2⟩ := ih hst
    simp [ht, h1, h2, Outcome.after]
  | case5 continues before c cs hn hm hb ih =>
    obtain ⟨t, ht, hst⟩ := run_of_blank hn hm hb hs
    rw [ht]
    exact ih hst
  | case6 continues before c cs hn hm hb hd =>
    have hg := gap_lexeme hm (by simpa using hb) cs
    have hl : lineEnd (c :: cs) = none := by simp [lineEnd, hn, hm, hb]
    obtain ⟨h1, h2⟩ := run_of_stuck hs (.inr hl) (by rw [hg]) hd
    simp [h1, h2]
  | case7 continues before c cs hn hm hb kind value hd le ih =>
    obtain ⟨t, ht, hst⟩ := run_of_first hm (by simpa using hb) hd hs
    obtain ⟨h1, h2⟩ := ih hst
    simp [ht, h1, h2, Outcome.after]

theorem run_outcome {source : σ} {text : List Char} (hd : Source.Delivers source text) :
    (ofSource source).run.1 = (outcome true [] text).tokens ∧
      (ofSource source).run.2.error?.isSome = (outcome true [] text).fails :=
  run_eq_outcome (stands_ofSource hd)

end Scanner

end ScriptFrontend
