import ScriptFrontend.Proofs.Token.Broken
import ScriptFrontend.Proofs.Token.Extension

set_option autoImplicit false

namespace ScriptFrontend

namespace Longest

theorem dropLast_append_prefix {α : Type} {l m : List α} (front : List α) (h : l.dropLast <+: m) :
    (front ++ l).dropLast <+: front ++ m := by
  by_cases hl : l = []
  · rw [hl, List.append_nil]
    exact (List.dropLast_prefix front).trans (List.prefix_append front m)
  · rw [List.dropLast_append_of_ne_nil hl]
    exact (List.prefix_append_right_inj front).2 h

theorem length_lineBreak_le (continues : Bool) (before : List Char) :
    (lineBreak continues before).length ≤ 1 := by
  cases continues <;> simp [lineBreak]

/-- With more text behind it a text keeps its tokens, all but the last one at most. -/
theorem outcome_truncated (continues : Bool) (before text more : List Char) :
    (outcome continues before text).tokens.dropLast <+:
      (outcome continues before (text ++ more)).tokens := by
  fun_induction outcome continues before text with
  | case1 | case3 | case6 => exact List.nil_prefix
  | case2 continues before cs ih =>
    rw [List.cons_append, outcome_newline]
    exact dropLast_append_prefix _ ih
  | case4 continues before cs u v hc lt _ ih =>
    cases v with
    | nil =>
      have hl := length_lineBreak_le continues (before ++ '#' :: u)
      have hnil : (lineBreak continues (before ++ '#' :: u)).dropLast = [] := by
        rw [← List.length_eq_zero_iff, List.length_dropLast]
        omega
      simp [Outcome.after, outcome_nil, hnil]
    | cons d v =>
      have hd : (d :: v ++ more).head? ≠ some '#' := by simpa using (commentEnd_sound hc).2.2
      rw [List.cons_append, outcome_comment _ _ (commentEnd_append hc hd)]
      exact dropLast_append_prefix _ ih
  | case5 continues before c cs hn hm hb ih =>
    rw [List.cons_append, outcome_blank _ _ hn hm hb]
    exact ih
  | case7 continues before c cs hn hm hb kind value hd le ih =>
    by_cases hleft : (tail c cs).2 = []
    · simp [hleft, Outcome.after, outcome_nil]
    · have he : tail c (cs ++ more) = ((tail c cs).1, (tail c cs).2 ++ more) :=
        extends_tail (fun hnil => absurd hnil hleft) hd
      have hd' : decode c (tail c (cs ++ more)).1 = some (kind, value) := by rw [he]; exact hd
      rw [List.cons_append, outcome_lexeme _ _ hm (by simpa using hb) hd', he]
      exact dropLast_append_prefix _ ih

end Longest

namespace Scanner

variable {σ τ υ : Type} [Source σ Char InputError] [Source τ Char InputError]
  [Source υ Char InputError]

/-- A source that fails behind the first part of a text gives only tokens of the whole of it. The
first part by itself gives the same tokens but for its last one. -/
theorem run_truncated {broken : σ} {short : τ} {whole : υ} {text more : List Char} {e : InputError}
    {later : List (Event Char InputError)}
    (hb : Source.Replays broken (text.map .item ++ .fail e :: later))
    (hs : Source.Delivers short text) (hw : Source.Delivers whole (text ++ more)) :
    (ofSource broken).run.1 <+: (ofSource whole).run.1 ∧
      (ofSource short).run.1.dropLast <+: (ofSource whole).run.1 := by
  have hstart : (ofSource broken).Outlasts more (ofSource whole) :=
    ⟨rfl, rfl, text, e, later, hb, hw⟩
  refine ⟨hstart.run, ?_⟩
  rw [(run_outcome hs).1, (run_outcome hw).1]
  exact Longest.outcome_truncated true [] text more

theorem run_truncated_sign :
    let broken : Feed Char InputError :=
      ⟨"a =".toList.map .item ++ .fail ⟨.other, "gone"⟩ :: [.item '=']⟩
    let short : Feed Char InputError := .ofList "a =".toList
    let whole : Feed Char InputError := .ofList "a == b".toList
    (ofSource broken).run.1.map Token.kind = [.ident] ∧
      (ofSource short).run.1.map Token.kind = [.ident, .symbol .assign] ∧
      (ofSource whole).run.1.map Token.kind = [.ident, .symbol .equal, .ident] ∧
      (ofSource broken).run.1 <+: (ofSource whole).run.1 ∧
      (ofSource short).run.1.dropLast <+: (ofSource whole).run.1 := by
  intro broken short whole
  have hw : Source.Delivers whole ("a =".toList ++ "= b".toList) := Feed.delivers_ofList _
  exact ⟨by decide +kernel, by decide +kernel, by decide +kernel,
    run_truncated (Feed.replays _) (Feed.delivers_ofList _) hw⟩

end Scanner

end ScriptFrontend
