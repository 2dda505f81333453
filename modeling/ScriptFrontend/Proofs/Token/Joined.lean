import ScriptFrontend.Proofs.Token.Extension

set_option autoImplicit false

namespace ScriptFrontend

def Position.lowered (n : Nat) (p : Position) : Position :=
  ⟨p.line + n, p.column⟩

def Token.lowered (n : Nat) (t : Token) : Token :=
  { t with position := t.position.lowered n }

theorem Position.behind_lowered (a before : List Char) :
    behind (a ++ '\n' :: before) = (behind before).lowered (a.count '\n' + 1) := by
  have ht : (before.reverse ++ '\n' :: a.reverse).takeWhile (· != '\n') =
      before.reverse.takeWhile (· != '\n') := by
    rw [List.takeWhile_append]
    split
    · rename_i h
      have hw := (List.takeWhile_prefix (· != '\n')).eq_of_length h
      simp [hw]
    · rfl
  simp only [behind, lowered, List.reverse_append, List.reverse_cons, List.append_assoc,
    List.singleton_append, ht, List.count_append, List.count_cons_self, Position.mk.injEq, and_true]
  omega

namespace Longest

def Outcome.lowered (n : Nat) (o : Outcome) : Outcome :=
  ⟨o.tokens.map (Token.lowered n), o.fails⟩

/-- Whether a new line ends no statement behind these tokens. -/
def continuesBehind (continues : Bool) (ts : List Token) : Bool :=
  (ts.getLast?.map (·.kind.continuesStatement)).getD continues

@[simp] theorem continuesBehind_nil (continues : Bool) :
    continuesBehind continues [] = continues := rfl

@[simp] theorem continuesBehind_cons (continues : Bool) (t : Token) (ts : List Token) :
    continuesBehind continues (t :: ts) = continuesBehind t.kind.continuesStatement ts := by
  cases ts <;> simp [continuesBehind, List.getLast?_cons]

theorem continuesBehind_lineBreak (continues : Bool) (before : List Char) (ts : List Token) :
    continuesBehind continues (lineBreak continues before ++ ts) = continuesBehind true ts := by
  cases continues <;> simp [lineBreak, Token.terminator, Kind.continuesStatement]

theorem commentEnd_newline {cs u v : List Char} (more : List Char)
    (h : commentEnd cs = some (u, v)) :
    commentEnd (cs ++ '\n' :: more) = some (u, v ++ '\n' :: more) := by
  refine commentEnd_append h ?_
  cases v with
  | nil => simp
  | cons c v => simpa using (commentEnd_sound h).2.2

section Join

variable {continues : Bool} {before a b : List Char}

theorem outcome_join (hb : b.head? ≠ some '#') (ha : (outcome continues before a).fails = false) :
    outcome continues before (a ++ '\n' :: b) =
      (outcome true (before ++ a ++ ['\n']) b).after
        ((outcome continues before a).tokens ++
          lineBreak (continuesBehind continues (outcome continues before a).tokens)
            (before ++ a)) := by
  fun_induction outcome continues before a with
  | case1 continues before =>
    rw [List.nil_append, outcome_newline]
    simp
  | case2 continues before cs ih =>
    rw [List.cons_append, outcome_newline, ih ha, Outcome.after_after]
    simp [Outcome.after, continuesBehind_lineBreak]
  | case3 continues before cs hc =>
    rw [List.cons_append, outcome_comment _ _ (commentEnd_complete (commentEnd_eq_none.1 hc) hb)]
    simp
  | case4 continues before cs u v hc lt _ ih =>
    rw [List.cons_append, outcome_comment _ _ (commentEnd_newline b hc), ih ha, Outcome.after_after]
    simp [Outcome.after, continuesBehind_lineBreak, (commentEnd_sound hc).1]
  | case5 continues before c cs hn hm hblank ih =>
    rw [List.cons_append, outcome_blank _ _ hn hm hblank, ih ha]
    simp
  | case6 => cases ha
  | case7 continues before c cs hn hm hblank kind value hd le ih =>
    have he : tail c (cs ++ '\n' :: b) = _ := extends_tail (fun _ => apart_newline b) hd
    rw [List.cons_append, outcome_lexeme _ _ hm (by simpa using hblank) (by rw [he]; exact hd), he,
      ih ha, Outcome.after_after]
    simp [Outcome.after, tail_append]

theorem outcome_join_fails (ha : (outcome continues before a).fails) :
    (outcome continues before (a ++ ['\n'])).fails := by
  fun_induction outcome continues before a with
  | case1 => cases ha
  | case2 continues before cs ih =>
    rw [List.cons_append, outcome_newline]
    exact ih ha
  | case3 => cases ha
  | case4 continues before cs u v hc lt _ ih =>
    rw [List.cons_append, outcome_comment _ _ (commentEnd_newline [] hc)]
    exact ih ha
  | case5 continues before c cs hn hm hblank ih =>
    rw [List.cons_append, outcome_blank _ _ hn hm hblank]
    exact ih ha
  | case6 continues before c cs hn hm hblank hd =>
    rw [List.cons_append, outcome_stuck _ _ hm (by simpa using hblank) (decode_newline hd)]
  | case7 continues before c cs hn hm hblank kind value hd le ih =>
    have he : tail c (cs ++ ['\n']) = _ := extends_tail (fun _ => apart_newline []) hd
    rw [List.cons_append, outcome_lexeme _ _ hm (by simpa using hblank) (by rw [he]; exact hd), he]
    exact ih ha

theorem fails_of_newline (h : (outcome continues before (a ++ ['\n'])).fails = false) :
    (outcome continues before a).fails = false := by
  rw [← Bool.not_eq_true] at h ⊢
  exact fun ha => h (outcome_join_fails ha)

end Join

theorem Outcome.lowered_after (n : Nat) (ts : List Token) (o : Outcome) :
    (o.after ts).lowered n = (o.lowered n).after (ts.map (Token.lowered n)) := by
  simp [Outcome.lowered, Outcome.after]

theorem lineBreak_lowered (continues : Bool) (a before : List Char) :
    lineBreak continues (a ++ '\n' :: before) =
      (lineBreak continues before).map (Token.lowered (a.count '\n' + 1)) := by
  cases continues <;>
    simp [lineBreak, Token.lowered, Token.terminator, Position.behind_lowered]

/-- Behind a newline a text has the same outcome as by itself, only further down. -/
theorem outcome_lowered (continues : Bool) (a before text : List Char) :
    outcome continues (a ++ '\n' :: before) text =
      (outcome continues before text).lowered (a.count '\n' + 1) := by
  fun_induction outcome continues before text with
  | case1 => rw [outcome_nil]; rfl
  | case2 continues before cs ih =>
    rw [outcome_newline, Outcome.lowered_after, ← ih, lineBreak_lowered]
    simp
  | case3 continues before cs hc => rw [outcome_comment_open _ _ hc]; rfl
  | case4 continues before cs u v hc lt _ ih =>
    rw [outcome_comment _ _ hc, Outcome.lowered_after, ← ih, ← lineBreak_lowered]
    simp
  | case5 continues before c cs hn hm hblank ih =>
    rw [outcome_blank _ _ hn hm hblank, ← ih]
    simp
  | case6 continues before c cs hn hm hblank hd =>
    rw [outcome_stuck _ _ hm (by simpa using hblank) hd]
    rfl
  | case7 continues before c cs hn hm hblank kind value hd le ih =>
    rw [outcome_lexeme _ _ hm (by simpa using hblank) hd, Outcome.lowered_after, ← ih]
    simp [Token.lowered, Position.behind_lowered]

/-- Two texts, the first of which ends in a newline, give their tokens one after the other. -/
theorem outcome_append {a b : List Char} (ha : a.getLast? = some '\n') (hb : b.head? ≠ some '#')
    (hf : (outcome true [] a).fails = false) :
    outcome true [] (a ++ b) =
      ((outcome true [] b).lowered (a.count '\n')).after (outcome true [] a).tokens := by
  obtain ⟨lines, rfl⟩ := List.getLast?_eq_some_iff.1 ha
  have hl := fails_of_newline hf
  have hab : (lines ++ ['\n']) ++ b = lines ++ '\n' :: b := by simp
  have hlow : outcome true ([] ++ lines ++ ['\n']) b = _ := outcome_lowered true lines [] b
  rw [hab, outcome_join hb hl, hlow, outcome_join (by simp) hl, outcome_nil]
  simp [Outcome.after, List.count_append]

end Longest

namespace Scanner

variable {σ₁ σ₂ σ₃ : Type} [Source σ₁ Char InputError] [Source σ₂ Char InputError]
  [Source σ₃ Char InputError] {first : σ₁} {second : σ₂} {both : σ₃} {a b : List Char}

theorem run_append (hfirst : Source.Delivers first a) (hsecond : Source.Delivers second b)
    (hboth : Source.Delivers both (a ++ b)) (ha : a.getLast? = some '\n')
    (hb : b.head? ≠ some '#') (he : (ofSource first).run.2.error? = none)
    (he' : (ofSource second).run.2.error? = none) :
    (ofSource both).run.2.error? = none ∧ (ofSource both).run.1 = (ofSource first).run.1 ++
      (ofSource second).run.1.map (Token.lowered (a.count '\n')) := by
  obtain ⟨ht, hf⟩ := run_outcome hfirst
  obtain ⟨ht', hf'⟩ := run_outcome hsecond
  obtain ⟨hts, hfs⟩ := run_outcome hboth
  rw [he] at hf
  rw [he'] at hf'
  rw [Longest.outcome_append ha hb hf.symm] at hts hfs
  rw [hts, ht, ht']
  refine ⟨?_, rfl⟩
  simpa [Longest.Outcome.after, Longest.Outcome.lowered, ← hf'] using hfs

end Scanner

end ScriptFrontend
