import ScriptFrontend.Proofs.Token.Joined
import ScriptFrontend.Proofs.Token.LongestMatch

set_option autoImplicit false

namespace ScriptFrontend

def Located.lowered {ε : Type} (n : Nat) (e : Located ε) : Located ε :=
  ⟨e.cause, e.position.map (Position.lowered n)⟩

theorem Cursor.last_lowered (a : List Char) {before : List Char} (h : before ≠ []) :
    (after (a ++ '\n' :: before)).last = (after before).last.lowered (a.count '\n' + 1) := by
  obtain ⟨front, c, rfl⟩ : ∃ front c, before = front ++ [c] :=
    ⟨_, _, (List.dropLast_concat_getLast h).symm⟩
  have hfront : a ++ '\n' :: (front ++ [c]) = (a ++ '\n' :: front) ++ [c] := by simp
  rw [hfront, last_snoc, last_snoc, Position.behind_lowered]

namespace Scanner

open Longest

variable {σ₁ σ₂ σ₃ : Type} [Source σ₁ Char InputError] [Source σ₂ Char InputError]
  [Source σ₃ Char InputError]

/-- Behind a newline a scan meets the same error as on the same text by itself. -/
theorem error_lowered {s : Scanner σ₁} {t : Scanner σ₂} {continues continues' : Bool}
    {a before cs : List Char} (hs : s.Stands continues before cs)
    (ht : t.Stands continues' (a ++ '\n' :: before) cs) :
    t.run.2.error? = s.run.2.error?.map (Located.lowered (a.count '\n' + 1)) := by
  cases he : (lex cs).ending with
  | clean gap =>
    have hsome := (run_eq_weave hs).2
    have hsome' := (run_eq_weave ht).2
    rw [he] at hsome hsome'
    simp only [Ending.isStuck, Option.isSome_eq_false_iff, Option.isNone_iff_eq_none]
      at hsome hsome'
    rw [hsome, hsome']
    rfl
  | stuck gap lexeme rest =>
    obtain ⟨c, taken, rfl, htail, hd⟩ := (ending_lex cs).2 gap lexeme rest he
    have hnone : decode c (tail c (taken ++ rest)).1 = none := by rw [htail]; exact hd
    obtain ⟨used, cause, hf⟩ := exists_flaw hnone
    have hne : before ++ (covered (lex cs).chunks ++ (gap ++ c :: used)) ≠ [] := by simp
    have hplace := Cursor.last_lowered a hne
    rw [error_of_flaw hs he hf, error_of_flaw ht he hf, List.append_assoc, List.cons_append,
      hplace]
    rfl

variable {s : Scanner σ₁} {continues : Bool} {before a b : List Char}

theorem run_join (hb : b.head? ≠ some '#') (ha : (outcome continues before a).fails = false)
    (hs : s.Stands continues before (a ++ '\n' :: b)) :
    ∃ t : Scanner σ₁, s.run.2 = t.run.2 ∧ t.Stands true (before ++ a ++ ['\n']) b := by
  fun_induction outcome continues before a generalizing s with
  | case1 continues before =>
    obtain ⟨t, ht, hst⟩ := run_of_newline hs
    exact ⟨t, by rw [ht], by simpa using hst⟩
  | case2 continues before cs ih =>
    obtain ⟨t, ht, hst⟩ := run_of_newline hs
    obtain ⟨u, hu, hsu⟩ := ih ha hst
    exact ⟨u, by rw [ht, hu], by simpa using hsu⟩
  | case3 continues before cs hc =>
    have hend := commentEnd_complete (commentEnd_eq_none.1 hc) hb
    obtain ⟨t, ht, hst⟩ := run_of_comment hend hs
    exact ⟨t, by rw [ht], hst⟩
  | case4 continues before cs u v hc lt _ ih =>
    obtain ⟨t, ht, hst⟩ := run_of_comment (commentEnd_newline b hc) hs
    obtain ⟨w, hw, hsw⟩ := ih ha hst
    exact ⟨w, by rw [ht, hw], by simpa [(commentEnd_sound hc).1] using hsw⟩
  | case5 continues before c cs hn hm hblank ih =>
    obtain ⟨t, ht, hst⟩ := run_of_blank hn hm hblank hs
    obtain ⟨u, hu, hsu⟩ := ih ha hst
    exact ⟨u, by rw [ht, hu], by simpa using hsu⟩
  | case6 => cases ha
  | case7 continues before c cs hn hm hblank kind value hd le ih =>
    have he : tail c (cs ++ '\n' :: b) = _ := extends_tail (fun _ => apart_newline b) hd
    have hd' : decode c (tail c (cs ++ '\n' :: b)).1 = some (kind, value) := by rw [he]; exact hd
    obtain ⟨t, ht, hst⟩ := run_of_first hm (by simpa using hblank) hd' hs
    rw [he] at hst
    obtain ⟨u, hu, hsu⟩ := ih ha hst
    exact ⟨u, by rw [ht, hu], by simpa [tail_append] using hsu⟩

/-- A text behind a newline is scanned as it is by itself, only further down: where no error comes
before the newline, the tokens of the two parts follow one another, and the error is that of the
second part. -/
theorem run_line {first : σ₁} {second : σ₂} {both : σ₃}
    (hfirst : Source.Delivers first (a ++ ['\n'])) (hsecond : Source.Delivers second b)
    (hboth : Source.Delivers both (a ++ '\n' :: b))
    (he : (ofSource first).run.2.error? = none) (hb : b.head? ≠ some '#') :
    (ofSource both).run.1 = (ofSource first).run.1 ++
        (ofSource second).run.1.map (Token.lowered ((a ++ ['\n']).count '\n')) ∧
      (ofSource both).run.2.error? =
        (ofSource second).run.2.error?.map (Located.lowered ((a ++ ['\n']).count '\n')) := by
  have hcount : (a ++ ['\n']).count '\n' = a.count '\n' + 1 := by simp
  have hab : a ++ '\n' :: b = (a ++ ['\n']) ++ b := by simp
  obtain ⟨hts, hfails⟩ := run_outcome hfirst
  rw [he] at hfails
  constructor
  · have hjoin := outcome_append (by simp) hb hfails.symm
    rw [(run_outcome hboth).1, hab, hjoin, hts, (run_outcome hsecond).1]
    rfl
  · have ha := fails_of_newline hfails.symm
    obtain ⟨t, ht, hst⟩ := run_join hb ha (stands_ofSource hboth)
    rw [ht, hcount]
    exact error_lowered (stands_ofSource hsecond) hst

theorem run_line_open_call :
    let first : Feed Char InputError := .ofList "f( # \"\n".toList
    let second : Feed Char InputError := .ofList "\n1)\n'ab'".toList
    let both : Feed Char InputError := .ofList "f( # \"\n\n1)\n'ab'".toList
    (ofSource first).run.2.error? = none ∧
      (ofSource both).run.1.map (fun t => (t.kind, t.position)) =
        [(.ident, ⟨1, 1⟩), (.symbol .lParen, ⟨1, 2⟩), (.int, ⟨3, 1⟩), (.symbol .rParen, ⟨3, 2⟩),
          (.terminator, ⟨3, 3⟩)] ∧
      (ofSource second).run.2.error? = some ⟨.charTooLong, some ⟨3, 3⟩⟩ ∧
      (ofSource both).run.2.error? = some ⟨.charTooLong, some ⟨4, 3⟩⟩ := by
  intro first second both
  have hsecond : Source.Delivers second "\n1)\n'ab'".toList := Feed.delivers_ofList _
  have hboth : Source.Delivers both ("f( # \"".toList ++ '\n' :: "\n1)\n'ab'".toList) :=
    Feed.delivers_ofList _
  have he : (ofSource first).run.2.error? = none := by decide +kernel
  have herr : (ofSource second).run.2.error? = some ⟨.charTooLong, some ⟨3, 3⟩⟩ := by
    decide +kernel
  obtain ⟨htokens, herror⟩ := run_line (Feed.delivers_ofList _) hsecond hboth he (by decide)
  refine ⟨he, ?_, herr, ?_⟩
  · rw [htokens]
    decide +kernel
  · rw [herror, herr]
    rfl

end Scanner

end ScriptFrontend
