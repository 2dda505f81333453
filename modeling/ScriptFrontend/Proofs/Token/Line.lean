import ScriptFrontend.Proofs.Token.Longest

/-! Where the lines of a text end.

A line ends with its newline. A comment that goes on in the next line goes on as one comment: then
the line ends with the newline behind the last line of the comment, and does not end at all where
the text ends first.
-/

set_option autoImplicit false

namespace ScriptFrontend.Longest

/-- The text of a comment before the newline that ends it, and what follows that newline. -/
def commentEnd : List Char → Option (List Char × List Char)
  | [] => none
  | c :: cs =>
    if c = '\n' ∧ cs.head? ≠ some '#' then some ([], cs)
    else (commentEnd cs).map fun p => (c :: p.1, p.2)

/-- What stands before the newline that ends a line of blank characters and comments, and what
follows that newline. -/
def lineEnd : List Char → Option (List Char × List Char)
  | [] => none
  | c :: cs =>
    if c = '\n' then some ([], cs)
    else if c = '#' then (commentEnd cs).map fun p => (c :: p.1, p.2)
    else if Text.isBlank c then (lineEnd cs).map fun p => (c :: p.1, p.2)
    else none

/-- Every newline is followed directly by another line of comment. -/
def Merged (body : List Char) : Prop :=
  ∀ p q, body = p ++ '\n' :: q → q.head? = some '#'

def Opening (cs : List Char) : Prop :=
  ∀ c ∈ cs, c ≠ '\n' ∧ c ≠ '#'

/-- The newline between `u` and `v` ends the line that the gap starts with. -/
inductive EndsLine : List Char → List Char → List Char → Prop where
  | direct {u v : List Char} : Opening u → EndsLine (u ++ '\n' :: v) u v
  | comment {u b v : List Char} : Opening u → Merged b → v.head? ≠ some '#' →
      EndsLine (u ++ '#' :: (b ++ '\n' :: v)) (u ++ '#' :: b) v

/-- A comment on the first line goes on to the end of the gap. -/
def RunsOut (gap : List Char) : Prop :=
  ∃ u b, gap = u ++ '#' :: b ∧ Opening u ∧ Merged b

theorem merged_nil : Merged [] := by
  intro p q h
  cases p <;> cases h

theorem merged_cons {c : Char} {cs : List Char} :
    Merged (c :: cs) ↔ Merged cs ∧ (c = '\n' → cs.head? = some '#') := by
  constructor
  · intro h
    refine ⟨fun p q hp => h (c :: p) q (by rw [hp]; rfl), fun hc => h [] cs (by rw [hc]; rfl)⟩
  · intro hx p q hp
    obtain ⟨h, hc⟩ := hx
    cases p with
    | nil =>
      obtain ⟨rfl, rfl⟩ := List.cons.inj hp
      exact hc rfl
    | cons d p => exact h p q (List.cons.inj hp).2

theorem merged_of_no_newline {cs : List Char} (h : '\n' ∉ cs) : Merged cs := by
  intro p q hp
  simp [hp] at h

theorem opening_nil : Opening [] := by
  intro c hc
  cases hc

theorem opening_cons {c : Char} {cs : List Char} :
    Opening (c :: cs) ↔ (c ≠ '\n' ∧ c ≠ '#') ∧ Opening cs := by
  simp [Opening]

theorem commentEnd_sound {cs u v : List Char} (h : commentEnd cs = some (u, v)) :
    cs = u ++ '\n' :: v ∧ Merged u ∧ v.head? ≠ some '#' := by
  induction cs generalizing u with
  | nil => simp [commentEnd] at h
  | cons c cs ih =>
    unfold commentEnd at h
    split at h
    · rename_i hc
      simp only [Option.some.injEq, Prod.mk.injEq] at h
      obtain ⟨rfl, rfl⟩ := h
      exact ⟨by rw [hc.1]; rfl, merged_nil, hc.2⟩
    · rename_i hc
      rw [Option.map_eq_some_iff] at h
      obtain ⟨⟨u', v'⟩, h', he⟩ := h
      simp only [Prod.mk.injEq] at he
      obtain ⟨rfl, rfl⟩ := he
      obtain ⟨rfl, hm, hv⟩ := ih h'
      refine ⟨rfl, merged_cons.2 ⟨hm, fun hn => ?_⟩, hv⟩
      have hh : c = '\n' → (u' ++ '\n' :: v').head? = some '#' := by simpa using hc
      cases u' with
      | nil => simp [hn] at hh
      | cons d u' => simpa using hh hn

theorem commentEnd_complete {u v : List Char} (hm : Merged u) (hv : v.head? ≠ some '#') :
    commentEnd (u ++ '\n' :: v) = some (u, v) := by
  induction u with
  | nil => simp [commentEnd, hv]
  | cons c u ih =>
    obtain ⟨hm, hc⟩ := merged_cons.1 hm
    have hn : ¬(c = '\n' ∧ (u ++ '\n' :: v).head? ≠ some '#') := by
      intro hx
      obtain ⟨hn, hh⟩ := hx
      have := hc hn
      cases u with
      | nil => simp at this
      | cons d u => exact hh (by simpa using this)
    rw [List.cons_append, commentEnd, if_neg hn, ih hm]
    rfl

theorem commentEnd_append {cs u v more : List Char} (h : commentEnd cs = some (u, v))
    (hm : (v ++ more).head? ≠ some '#') : commentEnd (cs ++ more) = some (u, v ++ more) := by
  obtain ⟨rfl, hu, -⟩ := commentEnd_sound h
  rw [List.append_assoc]
  exact commentEnd_complete hu hm

theorem commentEnd_eq_none {cs : List Char} : commentEnd cs = none ↔ Merged cs := by
  induction cs with
  | nil => simp [commentEnd, merged_nil]
  | cons c cs ih =>
    rw [merged_cons, ← ih, commentEnd]
    split
    · rename_i hc
      simp [hc.1, hc.2]
    · rename_i hc
      have hh : c = '\n' → cs.head? = some '#' := by simpa using hc
      simp only [Option.map_eq_none_iff, iff_self_and]
      exact fun _ => hh

theorem lineEnd_sound {cs u v : List Char} (h : lineEnd cs = some (u, v)) : EndsLine cs u v := by
  induction cs generalizing u with
  | nil => simp [lineEnd] at h
  | cons c cs ih =>
    unfold lineEnd at h
    split at h
    · rename_i hc
      simp only [Option.some.injEq, Prod.mk.injEq] at h
      obtain ⟨rfl, rfl⟩ := h
      rw [hc]
      exact .direct opening_nil
    · rename_i hn
      split at h
      · rename_i hc
        rw [Option.map_eq_some_iff] at h
        obtain ⟨⟨u', v'⟩, h', he⟩ := h
        simp only [Prod.mk.injEq] at he
        obtain ⟨rfl, rfl⟩ := he
        obtain ⟨rfl, hm, hv⟩ := commentEnd_sound h'
        rw [hc]
        exact .comment opening_nil hm hv
      · rename_i hc
        split at h
        · rw [Option.map_eq_some_iff] at h
          obtain ⟨⟨u', v'⟩, h', he⟩ := h
          simp only [Prod.mk.injEq] at he
          obtain ⟨rfl, rfl⟩ := he
          cases ih h' with
          | direct hu => exact .direct (opening_cons.2 ⟨⟨hn, hc⟩, hu⟩)
          | comment hu hm hv => exact .comment (opening_cons.2 ⟨⟨hn, hc⟩, hu⟩) hm hv
        · cases h

theorem not_runsOut_newline (cs : List Char) : ¬RunsOut ('\n' :: cs) := by
  intro hx
  obtain ⟨u, b, h, hu, _⟩ := hx
  cases u with
  | nil => cases h
  | cons d u =>
    obtain ⟨rfl, _⟩ := List.cons.inj h
    exact (hu _ (.head _)).1 rfl

theorem runsOut_comment {cs : List Char} : RunsOut ('#' :: cs) ↔ Merged cs := by
  constructor
  · intro hx
    obtain ⟨u, b, h, hu, hm⟩ := hx
    cases u with
    | nil =>
      obtain ⟨_, rfl⟩ := List.cons.inj h
      exact hm
    | cons d u =>
      obtain ⟨rfl, _⟩ := List.cons.inj h
      exact absurd rfl (hu _ (.head _)).2
  · intro hm
    exact ⟨[], cs, rfl, opening_nil, hm⟩

theorem runsOut_cons {c : Char} {cs : List Char} (hn : c ≠ '\n') (hc : c ≠ '#') :
    RunsOut (c :: cs) ↔ RunsOut cs := by
  constructor
  · intro hx
    obtain ⟨u, b, h, hu, hm⟩ := hx
    cases u with
    | nil => exact absurd (List.cons.inj h).1 hc
    | cons d u =>
      obtain ⟨rfl, rfl⟩ := List.cons.inj h
      exact ⟨u, b, rfl, (opening_cons.1 hu).2, hm⟩
  · intro hx
    obtain ⟨u, b, h, hu, hm⟩ := hx
    exact ⟨c :: u, b, by rw [h]; rfl, opening_cons.2 ⟨⟨hn, hc⟩, hu⟩, hm⟩

/-- In a gap a line that does not end either holds no newline or has a comment that runs out. -/
theorem lineEnd_eq_none {cs : List Char} (hg : (gap false cs).2 = []) :
    lineEnd cs = none ↔ '\n' ∉ cs ∨ RunsOut cs := by
  induction cs with
  | nil => simp [lineEnd]
  | cons c cs ih =>
    by_cases hn : c = '\n'
    · subst hn
      simp [lineEnd, not_runsOut_newline]
    by_cases hc : c = '#'
    · subst hc
      have hm : '\n' ∉ cs → Merged cs := merged_of_no_newline
      simpa [lineEnd, commentEnd_eq_none, runsOut_comment] using hm
    · by_cases hb : Text.isBlank c
      · have hg' : (gap false cs).2 = [] := by simpa [gap_blank hc hb] using hg
        simp [lineEnd, hn, hc, hb, ih hg', runsOut_cons, Ne.symm hn]
      · simp [gap, hb, hc] at hg

theorem head_gap {cs : List Char} (h : cs.head? ≠ some '#') :
    (gap false cs).1.head? ≠ some '#' := by
  intro hh
  rw [← gap_append false cs] at h
  simp [hh] at h

theorem gap_of_commentEnd {cs u v : List Char} (h : commentEnd cs = some (u, v)) :
    gap true cs = (u ++ '\n' :: (gap false v).1, (gap false v).2) := by
  induction cs generalizing u with
  | nil => simp [commentEnd] at h
  | cons c cs ih =>
    unfold commentEnd at h
    split at h
    · rename_i hc
      simp only [Option.some.injEq, Prod.mk.injEq] at h
      obtain ⟨rfl, rfl⟩ := h
      rw [hc.1, gap_inside_newline]
      rfl
    · rename_i hc
      rw [Option.map_eq_some_iff] at h
      obtain ⟨⟨u', v'⟩, h', he⟩ := h
      simp only [Prod.mk.injEq] at he
      obtain ⟨rfl, rfl⟩ := he
      have hg := ih h'
      by_cases hn : c = '\n'
      · have hh : cs.head? = some '#' := by simpa [hn] using hc
        rw [hn, gap_inside_newline, gap_of_head_comment hh, hg]
        rfl
      · rw [gap_inside hn, hg]
        rfl

theorem gap_of_commentEnd_none {cs : List Char} (h : commentEnd cs = none) :
    gap true cs = (cs, []) := by
  induction cs with
  | nil => rfl
  | cons c cs ih =>
    unfold commentEnd at h
    split at h
    · cases h
    · rename_i hc
      have hg := ih (Option.map_eq_none_iff.1 h)
      by_cases hn : c = '\n'
      · have hh : cs.head? = some '#' := by simpa [hn] using hc
        rw [hn, gap_inside_newline, gap_of_head_comment hh, hg]
      · rw [gap_inside hn, hg]

theorem lineEnd_gap {cs u v : List Char} (h : lineEnd cs = some (u, v)) :
    gap false cs = (u ++ '\n' :: (gap false v).1, (gap false v).2) ∧
      lineEnd (gap false cs).1 = some (u, (gap false v).1) := by
  induction cs generalizing u with
  | nil => simp [lineEnd] at h
  | cons c cs ih =>
    unfold lineEnd at h
    split at h
    · rename_i hc
      simp only [Option.some.injEq, Prod.mk.injEq] at h
      obtain ⟨rfl, rfl⟩ := h
      rw [hc, gap_blank (by decide) isBlank_newline]
      simp [lineEnd]
    rename_i hn
    split at h
    · rename_i hc
      rw [Option.map_eq_some_iff] at h
      obtain ⟨⟨u', v'⟩, h', he⟩ := h
      simp only [Prod.mk.injEq] at he
      obtain ⟨rfl, rfl⟩ := he
      obtain ⟨-, hm, hv⟩ := commentEnd_sound h'
      rw [hc, gap_comment, gap_of_commentEnd h']
      simp [lineEnd, commentEnd_complete hm (head_gap hv)]
    · rename_i hc
      split at h
      · rename_i hb
        rw [Option.map_eq_some_iff] at h
        obtain ⟨⟨u', v'⟩, h', he⟩ := h
        simp only [Prod.mk.injEq] at he
        obtain ⟨rfl, rfl⟩ := he
        obtain ⟨hg, hl⟩ := ih h'
        rw [hg] at hl
        rw [gap_blank hc hb, hg]
        simp [lineEnd, hn, hc, hb, hl]
      · cases h

theorem lineEnd_gap_none {cs : List Char} (h : lineEnd cs = none) :
    lineEnd (gap false cs).1 = none := by
  induction cs with
  | nil => rfl
  | cons c cs ih =>
    unfold lineEnd at h
    split at h
    · cases h
    rename_i hn
    split at h
    · rename_i hc
      rw [hc, gap_comment, gap_of_commentEnd_none (Option.map_eq_none_iff.1 h)]
      simpa [lineEnd] using h
    · rename_i hc
      split at h
      · rename_i hb
        rw [gap_blank hc hb]
        simp [lineEnd, hn, hc, hb, ih (Option.map_eq_none_iff.1 h)]
      · rename_i hb
        rw [gap_lexeme hc (by simpa using hb)]
        rfl

theorem not_runsOut_gap {cs : List Char} (h : (gap false cs).2 ≠ []) :
    ¬RunsOut (gap false cs).1 := by
  induction cs with
  | nil => exact absurd rfl h
  | cons c cs ih =>
    by_cases hn : c = '\n'
    · rw [hn, gap_blank (by decide) isBlank_newline]
      exact not_runsOut_newline _
    by_cases hc : c = '#'
    · rw [hc, gap_comment] at h ⊢
      rw [runsOut_comment]
      cases he : commentEnd cs with
      | none => exact absurd (by rw [gap_of_commentEnd_none he]) h
      | some p =>
        obtain ⟨-, -, hv⟩ := commentEnd_sound he
        rw [gap_of_commentEnd he]
        intro hm
        exact head_gap hv (hm _ _ rfl)
    by_cases hb : Text.isBlank c
    · rw [gap_blank hc hb] at h ⊢
      rw [runsOut_cons hn hc]
      exact ih h
    · rw [gap_lexeme hc (by simpa using hb)]
      intro hx
      obtain ⟨u, b, he, _⟩ := hx
      cases u <;> cases he

end ScriptFrontend.Longest
