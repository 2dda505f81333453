import ScriptFrontend.Proofs.Source.Metered
import ScriptFrontend.Proofs.Token.Pushback

/-! What a scan costs.

Every reader takes back one character at most, and a token starts with a character that is never
taken back. So a token costs one character more than is ever taken back (`Metered.scan`), and a scan
that has ended costs nothing any more (`meter_after`).
-/

set_option autoImplicit false

namespace ScriptFrontend

variable {σ α : Type}

def Head.meter (m : σ → Int) (h : Head σ) : Int :=
  m h.source

/-- A piece that holds a character has taken one for good. -/
def Lexeme.Piece.cost (item stop : Int) : Piece → Int
  | char _ => -item
  | close | cut => stop

variable [Source σ Char InputError]

namespace Source.Metered

variable {m : σ → Int} {item back stop : Int} (hm : Metered m item back stop)

include hm

theorem head_item {h t : Head σ} {c : Char} (ht : Head.read h = .ok (some c) t) :
    t.meter m + item ≤ h.meter m ∧ (t.unread c h.cursor).meter m ≤ h.meter m + back := by
  unfold Head.read at ht
  split at ht <;> cases ht
  exact hm.of_item ‹_›

theorem head_stop {h t : Head σ} (ht : Head.read h = .ok none t) :
    t.meter m ≤ h.meter m + stop := by
  unfold Head.read at ht
  split at ht <;> cases ht
  exact hm.of_stop ‹_›

theorem head_fail {h t : Head σ} {e : LexError} (ht : Head.read h = .error e t) :
    t.meter m ≤ h.meter m + stop := by
  unfold Head.read at ht
  split at ht <;> cases ht
  exact hm.of_fail ‹_›

theorem read : Adds (Head.meter m) (price item stop) stop (Head.read : Lex σ (Option Char)) := by
  intro h
  cases ht : Head.read h with
  | ok c? t =>
    cases c? with
    | none => exact hm.head_stop ht
    | some c =>
      have := (hm.head_item ht).1
      dsimp only [Capped, price]
      omega
  | error e t => exact hm.head_fail ht

omit hm [Source σ Char InputError] in
theorem adds_fail {result : α → Int} {failure : Int} (hf : 0 ≤ failure) (cause : LexCause) :
    Adds (Head.meter m) result failure (Head.fail cause : Lex σ α) := by
  intro h
  change h.meter m ≤ h.meter m + failure
  omega

section Lexemes

theorem munch {β : Type} (judge : β → Char → Lexeme.Verdict β) (state : β) (taken : List Char) :
    Adds (Head.meter m) (fun _ => back) back
      (Lexeme.munch judge state taken : Lex σ (β × List Char)) := by
  intro h
  have ⟨hn, hs, hb⟩ := hm.order
  fun_induction Lexeme.munch judge state taken h with
  | case1 state taken h e t ht =>
    have := hm.head_fail ht
    dsimp only [Capped]
    omega
  | case2 state taken h t ht =>
    have := hm.head_stop ht
    dsimp only [Capped]
    omega
  | case3 state taken h c t ht _ next _ ih =>
    have := (hm.head_item ht).1
    exact ih.lift (by omega)
  | case4 state taken h c t ht =>
    have := (hm.head_item ht).1
    dsimp only [Capped]
    omega
  | case5 state taken h c t ht =>
    have := (hm.head_item ht).2
    dsimp only [Capped]
    omega

theorem word (start : Position) (first : Char) :
    Adds (Head.meter m) (fun _ => back) back (Lexeme.word start first : Lex σ Token) :=
  (hm.munch ..).bind (fun _ => .pure (by omega)) (Int.le_refl _)

theorem number (start : Position) (first : Char) :
    Adds (Head.meter m) (fun _ => back) back (Lexeme.number start first : Lex σ Token) := by
  refine (hm.munch ..).bind (fun ⟨fraction, text⟩ => ?_) (Int.le_refl _)
  dsimp only
  split <;> split
  all_goals first | exact .pure (by omega) | exact adds_fail (by omega) _

theorem hexDigit :
    Adds (Head.meter m) (price item stop) stop (Lexeme.hexDigit : Lex σ (Option Nat)) := by
  have ⟨hn, hs, hb⟩ := hm.order
  refine hm.read.bind (fun c => ?_) (Int.le_refl _)
  split
  · exact .pure (by dsimp only [price]; omega)
  · split
    · exact .pure (by dsimp only [price]; omega)
    · exact adds_fail (by dsimp only [price]; omega) _

theorem escape :
    Adds (Head.meter m) (Lexeme.Piece.cost item stop) stop (Lexeme.escape : Lex σ Lexeme.Piece) := by
  have ⟨hn, hs, hb⟩ := hm.order
  refine hm.read.bind (fun c => ?_) (Int.le_refl _)
  split
  all_goals first
    | exact .pure (by dsimp only [price, Lexeme.Piece.cost]; omega)
    | refine hm.hexDigit.bind (fun high => ?_) (by dsimp only [price]; omega)
  split
  · exact .pure (by dsimp only [price, Lexeme.Piece.cost]; omega)
  · refine hm.hexDigit.bind (fun low => ?_) (by dsimp only [price]; omega)
    split
    all_goals exact .pure (by dsimp only [price, Lexeme.Piece.cost]; omega)

theorem piece (delimiter : Char) :
    Adds (Head.meter m) (Lexeme.Piece.cost item stop) stop
      (Lexeme.piece delimiter : Lex σ Lexeme.Piece) := by
  have ⟨hn, hs, hb⟩ := hm.order
  refine hm.read.bind (fun c => ?_) (Int.le_refl _)
  split
  · exact .pure (by dsimp only [price, Lexeme.Piece.cost]; omega)
  · split
    · exact hm.escape.mono (fun _ => by dsimp only [price]; omega) (by dsimp only [price]; omega)
    · split
      all_goals exact .pure (by dsimp only [price, Lexeme.Piece.cost]; omega)

theorem stringBody (taken : List Char) :
    Adds (Head.meter m) (fun _ => stop) stop (Lexeme.stringBody taken : Lex σ (List Char)) := by
  intro h
  have ⟨hn, hs, hb⟩ := hm.order
  fun_induction Lexeme.stringBody taken h with
  | case1 taken h e t ht => exact (hm.piece '"').error ht
  | case2 taken h t ht => exact (hm.piece '"').ok ht
  | case3 taken h t ht => exact (hm.piece '"').ok ht
  | case4 taken h c t ht _ ih =>
    have hc : t.meter m ≤ h.meter m - item := (hm.piece '"').ok ht
    exact ih.lift (by omega)

theorem character (start : Position) :
    Adds (Head.meter m) (fun _ => back) back (Lexeme.character start : Lex σ Token) := by
  have ⟨hn, hs, hb⟩ := hm.order
  refine (hm.piece _).bind (fun p => ?_) hs
  split
  · exact adds_fail (by dsimp only [Lexeme.Piece.cost]; omega) _
  · exact adds_fail (by dsimp only [Lexeme.Piece.cost]; omega) _
  · refine hm.read.bind (fun c => ?_) (by dsimp only [Lexeme.Piece.cost]; omega)
    split
    · exact .pure (by dsimp only [price, Lexeme.Piece.cost]; omega)
    all_goals exact adds_fail (by dsimp only [price, Lexeme.Piece.cost]; omega) _

omit hm [Source σ Char InputError] in
theorem singleSign (start : Position) (first : Char) :
    Adds (Head.meter m) (fun _ => 0) 0 (Lexeme.singleSign start first : Lex σ Token) := by
  unfold Lexeme.singleSign
  split
  · exact .pure (Int.le_refl _)
  · exact adds_fail (Int.le_refl _) _

theorem sign (start : Position) (first : Char) :
    Adds (Head.meter m) (fun _ => back) back (Lexeme.sign start first : Lex σ Token) := by
  intro h
  have ⟨hn, hs, hb⟩ := hm.order
  unfold Lexeme.sign
  split
  · rename_i e t ht
    have := hm.head_fail ht
    dsimp only [Capped]
    omega
  · rename_i t ht
    have := hm.head_stop ht
    exact ((singleSign start first).capped _).mono (fun _ => by omega) (by omega)
  · rename_i second t ht
    have := hm.head_item ht
    split
    · dsimp only [Capped]
      omega
    · exact ((singleSign start first).capped _).mono (fun _ => by omega) (by omega)

theorem lexeme (start : Position) (first : Char) :
    Adds (Head.meter m) (fun _ => back) back (Lexeme.read start first : Lex σ Token) := by
  have ⟨hn, hs, hb⟩ := hm.order
  unfold Lexeme.read
  split
  · exact hm.word ..
  split
  · exact (hm.stringBody _).bind (fun _ => .pure (by omega)) hs
  split
  · exact hm.character start
  split
  · exact hm.number ..
  · exact hm.sign ..

end Lexemes

section Comments

theorem skipLine :
    Adds (Head.meter m) (fun newline => bif newline then -item else stop) stop
      (Comment.skipLine : Lex σ Bool) := by
  intro h
  have ⟨hn, hs, hb⟩ := hm.order
  fun_induction Comment.skipLine h with
  | case1 h e t ht => exact hm.head_fail ht
  | case2 h t ht => exact hm.head_stop ht
  | case3 h t ht =>
    have := (hm.head_item ht).1
    dsimp only [Capped, cond_true]
    omega
  | case4 h c t ht _ _ ih =>
    have := (hm.head_item ht).1
    exact ih.lift (by omega)

/-- The newline pays for the character behind it, which may be taken back. -/
theorem skip :
    Adds (Head.meter m) (price (item - back) stop) stop
      (Comment.skip : Lex σ (Option Position)) := by
  intro h
  have ⟨hn, hs, hb⟩ := hm.order
  fun_induction Comment.skip h with
  | case1 h e t ht => exact hm.skipLine.error ht
  | case2 h t ht => exact hm.skipLine.ok ht
  | case3 h t ht e u hu =>
    have hl : t.meter m ≤ h.meter m + -item := hm.skipLine.ok ht
    have := hm.head_fail hu
    dsimp only [Capped]
    omega
  | case4 h t ht u hu =>
    have hl : t.meter m ≤ h.meter m + -item := hm.skipLine.ok ht
    have := hm.head_stop hu
    dsimp only [Capped, price]
    omega
  | case5 h t ht u hu _ ih =>
    have hl : t.meter m ≤ h.meter m + -item := hm.skipLine.ok ht
    have := (hm.head_item hu).1
    exact ih.lift (by omega)
  | case6 h t ht c u hu =>
    have hl : t.meter m ≤ h.meter m + -item := hm.skipLine.ok ht
    have := (hm.head_item hu).2
    dsimp only [Capped, price]
    omega

end Comments

/-- A token takes a character for good, and pays for one more that is taken back. -/
theorem scan (continues : Bool) :
    Adds (Head.meter m) (price (item - back) stop) stop
      (Token.scan continues : Lex σ (Option Token)) := by
  intro h
  have ⟨hn, hs, hb⟩ := hm.order
  fun_induction Token.scan continues h with
  | case1 h e t ht => exact hm.head_fail ht
  | case2 h t ht => exact hm.head_stop ht
  | case3 h t _ ht _ ih =>
    have := (hm.head_item ht).1
    exact ih.lift (by omega)
  | case4 h t _ ht =>
    have := (hm.head_item ht).1
    dsimp only [Capped, price]
    omega
  | case5 h t e u hu ht =>
    have := (hm.head_item ht).1
    have := hm.skip.error hu
    dsimp only [Capped]
    omega
  | case6 h t u newline hu _ ht _ _ _ _ ih =>
    have := (hm.head_item ht).1
    have hl : u.meter m ≤ t.meter m + -(item - back) := hm.skip.ok hu
    exact ih.lift (by omega)
  | case7 h t u newline hu _ ht =>
    have := (hm.head_item ht).1
    have hl : u.meter m ≤ t.meter m + -(item - back) := hm.skip.ok hu
    dsimp only [Capped, price]
    omega
  | case8 h t u hu ht _ _ _ _ ih =>
    have := (hm.head_item ht).1
    have hl : u.meter m ≤ t.meter m + stop := hm.skip.ok hu
    exact ih.lift (by omega)
  | case9 h c t ht _ _ _ _ ih =>
    have := (hm.head_item ht).1
    exact ih.lift (by omega)
  | case10 h c t ht _ _ _ _ token u hu =>
    have := (hm.head_item ht).1
    have := (hm.lexeme _ _).ok hu
    dsimp only [Capped, price]
    omega
  | case11 h c t ht _ _ _ _ e u hu =>
    have := (hm.head_item ht).1
    have := (hm.lexeme _ _).error hu
    dsimp only [Capped]
    omega

end Source.Metered

namespace Scanner

open Source

theorem head_after_of_ended {s : Scanner σ} (hs : ¬s.Scanning) (calls : List Call) :
    (s.after calls).head = s.head := by
  rw [after_of_ended hs]
  split
  · exact head_told s
  · rfl

variable {m : σ → Int} {item back stop : Int} (hm : Metered m item back stop) {s : Scanner σ}

include hm

theorem meter_advance (s : Scanner σ) :
    s.advance.2.head.meter m ≤ s.head.meter m + bif s.advance.1 then -(item - back) else stop := by
  have ⟨hn, hs, hb⟩ := hm.order
  unfold advance
  split
  · split
    · exact (hm.scan _).ok ‹_›
    · exact (hm.scan _).ok ‹_›
    · exact (hm.scan _).error ‹_›
  · dsimp only [cond_false]
    omega

theorem meter_run (s : Scanner σ) :
    s.run.2.head.meter m + s.run.1.length * (item - back) ≤ s.head.meter m + stop := by
  induction hn : s.size using Nat.strongRecOn generalizing s with
  | ind n ih =>
    cases ha : s.advance with
    | mk more t =>
      have hle := meter_advance hm s
      rw [ha] at hle
      cases more with
      | false => simpa [run_false ha] using hle
      | true =>
        obtain ⟨token, hr, -, -⟩ := call_token ha
        have hrest := ih _ (hn ▸ size_advance ha) t rfl
        dsimp only [cond_true] at hle
        simp only [hr, List.length_cons, Int.natCast_add, Int.natCast_one, Int.add_mul]
        omega

theorem meter_after (s : Scanner σ) (calls : List Call) :
    (s.after calls).head.meter m ≤ s.head.meter m + stop := by
  have ⟨hn, hs, hb⟩ := hm.order
  induction calls generalizing s with
  | nil =>
    change s.head.meter m ≤ s.head.meter m + stop
    omega
  | cons c calls ih =>
    cases ha : s.advance with
    | mk more t =>
      have hle := meter_advance hm s
      rw [ha] at hle
      cases more with
      | true =>
        obtain ⟨token, -, -, hc⟩ := call_token ha
        have hrest := ih t
        dsimp only [cond_true] at hle
        simp only [after, hc]
        omega
      | false =>
        have hended := (ended_of_advance ha).1
        have hhead : ((s.call c).2.after calls).head = t.head := by
          rw [call_stop ha]
          dsimp only
          split
          · rw [head_after_of_ended (told_of_ended hended), head_told]
          · exact head_after_of_ended hended calls
        simp only [after, hhead]
        exact hle

omit hm in
/-- However a scan is called, no more calls are made on its source than fit its size. -/
theorem calls_after (source : σ) (calls : List Call) :
    ((traced source).after calls).head.source.calls.length ≤ 3 * Source.size source + 1 := by
  have hle := meter_after Recorded.metered_effort (traced source) calls
  have hstart : (traced source).head.meter Recorded.effort = 3 * Source.size source :=
    Recorded.effort_start source
  have hcalls := ((traced source).after calls).head.source.calls_le_effort
  unfold Head.meter at *
  omega

end Scanner

end ScriptFrontend
