import ScriptFrontend.Proofs.Token.Line
import ScriptFrontend.Proofs.Token.Readers
import ScriptFrontend.Token.Scanner

/-! The scan of a text, step by step.

A scan that stands before a gap gives a terminator if a line ends there, and then the token of the
next lexeme. Over a whole text this makes the tokens of longest match, with terminators woven in.
-/

set_option autoImplicit false

namespace ScriptFrontend

open Longest

variable {σ : Type} [Source σ Char InputError]

namespace Comment

theorem skipLine_item {h t : Head σ} {c : Char} (hr : Head.read h = .ok (some c) t) :
    skipLine h = if c = '\n' then .ok true t else skipLine t := by
  rw [skipLine]
  split
  · simp_all
  · simp_all
  · rename_i d u hd
    rw [hr] at hd
    cases hd
    rfl

theorem skipLine_end {h t : Head σ} (hr : Head.read h = .ok none t) :
    skipLine h = .ok false t := by
  rw [skipLine]
  split <;> simp_all

theorem skipLine_fail {h t : Head σ} {e : LexError} (hr : Head.read h = .error e t) :
    skipLine h = .error e t := by
  rw [skipLine]
  split <;> simp_all

theorem skip_eq (h : Head σ) :
    skip h =
      match skipLine h with
      | .error e t => .error e t
      | .ok false t => .ok none t
      | .ok true t =>
        match Head.read t with
        | .error e u => .error e u
        | .ok none u => .ok (some t.cursor.last) u
        | .ok (some c) u =>
          if c = '#' then skip u else .ok (some t.cursor.last) (u.unread c t.cursor) := by
  rw [skip]
  split
  · simp_all
  · simp_all
  · split <;> simp_all

theorem skip_other {h t : Head σ} {c : Char} (hr : Head.read h = .ok (some c) t)
    (hn : c ≠ '\n') : skip h = skip t := by
  rw [skip_eq h, skip_eq t, skipLine_item hr, if_neg hn]

theorem skip_merged {before cs : List Char} {h t : Head σ} {c : Char}
    (hr : Head.read h = .ok (some c) t) (ht : t.Between before cs)
    (hc : c = '\n' → cs.head? = some '#') : skip h = skip t := by
  by_cases hn : c = '\n'
  · cases cs with
    | nil => simp [hn] at hc
    | cons d cs =>
      obtain rfl : d = '#' := by simpa using hc hn
      obtain ⟨w, hw, -, -⟩ := ht.read_item
      rw [skip_other hw (by decide), skip_eq, skipLine_item hr, if_pos hn]
      simp [hw]
  · exact skip_other hr hn

theorem skip_between {before cs u v : List Char} {h : Head σ} (he : commentEnd cs = some (u, v))
    (hb : h.Between before cs) :
    ∃ t, skip h = .ok (some (.behind (before ++ u))) t ∧
      t.Between (before ++ u ++ ['\n']) v := by
  induction cs generalizing before u h with
  | nil => simp [commentEnd] at he
  | cons c cs ih =>
    obtain ⟨t, hr, ht, -⟩ := hb.read_item
    unfold commentEnd at he
    split at he
    · rename_i hc
      obtain ⟨rfl, hh⟩ := hc
      simp only [Option.some.injEq, Prod.mk.injEq] at he
      obtain ⟨rfl, rfl⟩ := he
      rw [skip_eq, skipLine_item hr]
      cases cs with
      | nil =>
        obtain ⟨w, hw, hbw⟩ := ht.read_end
        exact ⟨w, by simp [hw, ht.last_snoc], by simpa using hbw⟩
      | cons d cs =>
        obtain ⟨w, hw, -, hbw⟩ := ht.read_item
        have hd : d ≠ '#' := by simpa using hh
        exact ⟨w.unread d t.cursor, by simp [hw, hd, ht.last_snoc], by simpa using hbw⟩
    · rename_i hc
      rw [Option.map_eq_some_iff] at he
      obtain ⟨⟨u', v'⟩, he', hp⟩ := he
      simp only [Prod.mk.injEq] at hp
      obtain ⟨rfl, rfl⟩ := hp
      have hs : skip h = skip t := skip_merged hr ht (by simpa using hc)
      obtain ⟨w, hw, hbw⟩ := ih he' ht
      rw [hs]
      exact ⟨w, by simpa using hw, by simpa using hbw⟩

theorem skip_between_none {before cs : List Char} {h : Head σ} (he : commentEnd cs = none)
    (hb : h.Between before cs) :
    ∃ t, skip h = .ok none t ∧ t.Between (before ++ cs) [] := by
  induction cs generalizing before h with
  | nil =>
    obtain ⟨t, hr, ht⟩ := hb.read_end
    exact ⟨t, by rw [skip_eq, skipLine_end hr], by simpa using ht⟩
  | cons c cs ih =>
    obtain ⟨t, hr, ht, -⟩ := hb.read_item
    unfold commentEnd at he
    split at he
    · cases he
    · rename_i hc
      obtain ⟨w, hw, hbw⟩ := ih (Option.map_eq_none_iff.1 he) ht
      rw [skip_merged hr ht (by simpa using hc)]
      exact ⟨w, hw, by simpa using hbw⟩

end Comment

namespace Token

theorem scan_item {continues : Bool} {h t : Head σ} {c : Char}
    (hr : Head.read h = .ok (some c) t) :
    scan continues h =
      if c = '\n' then
        if continues then scan continues t else .ok (some (terminator t.cursor.last)) t
      else if c = '#' then
        match Comment.skip t with
        | .error e u => .error e u
        | .ok (some newline) u =>
          if continues then scan continues u else .ok (some (terminator newline)) u
        | .ok none u => scan continues u
      else if Text.isBlank c then scan continues t
      else
        match Lexeme.read t.cursor.last c t with
        | .ok token u => .ok (some token) u
        | .error e u => .error e u := by
  rw [scan]
  split
  · simp_all
  · simp_all
  · rename_i d u hd
    rw [hr] at hd
    cases hd
    split
    · rfl
    · split
      · split <;> simp_all
        split <;> simp_all
      · rfl

theorem scan_stop {continues : Bool} {h t : Head σ} (hr : Head.read h = .ok none t) :
    scan continues h = .ok none t := by
  rw [scan]
  split <;> simp_all

theorem scan_fail {continues : Bool} {h t : Head σ} {e : LexError}
    (hr : Head.read h = .error e t) : scan continues h = .error e t := by
  rw [scan]
  split <;> simp_all

theorem scan_line {before cs u v : List Char} {h : Head σ} (he : lineEnd cs = some (u, v))
    (hb : h.Between before cs) :
    ∃ t, scan false h = .ok (some (terminator (.behind (before ++ u)))) t ∧
      t.Between (before ++ u ++ ['\n']) v := by
  induction cs generalizing before u h with
  | nil => simp [lineEnd] at he
  | cons c cs ih =>
    obtain ⟨t, hr, ht, -⟩ := hb.read_item
    rw [scan_item hr]
    unfold lineEnd at he
    split at he
    · rename_i hn
      subst hn
      simp only [Option.some.injEq, Prod.mk.injEq] at he
      obtain ⟨rfl, rfl⟩ := he
      exact ⟨t, by simp [ht.last_snoc], by simpa using ht⟩
    rename_i hn
    rw [if_neg hn]
    split at he
    · rename_i hc
      rw [Option.map_eq_some_iff] at he
      obtain ⟨⟨u', v'⟩, he', hp⟩ := he
      simp only [Prod.mk.injEq] at hp
      obtain ⟨rfl, rfl⟩ := hp
      obtain ⟨w, hw, hbw⟩ := Comment.skip_between he' ht
      exact ⟨w, by simp [hc, hw], by simpa using hbw⟩
    rename_i hc
    rw [if_neg hc]
    split at he
    · rename_i hblank
      rw [Option.map_eq_some_iff] at he
      obtain ⟨⟨u', v'⟩, he', hp⟩ := he
      simp only [Prod.mk.injEq] at hp
      obtain ⟨rfl, rfl⟩ := hp
      obtain ⟨w, hw, hbw⟩ := ih he' ht
      exact ⟨w, by simpa [hblank] using hw, by simpa using hbw⟩
    · cases he

/-- Where no statement can end, or no line ends, the scan goes on behind the gap. -/
theorem scan_gap {continues : Bool} {before cs : List Char} {h : Head σ}
    (hc : continues ∨ lineEnd cs = none) (hb : h.Between before cs) :
    ∃ t, scan continues h = scan continues t ∧
      t.Between (before ++ (gap false cs).1) (gap false cs).2 := by
  -- on the length of the text, since a comment is left behind all at once
  induction hl : cs.length using Nat.strongRecOn generalizing before cs h with
  | ind n ih =>
    cases cs with
    | nil => exact ⟨h, rfl, by simpa [gap] using hb⟩
    | cons c cs =>
      obtain ⟨t, hr, ht, -⟩ := hb.read_item
      simp only [List.length_cons] at hl
      by_cases hn : c = '\n'
      · subst hn
        obtain rfl : continues = true := by simpa [lineEnd] using hc
        obtain ⟨w, hw, hbw⟩ := ih cs.length (by omega) (.inl rfl) ht rfl
        rw [gap_blank (by decide) isBlank_newline]
        exact ⟨w, by simpa [scan_item hr] using hw, by simpa using hbw⟩
      by_cases hm : c = '#'
      · subst hm
        rw [gap_comment]
        cases he : commentEnd cs with
        | none =>
          obtain ⟨w, hw, hbw⟩ := Comment.skip_between_none he ht
          rw [gap_of_commentEnd_none he]
          exact ⟨w, by simp [scan_item hr, hw], by simpa using hbw⟩
        | some p =>
          obtain ⟨u, v⟩ := p
          obtain rfl : continues = true := by simpa [lineEnd, he] using hc
          have hv := congrArg List.length (commentEnd_sound he).1
          simp only [List.length_append, List.length_cons] at hv
          obtain ⟨w, hw, hbw⟩ := Comment.skip_between he ht
          obtain ⟨x, hx, hbx⟩ := ih v.length (by omega) (.inl rfl) hbw rfl
          rw [gap_of_commentEnd he]
          exact ⟨x, by simp [scan_item hr, hw, hx], by simpa using hbx⟩
      by_cases hblank : Text.isBlank c
      · have hc' : continues ∨ lineEnd cs = none := by simpa [lineEnd, hn, hm, hblank] using hc
        obtain ⟨w, hw, hbw⟩ := ih cs.length (by omega) hc' ht rfl
        rw [gap_blank hm hblank]
        exact ⟨w, by simp [scan_item hr, hn, hm, hblank, hw], by simpa using hbw⟩
      · rw [gap_lexeme hm (by simpa using hblank)]
        exact ⟨h, rfl, by simpa using hb⟩

theorem scan_end (continues : Bool) {before : List Char} {h : Head σ} (hb : h.Between before []) :
    ∃ t, scan continues h = .ok none t := by
  obtain ⟨t, hr, -⟩ := hb.read_end
  exact ⟨t, scan_stop hr⟩

theorem scan_lexeme (continues : Bool) {before cs : List Char} {c : Char} {h : Head σ}
    (hm : c ≠ '#') (hblank : Text.isBlank c = false) (hb : h.Between before (c :: cs)) :
    ∃ t, t.Between (before ++ [c]) cs ∧
      scan continues h =
        match Lexeme.read (.behind before) c t with
        | .ok token u => .ok (some token) u
        | .error e u => .error e u := by
  obtain ⟨t, hr, ht, -⟩ := hb.read_item
  refine ⟨t, ht, ?_⟩
  have hn : c ≠ '\n' := by
    intro hn
    rw [hn, isBlank_newline] at hblank
    cases hblank
  simp [scan_item hr, hn, hm, hblank, ht.last_snoc]

end Token

end ScriptFrontend
