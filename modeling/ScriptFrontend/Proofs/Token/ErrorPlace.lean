import ScriptFrontend.Proofs.Source.Replay
import ScriptFrontend.Proofs.Token.Agreement
import ScriptFrontend.Proofs.Token.Lockstep

/-! Where a scan fails, whatever source the text comes from.

A reader that meets a failure of its own or of the source places it at the character that was read
last. So what holds of the cursor all through the scan holds of the place of the error (`fails_at`):
it is not before any token, and a failure of the source stands at the last character delivered.
-/

set_option autoImplicit false

namespace ScriptFrontend

namespace Cursor

/-- The cursor has come as far as `p`, and the next character stands behind the last one. -/
structure Past (p : Position) (k : Cursor) : Prop where
  reached : (compare p k.last).isLE
  ahead : compare k.last ⟨k.line, k.column + 1⟩ = .lt

variable {p : Position} {k : Cursor}

theorem past_start : Past .origin start :=
  ⟨by decide, by decide⟩

theorem Past.step (h : Past p k) (c : Char) : Past p (k.step c) := by
  obtain ⟨hr, ha⟩ := h
  rw [Position.isLE_iff] at hr
  rw [Position.compare_eq_lt] at ha
  constructor
  · rw [Position.isLE_iff]
    unfold Cursor.step
    split <;> dsimp only at ha ⊢ <;> omega
  · rw [Position.compare_eq_lt]
    unfold Cursor.step
    split <;> dsimp only <;> omega

theorem Past.here (h : Past p k) : Past k.last k :=
  ⟨by rw [Position.isLE_iff]; omega, h.ahead⟩

end Cursor

variable {σ : Type} [Source σ Char InputError]

namespace Head

theorem cursor_read_item {h t : Head σ} {c : Char} (hr : read h = .ok (some c) t) :
    t.cursor = h.cursor.step c := by
  unfold read at hr
  split at hr <;> cases hr
  rfl

theorem cursor_read_end {h t : Head σ} (hr : read h = .ok none t) : t.cursor = h.cursor := by
  unfold read at hr
  split at hr <;> cases hr
  rfl

structure Keeps (P : Head σ → Prop) : Prop where
  item : ∀ {h t c}, P h → read h = .ok (some c) t → P t ∧ P (t.unread c h.cursor)
  stop : ∀ {h t}, P h → read h = .ok none t → P t

theorem Keeps.lockstep {P : Head σ → Prop} (hP : Keeps P) :
    Lockstep fun h g : Head σ => h = g ∧ P h where
  cursor hr := congrArg Head.cursor hr.1
  item {h g t c} hr ht := by
    obtain ⟨rfl, hh⟩ := hr
    obtain ⟨hi, hu⟩ := hP.item hh ht
    exact ⟨t, ht, ⟨rfl, hi⟩, rfl, hu⟩
  stop {h g t} hr ht := by
    obtain ⟨rfl, hh⟩ := hr
    exact ⟨t, ht, rfl, hP.stop hh ht⟩

theorem keeps_past (p : Position) : Keeps fun h : Head σ => h.cursor.Past p where
  item hh ht := ⟨cursor_read_item ht ▸ hh.step _, hh⟩
  stop hh ht := cursor_read_end ht ▸ hh

/-- The head stands behind the items of `seen`, and these are all the events that came so far. -/
def Along (events : List (Event Char InputError)) (h : Head σ) : Prop :=
  ∃ seen later, events = seen ++ later ∧ (∀ e, .fail e ∉ seen) ∧
    h.cursor = .after (seen.filterMap Event.item?) ∧ Source.Replays h.source later

theorem keeps_along (events : List (Event Char InputError)) :
    Keeps (Along events : Head σ → Prop) where
  item {h t c} hh ht := by
    obtain ⟨seen, later, rfl, hf, hk, hs⟩ := hh
    unfold read at ht
    split at ht <;> cases ht
    rename_i s hr
    obtain ⟨later, rfl, hlater, hback⟩ := hs.of_item hr
    refine ⟨⟨seen ++ [.item c], later, by simp, by simpa using hf, ?_, hlater⟩,
      ⟨seen, _, rfl, hf, hk, hback⟩⟩
    rw [List.filterMap_append]
    exact (congrArg (Cursor.step · c) hk).trans (Cursor.after_snoc _ c).symm
  stop {h t} hh ht := by
    obtain ⟨seen, later, rfl, hf, hk, hs⟩ := hh
    unfold read at ht
    split at ht <;> cases ht
    rename_i s hr
    obtain ⟨rfl, hlater⟩ | ⟨later, rfl, hlater⟩ := hs.of_stop hr
    · exact ⟨seen, [], rfl, hf, hk, hlater⟩
    · refine ⟨seen ++ [.stop], later, by simp, by simpa using hf, ?_, hlater⟩
      simpa [List.filterMap_cons, Event.item?] using hk

end Head

theorem InStep.keeps {α : Type} {P : Head σ → Prop} {x : Lex σ α} {h t : Head σ} {a : α}
    (hx : InStep (fun h g : Head σ => h = g ∧ P h) x x) (hh : P h) (ht : x h = .ok a t) : P t := by
  obtain ⟨_, _, _, hPt⟩ := hx.ok ⟨rfl, hh⟩ ht
  exact hPt

theorem Comment.newline_skip {newline : Position} {h t : Head σ}
    (hs : skip h = .ok (some newline) t) : newline = t.cursor.last := by
  fun_induction skip h with
  | case1 | case2 | case3 => cases hs
  | case4 _ _ _ _ hr =>
    cases hs
    rw [Head.cursor_read_end hr]
  | case5 _ _ _ _ _ _ ih => exact ih hs
  | case6 =>
    cases hs
    rfl

theorem Token.past_scan {continues : Bool} {p : Position} {h t : Head σ} {token : Token}
    (hp : h.cursor.Past p) (hs : scan continues h = .ok (some token) t) :
    t.cursor.Past token.position := by
  have hk (q : Position) : Head.Keeps fun h : Head σ => h.cursor.Past q := Head.keeps_past q
  fun_induction scan continues h with
  | case1 | case2 | case5 | case11 => cases hs
  | case3 _ h u hr _ ih => exact ih ((hk p).item hp hr).1 hs
  | case4 _ h u hr =>
    cases hs
    exact ((hk p).item hp hr).1.here
  | case6 h u v newline hc hk' hr _ _ _ _ ih =>
    exact ih ((hk p).lockstep.skip.keeps ((hk p).item hp hr).1 hc) hs
  | case7 h u v newline hc hk' hr =>
    cases hs
    obtain rfl := Comment.newline_skip hc
    exact ((hk p).lockstep.skip.keeps ((hk p).item hp hr).1 hc).here
  | case8 h u v hc hr _ _ _ _ ih =>
    exact ih ((hk p).lockstep.skip.keeps ((hk p).item hp hr).1 hc) hs
  | case9 h c u hr _ _ _ _ ih => exact ih ((hk p).item hp hr).1 hs
  | case10 h c u hr _ _ _ _ token v hl =>
    cases hs
    rw [(Lexeme.fits_read _ _ hl).1]
    exact ((hk _).lockstep.lexeme _ _).keeps ((hk p).item hp hr).1.here hl

namespace Scanner

variable {s t : Scanner σ} {e : LexError}

theorem fails_at {P : Head σ → Prop} (hP : Head.Keeps P) (hs : P s.head) (hn : s.error? = none)
    (he : s.run.2.error? = some e) :
    ∃ h : Head σ, P h ∧ e.position = some h.cursor.last ∧
      ∀ failure, e.cause = .input failure → ∃ u, Source.read h.source = .error failure u := by
  obtain ⟨-, herr⟩ := Abreast.run hP.lockstep (s := s) ⟨rfl, rfl, hs⟩
  obtain ⟨h, -, ⟨-, hh⟩, hp, hc⟩ := herr e hn he
  refine ⟨h, hh, hp, fun failure hf => ?_⟩
  obtain ⟨d, u, hu, hd⟩ | ⟨hi, -⟩ := hc
  · cases hf.symm.trans hd
    exact ⟨u, hu⟩
  · rw [hf] at hi
    cases hi

theorem past_advance {p : Position} (hp : s.head.cursor.Past p) (h : s.advance = (true, t)) :
    ∃ token, t.current? = some token ∧ t.head.cursor.Past token.position := by
  unfold advance at h
  split at h
  · split at h <;> cases h
    rename_i token head hs
    exact ⟨token, rfl, Token.past_scan hp hs⟩
  · cases h

/-- An error stands at a place, and that is not before any token. -/
theorem error_behind {p : Position} (hp : s.head.cursor.Past p) (hn : s.error? = none)
    (he : s.run.2.error? = some e) :
    ∃ q, e.position = some q ∧ (compare p q).isLE ∧
      ∀ t ∈ s.run.1, (compare t.position q).isLE := by
  obtain ⟨h, hh, hq, -⟩ := fails_at (Head.keeps_past p) hp hn he
  refine ⟨_, hq, hh.reached, ?_⟩
  clear hh
  induction hsize : s.size using Nat.strongRecOn generalizing s p with
  | ind n ih =>
    cases ha : s.advance with
    | mk more s' =>
      cases more with
      | false => simp [run_false ha]
      | true =>
        obtain ⟨token, hc, hpt⟩ := past_advance hp ha
        have he' : s'.run.2.error? = some e := by simpa [run_true ha] using he
        have hn' := error?_of_advance ha
        obtain ⟨g, hg, hq', -⟩ := fails_at (Head.keeps_past _) hpt hn' he'
        have hlater := ih _ (hsize ▸ size_advance ha) hpt hn' he' rfl
        have hlast : g.cursor.last = h.cursor.last := Option.some.inj (hq'.symm.trans hq)
        simpa [run_true ha, hc, ← hlast] using ⟨hg.reached, hlast ▸ hlater⟩

theorem locates_run (source : σ) (he : (ofSource source).run.2.error? = some e) :
    e.position.isSome := by
  obtain ⟨q, hq, -⟩ := error_behind (s := ofSource source) Cursor.past_start rfl he
  simp [hq]

theorem input_error_place {source : σ} {events : List (Event Char InputError)}
    {failure : InputError} (hr : Source.Replays source events)
    (he : (ofSource source).run.2.error? = some e) (hc : e.cause = .input failure) :
    ∃ seen later, events = seen ++ .fail failure :: later ∧ (∀ d, .fail d ∉ seen) ∧
      e.position = some (.ofLast (seen.filterMap Event.item?)) := by
  have hstart : Head.Along events (ofSource source).head := ⟨[], events, rfl, by simp, rfl, hr⟩
  obtain ⟨h, ⟨seen, later, rfl, hf, hk, hs⟩, hp, hfail⟩ :=
    fails_at (Head.keeps_along events) hstart rfl he
  obtain ⟨u, hu⟩ := hfail failure hc
  obtain ⟨later, rfl, -⟩ := hs.of_fail hu
  exact ⟨seen, later, rfl, hf, by rw [hp, hk, Cursor.last_after]⟩

end Scanner

end ScriptFrontend
