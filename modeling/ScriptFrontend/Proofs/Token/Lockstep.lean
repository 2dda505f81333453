import ScriptFrontend.Proofs.Token.Stream

/-! Readers in lockstep.

All that a reader does is to read, to take back what it read last, and to fail at its cursor. Heads
that stay related in these steps stay related in every reader, up to the first failure. That one
comes from the source, or the other head meets it too (`Lockstep.scan`, `Abreast.run`). Where the
sources fail together, all that the scans give is the same (`Abreast.advance_eq`).
-/

set_option autoImplicit false

namespace ScriptFrontend

variable {σ τ α β : Type}

def LexCause.isInput : LexCause → Bool
  | input _ => true
  | _ => false

variable [Source σ Char InputError] [Source τ Char InputError]

/-- Related heads read the same, and stay related, also when the item is taken back. -/
structure Lockstep (R : Head σ → Head τ → Prop) : Prop where
  cursor : ∀ {h g}, R h g → h.cursor = g.cursor
  item : ∀ {h g t c}, R h g → Head.read h = .ok (some c) t → ∃ u, Head.read g = .ok (some c) u ∧
    R t u ∧ R (t.unread c h.cursor) (u.unread c g.cursor)
  stop : ∀ {h g t}, R h g → Head.read h = .ok none t → ∃ u, Head.read g = .ok none u ∧ R t u

/-- Where the source of one head fails, that of the other one does. -/
structure Together (R : Head σ → Head τ → Prop) : Prop extends Lockstep R where
  fail : ∀ {h g t e}, R h g → Head.read h = .error e t → ∃ u, Head.read g = .error e u ∧ R t u

/-- What two readers give: the same, or a failure of the first source. Where the second source fails
too at that place, that is what the second reader gives. -/
inductive Meets (R : Head σ → Head τ → Prop) :
    EStateM.Result LexError (Head σ) α → EStateM.Result LexError (Head τ) α → Prop where
  | ok {a : α} {t : Head σ} {u : Head τ} : R t u → Meets R (.ok a t) (.ok a u)
  | flaw {h : Head σ} {g : Head τ} {cause : LexCause} : R h g → cause.isInput = false →
      Meets R (.error ⟨cause, some h.cursor.last⟩ h) (.error ⟨cause, some h.cursor.last⟩ g)
  | source {h t : Head σ} {g : Head τ} {e : LexError}
      {other : EStateM.Result LexError (Head τ) α} : R h g → Head.read h = .error e t →
      (∀ d u, Head.read g = .error d u → other = .error d u) → Meets R (.error e t) other

/-- From related heads both readers give the same and leave related heads, or they part. -/
def InStep (R : Head σ → Head τ → Prop) (x : Lex σ α) (y : Lex τ α) : Prop :=
  ∀ ⦃h g⦄, R h g → Meets R (x h) (y g)

variable {R : Head σ → Head τ → Prop}

theorem Meets.map {e : LexError} {t : Head σ} {other : EStateM.Result LexError (Head τ) α}
    {final : EStateM.Result LexError (Head τ) β} (hm : Meets R (.error e t) other)
    (hf : ∀ d u, other = .error d u → final = .error d u) : Meets R (.error e t) final := by
  cases hm with
  | flaw hr hc =>
    rw [hf _ _ rfl]
    exact .flaw hr hc
  | source hr hs ho => exact .source hr hs fun d u hu => hf d u (ho d u hu)

theorem Head.read_error {h t : Head σ} {e : LexError} (ht : read h = .error e t) :
    ∃ failure s, Source.read h.source = .error failure s ∧
      e = ⟨.input failure, some h.cursor.last⟩ ∧ t = ⟨s, h.cursor⟩ := by
  unfold read at ht
  split at ht <;> cases ht
  exact ⟨_, _, ‹_›, rfl, rfl⟩

namespace InStep

theorem pure (a : α) : InStep R (Pure.pure a : Lex σ α) (Pure.pure a : Lex τ α) :=
  fun _ _ hr => .ok hr

variable {x : Lex σ α} {y : Lex τ α} {h t : Head σ} {g : Head τ}

theorem ok {a : α} (hx : InStep R x y) (hr : R h g) (ht : x h = .ok a t) :
    ∃ u, y g = .ok a u ∧ R t u := by
  have hm := hx hr
  rw [ht] at hm
  generalize y g = other at hm
  cases hm with
  | ok hru => exact ⟨_, rfl, hru⟩

theorem error {e : LexError} (hx : InStep R x y) (hr : R h g) (ht : x h = .error e t) :
    Meets R (.error e t) (y g) :=
  ht ▸ hx hr

theorem together (hx : InStep R x y) (hR : Together R) (hr : R h g) :
    (∃ a t u, x h = .ok a t ∧ y g = .ok a u ∧ R t u) ∨
      ∃ e t u, x h = .error e t ∧ y g = .error e u ∧ R t u := by
  cases ht : x h with
  | ok a t =>
    obtain ⟨u, hu, hru⟩ := hx.ok hr ht
    exact .inl ⟨a, t, u, rfl, hu, hru⟩
  | error e t =>
    have hm := hx.error hr ht
    generalize y g = other at hm
    cases hm with
    | flaw hr _ => exact .inr ⟨_, _, _, rfl, rfl, hr⟩
    | source hr hs ho =>
      obtain ⟨u, hu, hru⟩ := hR.fail hr hs
      exact .inr ⟨_, _, _, rfl, ho _ _ hu, hru⟩

theorem bind {f : α → Lex σ β} {k : α → Lex τ β}
    (hx : InStep R x y) (hf : ∀ a, InStep R (f a) (k a)) : InStep R (x >>= f) (y >>= k) := by
  intro h g hr
  simp only [Bind.bind, EStateM.bind]
  cases ht : x h with
  | ok a t =>
    obtain ⟨u, hu, hru⟩ := hx.ok hr ht
    rw [hu]
    exact hf a hru
  | error e t =>
    refine (hx.error hr ht).map fun d u hu => ?_
    rw [hu]

end InStep

namespace Lockstep

variable (hl : Lockstep R)

include hl

theorem fail {cause : LexCause} (hc : cause.isInput = false) :
    InStep R (Head.fail cause : Lex σ α) (Head.fail cause : Lex τ α) := by
  intro h g hr
  rw [Head.fail, Head.fail, ← hl.cursor hr]
  exact .flaw hr hc

theorem read : InStep R (Head.read : Lex σ (Option Char)) (Head.read : Lex τ (Option Char)) := by
  intro h g hr
  cases ht : Head.read h with
  | ok c? t =>
    cases c? with
    | none =>
      obtain ⟨u, hu, hru⟩ := hl.stop hr ht
      exact hu ▸ .ok hru
    | some c =>
      obtain ⟨u, hu, hru, -⟩ := hl.item hr ht
      exact hu ▸ .ok hru
  | error e t => exact .source hr ht fun _ _ => id

section Lexemes

open Lexeme

theorem munch {β : Type} (judge : β → Char → Verdict β) (state : β) (taken : List Char) :
    InStep R (Lexeme.munch judge state taken : Lex σ (β × List Char))
      (Lexeme.munch judge state taken : Lex τ (β × List Char)) := by
  intro h g hr
  fun_induction Lexeme.munch judge state taken h generalizing g with
  | case1 state taken h e t ht => exact .source hr ht fun _ _ => munch_fail
  | case2 state taken h t ht =>
    obtain ⟨u, hu, hru⟩ := hl.stop hr ht
    exact munch_end hu ▸ .ok hru
  | case3 state taken h c t ht _ next hj ih =>
    obtain ⟨u, hu, hru, -⟩ := hl.item hr ht
    rw [munch_item hu, hj]
    exact ih hru
  | case4 state taken h c t ht _ hj =>
    obtain ⟨u, hu, hru, -⟩ := hl.item hr ht
    rw [munch_item hu, hj]
    exact .ok hru
  | case5 state taken h c t ht _ hj =>
    obtain ⟨u, hu, -, hback⟩ := hl.item hr ht
    rw [munch_item hu, hj]
    exact .ok hback

theorem word (start : Position) (first : Char) :
    InStep R (Lexeme.word start first : Lex σ Token) (Lexeme.word start first : Lex τ Token) :=
  (hl.munch ..).bind fun _ => .pure _

theorem number (start : Position) (first : Char) :
    InStep R (Lexeme.number start first : Lex σ Token)
      (Lexeme.number start first : Lex τ Token) := by
  refine (hl.munch ..).bind fun ⟨fraction, text⟩ => ?_
  dsimp only
  split <;> split
  all_goals first | exact .pure _ | exact hl.fail rfl

theorem hexDigit :
    InStep R (Lexeme.hexDigit : Lex σ (Option Nat)) (Lexeme.hexDigit : Lex τ (Option Nat)) := by
  refine hl.read.bind fun c => ?_
  split
  · exact .pure _
  · split
    · exact .pure _
    · exact hl.fail rfl

theorem escape :
    InStep R (Lexeme.escape : Lex σ Piece) (Lexeme.escape : Lex τ Piece) := by
  refine hl.read.bind fun c => ?_
  split
  all_goals first | exact .pure _ | skip
  refine hl.hexDigit.bind fun high => ?_
  split
  · exact .pure _
  · refine hl.hexDigit.bind fun low => ?_
    split <;> exact .pure _

theorem piece (delimiter : Char) :
    InStep R (Lexeme.piece delimiter : Lex σ Piece) (Lexeme.piece delimiter : Lex τ Piece) := by
  refine hl.read.bind fun c => ?_
  split
  · exact .pure _
  · split
    · exact hl.escape
    · split <;> exact .pure _

theorem stringBody (taken : List Char) :
    InStep R (Lexeme.stringBody taken : Lex σ (List Char))
      (Lexeme.stringBody taken : Lex τ (List Char)) := by
  intro h g hr
  rw [stringBody_eq (σ := τ)]
  simp only [Bind.bind, EStateM.bind]
  fun_induction Lexeme.stringBody taken h generalizing g with
  | case1 taken h e t ht =>
    refine ((hl.piece '"').error hr ht).map fun d u hu => ?_
    rw [hu]
  | case2 taken h t ht =>
    obtain ⟨u, hu, hru⟩ := (hl.piece '"').ok hr ht
    rw [hu]
    exact hl.fail rfl hru
  | case3 taken h t ht =>
    obtain ⟨u, hu, hru⟩ := (hl.piece '"').ok hr ht
    rw [hu]
    exact InStep.pure _ hru
  | case4 taken h c t ht _ ih =>
    obtain ⟨u, hu, hru⟩ := (hl.piece '"').ok hr ht
    rw [hu]
    dsimp only
    rw [stringBody_eq (σ := τ)]
    exact ih hru

theorem character (start : Position) :
    InStep R (Lexeme.character start : Lex σ Token) (Lexeme.character start : Lex τ Token) := by
  refine (hl.piece _).bind fun p => ?_
  split
  · exact hl.fail rfl
  · exact hl.fail rfl
  · refine hl.read.bind fun c => ?_
    split
    · exact .pure _
    · exact hl.fail rfl
    · exact hl.fail rfl

theorem singleSign (start : Position) (first : Char) :
    InStep R (Lexeme.singleSign start first : Lex σ Token)
      (Lexeme.singleSign start first : Lex τ Token) := by
  unfold Lexeme.singleSign
  split
  · exact .pure _
  · exact hl.fail rfl

theorem sign (start : Position) (first : Char) :
    InStep R (Lexeme.sign start first : Lex σ Token) (Lexeme.sign start first : Lex τ Token) := by
  intro h g hr
  unfold Lexeme.sign
  split
  · rename_i e t ht
    refine .source hr ht fun d u hu => ?_
    rw [hu]
  · rename_i t ht
    obtain ⟨u, hu, hru⟩ := hl.stop hr ht
    rw [hu]
    exact hl.singleSign start first hru
  · rename_i second t ht
    obtain ⟨u, hu, hru, hback⟩ := hl.item hr ht
    rw [hu]
    dsimp only
    split
    · exact .ok hru
    · exact hl.singleSign start first hback

theorem lexeme (start : Position) (first : Char) :
    InStep R (Lexeme.read start first : Lex σ Token) (Lexeme.read start first : Lex τ Token) := by
  unfold Lexeme.read
  split
  · exact hl.word ..
  split
  · exact (hl.stringBody _).bind fun _ => .pure _
  split
  · exact hl.character start
  split
  · exact hl.number ..
  · exact hl.sign ..

end Lexemes

section Comments

open Comment

theorem skipLine : InStep R (Comment.skipLine : Lex σ Bool) (Comment.skipLine : Lex τ Bool) := by
  intro h g hr
  fun_induction Comment.skipLine h generalizing g with
  | case1 h e t ht => exact .source hr ht fun _ _ => skipLine_fail
  | case2 h t ht =>
    obtain ⟨u, hu, hru⟩ := hl.stop hr ht
    exact skipLine_end hu ▸ .ok hru
  | case3 h t ht =>
    obtain ⟨u, hu, hru, -⟩ := hl.item hr ht
    rw [skipLine_item hu, if_pos rfl]
    exact .ok hru
  | case4 h c t ht _ hc ih =>
    obtain ⟨u, hu, hru, -⟩ := hl.item hr ht
    rw [skipLine_item hu, if_neg hc]
    exact ih hru

theorem skip : InStep R (Comment.skip : Lex σ (Option Position))
    (Comment.skip : Lex τ (Option Position)) := by
  intro h g hr
  rw [skip_eq (σ := τ)]
  fun_induction Comment.skip h generalizing g with
  | case1 h e t ht =>
    refine (hl.skipLine.error hr ht).map fun d u hu => ?_
    rw [hu]
  | case2 h t ht =>
    obtain ⟨u, hu, hru⟩ := hl.skipLine.ok hr ht
    rw [hu]
    exact .ok hru
  | case3 h t ht e v hv =>
    obtain ⟨u, hu, hru⟩ := hl.skipLine.ok hr ht
    refine .source hru hv fun d w hw => ?_
    rw [hu]
    simp only [hw]
  | case4 h t ht v hv =>
    obtain ⟨u, hu, hru⟩ := hl.skipLine.ok hr ht
    obtain ⟨w, hw, hrw⟩ := hl.stop hru hv
    rw [hu, hl.cursor hru]
    simp only [hw]
    exact .ok hrw
  | case5 h t ht v hv _ ih =>
    obtain ⟨u, hu, hru⟩ := hl.skipLine.ok hr ht
    obtain ⟨w, hw, hrw, -⟩ := hl.item hru hv
    rw [hu]
    simp only [hw, if_true]
    rw [skip_eq w]
    exact ih hrw
  | case6 h t ht c v hv _ hc =>
    obtain ⟨u, hu, hru⟩ := hl.skipLine.ok hr ht
    obtain ⟨w, hw, -, hback⟩ := hl.item hru hv
    rw [hu]
    simp only [hw, hc, if_false]
    rw [hl.cursor hru] at hback ⊢
    exact .ok hback

end Comments

theorem scan (continues : Bool) :
    InStep R (Token.scan continues : Lex σ (Option Token))
      (Token.scan continues : Lex τ (Option Token)) := by
  intro h g hr
  fun_induction Token.scan continues h generalizing g with
  | case1 h e t ht => exact .source hr ht fun _ _ => Token.scan_fail
  | case2 h t ht =>
    obtain ⟨u, hu, hru⟩ := hl.stop hr ht
    exact Token.scan_stop hu ▸ .ok hru
  | case3 h t hk ht _ ih =>
    obtain ⟨u, hu, hru, -⟩ := hl.item hr ht
    simpa [Token.scan_item hu, hk] using ih hru
  | case4 h t hk ht =>
    obtain ⟨u, hu, hru, -⟩ := hl.item hr ht
    simpa [Token.scan_item hu, hk, hl.cursor hru] using .ok hru
  | case5 h t e v hc ht =>
    obtain ⟨u, hu, hru, -⟩ := hl.item hr ht
    refine (hl.skip.error hru hc).map fun d w hw => ?_
    simp [Token.scan_item hu, hw]
  | case6 h t v newline hc hk ht _ _ _ _ ih =>
    obtain ⟨u, hu, hru, -⟩ := hl.item hr ht
    obtain ⟨w, hw, hrw⟩ := hl.skip.ok hru hc
    simpa [Token.scan_item hu, hw, hk] using ih hrw
  | case7 h t v newline hc hk ht =>
    obtain ⟨u, hu, hru, -⟩ := hl.item hr ht
    obtain ⟨w, hw, hrw⟩ := hl.skip.ok hru hc
    simpa [Token.scan_item hu, hw, hk] using .ok hrw
  | case8 h t v hc ht _ _ _ _ ih =>
    obtain ⟨u, hu, hru, -⟩ := hl.item hr ht
    obtain ⟨w, hw, hrw⟩ := hl.skip.ok hru hc
    simpa [Token.scan_item hu, hw] using ih hrw
  | case9 h c t ht _ hn hm hb ih =>
    obtain ⟨u, hu, hru, -⟩ := hl.item hr ht
    simpa [Token.scan_item hu, hn, hm, hb] using ih hru
  | case10 h c t ht _ hn hm hb token v hv =>
    obtain ⟨u, hu, hru, -⟩ := hl.item hr ht
    obtain ⟨w, hw, hrw⟩ := (hl.lexeme _ _).ok hru hv
    simpa [Token.scan_item hu, hn, hm, hb, ← hl.cursor hru, hw] using .ok hrw
  | case11 h c t ht _ hn hm hb e v hv =>
    obtain ⟨u, hu, hru, -⟩ := hl.item hr ht
    refine ((hl.lexeme _ _).error hru hv).map fun d w hw => ?_
    rw [hl.cursor hru] at hw
    simp [Token.scan_item hu, hn, hm, hb, hw]

end Lockstep

namespace Scanner

/-- Both scans have come equally far and stand at related heads. -/
structure Abreast (R : Head σ → Head τ → Prop) (s : Scanner σ) (t : Scanner τ) : Prop where
  phase : s.phase = t.phase
  head : R s.head t.head

variable {s s' : Scanner σ} {t : Scanner τ}

theorem Abreast.advance (hl : Lockstep R) (hr : s.Abreast R t) (ha : s.advance = (true, s')) :
    ∃ t', t.advance = (true, t') ∧ s'.Abreast R t' := by
  unfold Scanner.advance at ha
  split at ha
  · rename_i last hp
    split at ha <;> cases ha
    rename_i token head hs
    obtain ⟨u, hu, hru⟩ := (hl.scan _).ok hr.head hs
    exact ⟨⟨u, .scanning (some token)⟩, by simp [Scanner.advance, ← hr.phase, hp, hu], rfl, hru⟩
  · cases ha

theorem Abreast.stops {e : LexError} (hl : Lockstep R) (hr : s.Abreast R t) (hn : s.error? = none)
    (ha : s.advance = (false, s')) (he : s'.error? = some e) :
    ∃ (other : EStateM.Result LexError (Head τ) (Option Token)),
      Meets R (.error e s'.head : EStateM.Result LexError (Head σ) (Option Token)) other ∧
      ∀ d u, other = .error d u → t.advance = (false, ⟨u, .failed d⟩) := by
  unfold Scanner.advance at ha
  split at ha
  · rename_i last hp
    split at ha <;> cases ha
    · cases he
    · rename_i d head hs
      obtain rfl : d = e := Option.some.inj he
      refine ⟨_, (hl.scan _).error hr.head hs, fun d u hu => ?_⟩
      simp [Scanner.advance, ← hr.phase, hp, hu]
  · cases ha
    cases hn.symm.trans he

theorem error?_of_advance (ha : s.advance = (true, s')) : s'.error? = none := by
  unfold Scanner.advance at ha
  split at ha
  · split at ha <;> cases ha
    rfl
  · cases ha

/-- The first scan gives the first tokens of the second one. It fails at related heads, where its
source fails, or as the second one does, and then no token is missing. -/
theorem Abreast.run (hl : Lockstep R) (hr : s.Abreast R t) : s.run.1 <+: t.run.1 ∧
    ∀ e, s.error? = none → s.run.2.error? = some e →
      ∃ h g, R h g ∧ e.position = some h.cursor.last ∧
      ((∃ failure u, Source.read h.source = .error failure u ∧ e.cause = .input failure) ∨
        e.cause.isInput = false ∧ t.run.2.error? = some e ∧ s.run.1 = t.run.1) := by
  induction hn : s.size using Nat.strongRecOn generalizing s t with
  | ind n ih =>
    cases ha : s.advance with
    | mk more s' =>
      cases more with
      | false =>
        rw [run_false ha]
        refine ⟨List.nil_prefix, fun e hn he => ?_⟩
        obtain ⟨other, hm, ho⟩ := hr.stops hl hn ha he
        generalize s'.head = head at hm
        cases hm with
        | source hr hs _ =>
          obtain ⟨failure, u, hu, rfl, -⟩ := Head.read_error hs
          exact ⟨_, _, hr, rfl, .inl ⟨_, _, hu, rfl⟩⟩
        | flaw hr hc =>
          have ht := run_false (ho _ _ rfl)
          exact ⟨_, _, hr, rfl, .inr ⟨hc, by rw [ht]; rfl, by rw [ht]⟩⟩
      | true =>
        obtain ⟨t', ht, hr'⟩ := hr.advance hl ha
        have hlt : s'.size < n := hn ▸ size_advance ha
        have hc : s'.current? = t'.current? := by simp [current?, hr'.phase]
        obtain ⟨hpre, herr⟩ := ih _ hlt hr' rfl
        rw [run_true ha, run_true ht, hc]
        refine ⟨(List.prefix_append_right_inj _).2 hpre, fun e _ he => ?_⟩
        obtain ⟨h, g, hr, hp, hs | ⟨hi, he', hts⟩⟩ := herr e (error?_of_advance ha) he
        · exact ⟨h, g, hr, hp, .inl hs⟩
        · exact ⟨h, g, hr, hp, .inr ⟨hi, he', by rw [hts]⟩⟩

/-- Scans that fail together are at one in everything. -/
theorem Abreast.advance_eq (hR : Together R) (hr : s.Abreast R t) :
    s.advance.1 = t.advance.1 ∧ s.advance.2.Abreast R t.advance.2 := by
  obtain ⟨hp, hr⟩ := hr
  unfold Scanner.advance
  rw [← hp]
  split
  · obtain ⟨token?, u, v, hu, hv, hruv⟩ | ⟨e, u, v, hu, hv, hruv⟩ :=
      (hR.scan _).together hR hr
    · rw [hu, hv]
      cases token? <;> exact ⟨rfl, rfl, hruv⟩
    · rw [hu, hv]
      exact ⟨rfl, rfl, hruv⟩
  · exact ⟨rfl, hp, hr⟩

end Scanner

end ScriptFrontend
