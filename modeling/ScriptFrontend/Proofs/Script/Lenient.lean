import ScriptFrontend.Proofs.Script.Fault
import ScriptFrontend.Proofs.Token.Joined

/-! Lenient parsing against strict parsing.

A lenient parser reads some tokens as a strict one reads them with one more terminator behind them
(`readAll_alike`), and a newline at the end of a text is just that, wherever it makes a difference.
-/

set_option autoImplicit false

namespace ScriptFrontend

open TokenHead Grammar

/-- From related heads both readers get the same result and related heads, or neither gets one. -/
def Alike {ε τ α : Type} (P Q : τ → τ → Prop) (x y : EStateM ε τ α) : Prop :=
  ∀ ⦃h h' : τ⦄, P h h' →
    (∃ a t t', x h = .ok a t ∧ y h' = .ok a t' ∧ Q t t') ∨
    ∃ d e t t', x h = .error d t ∧ y h' = .error e t'

namespace Alike

variable {ε τ α β : Type} {P Q R : τ → τ → Prop}

theorem ok {x y : EStateM ε τ α} {a : α} {h h' t : τ} (ha : Alike P Q x y) (hp : P h h')
    (hx : x h = .ok a t) : ∃ t', y h' = .ok a t' ∧ Q t t' := by
  obtain ⟨b, u, u', hu, hu', hq⟩ | ⟨d, e, u, u', hu, -⟩ := ha hp
  · cases hx.symm.trans hu
    exact ⟨u', hu', hq⟩
  · cases hx.symm.trans hu

theorem error {x y : EStateM ε τ α} {e : ε} {h h' t : τ} (ha : Alike P Q x y) (hp : P h h')
    (hx : x h = .error e t) : ∃ d t', y h' = .error d t' := by
  obtain ⟨b, u, u', hu, -, -⟩ | ⟨d, c, u, u', -, hu'⟩ := ha hp
  · cases hx.symm.trans hu
  · exact ⟨c, u', hu'⟩

theorem pure (a : α) (h : ∀ t t', P t t' → Q t t') :
    Alike P Q (Pure.pure a : EStateM ε τ α) (Pure.pure a) :=
  fun t t' hp => .inl ⟨a, t, t', rfl, rfl, h t t' hp⟩

theorem bind {x y : EStateM ε τ α} {f g : α → EStateM ε τ β} (hx : Alike P Q x y)
    (hf : ∀ a, Alike Q R (f a) (g a)) : Alike P R (x >>= f) (y >>= g) := by
  intro h h' hp
  simp only [Bind.bind, EStateM.bind]
  obtain ⟨a, t, t', ht, ht', hq⟩ | ⟨d, e, t, t', ht, ht'⟩ := hx hp
  · rw [ht, ht']
    exact hf a hq
  · rw [ht, ht']
    exact .inr ⟨d, e, t, t', rfl, rfl⟩

theorem fail {d e : ParseCause} {p q : Option Position} {σ : Type}
    {P Q : TokenHead σ → TokenHead σ → Prop} :
    Alike P Q (TokenHead.fail d p : Parse σ α) (TokenHead.fail e q) :=
  fun _ _ _ => .inr ⟨_, _, _, _, rfl, rfl⟩

end Alike

namespace TokenHead

/-- Behind the tokens of the first head the second one has one more. -/
def Trails (extra : Token) (h h' : TokenHead (Feed Token LexError)) : Prop :=
  ∃ ts last last', h = ahead ts last ∧ h' = ahead (ts ++ [extra]) last'

def Spent (h h' : TokenHead (Feed Token LexError)) : Prop :=
  ∃ last last', h = ahead [] last ∧ h' = ahead [] last'

def Along (extra : Token) (h h' : TokenHead (Feed Token LexError)) : Prop :=
  Trails extra h h' ∨ Spent h h'

variable {extra : Token} {kind : Kind} {α : Type}

theorem Trails.next_cases {h h' : TokenHead (Feed Token LexError)} (ht : Trails extra h h') :
    (∃ t u u', next h = .ok (some t) u ∧ next h' = .ok (some t) u' ∧ Trails extra u u') ∨
    ∃ u', next h = .ok none h ∧ next h' = .ok (some extra) u' ∧ Spent h u' := by
  obtain ⟨ts, last, last', rfl, rfl⟩ := ht
  cases ts with
  | nil => exact .inr ⟨_, rfl, rfl, last, _, rfl, rfl⟩
  | cons t ts => exact .inl ⟨t, _, _, rfl, rfl, ts, _, _, rfl, rfl⟩

theorem alike_next {f g : Option Token → Parse (Feed Token LexError) α}
    {Q : TokenHead (Feed Token LexError) → TokenHead (Feed Token LexError) → Prop}
    (ht : ∀ t, Alike (Trails extra) Q (f (some t)) (g (some t)))
    (he : Alike Spent Q (f none) (g (some extra))) :
    Alike (Trails extra) Q (next >>= f) (next >>= g) := by
  intro h h' hp
  simp only [Bind.bind, EStateM.bind]
  obtain ⟨t, u, u', hn, hn', hu⟩ | ⟨u', hn, hn', hu⟩ := hp.next_cases
  · rw [hn, hn']
    exact ht t hu
  · rw [hn, hn']
    exact he hu

theorem alike_expect (hk : extra.kind ≠ kind) :
    Alike (Trails extra) (Trails extra) (expect kind) (expect kind) := by
  refine alike_next (fun t => ?_) fun h h' _ => ?_
  · dsimp only
    split
    · exact .pure t fun _ _ => id
    · exact .fail
  · simp only [hk, if_false]
    exact .inr ⟨_, _, _, _, rfl, rfl⟩

theorem alike_nextIf (hk : extra.kind ≠ kind) :
    Alike (Trails extra) (Trails extra) (nextIf kind) (nextIf kind) := by
  intro h h' hp
  obtain ⟨ts, last, last', rfl, rfl⟩ := hp
  refine .inl ?_
  cases ts with
  | nil => exact ⟨none, _, _, rfl, if_neg hk, [], _, some extra.position, rfl, rfl⟩
  | cons t ts =>
    by_cases ht : t.kind = kind
    · exact ⟨some t, _, _, if_pos ht, if_pos ht, ts, some t.position, some t.position, rfl, rfl⟩
    · exact ⟨none, _, _, if_neg ht, if_neg ht, t :: ts, some t.position, some t.position, rfl, rfl⟩

end TokenHead

@[simp] theorem Token.kind_terminator (p : Position) : (Token.terminator p).kind = .terminator :=
  rfl

namespace Statement

variable {p : Position}

theorem alike_finish : Alike (Trails (.terminator p)) (Along (.terminator p))
    (finish true) (finish false) := by
  refine alike_next (fun t => ?_) ?_
  · dsimp only
    split
    · exact .pure () fun _ _ => .inl
    · exact .fail
  · exact .pure () fun _ _ => .inr

theorem alike_expr :
    Alike (Trails (.terminator p)) (Trails (.terminator p)) Statement.expr Statement.expr := by
  refine alike_next (fun t => ?_) fun h h' _ => .inr ⟨_, _, _, _, rfl, rfl⟩
  dsimp only
  split
  all_goals first | exact .pure _ fun _ _ => id | exact .fail

theorem alike_importName (path : String) :
    Alike (Trails (.terminator p)) (Trails (.terminator p)) (importName path)
      (importName path) := by
  refine (alike_nextIf (by simp)).bind fun o => ?_
  cases o with
  | none => exact .pure _ fun _ _ => id
  | some t => exact (alike_expect (by simp)).bind fun t => .pure _ fun _ _ => id

theorem alike_importAfter (start : Position) :
    Alike (Trails (.terminator p)) (Along (.terminator p))
      (importAfter true start) (importAfter false start) :=
  (alike_expect (by simp)).bind fun _ =>
    (alike_importName _).bind fun _ => alike_finish.bind fun _ => .pure _ fun _ _ => id

theorem alike_letAfter (start : Position) :
    Alike (Trails (.terminator p)) (Along (.terminator p))
      (letAfter true start) (letAfter false start) :=
  (alike_expect (by simp)).bind fun _ =>
    (alike_nextIf (by simp)).bind fun _ =>
      (alike_expect (by simp)).bind fun _ =>
        alike_expr.bind fun _ => alike_finish.bind fun _ => .pure _ fun _ _ => id

section Equations

variable {τ : Type} [Source τ Token LexError] {lenient imports : Bool} {earlier : List Declaration}
  {h u : TokenHead τ} {t : Token}

theorem readAll_end (hn : next h = .ok none u) :
    readAll lenient imports earlier h = .ok earlier.reverse u := by
  rw [readAll]
  split <;> rename_i hr <;> cases hn.symm.trans hr
  rfl

theorem readAll_fail {e : ParseError} (hn : next h = .error e u) :
    readAll lenient imports earlier h = .error e u := by
  rw [readAll]
  split <;> rename_i hr <;> cases hn.symm.trans hr
  rfl

theorem readAll_separator (hn : next h = .ok (some t) u) (hk : t.kind.endsStatement) :
    readAll lenient imports earlier h = readAll lenient imports earlier u := by
  rw [readAll]
  split <;> rename_i hr <;> cases hn.symm.trans hr
  have hm := endsStatement_iff.1 hk
  split <;> simp_all

theorem readAll_import (hn : next h = .ok (some t) u) (hk : t.kind = .keyword .importKw) :
    readAll lenient true earlier h = (do
      let d ← importAfter lenient t.position
      readAll lenient true (d :: earlier)) u := by
  rw [readAll]
  split <;> rename_i hr <;> cases hn.symm.trans hr
  simp only [hk, Bind.bind, EStateM.bind, if_true]
  split <;> split <;> simp_all

theorem readAll_let (hn : next h = .ok (some t) u) (hk : t.kind = .keyword .letKw) :
    readAll lenient imports earlier h = (do
      let d ← letAfter lenient t.position
      readAll lenient false (d :: earlier)) u := by
  rw [readAll]
  split <;> rename_i hr <;> cases hn.symm.trans hr
  simp only [hk, Bind.bind, EStateM.bind]
  split <;> split <;> simp_all

theorem readAll_stuck (hn : next h = .ok (some t) u)
    (hs : (Stage.clause imports).step t.kind = none) :
    readAll lenient imports earlier h =
      fail ((Stage.clause imports).refusal t) t.position u := by
  rw [readAll]
  split <;> rename_i hr <;> cases hn.symm.trans hr
  split
  · simp_all [Stage.step, Kind.endsStatement]
  · simp_all [Stage.step, Kind.endsStatement]
  · split <;> simp_all [Stage.step, Stage.refusal, Stage.expected?]
  · simp_all [Stage.step]
  · simp_all [Stage.refusal, Stage.expected?]

end Equations

section Along

variable {h h' u : TokenHead (Feed Token LexError)}

theorem along_token {t : Token} (ha : Along (.terminator p) h h') (hn : next h = .ok (some t) u) :
    ∃ u', next h' = .ok (some t) u' ∧ Trails (.terminator p) u u' := by
  obtain ht | ⟨last, last', rfl, rfl⟩ := ha
  · obtain ⟨v, w, w', hv, hv', hw⟩ | ⟨w', hv, -, -⟩ := ht.next_cases
    · cases hn.symm.trans hv
      exact ⟨w', hv', hw⟩
    · cases hn.symm.trans hv
  · cases hn

theorem along_end (ha : Along (.terminator p) h h') (hn : next h = .ok none u) (imports : Bool)
    (earlier : List Declaration) :
    ∃ u', readAll false imports earlier h' = .ok earlier.reverse u' := by
  obtain ht | ⟨last, last', rfl, rfl⟩ := ha
  · obtain ⟨v, w, w', hv, -, -⟩ | ⟨w', hv, hv', q, q', -, rfl⟩ := ht.next_cases
    · cases hn.symm.trans hv
    · exact ⟨_, (readAll_separator hv' rfl).trans readAll_nil⟩
  · exact ⟨_, readAll_nil⟩

theorem along_no_error {e : ParseError} (ha : Along (.terminator p) h h') :
    next h ≠ .error e u := by
  intro hn
  obtain ht | ⟨last, last', rfl, rfl⟩ := ha
  · obtain ⟨v, w, w', hv, -, -⟩ | ⟨w', hv, -, -⟩ := ht.next_cases <;> cases hn.symm.trans hv
  · cases hn

end Along

/-- With one terminator more the strict parser does what the lenient one does without it. -/
theorem readAll_alike (p : Position) (imports : Bool) (earlier : List Declaration) :
    Alike (Along (.terminator p)) (fun _ _ => True) (readAll true imports earlier)
      (readAll false imports earlier) := by
  intro h h' ha
  -- along the lenient run, and the heads stay related as it goes on
  fun_induction readAll true imports earlier h generalizing h' with
  | case1 imports earlier h e u hn => exact (along_no_error ha hn).elim
  | case2 imports earlier h u hn =>
    obtain ⟨u', hr⟩ := along_end ha hn imports earlier
    exact .inl ⟨_, _, _, rfl, hr, trivial⟩
  | case3 imports earlier h t u hn _ hk ih | case4 imports earlier h t u hn _ hk ih =>
    obtain ⟨u', hn', hu⟩ := along_token ha hn
    rw [readAll_separator hn' (by simp [hk, Kind.endsStatement])]
    exact ih (.inl hu)
  | case5 earlier h t u hn _ hk e v hi =>
    obtain ⟨u', hn', hu⟩ := along_token ha hn
    obtain ⟨d, v', hi'⟩ := (alike_importAfter _).error hu hi
    rw [readAll_import hn' hk]
    simp only [Bind.bind, EStateM.bind, hi']
    exact .inr ⟨_, _, _, _, rfl, rfl⟩
  | case6 earlier h t u hn _ hk d v hi _ ih =>
    obtain ⟨u', hn', hu⟩ := along_token ha hn
    obtain ⟨v', hi', hv⟩ := (alike_importAfter _).ok hu hi
    rw [readAll_import hn' hk]
    simp only [Bind.bind, EStateM.bind, hi']
    exact ih hv
  | case7 imports earlier h t u hn _ hk hi =>
    obtain ⟨u', hn', hu⟩ := along_token ha hn
    rw [readAll_stuck hn' (by simp [Stage.step, hk, hi])]
    exact .inr ⟨_, _, _, _, rfl, rfl⟩
  | case8 imports earlier h t u hn _ hk e v hi =>
    obtain ⟨u', hn', hu⟩ := along_token ha hn
    obtain ⟨d, v', hi'⟩ := (alike_letAfter _).error hu hi
    rw [readAll_let hn' hk]
    simp only [Bind.bind, EStateM.bind, hi']
    exact .inr ⟨_, _, _, _, rfl, rfl⟩
  | case9 imports earlier h t u hn _ hk d v hi _ ih =>
    obtain ⟨u', hn', hu⟩ := along_token ha hn
    obtain ⟨v', hi', hv⟩ := (alike_letAfter _).ok hu hi
    rw [readAll_let hn' hk]
    simp only [Bind.bind, EStateM.bind, hi']
    exact ih hv
  | case10 imports earlier h t u hn _ hsemi hline himport hlet =>
    obtain ⟨u', hn', hu⟩ := along_token ha hn
    rw [readAll_stuck hn' (step_clause_of_ne hsemi hline himport hlet)]
    exact .inr ⟨_, _, _, _, rfl, rfl⟩

variable {ts : List Token} {ds : List Declaration}

theorem lenient_iff_terminated (p : Position) :
    (∃ h, readAll true true [] (ahead ts none) = .ok ds h) ↔
      ∃ h, readAll false true [] (ahead (ts ++ [.terminator p]) none) = .ok ds h := by
  have ha : Along (.terminator p) (ahead ts none) (ahead (ts ++ [.terminator p]) none) :=
    .inl ⟨ts, none, none, rfl, rfl⟩
  constructor
  · intro hx
    obtain ⟨h, hr⟩ := hx
    obtain ⟨h', hr', -⟩ := (readAll_alike p true []).ok ha hr
    exact ⟨h', hr'⟩
  · intro hx
    obtain ⟨h', hr'⟩ := hx
    obtain ⟨a, t, t', hr, ht, -⟩ | ⟨d, e, t, t', -, ht⟩ := readAll_alike p true [] ha
    · cases hr'.symm.trans ht
      exact ⟨t, hr⟩
    · cases hr'.symm.trans ht

theorem readAll_terminated (ha : ∀ t ∈ ts, t.Agrees) (p : Position)
    (hx : ∃ h, readAll false true [] (ahead ts none) = .ok ds h) :
    ∃ h, readAll false true [] (ahead (ts ++ [.terminator p]) none) = .ok ds h := by
  have hline : ∃ h, readAll false true [] (ahead [.terminator p] none) = .ok [] h :=
    ⟨_, (readAll_separator (next_cons ..) rfl).trans readAll_nil⟩
  have hagrees : ∀ t ∈ ts ++ [.terminator p], t.Agrees :=
    List.forall_mem_append.2 ⟨ha, by simpa using .terminator p⟩
  simpa using readAll_append hagrees (.inr (by simp)) hx hline

theorem readAll_lenient (ha : ∀ t ∈ ts, t.Agrees)
    (hx : ∃ h, readAll false true [] (ahead ts none) = .ok ds h) :
    ∃ h, readAll true true [] (ahead ts none) = .ok ds h :=
  (lenient_iff_terminated .origin).2 (readAll_terminated ha .origin hx)

/-- The end of a clause is expected only behind a token with which a line can end. -/
theorem ends_of_step {s r : Stage} {kind : Kind} (hs : s.step kind = some r)
    (hr : r.expected? = some .terminator) : kind.continuesStatement = false := by
  have hk : kind ∈ [.int, .float, .string, .ident] := by
    cases s <;> simp only [Stage.step] at hs <;> (repeat' split at hs) <;> cases hs <;>
      simp_all [Stage.expected?]
  simp only [List.mem_cons, List.not_mem_nil, or_false] at hk
  obtain rfl | rfl | rfl | rfl := hk <;> rfl

/-- Where a new line ends no statement behind the last token, no clause is open there. -/
theorem accepted_of_continues (hc : Longest.continuesBehind true ts)
    (ha : Accepted ts none true) : Accepted ts none false := by
  obtain ⟨hn, s, hs, hi⟩ := ha
  refine ⟨hn, s, hs, .inl ?_⟩
  obtain hi | ⟨-, he⟩ := hi
  · exact hi
  · obtain rfl | ⟨us, t, rfl⟩ := List.eq_nil_or_concat ts
    · cases hs
      cases he
    · rw [List.concat_eq_append, Stage.reach_append, Option.bind_eq_some_iff] at hs
      obtain ⟨r, -, hr⟩ := hs
      have hk := ends_of_step (show r.step t.kind = some s by simpa using hr) he
      simp [Longest.continuesBehind, hk] at hc

theorem readAll_strict (ha : ∀ t ∈ ts, t.Agrees) (hc : Longest.continuesBehind true ts)
    (hx : ∃ h, readAll true true [] (ahead ts none) = .ok ds h) :
    ∃ h, readAll false true [] (ahead ts none) = .ok ds h := by
  obtain ⟨h, hr⟩ := hx
  have hs : facing ts none none = ahead ts none := by simp [facing, ahead]
  have hb := between_start ts none
  rw [hs] at hb
  have hy := accepted_of_continues hc ((readAll_leads ha true []).ok (hb true) hr)
  cases hr' : readAll false true [] (ahead ts none) with
  | error e u => exact (not_accepted ((readAll_leads ha true []).fault (hb false) hr') hy).elim
  | ok ds' u =>
    obtain ⟨h', hl⟩ := readAll_lenient ha ⟨u, hr'⟩
    cases hr.symm.trans hl
    exact ⟨u, rfl⟩

end Statement

variable {σ τ : Type} [Source σ Char InputError] [Source τ Char InputError] {source : σ}
  {longer : τ} {text : List Char}

open Longest in
theorem Scanner.run_newline (hs : Source.Delivers source text)
    (hl : Source.Delivers longer (text ++ ['\n']))
    (he : (ofSource source).run.2.error? = none) :
    (ofSource longer).run.2.error? = none ∧ (ofSource longer).run.1 = (ofSource source).run.1 ++
      lineBreak (continuesBehind true (ofSource source).run.1) text := by
  obtain ⟨ht, hf⟩ := run_outcome hs
  obtain ⟨ht', hf'⟩ := run_outcome hl
  rw [he] at hf
  rw [outcome_join (by simp) hf.symm, outcome_nil] at ht' hf'
  rw [ht, ht']
  exact ⟨by simpa [Outcome.after] using hf', by simp [Outcome.after]⟩

theorem Scanner.error_of_newline (hs : Source.Delivers source text)
    (hl : Source.Delivers longer (text ++ ['\n']))
    (he : (ofSource longer).run.2.error? = none) : (ofSource source).run.2.error? = none := by
  have hf := (run_outcome hl).2
  rw [he] at hf
  have hn : ¬(Longest.outcome true [] text).fails := fun h => by
    rw [Longest.outcome_join_fails h] at hf
    cases hf
  rw [← (run_outcome hs).2] at hn
  simpa using hn

namespace Script

variable {ds : List Declaration}

theorem reads_newline (hs : Source.Delivers source text)
    (hl : Source.Delivers longer (text ++ ['\n'])) :
    Reads true source ds ↔ Reads false longer ds := by
  have ha := Scanner.agrees_run (Scanner.ofSource source)
  have key : (Scanner.ofSource source).run.2.error? = none →
      (Reads true source ds ↔ Reads false longer ds) := by
    intro he
    obtain ⟨he', ht⟩ := Scanner.run_newline hs hl he
    rw [reads_iff he, reads_iff he', ht]
    cases hc : Longest.continuesBehind true (Scanner.ofSource source).run.1 with
    | false => exact Statement.lenient_iff_terminated _
    | true =>
      rw [Longest.lineBreak, if_pos rfl, List.append_nil]
      exact ⟨Statement.readAll_strict ha hc, Statement.readAll_lenient ha⟩
  constructor
  · intro hr
    exact (key hr.accepted.1).1 hr
  · intro hr
    exact (key (Scanner.error_of_newline hs hl hr.accepted.1)).2 hr

theorem reads_lenient (hr : Reads false source ds) : Reads true source ds := by
  have he := hr.accepted.1
  exact (reads_iff he).2 (Statement.readAll_lenient (Scanner.agrees_run _) ((reads_iff he).1 hr))

/-- Lenient parsing accepts what strict parsing does, fails only as strict parsing does, and accepts
just what strict parsing does with one newline more. -/
theorem ofSource_lenient (enclosing : Scope) (source : σ) :
    (∀ ds, Reads false source ds → Reads true source ds) ∧
      (∀ script, ofSource false enclosing source = .ok script →
        ofSource true enclosing source = .ok script) ∧
      (∀ e, ofSource true enclosing source = .error e →
        ofSource false enclosing source = .error e) ∧
      ∀ (text : List Char) (τ : Type) [Source τ Char InputError] (longer : τ),
        Source.Delivers source text → Source.Delivers longer (text ++ ['\n']) →
        (∀ ds, Reads true source ds ↔ Reads false longer ds) ∧
        ∀ script, ofSource true enclosing source = .ok script ↔
          ofSource false enclosing longer = .ok script := by
  refine ⟨fun ds => reads_lenient, fun script hs => ?_, fun e he => ?_, ?_⟩
  · obtain ⟨ds, hr, rfl⟩ := ofSource_ok.1 hs
    exact ofSource_ok.2 ⟨ds, reads_lenient hr, rfl⟩
  · obtain ⟨h, hh⟩ := ofSource_error.1 he
    have ha := Scanner.agrees_run (Scanner.ofSource source)
    have hf := (Statement.readAll_leads ha true []).fault (Statement.between_start ..) hh
    exact ofSource_error.2 (Statement.readAll_of_fault ha hf)
  · intro text τ _ longer hs hl
    refine ⟨fun ds => reads_newline hs hl, fun script => ?_⟩
    simp only [ofSource_ok, reads_newline hs hl]

theorem ofSource_lenient_open_line :
    let source : Feed Char InputError := .ofList "let x = 1 # y".toList
    let longer : Feed Char InputError := .ofList "let x = 1 # y\n".toList
    let script : Script :=
      ⟨Scope.root.addAll [.bound ⟨⟨1, 1⟩, "x", .named "int", .int 1⟩]⟩
    let cut : Feed Char InputError := .ofList "let x".toList
    let e : ParseError := ⟨.unexpectedEnd (some (.symbol .assign)), some ⟨1, 5⟩⟩
    (ofSource true .root source = .ok script ∧ ofSource false .root longer = .ok script) ∧
      ofSource true .root longer = .ok script ∧
      ofSource true .root cut = .error e ∧ ofSource false .root cut = .error e := by
  intro source longer script cut e
  have hs : ofSource true .root source = .ok script := by decide +kernel
  have hl : ofSource false .root longer = .ok script :=
    (((ofSource_lenient .root source).2.2.2 _ _ longer (Feed.delivers_ofList _)
      (Feed.delivers_ofList _)).2 script).1 hs
  have he : ofSource true .root cut = .error e := by decide +kernel
  exact ⟨⟨hs, hl⟩, (ofSource_lenient .root longer).2.1 script hl, he,
    (ofSource_lenient .root cut).2.2.1 e he⟩

end Script

end ScriptFrontend
