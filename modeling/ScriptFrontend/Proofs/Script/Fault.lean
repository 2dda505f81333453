import ScriptFrontend.Proofs.Script.Stage

/-! Where the parser fails, and with what.

The parser stands at a stage of the grammar all the time. It fails at the first token for which the
stage has no place, at the end of the tokens inside a clause, or at a failure of the scan, and in no
other case (`readAll_leads`).
-/

set_option autoImplicit false

namespace ScriptFrontend

namespace Grammar.Stage

def expected? : Stage → Option Kind
  | clause _ | value => none
  | path => some .string
  | given | importEnd | letEnd => some .terminator
  | newName | name => some .ident
  | stated | assign => some (.symbol .assign)

/-- What is wrong with a token for which the stage has no place. -/
def refusal (s : Stage) (t : Token) : ParseCause :=
  match s.expected? with
  | some kind => .expectedToken kind t
  | none =>
    if t.kind = .keyword .importKw ∧ s ≠ value then .importAfterDeclaration else .unexpectedToken t

theorem ne_clause {s : Stage} {kind : Kind} (he : s.expected? = some kind) (imports : Bool) :
    s ≠ clause imports := by
  rintro rfl
  cases he

end Grammar.Stage

open Grammar Stage

namespace TokenHead

def facing (ts : List Token) (failure : Option LexError) (last : Option Position) :
    TokenHead (Feed Token LexError) :=
  ⟨⟨ts.map .item ++ failure.toList.map .fail⟩, last⟩

variable (all : List Token) (failure : Option LexError)

def exhausted : TokenHead (Feed Token LexError) :=
  facing [] none (all.getLast?.map (·.position))

/-- The head stands behind tokens that lead to the stage. The next token satisfies `P`, and may have
been looked at already. -/
def At (s : Stage) (P : Token → Prop) (h : TokenHead (Feed Token LexError)) : Prop :=
  ∃ used rest last, h = facing rest failure last ∧ all = used ++ rest ∧
    (clause true).reach used = some s ∧ (∀ t ∈ rest.head?, P t) ∧
    (last = used.getLast?.map (·.position) ∨ ∃ t ∈ rest.head?, last = some t.position)

/-- The ways in which reading the tokens can fail. -/
inductive Fault : ParseError → TokenHead (Feed Token LexError) → Prop where
  | refused {used rest : List Token} {t : Token} {s : Stage} : all = used ++ t :: rest →
      (clause true).reach used = some s → s.step t.kind = none →
      Fault ⟨s.refusal t, some t.position⟩ (facing rest failure (some t.position))
  | ended {s : Stage} : failure = none → (clause true).reach all = some s →
      (∀ i, s ≠ clause i) →
      Fault ⟨.unexpectedEnd s.expected?, all.getLast?.map (·.position)⟩ (exhausted all)
  | lexical {e : LexError} {s : Stage} : failure = some e → (clause true).reach all = some s →
      Fault ⟨.lexical e, e.position⟩ (exhausted all)

/-- From a head that satisfies `P` the reader gets to one that satisfies `Q`, or fails with reason.
-/
def Leads {α : Type} (P : TokenHead (Feed Token LexError) → Prop)
    (x : Parse (Feed Token LexError) α)
    (Q : α → TokenHead (Feed Token LexError) → Prop) : Prop :=
  ∀ h, P h → match x h with
    | .ok a t => Q a t
    | .error e t => Fault all failure e t

variable {all failure} {α β : Type} {s r : Stage} {P : Token → Prop}
  {h : TokenHead (Feed Token LexError)}

namespace At

theorem next_cases (ha : At all failure s P h) :
    (∃ used t rest, next h = .ok (some t) (facing rest failure (some t.position)) ∧
      all = used ++ t :: rest ∧ (clause true).reach used = some s ∧ P t) ∨
    (failure = none ∧ (clause true).reach all = some s ∧ next h = .ok none (exhausted all)) ∨
    ∃ e, failure = some e ∧ (clause true).reach all = some s ∧
      next h = .error ⟨.lexical e, e.position⟩ (exhausted all) := by
  obtain ⟨used, rest, last, rfl, hall, hs, hp, hl⟩ := ha
  cases rest with
  | cons t rest => exact .inl ⟨used, t, rest, rfl, hall, hs, hp t rfl⟩
  | nil =>
    rw [List.append_nil] at hall
    obtain rfl : last = used.getLast?.map (·.position) := by simpa using hl
    subst hall
    cases failure with
    | none => exact .inr (.inl ⟨rfl, hs, rfl⟩)
    | some e => exact .inr (.inr ⟨e, rfl, hs, rfl⟩)

theorem step {used rest : List Token} {t : Token} (hall : all = used ++ t :: rest)
    (hs : (clause true).reach used = some s) (hr : s.step t.kind = some r) :
    At all failure r (fun _ => True) (facing rest failure (some t.position)) :=
  ⟨used ++ [t], rest, _, rfl, by simp [hall], by simp [hs, hr], fun _ _ => trivial,
    .inl (by simp)⟩

end At

namespace Leads

variable {P Q : TokenHead (Feed Token LexError) → Prop}
  {R : α → TokenHead (Feed Token LexError) → Prop} {S : β → TokenHead (Feed Token LexError) → Prop}

theorem ok {x : Parse (Feed Token LexError) α} {a : α} {h t : TokenHead (Feed Token LexError)}
    (hx : Leads all failure P x R) (hp : P h) (hr : x h = .ok a t) : R a t := by
  have hq := hx h hp
  rwa [hr] at hq

theorem fault {x : Parse (Feed Token LexError) α} {e : ParseError}
    {h t : TokenHead (Feed Token LexError)} (hx : Leads all failure P x R) (hp : P h)
    (hr : x h = .error e t) : Fault all failure e t := by
  have hq := hx h hp
  rwa [hr] at hq

theorem pure {a : α} (hp : ∀ h, P h → R a h) : Leads all failure P (Pure.pure a) R :=
  fun h hh => hp h hh

theorem bind {x : Parse (Feed Token LexError) α} {f : α → Parse (Feed Token LexError) β}
    (hx : Leads all failure P x R) (hf : ∀ a, Leads all failure (R a) (f a) S) :
    Leads all failure P (x >>= f) S := by
  intro h hp
  simp only [Bind.bind, EStateM.bind]
  cases hr : x h with
  | ok a t => exact hf a t (hx.ok hp hr)
  | error e t => exact hx.fault hp hr

theorem or {x : Parse (Feed Token LexError) α} (hp : Leads all failure P x R)
    (hq : Leads all failure Q x R) : Leads all failure (fun h => P h ∨ Q h) x R := by
  intro h hx
  obtain hx | hx := hx
  · exact hp h hx
  · exact hq h hx

end Leads

theorem Leads.next {f : Option Token → Parse (Feed Token LexError) α}
    {Q : α → TokenHead (Feed Token LexError) → Prop}
    (htoken : ∀ t ∈ all, P t →
      (∃ r, s.step t.kind = some r ∧
        Leads all failure (At all failure r fun _ => True) (f (some t)) Q) ∨
      s.step t.kind = none ∧ f (some t) = fail (s.refusal t) (some t.position))
    (hend : failure = none → (clause true).reach all = some s →
      Leads all failure (· = exhausted all) (f none) Q) :
    Leads all failure (At all failure s P) (TokenHead.next >>= f) Q := by
  intro h hp
  simp only [Bind.bind, EStateM.bind]
  obtain ⟨used, t, rest, hn, hall, hs, ht⟩ | ⟨hf, hs, hn⟩ | ⟨e, hf, hs, hn⟩ := hp.next_cases
  · rw [hn]
    obtain ⟨r, hr, hl⟩ | ⟨hr, hl⟩ := htoken t (by simp [hall]) ht
    · exact hl _ (At.step hall hs hr)
    · dsimp only
      rw [hl]
      exact .refused hall hs hr
  · rw [hn]
    exact hend hf hs _ rfl
  · rw [hn]
    exact .lexical hf hs

theorem leads_expect {kind : Kind} (he : s.expected? = some kind)
    (hr : ∀ t, P t → s.step t.kind = if t.kind = kind then some r else none) :
    Leads all failure (At all failure s P) (expect kind)
      fun t h => t.kind = kind ∧ At all failure r (fun _ => True) h := by
  refine Leads.next (fun t _ ht => ?_) fun hf hs => ?_
  · rw [hr t ht]
    by_cases hk : t.kind = kind
    · refine .inl ⟨r, if_pos hk, ?_⟩
      dsimp only
      rw [if_pos hk]
      exact .pure fun h hh => ⟨hk, hh⟩
    · exact .inr ⟨if_neg hk, by simp [hk, Stage.refusal, he]⟩
  · rintro h rfl
    exact he ▸ .ended hf hs (ne_clause he)

theorem leads_nextIf {kind : Kind} (hr : ∀ t : Token, t.kind = kind → s.step t.kind = some r) :
    Leads all failure (At all failure s P) (nextIf kind) fun o h =>
      match o with
      | some _ => At all failure r (fun _ => True) h
      | none => At all failure s (fun t : Token => P t ∧ t.kind ≠ kind) h := by
  intro h hp
  unfold nextIf
  obtain ⟨used, t, rest, hn, hall, hs, ht⟩ | ⟨hf, hs, hn⟩ | ⟨e, hf, hs, hn⟩ := hp.next_cases
  · rw [hn]
    by_cases hk : t.kind = kind
    · simp only [hk, if_true]
      exact At.step hall hs (hr t hk)
    · simp only [hk, if_false]
      refine ⟨used, t :: rest, _, rfl, hall, hs, ?_, .inr ⟨t, rfl, rfl⟩⟩
      intro u hu
      obtain rfl : t = u := by simpa using hu
      exact ⟨ht, hk⟩
  · rw [hn]
    exact ⟨all, [], _, by rw [exhausted, hf], by simp, hs, by simp, .inl rfl⟩
  · rw [hn]
    exact .lexical hf hs

theorem refused_absurd {p r : Stage} {ts used rest : List Token} {t : Token}
    (hts : ts = used ++ t :: rest) (hs : p.reach used = some s) (ht : s.step t.kind = none)
    (hr : p.reach ts = some r) : False := by
  simp [hts, hs, ht] at hr

theorem length_le_of_refused {p r : Stage} {used used' rest rest' : List Token} {t : Token}
    (he : used ++ t :: rest = used' ++ rest') (hs : p.reach used = some s)
    (ht : s.step t.kind = none) (hr : p.reach used' = some r) : used'.length ≤ used.length := by
  obtain ⟨k, rfl, hk⟩ | ⟨k, rfl, hk⟩ := List.append_eq_append_iff.1 he
  · cases k with
    | nil => simp
    | cons v k =>
      obtain rfl := (List.cons.inj hk).1
      exact (refused_absurd rfl hs ht hr).elim
  · simp

namespace Fault

variable {e f : ParseError} {u : TokenHead (Feed Token LexError)}

/-- The tokens and the failure of the scan allow a single error. -/
theorem unique (he : Fault all failure e h) (hf : Fault all failure f u) : e = f := by
  cases he with
  | refused hall hs ht =>
    cases hf with
    | refused hall' hs' ht' =>
      have hle := length_le_of_refused (hall.symm.trans hall') hs ht hs'
      have hge := length_le_of_refused (hall'.symm.trans hall) hs' ht' hs
      obtain ⟨rfl, hr⟩ := List.append_inj (hall.symm.trans hall') (Nat.le_antisymm hge hle)
      obtain ⟨rfl, -⟩ := List.cons.inj hr
      cases hs.symm.trans hs'
      rfl
    | ended _ hr | lexical _ hr => exact (refused_absurd hall hs ht hr).elim
  | ended hn hr =>
    cases hf with
    | refused hall hs ht => exact (refused_absurd hall hs ht hr).elim
    | ended _ hr' =>
      cases hr.symm.trans hr'
      rfl
    | lexical hn' _ => cases hn.symm.trans hn'
  | lexical hn hr =>
    cases hf with
    | refused hall hs ht => exact (refused_absurd hall hs ht hr).elim
    | ended hn' _ => cases hn.symm.trans hn'
    | lexical hn' _ =>
      cases hn.symm.trans hn'
      rfl

end Fault

end TokenHead

namespace Statement

open TokenHead

variable {all : List Token} {failure : Option LexError} {lenient : Bool} {s r : Stage}
  {P : Token → Prop} {h : TokenHead (Feed Token LexError)}

def Spared (all : List Token) (failure : Option LexError) (lenient : Bool)
    (h : TokenHead (Feed Token LexError)) : Prop :=
  lenient ∧ failure = none ∧ h = exhausted all ∧
    ∃ s, (clause true).reach all = some s ∧ s.expected? = some .terminator

/-- What the parser accepts ends between clauses, or where nothing but the end of a clause is
missing if it is lenient. -/
def Accepted (all : List Token) (failure : Option LexError) (lenient : Bool) : Prop :=
  failure = none ∧ ∃ s, (clause true).reach all = some s ∧
    ((∃ i, s = clause i) ∨ lenient ∧ s.expected? = some .terminator)

/-- The head stands between clauses, or where the end of the tokens has ended the last one. -/
def Between (all : List Token) (failure : Option LexError) (lenient imports : Bool)
    (h : TokenHead (Feed Token LexError)) : Prop :=
  At all failure (clause imports) (fun _ => True) h ∨ Spared all failure lenient h

namespace Between

variable {imports : Bool} {u : TokenHead (Feed Token LexError)}

theorem token {t : Token} (hb : Between all failure lenient imports h)
    (hn : next h = .ok (some t) u) :
    ∃ used rest, all = used ++ t :: rest ∧ (clause true).reach used = some (clause imports) ∧
      u = facing rest failure (some t.position) := by
  obtain ha | ⟨-, -, rfl, -⟩ := hb
  · obtain ⟨used, v, rest, hv, hall, hs, -⟩ | ⟨-, -, hv⟩ | ⟨e, -, -, hv⟩ := ha.next_cases
    all_goals cases hn.symm.trans hv
    exact ⟨used, rest, hall, hs, rfl⟩
  · cases hn

theorem accepted (hb : Between all failure lenient imports h) (hn : next h = .ok none u) :
    Accepted all failure lenient := by
  obtain ha | ⟨hl, hf, rfl, s, hs, he⟩ := hb
  · obtain ⟨used, v, rest, hv, -⟩ | ⟨hf, hs, -⟩ | ⟨e, -, -, hv⟩ := ha.next_cases
    · cases hn.symm.trans hv
    · exact ⟨hf, _, hs, .inl ⟨imports, rfl⟩⟩
    · cases hn.symm.trans hv
  · exact ⟨hf, s, hs, .inr ⟨hl, he⟩⟩

theorem fault {e : ParseError} (hb : Between all failure lenient imports h)
    (hn : next h = .error e u) : Fault all failure e u := by
  obtain ha | ⟨-, -, rfl, -⟩ := hb
  · obtain ⟨used, v, rest, hv, -⟩ | ⟨-, -, hv⟩ | ⟨d, hf, hs, hv⟩ := ha.next_cases
    all_goals cases hn.symm.trans hv
    exact .lexical hf hs
  · cases hn

theorem refused {t : Token} (hb : Between all failure lenient imports h)
    (hn : next h = .ok (some t) u) (hs : (clause imports).step t.kind = none) :
    Fault all failure ⟨(clause imports).refusal t, some t.position⟩ u := by
  obtain ⟨used, rest, hall, hr, rfl⟩ := hb.token hn
  exact .refused hall hr hs

theorem past {t : Token} {r : Stage} (hb : Between all failure lenient imports h)
    (hn : next h = .ok (some t) u) (hs : (clause imports).step t.kind = some r) :
    At all failure r (fun _ => True) u := by
  obtain ⟨used, rest, hall, hr, rfl⟩ := hb.token hn
  exact .step hall hr hs

end Between

theorem not_accepted {e : ParseError} (hf : Fault all failure e h) :
    ¬Accepted all failure false := by
  intro ha
  obtain ⟨hn, s, hs, hi⟩ := ha
  cases hf with
  | refused hall hu ht => exact refused_absurd hall hu ht hs
  | ended _ hr hne =>
    cases hr.symm.trans hs
    simp [hne] at hi
  | lexical hl _ => cases hn.symm.trans hl

theorem leads_finish {imports : Bool} (he : s.expected? = some .terminator)
    (hr : ∀ t, P t →
      s.step t.kind = if t.kind.endsStatement then some (clause imports) else none) :
    Leads all failure (At all failure s P) (finish lenient) fun _ h =>
      Between all failure lenient imports h := by
  refine Leads.next (fun t _ ht => ?_) fun hf hs => ?_
  · rw [hr t ht]
    by_cases hk : t.kind.endsStatement
    · refine .inl ⟨_, if_pos hk, ?_⟩
      dsimp only
      rw [if_pos hk]
      exact .pure fun h hh => .inl hh
    · exact .inr ⟨if_neg hk, by simp [hk, Stage.refusal, he]⟩
  · cases lenient with
    | true => exact .pure fun h hh => .inr ⟨rfl, hf, hh, s, hs, he⟩
    | false =>
      rintro h rfl
      exact he ▸ .ended hf hs (ne_clause he)

theorem leads_expr (ha : ∀ t ∈ all, t.Agrees) :
    Leads all failure (At all failure value P) Statement.expr fun _ h =>
      At all failure letEnd (fun _ => True) h := by
  refine Leads.next (fun t ht _ => ?_) fun hf hs => ?_
  · cases ha t ht with
    | keyword p word => exact .inr ⟨rfl, by simp [Stage.refusal, Stage.expected?]⟩
    | symbol | terminator =>
      exact .inr ⟨rfl, by simp [Stage.refusal, Stage.expected?, Token.terminator]⟩
    | ident | string | int | float => exact .inl ⟨letEnd, rfl, .pure fun h hh => hh⟩
  · rintro h rfl
    exact .ended hf hs (by simp)

theorem leads_importName (path : String) :
    Leads all failure (At all failure given fun _ => True) (importName path) fun _ h =>
      At all failure importEnd (fun _ => True) h ∨
        At all failure given (fun t : Token => True ∧ t.kind ≠ .keyword .asKw) h := by
  refine (leads_nextIf fun t ht => by simp [Stage.step, ht]; rfl).bind fun o => ?_
  cases o with
  | none => exact .pure fun h hh => .inr hh
  | some t =>
    refine (leads_expect rfl fun t _ => rfl).bind fun t => ?_
    exact .pure fun h hh => .inl hh.2

theorem leads_importAfter (start : Position) :
    Leads all failure (At all failure path fun _ => True) (importAfter lenient start) fun _ h =>
      Between all failure lenient true h := by
  refine (leads_expect rfl fun t _ => rfl).bind fun t => ?_
  intro h hh
  refine Leads.bind (leads_importName _) (fun name => ?_) h hh.2
  have hf : ∀ t : Token, True ∧ t.kind ≠ .keyword .asKw → given.step t.kind =
      if t.kind.endsStatement then some (clause true) else none := fun t ht => by
    simp [Stage.step, ht.2]
  refine Leads.bind (.or (leads_finish rfl fun t _ => rfl) (leads_finish rfl hf)) fun _ => ?_
  exact .pure fun h hh => hh

theorem leads_letAfter (ha : ∀ t ∈ all, t.Agrees) (start : Position) :
    Leads all failure (At all failure name fun _ => True) (letAfter lenient start) fun _ h =>
      Between all failure lenient false h := by
  refine (leads_expect rfl fun t _ => rfl).bind fun t => ?_
  intro h hh
  refine Leads.bind (leads_nextIf (r := assign) fun t ht => by simp [Stage.step, ht])
    (fun o => ?_) h hh.2
  have ho : Leads all failure (match o with
      | some _ => At all failure assign fun _ => True
      | none => At all failure stated fun t : Token => True ∧ t.kind ≠ .ident)
      (expect (.symbol .assign)) fun t h => t.kind = .symbol .assign ∧
        At all failure value (fun _ => True) h := by
    cases o with
    | some t => exact leads_expect rfl fun t _ => rfl
    | none => exact leads_expect rfl fun t ht => by simp [Stage.step, ht.2]
  refine Leads.bind (by cases o <;> exact ho) fun sign => ?_
  intro h hh
  refine Leads.bind (leads_expr ha) (fun operand => ?_) h hh.2
  refine Leads.bind (leads_finish rfl fun t _ => rfl) fun _ => ?_
  exact .pure fun h hh => hh

theorem step_clause_of_ne {imports : Bool} {kind : Kind} (hsemi : kind ≠ .symbol .semi)
    (hline : kind ≠ .terminator) (himport : kind ≠ .keyword .importKw)
    (hlet : kind ≠ .keyword .letKw) : (clause imports).step kind = none := by
  have he : ¬kind.endsStatement := fun h => by simp [endsStatement_iff, hsemi, hline] at h
  simp [step, he, himport, hlet]

/-- The parser ends with a script that it accepts, or in one of the ways to fail. -/
theorem readAll_leads (ha : ∀ t ∈ all, t.Agrees) (imports : Bool) (earlier : List Declaration) :
    Leads all failure (Between all failure lenient imports) (readAll lenient imports earlier)
      fun _ _ => Accepted all failure lenient := by
  intro h hb
  -- one case per exit of the loop, and `Between` holds wherever it goes round again
  fun_induction readAll lenient imports earlier h with
  | case1 imports earlier h e u hn => exact hb.fault hn
  | case2 imports earlier h u hn => exact hb.accepted hn
  | case3 imports earlier h t u hn _ hk ih | case4 imports earlier h t u hn _ hk ih =>
    exact ih (.inl (hb.past hn (by simp [step, hk, Kind.endsStatement])))
  | case5 earlier h t u hn _ hk e v hi =>
    exact (leads_importAfter _).fault (hb.past hn (by simp [step, hk])) hi
  | case6 earlier h t u hn _ hk d v hi _ ih =>
    exact ih ((leads_importAfter _).ok (hb.past hn (by simp [step, hk])) hi)
  | case7 imports earlier h t u hn _ hk hi =>
    have hf := hb.refused hn (by simp [step, hk, hi])
    simpa [refusal, expected?, hk, fail] using hf
  | case8 imports earlier h t u hn _ hk e v hi =>
    exact (leads_letAfter ha _).fault (hb.past hn (by simp [step, hk])) hi
  | case9 imports earlier h t u hn _ hk d v hi _ ih =>
    exact ih ((leads_letAfter ha _).ok (hb.past hn (by simp [step, hk])) hi)
  | case10 imports earlier h t u hn _ hsemi hline himport hlet =>
    have hf := hb.refused hn (step_clause_of_ne hsemi hline himport hlet)
    have hi : t.kind ≠ .keyword .importKw := himport
    simpa [refusal, expected?, hi, fail] using hf

theorem between_start (all : List Token) (failure : Option LexError) (lenient : Bool) :
    Between all failure lenient true (facing all failure none) :=
  .inl ⟨[], all, none, rfl, rfl, rfl, fun _ _ => trivial, .inl rfl⟩

theorem readAll_of_fault (ha : ∀ t ∈ all, t.Agrees) {e : ParseError} (hf : Fault all failure e h) :
    ∃ u, readAll false true [] (facing all failure none) = .error e u := by
  have hl : Leads all failure _ (readAll false true []) _ := readAll_leads ha true []
  cases hr : readAll false true [] (facing all failure none) with
  | ok ds u => exact (not_accepted hf (hl.ok (between_start ..) hr)).elim
  | error d u => exact ⟨u, by rw [hf.unique (hl.fault (between_start ..) hr)]⟩

end Statement

instance decidableEqExcept {ε α : Type} [DecidableEq ε] [DecidableEq α] : DecidableEq (Except ε α)
  | .ok a, .ok b => decidable_of_iff (a = b) (by simp)
  | .error e, .error f => decidable_of_iff (e = f) (by simp)
  | .ok _, .error _ => isFalse (by simp)
  | .error _, .ok _ => isFalse (by simp)

namespace Script

variable {σ : Type} [Source σ Char InputError] {source : σ} {lenient : Bool} {enclosing : Scope}

def Reads (lenient : Bool) (source : σ) (ds : List Declaration) : Prop :=
  ∃ h, Statement.readAll lenient true [] { tokens := (Scanner.ofSource source).feed } = .ok ds h

variable {ds : List Declaration}

theorem ofSource_ok {script : Script} : ofSource lenient enclosing source = .ok script ↔
    ∃ ds, Reads lenient source ds ∧ script = ⟨enclosing.addAll ds⟩ := by
  unfold Reads ofSource ofTokens
  split
  · rename_i hr
    simp [hr, eq_comm]
  · rename_i hr
    simp [hr]

theorem ofSource_error {e : ParseError} : ofSource lenient enclosing source = .error e ↔
    ∃ h, Statement.readAll lenient true [] { tokens := (Scanner.ofSource source).feed } =
      .error e h := by
  unfold ofSource ofTokens
  split
  · rename_i hr
    simp [hr]
  · rename_i hr
    simp [hr]

theorem Reads.accepted (hr : Reads lenient source ds) :
    Statement.Accepted (Scanner.ofSource source).run.1 (Scanner.ofSource source).run.2.error?
      lenient := by
  obtain ⟨h, hh⟩ := hr
  exact (Statement.readAll_leads (Scanner.agrees_run _) true []).ok (Statement.between_start ..) hh

theorem reads_iff (he : (Scanner.ofSource source).run.2.error? = none) :
    Reads lenient source ds ↔
      ∃ h, Statement.readAll lenient true [] (.ahead (Scanner.ofSource source).run.1 none) =
        .ok ds h := by
  rw [Reads, Scanner.feed_eq he]
  rfl

end Script

end ScriptFrontend
