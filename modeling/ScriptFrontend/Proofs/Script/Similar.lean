import ScriptFrontend.Proofs.Script.Lenient
import ScriptFrontend.Proofs.Source.Recorded
import ScriptFrontend.Source.Decoder

/-! Parsers over sources that do the same.

A parser only reads tokens and takes back the one that it read last. So over two such sources it
gives the same, be it a script or an error (`ofTokens_similar`), and it leaves related sources.
-/

set_option autoImplicit false

namespace ScriptFrontend

open Grammar Source

variable {τ υ α β : Type}

structure TokenHead.Over (R : τ → υ → Prop) (h : TokenHead τ) (g : TokenHead υ) : Prop where
  last : h.last = g.last
  tokens : R h.tokens g.tokens

/-- Both readers give the same and leave related sources. -/
inductive Matches (R E : τ → υ → Prop) : EStateM.Result ParseError (TokenHead τ) α →
    EStateM.Result ParseError (TokenHead υ) α → Prop where
  | ok {a : α} {t : TokenHead τ} {u : TokenHead υ} : t.Over R u → Matches R E (.ok a t) (.ok a u)
  | error {e : ParseError} {t : TokenHead τ} {u : TokenHead υ} :
      E t.tokens u.tokens → Matches R E (.error e t) (.error e u)

def Agree (R E : τ → υ → Prop) (x : Parse τ α) (y : Parse υ α) : Prop :=
  ∀ ⦃h g⦄, h.Over R g → Matches R E (x h) (y g)

namespace Agree

variable {R E : τ → υ → Prop}

theorem pure (a : α) : Agree R E (Pure.pure a : Parse τ α) (Pure.pure a) :=
  fun _ _ hr => .ok hr

theorem bind {x : Parse τ α} {y : Parse υ α} {f : α → Parse τ β} {k : α → Parse υ β}
    (hx : Agree R E x y) (hf : ∀ a, Agree R E (f a) (k a)) : Agree R E (x >>= f) (y >>= k) := by
  intro h g hr
  have hm := hx hr
  simp only [Bind.bind, EStateM.bind]
  generalize x h = found, y g = other at hm
  cases hm with
  | ok hru => exact hf _ hru
  | error he => exact .error he

theorem ok {x : Parse τ α} {y : Parse υ α} {h t : TokenHead τ} {g : TokenHead υ} {a : α}
    (hx : Agree R E x y) (hr : h.Over R g) (ht : x h = .ok a t) :
    ∃ u, y g = .ok a u ∧ t.Over R u := by
  have hm := hx hr
  rw [ht] at hm
  generalize y g = other at hm
  cases hm with
  | ok hru => exact ⟨_, rfl, hru⟩

theorem error {x : Parse τ α} {y : Parse υ α} {h t : TokenHead τ} {g : TokenHead υ}
    {e : ParseError} (hx : Agree R E x y) (hr : h.Over R g) (ht : x h = .error e t) :
    ∃ u, y g = .error e u ∧ E t.tokens u.tokens := by
  have hm := hx hr
  rw [ht] at hm
  generalize y g = other at hm
  cases hm with
  | error he => exact ⟨_, rfl, he⟩

variable [Source τ Token LexError] [Source υ Token LexError] (hR : Similar R E)

include hR

theorem fail (cause : ParseCause) (position : Option Position) :
    Agree R E (TokenHead.fail cause position : Parse τ α) (TokenHead.fail cause position) :=
  fun _ _ hr => .error (hR.weaken hr.tokens)

theorem failAtEnd (expected : Option Kind) :
    Agree R E (TokenHead.failAtEnd expected : Parse τ α) (TokenHead.failAtEnd expected) := by
  intro h g hr
  rw [TokenHead.failAtEnd, TokenHead.failAtEnd, hr.last]
  exact .error (hR.weaken hr.tokens)

theorem next_cases {h : TokenHead τ} {g : TokenHead υ} (hr : h.Over R g) :
    (∃ token t u, TokenHead.next h = .ok (some token) t ∧ TokenHead.next g = .ok (some token) u ∧
      t.Over R u ∧ R (unread token t.tokens) (unread token u.tokens)) ∨
    (∃ t u, TokenHead.next h = .ok none t ∧ TokenHead.next g = .ok none u ∧ t.Over R u) ∨
    ∃ e t u, TokenHead.next h = .error e t ∧ TokenHead.next g = .error e u ∧
      E t.tokens u.tokens := by
  obtain ⟨hlast, htokens⟩ := hr
  unfold TokenHead.next
  cases hs : Source.read h.tokens with
  | ok token? s =>
    cases token? with
    | none =>
      obtain ⟨u, hu, hsu⟩ := hR.stop htokens hs
      rw [hu]
      exact .inr (.inl ⟨_, _, rfl, rfl, hlast, hsu⟩)
    | some token =>
      obtain ⟨u, hu, hsu, hback⟩ := hR.item htokens hs
      rw [hu]
      exact .inl ⟨_, _, _, rfl, rfl, ⟨rfl, hsu⟩, hback⟩
  | error e s =>
    obtain ⟨u, hu, hsu⟩ := hR.fail htokens hs
    rw [hu]
    exact .inr (.inr ⟨_, _, _, rfl, rfl, hsu⟩)

theorem next : Agree R E (TokenHead.next : Parse τ (Option Token)) TokenHead.next := by
  intro h g hr
  obtain ⟨token, t, u, ht, hu, hru, -⟩ | ⟨t, u, ht, hu, hru⟩ | ⟨e, t, u, ht, hu, he⟩ :=
    next_cases hR hr
  · exact ht ▸ hu ▸ .ok hru
  · exact ht ▸ hu ▸ .ok hru
  · exact ht ▸ hu ▸ .error he

theorem nextIf (kind : Kind) :
    Agree R E (TokenHead.nextIf kind : Parse τ (Option Token)) (TokenHead.nextIf kind) := by
  intro h g hr
  unfold TokenHead.nextIf
  obtain ⟨token, t, u, ht, hu, hru, hback⟩ | ⟨t, u, ht, hu, hru⟩ | ⟨e, t, u, ht, hu, he⟩ :=
    next_cases hR hr
  · rw [ht, hu]
    dsimp only
    split
    · exact .ok hru
    · exact .ok ⟨hru.last, hback⟩
  · rw [ht, hu]
    exact .ok hru
  · rw [ht, hu]
    exact .error he

theorem expect (kind : Kind) :
    Agree R E (TokenHead.expect kind : Parse τ Token) (TokenHead.expect kind) := by
  refine (next hR).bind fun found => ?_
  split
  · split
    · exact .pure _
    · exact fail hR ..
  · exact failAtEnd hR _

theorem finish (lenient : Bool) :
    Agree R E (Statement.finish lenient : Parse τ Unit) (Statement.finish lenient) := by
  refine (next hR).bind fun found => ?_
  split
  · split
    · exact .pure _
    · exact fail hR ..
  · split
    · exact .pure _
    · exact failAtEnd hR _

theorem expr : Agree R E (Statement.expr : Parse τ Expr) Statement.expr := by
  refine (next hR).bind fun found => ?_
  split
  · split
    all_goals first | exact .pure _ | exact fail hR ..
  · exact failAtEnd hR _

theorem importName (path : String) :
    Agree R E (Statement.importName path : Parse τ String) (Statement.importName path) := by
  refine (nextIf hR _).bind fun found => ?_
  split
  · exact (expect hR _).bind fun _ => .pure _
  · exact .pure _

theorem importAfter (lenient : Bool) (start : Position) :
    Agree R E (Statement.importAfter lenient start : Parse τ Declaration)
      (Statement.importAfter lenient start) :=
  (expect hR _).bind fun _ => (importName hR _).bind fun _ => (finish hR _).bind fun _ => .pure _

theorem letAfter (lenient : Bool) (start : Position) :
    Agree R E (Statement.letAfter lenient start : Parse τ Declaration)
      (Statement.letAfter lenient start) :=
  (expect hR _).bind fun _ => (nextIf hR _).bind fun _ => (expect hR _).bind fun _ =>
    (expr hR).bind fun _ => (finish hR _).bind fun _ => .pure _

theorem readAll (lenient imports : Bool) (earlier : List Declaration) :
    Agree R E (Statement.readAll lenient imports earlier : Parse τ (List Declaration))
      (Statement.readAll lenient imports earlier) := by
  intro h g hr
  fun_induction Statement.readAll lenient imports earlier h generalizing g with
  | case1 imports earlier h e t hn =>
    obtain ⟨u, hu, he⟩ := (next hR).error hr hn
    exact Statement.readAll_fail hu ▸ .error he
  | case2 imports earlier h t hn =>
    obtain ⟨u, hu, hru⟩ := (next hR).ok hr hn
    exact Statement.readAll_end hu ▸ .ok hru
  | case3 imports earlier h token t hn _ hk ih | case4 imports earlier h token t hn _ hk ih =>
    obtain ⟨u, hu, hru⟩ := (next hR).ok hr hn
    rw [Statement.readAll_separator hu (by simp [hk, Kind.endsStatement])]
    exact ih hru
  | case5 earlier h token t hn _ hk e v hi =>
    obtain ⟨u, hu, hru⟩ := (next hR).ok hr hn
    obtain ⟨w, hw, he⟩ := (importAfter hR ..).error hru hi
    rw [Statement.readAll_import hu hk]
    simp only [Bind.bind, EStateM.bind, hw]
    exact .error he
  | case6 earlier h token t hn _ hk d v hi _ ih =>
    obtain ⟨u, hu, hru⟩ := (next hR).ok hr hn
    obtain ⟨w, hw, hrw⟩ := (importAfter hR ..).ok hru hi
    rw [Statement.readAll_import hu hk]
    simp only [Bind.bind, EStateM.bind, hw]
    exact ih hrw
  | case7 imports earlier h token t hn _ hk hi =>
    obtain ⟨u, hu, hru⟩ := (next hR).ok hr hn
    rw [Statement.readAll_stuck hu (by simp [Stage.step, hk, hi])]
    simpa [Stage.refusal, Stage.expected?, hk] using fail hR _ _ hru
  | case8 imports earlier h token t hn _ hk e v hi =>
    obtain ⟨u, hu, hru⟩ := (next hR).ok hr hn
    obtain ⟨w, hw, he⟩ := (letAfter hR ..).error hru hi
    rw [Statement.readAll_let hu hk]
    simp only [Bind.bind, EStateM.bind, hw]
    exact .error he
  | case9 imports earlier h token t hn _ hk d v hi _ ih =>
    obtain ⟨u, hu, hru⟩ := (next hR).ok hr hn
    obtain ⟨w, hw, hrw⟩ := (letAfter hR ..).ok hru hi
    rw [Statement.readAll_let hu hk]
    simp only [Bind.bind, EStateM.bind, hw]
    exact ih hrw
  | case10 imports earlier h token t hn _ hsemi hline himport hlet =>
    obtain ⟨u, hu, hru⟩ := (next hR).ok hr hn
    have hi : token.kind ≠ .keyword .importKw := himport
    rw [Statement.readAll_stuck hu (Statement.step_clause_of_ne hsemi hline himport hlet)]
    simpa [Stage.refusal, Stage.expected?, hi] using fail hR _ _ hru

end Agree

namespace Script

/-- What a parse leaves of the tokens, whether it gives a script or fails. -/
def leftover [Source τ Token LexError] (lenient : Bool) (tokens : τ) : τ :=
  (Decoder.left (Statement.readAll lenient true [] { tokens })).tokens

variable [Source τ Token LexError] [Source υ Token LexError] {R E : τ → υ → Prop}
  (hR : Similar R E) {s : τ} {t : υ}

include hR

theorem readAll_similar (hr : R s t) (lenient : Bool) :
    Matches R E (Statement.readAll lenient true [] { tokens := s })
      (Statement.readAll lenient true [] { tokens := t }) :=
  Agree.readAll hR lenient true [] ⟨rfl, hr⟩

theorem ofTokens_similar (hr : R s t) (lenient : Bool) (enclosing : Scope) :
    ofTokens lenient enclosing s = ofTokens lenient enclosing t := by
  have hm := readAll_similar hR hr lenient
  unfold ofTokens
  generalize Statement.readAll lenient true [] { tokens := s } = found,
    Statement.readAll lenient true [] { tokens := t } = other at hm
  cases hm <;> rfl

theorem leftover_similar (hr : R s t) (lenient : Bool) :
    E (leftover lenient s) (leftover lenient t) := by
  have hm := readAll_similar hR hr lenient
  unfold leftover
  generalize Statement.readAll lenient true [] { tokens := s } = found,
    Statement.readAll lenient true [] { tokens := t } = other at hm
  cases hm with
  | ok hru => exact hR.weaken hru.tokens
  | error he => exact he

end Script

end ScriptFrontend
