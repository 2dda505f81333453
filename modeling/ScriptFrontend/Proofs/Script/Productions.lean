import ScriptFrontend.Proofs.Script.Grammar
import ScriptFrontend.Proofs.Token.Agreement

/-! What each reader of tokens accepts.

The tokens come from a feed that holds nothing else. For every reader there is one equivalence,
which says what the tokens must be like for it to succeed, what it gives and where it stops.
-/

set_option autoImplicit false

namespace ScriptFrontend

theorem bind_ok {ε τ α β : Type} {x : EStateM ε τ α} {f : α → EStateM ε τ β} {s u : τ} {b : β} :
    (x >>= f) s = .ok b u ↔ ∃ a t, x s = .ok a t ∧ f a t = .ok b u := by
  simp only [Bind.bind, EStateM.bind]
  constructor
  · intro h
    split at h
    · rename_i a t hx
      exact ⟨a, t, hx, h⟩
    · cases h
  · intro hx
    obtain ⟨a, t, hx, h⟩ := hx
    rw [hx]
    exact h

theorem pure_ok {ε τ α : Type} {a b : α} {s t : τ} :
    (pure a : EStateM ε τ α) s = .ok b t ↔ b = a ∧ t = s := by
  simp [Pure.pure, EStateM.pure, eq_comm]

namespace TokenHead

/-- These tokens are still to come, and the last one stands there. -/
def ahead (ts : List Token) (last : Option Position) : TokenHead (Feed Token LexError) :=
  ⟨⟨ts.map .item⟩, last⟩

variable {ts : List Token} {last : Option Position} {t : Token} {kind : Kind}
  {h : TokenHead (Feed Token LexError)}

theorem next_nil (last : Option Position) : next (ahead [] last) = .ok none (ahead [] last) := rfl

theorem next_cons (t : Token) (ts : List Token) (last : Option Position) :
    next (ahead (t :: ts) last) = .ok (some t) (ahead ts (some t.position)) := rfl

theorem bind_next_ok {α : Type} {f : Option Token → Parse (Feed Token LexError) α} {a : α}
    (hend : ∀ s, f none s ≠ .ok a h) :
    (next >>= f) (ahead ts last) = .ok a h ↔
      ∃ t rest, ts = t :: rest ∧ f (some t) (ahead rest (some t.position)) = .ok a h := by
  cases ts with
  | nil => simpa [bind_ok, next_nil] using hend _
  | cons t ts =>
    rw [bind_ok]
    constructor
    · intro hx
      obtain ⟨found, s, hn, hf⟩ := hx
      cases hn
      exact ⟨t, ts, rfl, hf⟩
    · intro hx
      obtain ⟨u, rest, hc, hf⟩ := hx
      obtain ⟨rfl, rfl⟩ := List.cons.inj hc
      exact ⟨_, _, next_cons .., hf⟩

theorem expect_ok : expect kind (ahead ts last) = .ok t h ↔
    ∃ rest, ts = t :: rest ∧ t.kind = kind ∧ h = ahead rest (some t.position) := by
  rw [expect, bind_next_ok (by simp [failAtEnd])]
  constructor
  · intro hx
    obtain ⟨s, rest, hs, hf⟩ := hx
    dsimp only at hf
    split at hf
    · obtain ⟨rfl, hh⟩ := pure_ok.1 hf
      exact ⟨rest, hs, ‹_›, hh⟩
    · cases hf
  · intro hx
    obtain ⟨rest, hs, hk, hh⟩ := hx
    refine ⟨t, rest, hs, ?_⟩
    dsimp only
    rw [if_pos hk, pure_ok]
    exact ⟨rfl, hh⟩

theorem nextIf_sound {found : Option Token} (hx : nextIf kind (ahead ts last) = .ok found h) :
    ∃ (o : Option (Terminal [kind])) (rest : List Token) (p : Option Position),
      ts = o.elim [] (fun t => [t.val]) ++ rest ∧ found = o.map (·.val) ∧ h = ahead rest p := by
  cases ts with
  | nil =>
    cases hx
    exact ⟨none, [], last, rfl, rfl, rfl⟩
  | cons t ts =>
    change (if t.kind = kind then EStateM.Result.ok (some t) (ahead ts (some t.position))
      else .ok none (ahead (t :: ts) (some t.position))) = _ at hx
    split at hx
    · rename_i hk
      cases hx
      exact ⟨some ⟨t, by simp [hk]⟩, ts, _, rfl, rfl, rfl⟩
    · cases hx
      exact ⟨none, t :: ts, _, rfl, rfl, rfl⟩

/-- Where there is no token of the kind, the next one must be of another kind: it is put back. -/
theorem nextIf_complete (o : Option (Terminal [kind]))
    (hn : o = none → ∀ t ∈ ts.head?, t.kind ≠ kind) :
    ∃ p, nextIf kind (ahead (o.elim [] (fun t => [t.val]) ++ ts) last) =
      .ok (o.map (·.val)) (ahead ts p) := by
  cases o with
  | some t =>
    have hk : t.val.kind = kind := by simpa using t.property
    exact ⟨some t.val.position, if_pos hk⟩
  | none =>
    cases ts with
    | nil => exact ⟨last, rfl⟩
    | cons t ts => exact ⟨some t.position, if_neg (hn rfl t rfl)⟩

end TokenHead

open TokenHead Grammar

namespace Statement

variable {ts : List Token} {last : Option Position} {h : TokenHead (Feed Token LexError)}

theorem finish_ok : finish false (ahead ts last) = .ok () h ↔
    ∃ t rest, ts = t :: rest ∧ t.kind.endsStatement ∧ h = ahead rest (some t.position) := by
  rw [finish, bind_next_ok (by simp [failAtEnd])]
  constructor
  · intro hx
    obtain ⟨t, rest, hs, hf⟩ := hx
    dsimp only at hf
    split at hf
    · exact ⟨t, rest, hs, ‹_›, (pure_ok.1 hf).2⟩
    · cases hf
  · intro hx
    obtain ⟨t, rest, hs, hk, hh⟩ := hx
    refine ⟨t, rest, hs, ?_⟩
    dsimp only
    rw [if_pos hk, pure_ok]
    exact ⟨rfl, hh⟩

theorem expr_ok {e : Expr} (ha : ∀ t ∈ ts, t.Agrees) : expr (ahead ts last) = .ok e h ↔
    ∃ t rest, ts = t :: rest ∧ t.kind ∈ [.int, .float, .string, .ident] ∧ e = Grammar.expr t ∧
      h = ahead rest (some t.position) := by
  rw [Statement.expr, bind_next_ok (by simp [failAtEnd])]
  constructor
  · intro hx
    obtain ⟨t, rest, hs, hf⟩ := hx
    refine ⟨t, rest, hs, ?_⟩
    cases ha t (by simp [hs]) with
    | keyword | symbol | terminator => cases hf
    | ident | string | int | float =>
      obtain ⟨he, hh⟩ := pure_ok.1 hf
      exact ⟨by simp, he, hh⟩
  · intro hx
    obtain ⟨t, rest, hs, hk, he, hh⟩ := hx
    refine ⟨t, rest, hs, ?_⟩
    cases ha t (by simp [hs]) with
    | keyword | symbol | terminator => simp [Token.terminator] at hk
    | ident | string | int | float => exact pure_ok.2 ⟨he, hh⟩

theorem endsStatement_iff {kind : Kind} :
    kind.endsStatement ↔ kind ∈ [.symbol .semi, .terminator] := by
  unfold Kind.endsStatement
  split <;> simp_all

theorem finish_separator {separator : Token} (rest : List Token) (last : Option Position)
    (hs : separator.kind ∈ [.symbol .semi, .terminator]) :
    finish false (ahead (separator :: rest) last) = .ok () (ahead rest (some separator.position)) :=
  finish_ok.2 ⟨separator, rest, rfl, endsStatement_iff.2 hs, rfl⟩

theorem ne_of_separator {separator : Token} {word : Keyword} (rest : List Token)
    (hs : separator.kind ∈ [.symbol .semi, .terminator]) :
    ∀ t ∈ (separator :: rest).head?, t.kind ≠ .keyword word := by
  intro t ht hk
  obtain rfl : separator = t := by simpa using ht
  simp [hk] at hs

theorem importAfter_ok {d : Declaration} (keyword : Terminal [.keyword .importKw]) :
    importAfter false keyword.val.position (ahead ts last) = .ok d h ↔
      ∃ path given separator rest,
        keyword.val :: ts = (Clause.imported keyword path given separator).tokens ++ rest ∧
        (Clause.imported keyword path given separator).declaration? = some d ∧
        h = ahead rest (some separator.val.position) := by
  simp only [importAfter, importName, bind_ok, expect_ok, pure_ok]
  constructor
  · intro hx
    obtain ⟨path, _, ⟨rest, rfl, hp, rfl⟩, name, _, ⟨found, _, hw, hn⟩, u, _, hf, rfl, rfl⟩ := hx
    obtain ⟨word, rest, p, rfl, rfl, rfl⟩ := nextIf_sound hw
    cases word with
    | none =>
      obtain ⟨rfl, rfl⟩ := pure_ok.1 hn
      obtain ⟨separator, rest, rfl, hs, rfl⟩ := finish_ok.1 hf
      exact ⟨⟨path, by simp [hp]⟩, none, ⟨separator, endsStatement_iff.1 hs⟩, rest, rfl, rfl, rfl⟩
    | some word =>
      simp only [Option.map_some, bind_ok, expect_ok, pure_ok] at hn
      obtain ⟨given, _, ⟨rest, rfl, hg, rfl⟩, rfl, rfl⟩ := hn
      obtain ⟨separator, rest, rfl, hs, rfl⟩ := finish_ok.1 hf
      exact ⟨⟨path, by simp [hp]⟩, some (word, ⟨given, by simp [hg]⟩),
        ⟨separator, endsStatement_iff.1 hs⟩, rest, rfl, rfl, rfl⟩
  · intro hx
    obtain ⟨⟨path, hp⟩, given, ⟨separator, hs⟩, rest, hts, hd, rfl⟩ := hx
    obtain ⟨-, rfl⟩ := List.cons.inj hts
    have hd := (Option.some.inj hd).symm
    refine ⟨path, _, ⟨_, rfl, by simpa using hp, rfl⟩, ?_⟩
    cases given with
    | none =>
      obtain ⟨p, hn⟩ := nextIf_complete none fun _ => ne_of_separator rest hs
      exact ⟨_, _, ⟨none, _, hn, pure_ok.2 ⟨rfl, rfl⟩⟩, (), _, finish_separator _ _ hs, hd, rfl⟩
    | some g =>
      obtain ⟨word, ⟨given, hg⟩⟩ := g
      obtain ⟨p, hn⟩ := nextIf_complete (some word) (by simp)
      have hf := finish_separator rest (some given.position) hs
      refine ⟨_, _, ⟨some word, _, hn, ?_⟩, (), _, hf, hd, rfl⟩
      simp only [bind_ok, expect_ok, pure_ok]
      exact ⟨given, _, ⟨_, rfl, by simpa using hg, rfl⟩, rfl, rfl⟩

theorem letAfter_ok {d : Declaration} (ha : ∀ t ∈ ts, t.Agrees)
    (keyword : Terminal [.keyword .letKw]) :
    letAfter false keyword.val.position (ahead ts last) = .ok d h ↔
      ∃ name stated assign value separator rest,
        keyword.val :: ts =
          (Clause.bound keyword name stated assign value separator).tokens ++ rest ∧
        (Clause.bound keyword name stated assign value separator).declaration? = some d ∧
        h = ahead rest (some separator.val.position) := by
  simp only [letAfter, bind_ok, expect_ok, pure_ok]
  constructor
  · intro hx
    obtain ⟨name, _, ⟨rest, rfl, hn, rfl⟩, found, _, ht, assign, _, hq, value, _, he, u, _, hf,
      rfl, rfl⟩ := hx
    obtain ⟨stated, rest, p, rfl, rfl, rfl⟩ := nextIf_sound ht
    obtain ⟨rest, rfl, hk, rfl⟩ := expect_ok.1 hq
    obtain ⟨value, rest, rfl, hv, rfl, rfl⟩ := (expr_ok (by simp_all)).1 he
    obtain ⟨separator, rest, rfl, hs, rfl⟩ := finish_ok.1 hf
    refine ⟨⟨name, by simp [hn]⟩, stated, ⟨assign, by simp [hk]⟩, ⟨value, hv⟩,
      ⟨separator, endsStatement_iff.1 hs⟩, rest, ?_, ?_, rfl⟩
    · simp [Clause.tokens]
    · cases stated <;> rfl
  · intro hx
    obtain ⟨⟨name, hn⟩, stated, ⟨assign, hq⟩, ⟨value, hv⟩, ⟨separator, hs⟩, rest, hts, hd, rfl⟩ :=
      hx
    obtain rfl : ts = name :: (stated.elim [] (fun t => [t.val]) ++
      assign :: value :: separator :: rest) := by simpa [Clause.tokens] using hts
    have hk : assign.kind = .symbol .assign := by simpa using hq
    have hne : stated = none →
        ∀ t ∈ (assign :: value :: separator :: rest).head?, t.kind ≠ .ident := by simp [hk]
    have hav : ∀ t ∈ value :: separator :: rest, t.Agrees := fun t ht => ha t (by simp_all)
    obtain ⟨p, ht⟩ := nextIf_complete stated hne
    have he : Statement.expr (ahead (value :: separator :: rest) (some assign.position)) = _ :=
      (expr_ok hav).2 ⟨value, _, rfl, hv, rfl, rfl⟩
    refine ⟨name, _, ⟨_, rfl, by simpa using hn, rfl⟩, _, _, ht, assign, _,
      expect_ok.2 ⟨_, rfl, hk, rfl⟩, _, _, he, (), _, finish_separator _ _ hs, ?_, rfl⟩
    cases stated <;> exact (Option.some.inj hd).symm

end Statement

end ScriptFrontend
