import ScriptFrontend.Proofs.Script.Fault
import ScriptFrontend.Proofs.Source.Replay
import ScriptFrontend.Proofs.Token.ErrorPlace

set_option autoImplicit false

namespace ScriptFrontend

open Grammar TokenHead

/-- Nothing is wrong with the tokens before this last one, and with it no script starts with them.
-/
structure Grammar.Offends (t : Token) (used pulled : List Token) : Prop where
  last : pulled = used ++ [t]
  before : Viable used
  behind : ¬Viable pulled

namespace ParseError

/-- What the error says is true of all the tokens that were read, and of all that there are. -/
def Blames (e : ParseError) (pulled tokens : List Token) (failure : Option LexError) : Prop :=
  match e.cause with
  | .expectedToken kind found => e.position = some found.position ∧
    ∃ used, Offends found used pulled ∧ ∀ t, t.kind = kind → Viable (used ++ [t])
  | .unexpectedToken found => e.position = some found.position ∧ ∃ used, Offends found used pulled
  | .importAfterDeclaration =>
    ∃ found used, e.position = some found.position ∧ Offends found used pulled
  | .unexpectedEnd _ => pulled = tokens ∧ failure = none ∧ Viable tokens ∧
    ¬Nonempty (Derivation tokens) ∧ ∃ t ∈ tokens.getLast?, e.position = some t.position
  | .lexical error =>
    pulled = tokens ∧ failure = some error ∧ Viable tokens ∧ e.position = error.position

theorem Blames.located {e : ParseError} {pulled tokens : List Token} {failure : Option LexError}
    (hb : e.Blames pulled tokens failure)
    (hl : ∀ d, failure = some d → d.position.isSome) : e.position.isSome := by
  obtain ⟨cause, position⟩ := e
  cases cause with
  | expectedToken kind found => exact hb.1 ▸ rfl
  | unexpectedToken found => exact hb.1 ▸ rfl
  | importAfterDeclaration =>
    obtain ⟨found, used, hp, -⟩ := hb
    exact hp ▸ rfl
  | unexpectedEnd expected =>
    obtain ⟨-, -, -, -, t, -, hp⟩ := hb
    exact hp ▸ rfl
  | lexical d =>
    obtain ⟨-, hf, -, hp⟩ := hb
    exact hp ▸ hl d hf

def isAtToken (e : ParseError) : Bool :=
  match e.cause with
  | .expectedToken .. | .unexpectedToken _ | .importAfterDeclaration => true
  | .unexpectedEnd _ | .lexical _ => false

end ParseError

namespace TokenHead

variable {all pulled rest used : List Token} {failure : Option LexError} {s : Stage}
  {e : ParseError} {h : TokenHead (Feed Token LexError)} {t : Token}

theorem items_facing (ts : List Token) (failure : Option LexError) (last : Option Position) :
    (facing ts failure last).tokens.items = ts := by
  cases failure <;> simp [facing, Feed.items, List.filterMap_map, Function.comp_def, Event.item?]

theorem offends_of_refused (hs : (Stage.clause true).reach used = some s)
    (ht : s.step t.kind = none) : Offends t used (used ++ [t]) :=
  ⟨rfl, viable_iff.2 (by simp [hs]), fun hv => by simp [viable_iff, hs, ht] at hv⟩

theorem step_expected {kind : Kind} (he : s.expected? = some kind) : (s.step kind).isSome := by
  cases s <;> cases he <;> rfl

theorem blames_refusal (failure : Option LexError) (tokens : List Token)
    (hs : (Stage.clause true).reach used = some s) (ht : s.step t.kind = none) :
    ParseError.Blames ⟨s.refusal t, some t.position⟩ (used ++ [t]) tokens failure := by
  have ho := offends_of_refused hs ht
  unfold Stage.refusal
  cases he : s.expected? with
  | some kind =>
    refine ⟨rfl, used, ho, fun u hu => viable_iff.2 ?_⟩
    obtain ⟨r, hr⟩ := Option.isSome_iff_exists.1 (step_expected he)
    simp [hs, hu, hr]
  | none =>
    dsimp only
    split
    · exact ⟨t, used, rfl, ho⟩
    · exact ⟨rfl, used, ho⟩

theorem Fault.blames (hf : Fault all failure e h) :
    ∃ pulled, all = pulled ++ h.tokens.items ∧ e.Blames pulled all failure := by
  cases hf with
  | refused hall hs ht =>
    rename_i used rest t s
    exact ⟨used ++ [t], by simp [hall, items_facing], blames_refusal failure all hs ht⟩
  | ended hn hs hne =>
    refine ⟨all, by simp [exhausted, items_facing], rfl, hn, viable_iff.2 (by simp [hs]), ?_, ?_⟩
    · rw [derivable_iff]
      rintro ⟨i, hi⟩
      exact hne i (Option.some.inj (hs.symm.trans hi))
    · cases hl : all.getLast? with
      | none =>
        obtain rfl := List.getLast?_eq_none_iff.1 hl
        exact absurd (Option.some.inj hs).symm (hne true)
      | some t => exact ⟨t, rfl, rfl⟩
  | lexical hl hs =>
    exact ⟨all, by simp [exhausted, items_facing], rfl, hl, viable_iff.2 (by simp [hs]), rfl⟩

/-- An error at a token stays whatever comes behind that token. -/
theorem Fault.extend (hf : Fault all failure e h) (ht : e.isAtToken)
    (hall : all = pulled ++ h.tokens.items) (more : List Token) (other : Option LexError) :
    ∃ u, Fault (pulled ++ more) other e u := by
  cases hf with
  | refused hused hs hr =>
    rename_i used rest t s
    rw [items_facing] at hall
    have hp : pulled ++ rest = (used ++ [t]) ++ rest := by simpa using hall.symm.trans hused
    obtain rfl := List.append_cancel_right hp
    exact ⟨_, .refused (List.append_assoc ..) hs hr⟩
  | ended | lexical => cases ht

end TokenHead

namespace Script

variable {σ : Type} [Source σ Char InputError] {source : σ} {enclosing : Scope} {e : ParseError}

/-- Where strict parsing fails, its error holds of the tokens that it has read, and an error at the
last one of them comes up wherever they do. -/
theorem ofSource_first_error (he : ofSource false enclosing source = .error e) :
    e.position.isSome ∧ ∃ pulled head,
      Statement.readAll false true [] { tokens := (Scanner.ofSource source).feed } =
        .error e head ∧
      (Scanner.ofSource source).run.1 = pulled ++ head.tokens.items ∧
      e.Blames pulled (Scanner.ofSource source).run.1 (Scanner.ofSource source).run.2.error? ∧
      (e.isAtToken → ∀ (τ : Type) [Source τ Char InputError] (other : τ) (scope : Scope),
        pulled <+: (Scanner.ofSource other).run.1 → ofSource false scope other = .error e) := by
  obtain ⟨head, hr⟩ := ofSource_error.1 he
  have hf : Fault (Scanner.ofSource source).run.1 (Scanner.ofSource source).run.2.error? e head :=
    (Statement.readAll_leads (Scanner.agrees_run _) true []).fault (Statement.between_start ..) hr
  obtain ⟨pulled, hall, hb⟩ := hf.blames
  refine ⟨hb.located fun d hd => Scanner.locates_run source hd, pulled, head, hr, hall, hb, ?_⟩
  intro ht τ _ other scope hp
  obtain ⟨more, hm⟩ := hp
  obtain ⟨u, hu⟩ := hf.extend ht hall more (Scanner.ofSource other).run.2.error?
  rw [hm] at hu
  exact ofSource_error.2 (Statement.readAll_of_fault (Scanner.agrees_run _) hu)

theorem ofSource_first_error_missing_sign :
    let source : Feed Char InputError := .ofList "let x 1\n# y".toList
    let found : Token := ⟨⟨1, 7⟩, .int, .int 1⟩
    let e : ParseError := ⟨.expectedToken (.symbol .assign) found, some ⟨1, 7⟩⟩
    ofSource false .root source = .error e ∧ ∃ pulled,
      e.Blames pulled (Scanner.ofSource source).run.1 (Scanner.ofSource source).run.2.error? ∧
      ∀ (τ : Type) [Source τ Char InputError] (other : τ) (scope : Scope),
        pulled <+: (Scanner.ofSource other).run.1 → ofSource false scope other = .error e := by
  intro source found e
  have he : ofSource false .root source = .error e := by decide +kernel
  obtain ⟨-, pulled, head, -, -, hb, ho⟩ := ofSource_first_error he
  exact ⟨he, pulled, hb, ho rfl⟩

end Script

end ScriptFrontend
