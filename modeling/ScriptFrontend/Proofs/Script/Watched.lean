import ScriptFrontend.Proofs.Script.Fault
import ScriptFrontend.Proofs.Source.Replay

/-! The parser with an alarm.

It goes off where the text of a token is asked for that carries none, and where a literal or a name
is refused as an expression. No source sets it off, since kind and value of a scanned token agree
(`same_readAll`).
-/

set_option autoImplicit false

namespace ScriptFrontend

open TokenHead

def Kind.isExpr : Kind → Bool
  | int | float | string | ident => true
  | _ => false

namespace Watched

section Readers

variable {τ : Type} (alarm : ParseError)

/-- The text of a token that carries one. The parser makes one up for any other token. -/
def text (t : Token) : Parse τ String := fun h =>
  match t.value with
  | .string s => .ok s h
  | _ => .error alarm h

variable [Source τ Token LexError]

def expr : Parse τ Expr := fun h =>
  match Statement.expr h with
  | .error e u =>
    match e.cause with
    | .unexpectedToken t => if t.kind.isExpr then .error alarm u else .error e u
    | _ => .error e u
  | result => result

def importName (path : String) : Parse τ String := do
  match ← nextIf (.keyword .asKw) with
  | some _ => text alarm (← expect .ident)
  | none => return baseName path

def importAfter (lenient : Bool) (start : Position) : Parse τ Declaration := do
  let path ← text alarm (← expect .string)
  let name ← importName alarm path
  Statement.finish lenient
  return .imported ⟨start, name, path⟩

def typeName : Parse τ (Option String) := do
  match ← nextIf .ident with
  | some token => return some (← text alarm token)
  | none => return none

def letAfter (lenient : Bool) (start : Position) : Parse τ Declaration := do
  let name ← text alarm (← expect .ident)
  let given ← typeName alarm
  let _ ← expect (.symbol .assign)
  let value ← expr alarm
  Statement.finish lenient
  return .bound ⟨start, name, (given.map Ty.named).getD value.ty, value⟩

theorem shrinks_text (t : Token) : Shrinks TokenHead.size (text alarm t : Parse τ String) := by
  intro h u s hs
  unfold text at hs
  split at hs <;> cases hs
  exact Nat.le_refl _

theorem shrinks_expr : Shrinks TokenHead.size (expr alarm : Parse τ Expr) := by
  intro h u e he
  unfold expr at he
  split at he
  · split at he
    · split at he <;> cases he
    · cases he
  · exact Statement.shrinks_expr he

theorem shrinks_importName (path : String) :
    Shrinks TokenHead.size (importName alarm path : Parse τ String) := by
  refine .bind (shrinks_nextIf _) fun found => ?_
  split
  · exact .bind (shrinks_expect _) fun _ => shrinks_text ..
  · exact .pure _

theorem shrinks_importAfter (lenient : Bool) (start : Position) :
    Shrinks TokenHead.size (importAfter alarm lenient start : Parse τ Declaration) :=
  .bind (shrinks_expect _) fun _ => .bind (shrinks_text ..) fun _ =>
    .bind (shrinks_importName ..) fun _ => .bind (Statement.shrinks_finish _) fun _ => .pure _

theorem shrinks_typeName :
    Shrinks TokenHead.size (typeName alarm : Parse τ (Option String)) := by
  refine .bind (shrinks_nextIf _) fun found => ?_
  split
  · exact .bind (shrinks_text ..) fun _ => .pure _
  · exact .pure _

theorem shrinks_letAfter (lenient : Bool) (start : Position) :
    Shrinks TokenHead.size (letAfter alarm lenient start : Parse τ Declaration) :=
  .bind (shrinks_expect _) fun _ => .bind (shrinks_text ..) fun _ =>
    .bind (shrinks_typeName alarm) fun _ => .bind (shrinks_expect _) fun _ =>
      .bind (shrinks_expr alarm) fun _ => .bind (Statement.shrinks_finish _) fun _ => .pure _

def readAll (lenient imports : Bool) (earlier : List Declaration) :
    Parse τ (List Declaration) := fun d =>
  match hn : next d with
  | .error e t => .error e t
  | .ok none t => .ok earlier.reverse t
  | .ok (some token) t =>
    have := size_next_token hn
    match token.kind with
    | .symbol .semi | .terminator => readAll lenient imports earlier t
    | .keyword .importKw =>
      if imports then
        match hs : importAfter alarm lenient token.position t with
        | .error e u => .error e u
        | .ok declaration u =>
          have := shrinks_importAfter _ _ _ hs
          readAll lenient imports (declaration :: earlier) u
      else fail .importAfterDeclaration token.position t
    | .keyword .letKw =>
      match hs : letAfter alarm lenient token.position t with
      | .error e u => .error e u
      | .ok declaration u =>
        have := shrinks_letAfter _ _ _ hs
        readAll lenient false (declaration :: earlier) u
    | _ => fail (.unexpectedToken token) token.position t
termination_by d => d.size

end Readers

section Scanned

/-- All that is left was scanned, or could have been. -/
def Carry (h : TokenHead (Feed Token LexError)) : Prop :=
  ∀ t ∈ h.tokens.items, t.kind.Carries t.value

/-- Where all tokens are as scanned ones both readers do the same, and give what is as `Q` says. -/
def Same {α : Type} (Q : α → Prop) (x y : Parse (Feed Token LexError) α) : Prop :=
  ∀ ⦃h⦄, Carry h → x h = y h ∧ ∀ ⦃a t⦄, y h = .ok a t → Q a ∧ Carry t

variable {α β : Type} {Q : α → Prop} {R : β → Prop} {alarm : ParseError} {t : Token} {kind : Kind}

theorem Same.pure {a : α} (ha : Q a) :
    Same Q (Pure.pure a : Parse (Feed Token LexError) α) (Pure.pure a) := by
  intro h hh
  refine ⟨rfl, fun b u hb => ?_⟩
  cases hb
  exact ⟨ha, hh⟩

theorem Same.bind {x y : Parse (Feed Token LexError) α} {f g : α → Parse (Feed Token LexError) β}
    (hx : Same Q x y) (hf : ∀ a, Q a → Same R (f a) (g a)) : Same R (x >>= f) (y >>= g) := by
  intro h hh
  obtain ⟨he, ho⟩ := hx hh
  simp only [Bind.bind, EStateM.bind, he]
  cases hy : y h with
  | error e u => exact ⟨rfl, fun _ _ hn => by cases hn⟩
  | ok a u =>
    obtain ⟨ha, hu⟩ := ho hy
    exact hf a ha hu

theorem Same.fail (cause : ParseCause) (position : Option Position) :
    Same Q (TokenHead.fail cause position : Parse (Feed Token LexError) α)
      (TokenHead.fail cause position) :=
  fun _ _ => ⟨rfl, fun _ _ hn => by cases hn⟩

theorem Same.failAtEnd (expected : Option Kind) :
    Same Q (TokenHead.failAtEnd expected : Parse (Feed Token LexError) α)
      (TokenHead.failAtEnd expected) :=
  fun _ _ => ⟨rfl, fun _ _ hn => by cases hn⟩

theorem same_next : Same (fun found => ∀ t ∈ found, t.kind.Carries t.value)
    (next : Parse (Feed Token LexError) (Option Token)) next := by
  intro h hh
  refine ⟨rfl, fun found u hu => ?_⟩
  obtain ⟨⟨events⟩, last⟩ := h
  unfold Carry at *
  match events, hu with
  | [], hu =>
    cases hu
    exact ⟨by simp, hh⟩
  | .item t :: later, hu =>
    cases hu
    rw [Feed.items_item, List.forall_mem_cons] at hh
    simpa using hh
  | .stop :: later, hu =>
    cases hu
    exact ⟨by simp, hh⟩

theorem same_nextIf (kind : Kind) :
    Same (fun found => ∀ t ∈ found, t.kind = kind ∧ t.kind.Carries t.value)
      (nextIf kind : Parse (Feed Token LexError) (Option Token)) (nextIf kind) := by
  intro h hh
  refine ⟨rfl, fun found u hu => ?_⟩
  unfold nextIf at hu
  split at hu
  · rename_i t v hv
    obtain ⟨ht, hc⟩ := (same_next hh).2 hv
    split at hu <;> cases hu
    · simp_all
    · exact ⟨by simp, List.forall_mem_cons.2 ⟨ht t rfl, hc⟩⟩
  · rename_i hne
    cases found with
    | none => exact ⟨by simp, ((same_next hh).2 hu).2⟩
    | some t => exact absurd hu (hne t u)

theorem same_expect (kind : Kind) :
    Same (fun t => t.kind = kind ∧ t.kind.Carries t.value)
      (expect kind : Parse (Feed Token LexError) Token) (expect kind) := by
  refine same_next.bind fun found hf => ?_
  cases found with
  | none => exact .failAtEnd _
  | some t =>
    dsimp only
    split
    · exact .pure ⟨‹_›, hf t rfl⟩
    · exact .fail ..

theorem same_finish (lenient : Bool) :
    Same (fun _ => True) (Statement.finish lenient : Parse (Feed Token LexError) Unit)
      (Statement.finish lenient) := by
  refine same_next.bind fun found _ => ?_
  cases found with
  | none =>
    dsimp only
    split
    · exact .pure trivial
    · exact .failAtEnd _
  | some t =>
    dsimp only
    split
    · exact .pure trivial
    · exact .fail ..

theorem text_eq (ht : t.kind.Carries t.value) (hk : t.kind = .string ∨ t.kind = .ident) :
    (text alarm t : Parse (Feed Token LexError) String) = Pure.pure t.text := by
  have hv : ∃ s, t.value = .string s := by
    obtain ⟨p, kind, value⟩ := t
    obtain rfl | rfl := hk
    · exact ht
    · obtain ⟨s, hs, -⟩ := ht
      exact ⟨s, hs⟩
  obtain ⟨s, hs⟩ := hv
  funext h
  simp [text, Token.text, hs, Pure.pure, EStateM.pure]

theorem same_importName (path : String) :
    Same (fun _ => True) (importName alarm path) (Statement.importName path) := by
  refine (same_nextIf _).bind fun found _ => ?_
  cases found with
  | none => exact .pure trivial
  | some _ =>
    refine (same_expect .ident).bind fun t ht => ?_
    rw [text_eq ht.2 (.inr ht.1)]
    exact .pure trivial

theorem same_importAfter (alarm : ParseError) (lenient : Bool) (start : Position) :
    Same (fun _ => True) (importAfter alarm lenient start)
      (Statement.importAfter lenient start) := by
  refine (same_expect .string).bind fun t ht => ?_
  rw [text_eq ht.2 (.inl ht.1), pure_bind]
  exact (same_importName _).bind fun _ _ => (same_finish _).bind fun _ _ => .pure trivial

theorem refused_expr {h u : TokenHead (Feed Token LexError)} {e : ParseError} (hh : Carry h)
    (he : Statement.expr h = .error e u) (hc : e.cause = .unexpectedToken t) :
    t.kind.isExpr = false := by
  simp only [Statement.expr, Bind.bind, EStateM.bind] at he
  split at he
  · rename_i found v hn
    cases found with
    | none =>
      cases he
      cases hc
    | some s =>
      have hs := ((same_next hh).2 hn).1 s rfl
      obtain ⟨p, kind, value⟩ := s
      cases kind with
      | int | ident =>
        obtain ⟨_, rfl, -⟩ := hs
        cases he
      | float | string =>
        obtain ⟨_, rfl⟩ := hs
        cases he
      | keyword | symbol | terminator =>
        cases value <;> cases he <;> cases hc <;> rfl
  · rename_i hn
    cases he
    unfold next at hn
    split at hn <;> cases hn
    cases hc

theorem kept_expr : Same (fun _ => True)
    (Statement.expr : Parse (Feed Token LexError) Expr) Statement.expr := by
  refine same_next.bind fun found _ => ?_
  cases found with
  | none => exact .failAtEnd _
  | some t =>
    dsimp only
    split
    all_goals first | exact .pure trivial | exact .fail ..

theorem same_expr : Same (fun _ => True) (expr alarm) Statement.expr := by
  intro h hh
  refine ⟨?_, (kept_expr hh).2⟩
  unfold expr
  split
  · rename_i e u he
    split
    · rename_i t hc
      simp [refused_expr hh he hc, he]
    · exact he.symm
  · rfl

theorem same_letAfter (alarm : ParseError) (lenient : Bool) (start : Position) :
    Same (fun _ => True) (letAfter alarm lenient start) (Statement.letAfter lenient start) := by
  refine (same_expect .ident).bind fun t ht => ?_
  rw [text_eq ht.2 (.inr ht.1), pure_bind, typeName, bind_assoc]
  refine (same_nextIf .ident).bind fun found hf => ?_
  cases found with
  | none =>
    rw [pure_bind]
    exact (same_expect _).bind fun _ _ => same_expr.bind fun _ _ => (same_finish _).bind fun _ _ =>
      .pure trivial
  | some given =>
    obtain ⟨hk, hc⟩ := hf given rfl
    simp only [text_eq hc (.inr hk), pure_bind]
    exact (same_expect _).bind fun _ _ => same_expr.bind fun _ _ => (same_finish _).bind fun _ _ =>
      .pure trivial

theorem readAll_token {lenient imports : Bool} {earlier : List Declaration}
    {h u : TokenHead (Feed Token LexError)} (hn : next h = .ok (some t) u) :
    readAll alarm lenient imports earlier h =
      match t.kind with
      | .symbol .semi | .terminator => readAll alarm lenient imports earlier u
      | .keyword .importKw =>
        if imports then
          (importAfter alarm lenient t.position >>= fun d =>
            readAll alarm lenient imports (d :: earlier)) u
        else fail .importAfterDeclaration t.position u
      | .keyword .letKw =>
        (letAfter alarm lenient t.position >>= fun d =>
          readAll alarm lenient false (d :: earlier)) u
      | _ => fail (.unexpectedToken t) t.position u := by
  rw [readAll]
  split <;> rename_i hr <;> cases hn.symm.trans hr
  simp only [Bind.bind, EStateM.bind]
  split
  · rfl
  · rfl
  · split
    · split <;> simp_all
    · rfl
  · split <;> simp_all
  · rfl

/-- Where all tokens are as scanned ones the alarm does not go off. -/
theorem same_readAll (lenient imports : Bool) (earlier : List Declaration)
    {h : TokenHead (Feed Token LexError)} (hh : Carry h) :
    readAll alarm lenient imports earlier h = Statement.readAll lenient imports earlier h := by
  fun_induction Statement.readAll lenient imports earlier h with
  | case1 imports earlier h e u hn | case2 imports earlier h u hn =>
    rw [readAll]
    split <;> rename_i hr <;> cases hn.symm.trans hr
    rfl
  | case3 imports earlier h t u hn _ hk ih | case4 imports earlier h t u hn _ hk ih =>
    rw [readAll_token hn, hk]
    exact ih ((same_next hh).2 hn).2
  | case5 earlier h t u hn _ hk e v hi =>
    obtain ⟨he, -⟩ := same_importAfter alarm lenient t.position ((same_next hh).2 hn).2
    rw [readAll_token hn, hk]
    simp [Bind.bind, EStateM.bind, he, hi]
  | case6 earlier h t u hn _ hk d v hi _ ih =>
    obtain ⟨he, hv⟩ := same_importAfter alarm lenient t.position ((same_next hh).2 hn).2
    rw [readAll_token hn, hk]
    simpa [Bind.bind, EStateM.bind, he, hi] using ih (hv hi).2
  | case7 imports earlier h t u hn _ hk hi =>
    rw [readAll_token hn, hk]
    simp [hi]
  | case8 imports earlier h t u hn _ hk e v hi =>
    obtain ⟨he, -⟩ := same_letAfter alarm lenient t.position ((same_next hh).2 hn).2
    rw [readAll_token hn, hk]
    simp [Bind.bind, EStateM.bind, he, hi]
  | case9 imports earlier h t u hn _ hk d v hi _ ih =>
    obtain ⟨he, hv⟩ := same_letAfter alarm lenient t.position ((same_next hh).2 hn).2
    rw [readAll_token hn, hk]
    simpa [Bind.bind, EStateM.bind, he, hi] using ih (hv hi).2
  | case10 imports earlier h t u hn _ hsemi hline himport hlet =>
    rw [readAll_token hn]
    split
    · simp_all
    · simp_all
    · simp_all
    · simp_all
    · rfl

end Scanned

/-- On tokens that no scan gives the alarm does go off. -/
example :
    let alarm : ParseError := ⟨.importAfterDeclaration, none⟩
    let tokens : List Token := [⟨⟨1, 1⟩, .keyword .importKw, .string "import"⟩,
      ⟨⟨1, 8⟩, .string, .int 1⟩, .terminator ⟨1, 9⟩]
    (match readAll alarm true true [] { tokens := (.ofList tokens : Feed Token LexError) } with
      | .ok _ _ => none
      | .error e _ => some e) = some alarm := by
  decide +kernel

end Watched

namespace Script

variable {σ : Type} [Source σ Char InputError]

def watched (alarm : ParseError) (lenient : Bool) (enclosing : Scope) (source : σ) :
    Except ParseError Script :=
  match Watched.readAll alarm lenient true [] { tokens := (Scanner.ofSource source).feed } with
  | .ok declarations _ => .ok ⟨enclosing.addAll declarations⟩
  | .error e _ => .error e

theorem carry_feed (source : σ) : Watched.Carry { tokens := (Scanner.ofSource source).feed } := by
  have hitems : (Scanner.ofSource source).feed.items = (Scanner.ofSource source).run.1 := by
    unfold Scanner.feed
    cases (Scanner.ofSource source).run.2.error? <;>
      simp [Feed.items, List.filterMap_map, Function.comp_def, Event.item?]
  unfold Watched.Carry
  rw [hitems]
  exact Scanner.carries_run _

/-- Every token carries a value as its kind calls for. So the alarm goes off in no parse, whatever
it says, and wherever an expression is read, no literal and no name is refused. -/
theorem ofSource_watched (source : σ) :
    (∀ t ∈ (Scanner.ofSource source).run.1, t.kind.Carries t.value) ∧
      (∀ alarm lenient enclosing,
        watched alarm lenient enclosing source = ofSource lenient enclosing source) ∧
      ∀ (h u : TokenHead (Feed Token LexError)) (t : Token) (p : Option Position),
        (∀ s ∈ h.tokens.items, s ∈ (Scanner.ofSource source).run.1) →
        Statement.expr h = .error ⟨.unexpectedToken t, p⟩ u →
          t.kind ∉ [.int, .float, .string, .ident] := by
  have hall := Scanner.carries_run (Scanner.ofSource source)
  refine ⟨hall, ?alarm, ?expr⟩
  case alarm =>
    intro alarm lenient enclosing
    rw [watched, Watched.same_readAll lenient true [] (carry_feed source), ofSource, ofTokens]
    cases Statement.readAll lenient true [] { tokens := (Scanner.ofSource source).feed } <;> rfl
  case expr =>
    intro h u t p hh he hk
    have hr := Watched.refused_expr (fun s hs => hall s (hh s hs)) he rfl
    simp only [List.mem_cons, List.not_mem_nil, or_false] at hk
    obtain hk | hk | hk | hk := hk <;> simp [hk, Kind.isExpr] at hr

theorem ofSource_watched_sign :
    let source : Feed Char InputError := .ofList "let x = =".toList
    let alarm : ParseError := ⟨.importAfterDeclaration, none⟩
    let sign : Token := ⟨⟨1, 9⟩, .symbol .assign, .symbol "="⟩
    let h : TokenHead (Feed Token LexError) := { tokens := .ofList [sign] }
    watched alarm false .root source = .error ⟨.unexpectedToken sign, some ⟨1, 9⟩⟩ ∧
      watched alarm false .root source = ofSource false .root source ∧
      sign ∈ (Scanner.ofSource source).run.1 ∧
      Statement.expr h = .error ⟨.unexpectedToken sign, some ⟨1, 9⟩⟩ ⟨⟨[]⟩, some ⟨1, 9⟩⟩ ∧
      sign.kind ∉ [.int, .float, .string, .ident] := by
  intro source alarm sign h
  have hs : sign ∈ (Scanner.ofSource source).run.1 := List.mem_of_getLast? (by decide +kernel)
  obtain ⟨-, ha, hx⟩ := ofSource_watched source
  refine ⟨by decide +kernel, ha alarm false .root, hs, rfl, hx h _ _ _ ?_ rfl⟩
  simpa [h, Feed.items, Feed.ofList, Event.item?] using hs

end Script

end ScriptFrontend
