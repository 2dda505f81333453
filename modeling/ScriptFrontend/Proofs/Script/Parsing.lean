import ScriptFrontend.Proofs.Script.Productions
import ScriptFrontend.Script.Reading

set_option autoImplicit false

namespace ScriptFrontend

open TokenHead Grammar

namespace Grammar

/-- The clauses may follow one another where `imports` says whether an import may still come. -/
def Allowed : Bool → List Clause → Prop
  | _, [] => True
  | imports, c :: cs => (c.isImport → imports) ∧ Allowed (imports && !c.isBinding) cs

theorem allowed_iff {imports : Bool} {cs : List Clause} :
    Allowed imports cs ↔ (∀ c ∈ cs, c.isImport → imports) ∧
      cs.Pairwise fun a b => a.isBinding → b.isImport = false := by
  induction cs generalizing imports with
  | nil => simp [Allowed]
  | cons c cs ih =>
    rw [Allowed, ih, List.pairwise_cons, List.forall_mem_cons]
    cases imports <;> cases c.isBinding <;> simp <;> grind

theorem Clause.exists_let {c : Clause} (h : c.isBinding) :
    ∃ t ∈ c.tokens, t.kind = .keyword .letKw := by
  cases c with
  | empty | imported => cases h
  | bound keyword => exact ⟨keyword, .head _, by simpa using keyword.property⟩

theorem Clause.exists_import {c : Clause} (h : c.isImport) :
    ∃ t ∈ c.tokens, t.kind = .keyword .importKw := by
  cases c with
  | empty | bound => cases h
  | imported keyword => exact ⟨keyword, .head _, by simpa using keyword.property⟩

theorem allowed_append {cs ds : List Clause} (hc : Allowed true cs) (hd : Allowed true ds)
    (h : (∀ t ∈ cs.flatMap Clause.tokens, t.kind ≠ .keyword .letKw) ∨
      ∀ t ∈ ds.flatMap Clause.tokens, t.kind ≠ .keyword .importKw) : Allowed true (cs ++ ds) := by
  refine allowed_iff.2 ⟨fun _ _ _ => rfl, List.pairwise_append.2
    ⟨(allowed_iff.1 hc).2, (allowed_iff.1 hd).2, fun c hcs d hds hb => ?_⟩⟩
  obtain h | h := h
  · obtain ⟨t, ht, hk⟩ := Clause.exists_let hb
    exact absurd hk (h t (List.mem_flatMap.2 ⟨c, hcs, ht⟩))
  · refine Bool.eq_false_iff.2 fun hi => ?_
    obtain ⟨t, ht, hk⟩ := Clause.exists_import hi
    exact h t (List.mem_flatMap.2 ⟨d, hds, ht⟩) hk

end Grammar

namespace Statement

variable {imports : Bool} {earlier : List Declaration} {ts : List Token} {last : Option Position}
  {t : Token} {h : TokenHead (Feed Token LexError)} {ds : List Declaration}

theorem readAll_nil : readAll false imports earlier (ahead [] last) =
    .ok earlier.reverse (ahead [] last) := by
  rw [readAll]
  rfl

theorem readAll_ok : readAll false imports earlier (ahead (t :: ts) last) = .ok ds h ↔
    (t.kind ∈ [.symbol .semi, .terminator] ∧
      readAll false imports earlier (ahead ts (some t.position)) = .ok ds h) ∨
    (t.kind ∈ [.keyword .importKw] ∧ imports ∧
      ∃ d u, importAfter false t.position (ahead ts (some t.position)) = .ok d u ∧
        readAll false imports (d :: earlier) u = .ok ds h) ∨
    (t.kind ∈ [.keyword .letKw] ∧
      ∃ d u, letAfter false t.position (ahead ts (some t.position)) = .ok d u ∧
        readAll false false (d :: earlier) u = .ok ds h) := by
  rw [readAll]
  split
  · rename_i hn
    cases hn
  · rename_i hn
    cases hn
  rename_i hn
  cases hn
  dsimp only
  split
  · simp_all [ahead]
  · simp_all [ahead]
  · split
    · split <;> simp_all [ahead, and_assoc]
    · simp_all [fail]
  · split <;> simp_all [ahead, and_assoc]
  · simp_all [fail]

theorem readAll_step (ha : ∀ s ∈ t :: ts, s.Agrees)
    (hx : readAll false imports earlier (ahead (t :: ts) last) = .ok ds h) :
    ∃ (c : Clause) (rest : List Token) (p : Option Position),
      t :: ts = c.tokens ++ rest ∧ (c.isImport → imports) ∧
        readAll false (imports && !c.isBinding) (c.declaration?.toList ++ earlier) (ahead rest p) =
          .ok ds h := by
  have hts : ∀ s ∈ ts, s.Agrees := fun s hs => ha s (.tail _ hs)
  obtain ⟨hk, hr⟩ | ⟨hk, hi, d, u, hd, hr⟩ | ⟨hk, d, u, hd, hr⟩ := readAll_ok.1 hx
  · exact ⟨.empty ⟨t, hk⟩, ts, _, rfl, by simp [Clause.isImport],
      by simpa [Clause.isBinding, Clause.declaration?] using hr⟩
  · obtain ⟨path, given, separator, rest, hc, he, rfl⟩ := (importAfter_ok ⟨t, hk⟩).1 hd
    refine ⟨_, rest, some separator.val.position, hc, fun _ => hi, ?_⟩
    rw [he]
    simpa [Clause.isBinding] using hr
  · obtain ⟨name, stated, assign, value, separator, rest, hc, he, rfl⟩ :=
      (letAfter_ok hts ⟨t, hk⟩).1 hd
    refine ⟨_, rest, some separator.val.position, hc, by simp [Clause.isImport], ?_⟩
    rw [he]
    simpa [Clause.isBinding] using hr

theorem readAll_clause (c : Clause) (ha : ∀ s ∈ c.tokens ++ ts, s.Agrees)
    (hi : c.isImport → imports) (last : Option Position) :
    ∃ p, ∀ ds h,
      readAll false (imports && !c.isBinding) (c.declaration?.toList ++ earlier) (ahead ts p) =
        .ok ds h →
      readAll false imports earlier (ahead (c.tokens ++ ts) last) = .ok ds h := by
  cases c with
  | empty separator =>
    refine ⟨some separator.val.position, fun ds h hr => readAll_ok.2 (.inl ⟨separator.2, ?_⟩)⟩
    simpa [Clause.isBinding, Clause.declaration?] using hr
  | imported keyword path given separator =>
    refine ⟨some separator.val.position, fun ds h hr => ?_⟩
    refine readAll_ok.2 (.inr (.inl ⟨keyword.2, hi rfl, _, _,
      (importAfter_ok keyword).2 ⟨path, given, separator, ts, rfl, rfl, rfl⟩, ?_⟩))
    simpa [Clause.isBinding, Clause.declaration?] using hr
  | bound keyword name stated assign value separator =>
    refine ⟨some separator.val.position, fun ds h hr => ?_⟩
    have hts := fun t ht => ha t (.tail _ ht)
    refine readAll_ok.2 (.inr (.inr ⟨keyword.2, _, _, (letAfter_ok hts keyword).2
      ⟨name, stated, assign, value, separator, ts, rfl, rfl, rfl⟩, ?_⟩))
    simpa [Clause.isBinding, Clause.declaration?] using hr

theorem length_tokens_pos (c : Clause) : 0 < c.tokens.length := by
  cases c <;> simp [Clause.tokens]

theorem reverse_declaration (c : Clause) (cs : List Clause) (earlier : List Declaration) :
    (c.declaration?.toList ++ earlier).reverse ++ cs.filterMap Clause.declaration? =
      earlier.reverse ++ (c :: cs).filterMap Clause.declaration? := by
  cases hd : c.declaration? <;> simp [hd]

/-- What was read makes up the clauses of a derivation. -/
theorem readAll_sound (ha : ∀ t ∈ ts, t.Agrees)
    (hx : readAll false imports earlier (ahead ts last) = .ok ds h) :
    ∃ cs, Allowed imports cs ∧ cs.flatMap Clause.tokens = ts ∧
      ds = earlier.reverse ++ cs.filterMap Clause.declaration? := by
  -- on the number of tokens, since a clause takes several of them at once
  induction hl : ts.length using Nat.strongRecOn generalizing imports earlier ts last with
  | ind n ih =>
    cases ts with
    | nil =>
      rw [readAll_nil] at hx
      cases hx
      exact ⟨[], trivial, rfl, by simp⟩
    | cons t ts =>
      obtain ⟨c, rest, p, hc, hi, hr⟩ := readAll_step ha hx
      have hlt : rest.length < n := by
        have hlen := congrArg List.length hc
        have hpos := length_tokens_pos c
        rw [List.length_append] at hlen
        omega
      have hrest : ∀ t ∈ rest, t.Agrees := fun s hs => ha s (hc ▸ List.mem_append_right _ hs)
      obtain ⟨cs, ho, rfl, rfl⟩ := ih rest.length hlt hrest hr rfl
      exact ⟨c :: cs, ⟨hi, ho⟩, hc.symm, reverse_declaration c cs earlier⟩

theorem readAll_complete {cs : List Clause} (earlier : List Declaration) (ho : Allowed imports cs)
    (ha : ∀ t ∈ cs.flatMap Clause.tokens, t.Agrees) (last : Option Position) :
    ∃ h, readAll false imports earlier (ahead (cs.flatMap Clause.tokens) last) =
      .ok (earlier.reverse ++ cs.filterMap Clause.declaration?) h := by
  induction cs generalizing imports earlier last with
  | nil => exact ⟨_, by simpa using readAll_nil⟩
  | cons c cs ih =>
    obtain ⟨p, hp⟩ := readAll_clause c ha ho.1 last
    obtain ⟨h, hh⟩ := ih _ ho.2 (fun t ht => ha t (List.mem_append_right _ ht)) p
    exact ⟨h, hp _ _ (reverse_declaration c cs earlier ▸ hh)⟩

variable {us : List Token} {es : List Declaration}

theorem readAll_append (ha : ∀ t ∈ ts ++ us, t.Agrees)
    (hk : (∀ t ∈ ts, t.kind ≠ .keyword .letKw) ∨ ∀ t ∈ us, t.kind ≠ .keyword .importKw)
    (hx : ∃ h, readAll false true [] (ahead ts none) = .ok ds h)
    (hy : ∃ h, readAll false true [] (ahead us none) = .ok es h) :
    ∃ h, readAll false true [] (ahead (ts ++ us) none) = .ok (ds ++ es) h := by
  obtain ⟨h, hx⟩ := hx
  obtain ⟨h', hy⟩ := hy
  obtain ⟨cs, hcs, rfl, rfl⟩ := readAll_sound (fun t ht => ha t (List.mem_append_left _ ht)) hx
  obtain ⟨bs, hbs, rfl, rfl⟩ := readAll_sound (fun t ht => ha t (List.mem_append_right _ ht)) hy
  rw [← List.flatMap_append] at ha ⊢
  obtain ⟨u, hu⟩ := readAll_complete [] (allowed_append hcs hbs hk) ha none
  exact ⟨u, by simpa using hu⟩

end Statement

variable {σ : Type} [Source σ Char InputError]

theorem Scanner.feed_eq {s : Scanner σ} (he : s.run.2.error? = none) :
    s.feed = ⟨s.run.1.map .item⟩ := by
  simp [feed, he]

namespace Script

theorem readAll_derivation {source : σ} (he : (Scanner.ofSource source).run.2.error? = none)
    (d : Derivation (Scanner.ofSource source).run.1) :
    ∃ h, Statement.readAll false true [] { tokens := (Scanner.ofSource source).feed } =
      .ok d.declarations h := by
  have ho : Allowed true d.clauses := allowed_iff.2 ⟨fun _ _ _ => rfl, d.ordered⟩
  have ha := Scanner.agrees_run (Scanner.ofSource source)
  rw [← d.yield] at ha
  obtain ⟨h, hh⟩ := Statement.readAll_complete [] ho ha none
  rw [d.yield] at hh
  rw [Scanner.feed_eq he]
  exact ⟨h, hh⟩

/-- Where the scan fails nowhere, the parser accepts what the grammar derives, and declares what the
derivation says. -/
theorem ofSource_ok_iff {source : σ} (enclosing : Scope)
    (he : (Scanner.ofSource source).run.2.error? = none) :
    ((∃ script, ofSource false enclosing source = .ok script) ↔
        Nonempty (Derivation (Scanner.ofSource source).run.1)) ∧
      ∀ d : Derivation (Scanner.ofSource source).run.1,
        (∃ h, Statement.readAll false true [] { tokens := (Scanner.ofSource source).feed } =
          .ok d.declarations h) ∧
        ofSource false enclosing source = .ok ⟨enclosing.addAll d.declarations⟩ := by
  have hok : ∀ d : Derivation (Scanner.ofSource source).run.1,
      ofSource false enclosing source = .ok ⟨enclosing.addAll d.declarations⟩ := by
    intro d
    obtain ⟨h, hh⟩ := readAll_derivation he d
    rw [ofSource, ofTokens, hh]
  refine ⟨⟨?_, fun ⟨d⟩ => ⟨_, hok d⟩⟩, fun d => ⟨readAll_derivation he d, hok d⟩⟩
  intro hx
  obtain ⟨script, hs⟩ := hx
  unfold ofSource ofTokens at hs
  split at hs
  · rename_i ds h hh
    rw [Scanner.feed_eq he] at hh
    obtain ⟨cs, ho, hy, -⟩ := Statement.readAll_sound (Scanner.agrees_run _) hh
    exact ⟨⟨cs, (allowed_iff.1 ho).2, hy⟩⟩
  · cases hs

theorem ofSource_ok_iff_import_let :
    let source : Feed Char InputError := .ofList "import \"a/b\"\nlet x T = y # c\n".toList
    (Scanner.ofSource source).run.2.error? = none ∧
      (∃ script, ofSource false .root source = .ok script) ∧
      Nonempty (Derivation (Scanner.ofSource source).run.1) := by
  intro source
  have he : (Scanner.ofSource source).run.2.error? = none := by decide +kernel
  have hok : (ofSource false .root source).isOk := by decide +kernel
  have hs : ∃ script, ofSource false .root source = .ok script := by
    cases hr : ofSource false .root source with
    | error e => simp [hr, Except.isOk, Except.toBool] at hok
    | ok script => exact ⟨script, rfl⟩
  exact ⟨he, hs, (ofSource_ok_iff .root he).1.1 hs⟩

end Script

end ScriptFrontend
