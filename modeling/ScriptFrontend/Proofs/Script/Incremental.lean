import ScriptFrontend.Proofs.Script.Fault
import ScriptFrontend.Proofs.Token.Joined

set_option autoImplicit false

namespace ScriptFrontend

open Grammar

def Declaration.lowered (n : Nat) : Declaration → Declaration
  | imported i => imported { i with position := i.position.lowered n }
  | bound b => bound { b with position := b.position.lowered n }

@[simp] theorem Declaration.id_lowered (n : Nat) (d : Declaration) : (d.lowered n).id = d.id := by
  cases d <;> rfl

namespace Locals

variable (ds : List Declaration) (id : String)

theorem get?_foldl (locals : Locals) :
    (ds.foldl (fun locals d => Locals.insert d locals) locals).get? id =
      (ds.reverse.find? (·.id == id)).or (locals.get? id) := by
  induction ds generalizing locals with
  | nil => rfl
  | cons d ds ih =>
    rw [List.foldl_cons, ih, get?_insert, List.reverse_cons, List.find?_append, Option.or_assoc]
    by_cases h : d.id = id <;> simp [h]

theorem get?_ofList : (ofList ds).get? id = ds.reverse.find? (·.id == id) := by
  rw [ofList, get?_foldl]
  simp [get?]

theorem get?_ofList_append (es : List Declaration) :
    (ofList (ds ++ es)).get? id = ((ofList es).get? id).or ((ofList ds).get? id) := by
  simp [get?_ofList]

theorem get?_ofList_lowered (n : Nat) :
    (ofList (ds.map (Declaration.lowered n))).get? id =
      ((ofList ds).get? id).map (Declaration.lowered n) := by
  have hid : (fun d : Declaration => d.id == id) ∘ Declaration.lowered n = fun d => d.id == id := by
    funext d
    simp
  rw [get?_ofList, get?_ofList, ← List.map_reverse, List.find?_map, hid]

end Locals

namespace Grammar

variable (n : Nat)

def lowered {kinds : List Kind} (t : Terminal kinds) : Terminal kinds :=
  ⟨t.val.lowered n, t.property⟩

namespace Clause

def lowered : Clause → Clause
  | empty separator => empty (Grammar.lowered n separator)
  | imported keyword path given separator =>
    imported (Grammar.lowered n keyword) (Grammar.lowered n path)
      (given.map fun g => (Grammar.lowered n g.1, Grammar.lowered n g.2))
      (Grammar.lowered n separator)
  | bound keyword name stated assign value separator =>
    bound (Grammar.lowered n keyword) (Grammar.lowered n name)
      (stated.map (Grammar.lowered n)) (Grammar.lowered n assign) (Grammar.lowered n value)
      (Grammar.lowered n separator)

theorem tokens_lowered (c : Clause) : (c.lowered n).tokens = c.tokens.map (Token.lowered n) := by
  cases c with
  | empty => rfl
  | imported keyword path given separator => cases given <;> rfl
  | bound keyword name stated assign value separator => cases stated <;> rfl

theorem declaration_lowered (c : Clause) :
    (c.lowered n).declaration? = c.declaration?.map (Declaration.lowered n) := by
  cases c with
  | empty => rfl
  | imported keyword path given separator => cases given <;> rfl
  | bound keyword name stated assign value separator => cases stated <;> rfl

end Clause

theorem allowed_lowered {imports : Bool} {cs : List Clause} (h : Allowed imports cs) :
    Allowed imports (cs.map (Clause.lowered n)) := by
  induction cs generalizing imports with
  | nil => trivial
  | cons c cs ih => cases c <;> exact ⟨h.1, ih h.2⟩

end Grammar

theorem Token.Agrees.lowered (n : Nat) {t : Token} (h : t.Agrees) : (t.lowered n).Agrees := by
  cases h <;> constructor

open TokenHead in
theorem Statement.readAll_lowered (n : Nat) {ts : List Token} {ds : List Declaration}
    (ha : ∀ t ∈ ts, t.Agrees) (hx : ∃ h, readAll false true [] (ahead ts none) = .ok ds h) :
    ∃ h, readAll false true [] (ahead (ts.map (Token.lowered n)) none) =
      .ok (ds.map (Declaration.lowered n)) h := by
  obtain ⟨h, hr⟩ := hx
  obtain ⟨cs, ho, rfl, rfl⟩ := readAll_sound ha hr
  have hts : (cs.map (Clause.lowered n)).flatMap Clause.tokens =
      (cs.flatMap Clause.tokens).map (Token.lowered n) := by
    simp [List.flatMap_map, List.map_flatMap, Clause.tokens_lowered]
  have hds : (cs.map (Clause.lowered n)).filterMap Clause.declaration? =
      (cs.filterMap Clause.declaration?).map (Declaration.lowered n) := by
    have hc : Clause.declaration? ∘ Clause.lowered n =
        fun c => c.declaration?.map (Declaration.lowered n) :=
      funext (Clause.declaration_lowered n)
    rw [List.filterMap_map, List.map_filterMap, hc]
  have hlow : ∀ t ∈ (cs.flatMap Clause.tokens).map (Token.lowered n), t.Agrees := by
    intro t ht
    obtain ⟨u, hu, rfl⟩ := List.mem_map.1 ht
    exact (ha u hu).lowered n
  rw [← hts] at hlow ⊢
  obtain ⟨h', hr'⟩ := readAll_complete [] (allowed_lowered n ho) hlow none
  exact ⟨h', by simpa [hds] using hr'⟩

namespace Script

variable {σ₁ σ₂ σ₃ : Type} [Source σ₁ Char InputError] [Source σ₂ Char InputError]
  [Source σ₃ Char InputError] {first : σ₁} {second : σ₂} {both : σ₃} {a b : List Char}

/-- No binding of the first text comes before an import of the second one. -/
def Compatible (first : σ₁) (second : σ₂) : Prop :=
  (∀ t ∈ (Scanner.ofSource first).run.1, t.kind ≠ .keyword .letKw) ∨
    ∀ t ∈ (Scanner.ofSource second).run.1, t.kind ≠ .keyword .importKw

theorem reads_append {ds es : List Declaration} (hfirst : Source.Delivers first a)
    (hsecond : Source.Delivers second b) (hboth : Source.Delivers both (a ++ b))
    (ha : a.getLast? = some '\n') (hb : b.head? ≠ some '#') (hc : Compatible first second)
    (hd : Reads false first ds) (he : Reads false second es) :
    Reads false both (ds ++ es.map (Declaration.lowered (a.count '\n'))) := by
  have hn := hd.accepted.1
  have hn' := he.accepted.1
  obtain ⟨hs, ht⟩ := Scanner.run_append hfirst hsecond hboth ha hb hn hn'
  have hagrees := Scanner.agrees_run (Scanner.ofSource both)
  rw [reads_iff hn] at hd
  rw [reads_iff hn'] at he
  rw [reads_iff hs, ht]
  rw [ht] at hagrees
  refine Statement.readAll_append hagrees (hc.imp_right fun h t hm => ?_) hd
    (Statement.readAll_lowered _ (Scanner.agrees_run _) he)
  obtain ⟨u, hu, rfl⟩ := List.mem_map.1 hm
  exact h u hu

/-- A text that is read behind another one, in the scope of the script before it, gives the names
the meaning that they have in the script of both texts. -/
theorem ofSource_append {enclosing : Scope} {script later : Script}
    (hfirst : Source.Delivers first a) (hsecond : Source.Delivers second b)
    (hboth : Source.Delivers both (a ++ b)) (ha : a.getLast? = some '\n')
    (hb : b.head? ≠ some '#') (hc : Compatible first second)
    (hs : ofSource false enclosing first = .ok script)
    (hl : ofSource false script.scope second = .ok later) :
    ∃ whole, ofSource false enclosing both = .ok whole ∧ ∀ id, whole.get? id =
      match later.scope.getLocal? id with
      | some d => some (d.lowered (a.count '\n'))
      | none => later.get? id := by
  obtain ⟨ds, hd, rfl⟩ := ofSource_ok.1 hs
  obtain ⟨es, he, rfl⟩ := ofSource_ok.1 hl
  have hr := reads_append hfirst hsecond hboth ha hb hc hd he
  refine ⟨_, ofSource_ok.2 ⟨_, hr, rfl⟩, fun id => ?_⟩
  have hlocal : ((enclosing.addAll ds).addAll es).getLocal? id = (Locals.ofList es).get? id := rfl
  simp only [get?, Scope.get?_addAll, Locals.get?_ofList_append, Locals.get?_ofList_lowered, hlocal]
  cases (Locals.ofList es).get? id <;> simp

theorem ofSource_append_shadowed :
    let first : Feed Char InputError := .ofList "import \"m\" as k\n".toList
    let second : Feed Char InputError := .ofList "let k = 1\n".toList
    let both : Feed Char InputError := .ofList "import \"m\" as k\nlet k = 1\n".toList
    let script : Script := ⟨Scope.root.addAll [.imported ⟨⟨1, 1⟩, "k", "m"⟩]⟩
    let later : Script :=
      ⟨script.scope.addAll [.bound ⟨⟨1, 1⟩, "k", .named "int", .int 1⟩]⟩
    ofSource false .root first = .ok script ∧ ofSource false script.scope second = .ok later ∧
      ∃ whole, ofSource false .root both = .ok whole ∧
        whole.get? "k" = some (.bound ⟨⟨2, 1⟩, "k", .named "int", .int 1⟩) := by
  intro first second both script later
  have hs : ofSource false .root first = .ok script := by decide +kernel
  have hl : ofSource false script.scope second = .ok later := by decide +kernel
  have hc : Compatible first second := by
    unfold Compatible
    decide +kernel
  obtain ⟨whole, hw, hget⟩ := ofSource_append (Feed.delivers_ofList _) (Feed.delivers_ofList _)
    (Feed.delivers_ofList "import \"m\" as k\nlet k = 1\n".toList) rfl (by decide) hc hs hl
  exact ⟨hs, hl, whole, hw, hget "k"⟩

end Script

end ScriptFrontend
