import ScriptFrontend.Proofs.Script.Parsing

/-! The grammar of scripts, one token at a time.

At any point of a script the tokens so far decide what may come next, and that is one of a few
stages. The tokens that reach a stage are the ones that some script starts with (`viable_iff`), and
the ones that reach a stage between clauses are the scripts (`derivable_iff`).
-/

set_option autoImplicit false

namespace ScriptFrontend.Grammar

inductive Stage where
  /-- Between clauses. The flag says whether an import may still come. -/
  | clause (imports : Bool)
  | path
  /-- Behind the path of an import, where a name may be given. -/
  | given
  | newName
  | importEnd
  | name
  /-- Behind the name of a binding, where a type may be stated. -/
  | stated
  | assign
  | value
  | letEnd
deriving DecidableEq

namespace Stage

def step (s : Stage) (kind : Kind) : Option Stage :=
  match s with
  | clause imports =>
    if kind.endsStatement then some (clause imports)
    else if kind = .keyword .importKw ∧ imports then some path
    else if kind = .keyword .letKw then some name
    else none
  | path => if kind = .string then some given else none
  | given =>
    if kind = .keyword .asKw then some newName
    else if kind.endsStatement then some (clause true)
    else none
  | newName => if kind = .ident then some importEnd else none
  | importEnd => if kind.endsStatement then some (clause true) else none
  | name => if kind = .ident then some stated else none
  | stated =>
    if kind = .ident then some assign
    else if kind = .symbol .assign then some value
    else none
  | assign => if kind = .symbol .assign then some value else none
  | value => if kind ∈ [.int, .float, .string, .ident] then some letEnd else none
  | letEnd => if kind.endsStatement then some (clause false) else none

def reach (s : Stage) (ts : List Token) : Option Stage :=
  ts.foldlM (fun s t => s.step t.kind) s

@[simp] theorem reach_nil (s : Stage) : s.reach [] = some s := rfl

@[simp] theorem reach_cons (s : Stage) (t : Token) (ts : List Token) :
    s.reach (t :: ts) = (s.step t.kind).bind (·.reach ts) := by
  simp [reach]

@[simp] theorem reach_append (s : Stage) (ts us : List Token) :
    s.reach (ts ++ us) = (s.reach ts).bind (·.reach us) := by
  simp [reach]

def sample (kind : Kind) : Token :=
  ⟨.origin, kind, .int 0⟩

def ending : Stage → List Kind
  | clause _ => []
  | path => [.string, .terminator]
  | given | importEnd | letEnd => [.terminator]
  | newName => [.ident, .terminator]
  | name => [.ident, .symbol .assign, .int, .terminator]
  | stated | assign => [.symbol .assign, .int, .terminator]
  | value => [.int, .terminator]

theorem reach_ending (s : Stage) :
    ∃ imports, s.reach (s.ending.map sample) = some (clause imports) := by
  cases s with
  | clause imports => exact ⟨imports, rfl⟩
  | path | given | newName | importEnd => exact ⟨true, rfl⟩
  | name | stated | assign | value | letEnd => exact ⟨false, rfl⟩

end Stage

open Stage

@[simp] theorem kind_terminal {kind : Kind} (t : Terminal [kind]) : t.val.kind = kind := by
  simpa using t.property

@[simp] theorem endsStatement_keyword (word : Keyword) :
    (Kind.keyword word).endsStatement = false := rfl

theorem endsStatement_separator (t : Separator) : t.val.kind.endsStatement :=
  Statement.endsStatement_iff.2 t.2

/-- A clause leads from one stage between clauses to another. -/
theorem reach_clause {imports : Bool} (c : Clause) (hi : c.isImport → imports) :
    (clause imports).reach c.tokens = some (clause (imports && !c.isBinding)) := by
  cases c with
  | empty separator =>
    have hs := endsStatement_separator separator
    simp [Clause.tokens, Clause.isBinding, step, hs]
  | imported keyword path given separator =>
    obtain rfl : imports = true := hi rfl
    have hs := endsStatement_separator separator
    have hw : separator.val.kind ≠ .keyword .asKw := fun h => by simp [h] at hs
    cases given <;> simp [Clause.tokens, Clause.isBinding, step, hs, hw]
  | bound keyword name stated assign value separator =>
    have hs := endsStatement_separator separator
    have hv := value.2
    cases stated <;> simp [Clause.tokens, Clause.isBinding, step, hs, hv]

theorem reach_clauses {imports : Bool} {cs : List Clause} (ho : Allowed imports cs) :
    ∃ i, (clause imports).reach (cs.flatMap Clause.tokens) = some (clause i) := by
  induction cs generalizing imports with
  | nil => exact ⟨imports, rfl⟩
  | cons c cs ih =>
    obtain ⟨i, hi⟩ := ih ho.2
    exact ⟨i, by simp [reach_clause c ho.1, hi]⟩

theorem reach_cons_of_ne {s : Stage} {ts : List Token} {i : Bool} (hs : ∀ j, s ≠ clause j)
    (h : s.reach ts = some (clause i)) :
    ∃ t rest r, ts = t :: rest ∧ s.step t.kind = some r ∧ r.reach rest = some (clause i) := by
  cases ts with
  | nil => exact absurd (by simpa using h) (hs i)
  | cons t rest =>
    rw [reach_cons, Option.bind_eq_some_iff] at h
    obtain ⟨r, hr, h⟩ := h
    exact ⟨t, rest, r, rfl, hr, h⟩

theorem terminal_of_reach (s r : Stage) (kinds : List Kind) {ts : List Token} {i : Bool}
    (hs : ∀ j, s ≠ clause j) (hr : ∀ kind, s.step kind = if kind ∈ kinds then some r else none)
    (h : s.reach ts = some (clause i)) :
    ∃ (t : Terminal kinds) (rest : List Token), ts = t.val :: rest ∧
      r.reach rest = some (clause i) := by
  obtain ⟨t, rest, next, rfl, hn, h⟩ := reach_cons_of_ne hs h
  rw [hr] at hn
  split at hn
  · rename_i ht
    obtain rfl := Option.some.inj hn
    exact ⟨⟨t, ht⟩, rest, rfl, h⟩
  · cases hn

theorem separator_of_reach (s : Stage) (imports : Bool) {ts : List Token} {i : Bool}
    (hs : ∀ j, s ≠ clause j)
    (hr : ∀ kind : Kind, s.step kind = if kind.endsStatement then some (clause imports) else none)
    (h : s.reach ts = some (clause i)) :
    ∃ (t : Separator) (rest : List Token), ts = t.val :: rest ∧
      (clause imports).reach rest = some (clause i) :=
  terminal_of_reach s (clause imports) _ hs (by simpa [Statement.endsStatement_iff] using hr) h

section Clauses

variable {ts : List Token} {i : Bool}

theorem given_of_reach (h : given.reach ts = some (clause i)) :
    ∃ (g : Option (Terminal [.keyword .asKw] × Terminal [.ident])) (separator : Separator)
      (rest : List Token), ts = g.elim [] (fun g => [g.1.val, g.2.val]) ++ separator.val :: rest ∧
        (clause true).reach rest = some (clause i) := by
  obtain ⟨t, rest, next, rfl, hn, h⟩ := reach_cons_of_ne (by simp) h
  simp only [step] at hn
  split at hn
  · rename_i ht
    obtain rfl := Option.some.inj hn
    obtain ⟨name, rest, rfl, hw⟩ :=
      terminal_of_reach newName importEnd [.ident] (by simp) (by simp [step]) h
    obtain ⟨separator, rest, rfl, hs⟩ :=
      separator_of_reach importEnd true (by simp) (by simp [step]) hw
    exact ⟨some (⟨t, by simp [ht]⟩, name), separator, rest, rfl, hs⟩
  · split at hn
    · rename_i ht
      obtain rfl := Option.some.inj hn
      exact ⟨none, ⟨t, Statement.endsStatement_iff.1 ht⟩, rest, rfl, h⟩
    · cases hn

theorem stated_of_reach (h : stated.reach ts = some (clause i)) :
    ∃ (o : Option (Terminal [.ident])) (sign : Terminal [.symbol .assign]) (rest : List Token),
      ts = o.elim [] (fun t => [t.val]) ++ sign.val :: rest ∧
        value.reach rest = some (clause i) := by
  obtain ⟨t, rest, next, rfl, hn, h⟩ := reach_cons_of_ne (by simp) h
  simp only [step] at hn
  split at hn
  · rename_i ht
    obtain rfl := Option.some.inj hn
    obtain ⟨sign, rest, rfl, hv⟩ :=
      terminal_of_reach assign value [.symbol .assign] (by simp) (by simp [step]) h
    exact ⟨some ⟨t, by simp [ht]⟩, sign, rest, rfl, hv⟩
  · split at hn
    · rename_i ht
      obtain rfl := Option.some.inj hn
      exact ⟨none, ⟨t, by simp [ht]⟩, rest, rfl, h⟩
    · cases hn

theorem clause_of_reach {imports : Bool} {t : Token}
    (h : (clause imports).reach (t :: ts) = some (clause i)) :
    ∃ (c : Clause) (rest : List Token), t :: ts = c.tokens ++ rest ∧ (c.isImport → imports) ∧
      (clause (imports && !c.isBinding)).reach rest = some (clause i) := by
  rw [reach_cons, Option.bind_eq_some_iff] at h
  obtain ⟨next, hn, h⟩ := h
  simp only [step] at hn
  split at hn
  · rename_i ht
    obtain rfl := Option.some.inj hn
    exact ⟨.empty ⟨t, Statement.endsStatement_iff.1 ht⟩, ts, rfl, by simp [Clause.isImport],
      by simpa [Clause.isBinding] using h⟩
  split at hn
  · rename_i ht
    obtain rfl := Option.some.inj hn
    obtain ⟨path, rest, rfl, hg⟩ :=
      terminal_of_reach path given [.string] (by simp) (by simp [step]) h
    obtain ⟨g, separator, rest, rfl, he⟩ := given_of_reach hg
    exact ⟨.imported ⟨t, by simp [ht]⟩ path g separator, rest, by simp [Clause.tokens],
      fun _ => ht.2, by simpa [Clause.isBinding, ht.2] using he⟩
  split at hn
  · rename_i ht
    obtain rfl := Option.some.inj hn
    obtain ⟨name, rest, rfl, hs⟩ :=
      terminal_of_reach name stated [.ident] (by simp) (by simp [step]) h
    obtain ⟨o, sign, rest, rfl, hv⟩ := stated_of_reach hs
    obtain ⟨operand, rest, rfl, hl⟩ :=
      terminal_of_reach value letEnd [.int, .float, .string, .ident] (by simp) (fun _ => rfl) hv
    obtain ⟨separator, rest, rfl, he⟩ :=
      separator_of_reach letEnd false (by simp) (by simp [step]) hl
    exact ⟨.bound ⟨t, by simp [ht]⟩ name o sign operand separator, rest, by simp [Clause.tokens],
      by simp [Clause.isImport], by simpa [Clause.isBinding] using he⟩
  · cases hn

theorem clauses_of_reach {imports : Bool} (h : (clause imports).reach ts = some (clause i)) :
    ∃ cs, Allowed imports cs ∧ cs.flatMap Clause.tokens = ts := by
  induction hl : ts.length using Nat.strongRecOn generalizing imports ts with
  | ind n ih =>
    cases ts with
    | nil => exact ⟨[], trivial, rfl⟩
    | cons t ts =>
      obtain ⟨c, rest, hc, hi, h⟩ := clause_of_reach h
      have hlt : rest.length < n := by
        have hlen := congrArg List.length hc
        have hpos := Statement.length_tokens_pos c
        rw [List.length_append] at hlen
        omega
      obtain ⟨cs, ho, rfl⟩ := ih rest.length hlt h rfl
      exact ⟨c :: cs, ⟨hi, ho⟩, hc.symm⟩

end Clauses

/-- Scripts are the tokens that end between clauses. -/
theorem derivable_iff {ts : List Token} :
    Nonempty (Derivation ts) ↔ ∃ i, (clause true).reach ts = some (clause i) := by
  constructor
  · intro hx
    obtain ⟨cs, ho, rfl⟩ := hx
    exact reach_clauses (allowed_iff.2 ⟨fun _ _ _ => rfl, ho⟩)
  · intro hx
    obtain ⟨i, h⟩ := hx
    obtain ⟨cs, ho, hy⟩ := clauses_of_reach h
    exact ⟨⟨cs, (allowed_iff.1 ho).2, hy⟩⟩

/-- Some script starts with these tokens. -/
def Viable (ts : List Token) : Prop :=
  ∃ more, Nonempty (Derivation (ts ++ more))

theorem viable_iff {ts : List Token} : Viable ts ↔ ((clause true).reach ts).isSome := by
  constructor
  · intro hx
    obtain ⟨more, hd⟩ := hx
    obtain ⟨i, h⟩ := derivable_iff.1 hd
    rw [reach_append, Option.bind_eq_some_iff] at h
    obtain ⟨s, hs, -⟩ := h
    simp [hs]
  · intro h
    obtain ⟨s, hs⟩ := Option.isSome_iff_exists.1 h
    obtain ⟨i, hi⟩ := s.reach_ending
    exact ⟨s.ending.map sample, derivable_iff.2 ⟨i, by simp [hs, hi]⟩⟩

end ScriptFrontend.Grammar
