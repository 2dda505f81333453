import ScriptFrontend.Proofs.Script.Incremental
import ScriptFrontend.Proofs.Script.Lenient
import ScriptFrontend.Scope.Session

/-! The meaning of names in the scopes of a session.

Beside every scope that a session makes its history is kept: what each link of its chain was given,
as it was given. A name stands for the declaration of it that was made last in that history,
whatever other scopes there are.
-/

set_option autoImplicit false

namespace ScriptFrontend

def IsLatest (ds : List Declaration) (id : String) (d : Declaration) : Prop :=
  d.id = id ∧ ∃ earlier later, ds = earlier ++ d :: later ∧ ∀ e ∈ later, e.id ≠ id

/-- Names stand for their last declarations, and for nothing if they have none. -/
structure Resolves (scope : Scope) (ds : List Declaration) : Prop where
  found : ∀ id d, scope.get? id = some d ↔ IsLatest ds id d
  missing : ∀ id, scope.get? id = none ↔ ∀ d ∈ ds, d.id ≠ id

theorem find?_reverse_eq_some {ds : List Declaration} {id : String} {d : Declaration} :
    ds.reverse.find? (·.id == id) = some d ↔ IsLatest ds id d := by
  rw [List.find?_eq_some_iff_append, beq_iff_eq, IsLatest]
  refine and_congr_right fun _ => ⟨fun h => ?_, fun h => ?_⟩
  · obtain ⟨later, earlier, hds, hl⟩ := h
    refine ⟨earlier.reverse, later.reverse, ?_, by simpa using hl⟩
    rw [← List.reverse_reverse ds, hds]
    simp
  · obtain ⟨earlier, later, rfl, hl⟩ := h
    exact ⟨later.reverse, earlier.reverse, by simp, by simpa using hl⟩

/-- What the links of a scope were given, the innermost link first. -/
structure History where
  links : List (List Declaration)
deriving DecidableEq

namespace History

def extend (h : History) (ds : List Declaration) : History :=
  ⟨ds :: h.links⟩

def scope (h : History) : Scope :=
  ⟨h.links.map Locals.ofList⟩

def declarations (h : History) : List Declaration :=
  h.links.reverse.flatten

theorem scope_extend (h : History) (ds : List Declaration) :
    (h.extend ds).scope = h.scope.addAll ds := rfl

theorem declarations_extend (h : History) (ds : List Declaration) :
    (h.extend ds).declarations = h.declarations ++ ds := by
  simp [extend, declarations]

theorem get?_scope (h : History) (id : String) :
    h.scope.get? id = h.declarations.reverse.find? (·.id == id) := by
  obtain ⟨links⟩ := h
  induction links with
  | nil => rfl
  | cons ds links ih =>
    change (extend ⟨links⟩ ds).scope.get? id = _
    rw [scope_extend, Scope.get?_addAll, Locals.get?_ofList, ih, ← List.find?_append,
      ← List.reverse_append, ← declarations_extend]
    rfl

theorem resolves (h : History) : Resolves h.scope h.declarations where
  found id d := by rw [get?_scope, find?_reverse_eq_some]
  missing id := by simp [get?_scope]

end History

theorem Scope.get?_foldl_add (s : Scope) (ds : List Declaration) (id : String) :
    (ds.foldl add s).get? id = (s.addAll ds).get? id := by
  rw [get?_addAll, Locals.get?_ofList]
  induction ds generalizing s with
  | nil => rfl
  | cons d ds ih =>
    rw [List.foldl_cons, ih, get?_add, List.reverse_cons, List.find?_append, Option.or_assoc]
    by_cases h : d.id = id <;> simp [h]

namespace Script

def declared? (lenient : Bool) (tokens : Feed Token LexError) : Option (List Declaration) :=
  match Statement.readAll lenient true [] { tokens } with
  | .ok ds _ => some ds
  | .error .. => none

theorem declared?_eq_some {lenient : Bool} {tokens : Feed Token LexError}
    {ds : List Declaration} : declared? lenient tokens = some ds ↔
      ∃ h, Statement.readAll lenient true [] { tokens } = .ok ds h := by
  unfold declared?
  split <;> simp_all

theorem ofTokens_ok {lenient : Bool} {tokens : Feed Token LexError} {ds : List Declaration}
    (enclosing : Scope) (h : declared? lenient tokens = some ds) :
    ofTokens lenient enclosing tokens = .ok ⟨enclosing.addAll ds⟩ := by
  obtain ⟨t, ht⟩ := declared?_eq_some.1 h
  simp only [ofTokens, ht]

theorem ofTokens_error {lenient : Bool} {tokens : Feed Token LexError} (enclosing : Scope)
    (h : declared? lenient tokens = none) :
    ∃ e, ofTokens lenient enclosing tokens = .error e := by
  unfold declared? at h
  unfold ofTokens
  split at h <;> simp_all

section Scan

variable {σ : Type} [Source σ Char InputError] {lenient : Bool} {source : σ}
  {ds : List Declaration}

/-- The tokens of a scan, and if the reading is lenient the end of a line behind them. -/
def Written (lenient : Bool) (source : σ) (ts : List Token) : Prop :=
  ts = (Scanner.ofSource source).run.1 ∨
    lenient ∧ ts = (Scanner.ofSource source).run.1 ++ [.terminator .origin]

theorem derivation_of_declared (h : declared? lenient (Scanner.ofSource source).feed = some ds) :
    ∃ (ts : List Token) (d : Grammar.Derivation ts),
      Written lenient source ts ∧ d.declarations = ds := by
  have hr : Reads lenient source ds := declared?_eq_some.1 h
  have ha := Scanner.agrees_run (Scanner.ofSource source)
  have hclauses {ts : List Token} (ht : ∀ t ∈ ts, t.Agrees)
      (hx : ∃ h, Statement.readAll false true [] (.ahead ts none) = .ok ds h) :
      ∃ d : Grammar.Derivation ts, d.declarations = ds := by
    obtain ⟨h, hh⟩ := hx
    obtain ⟨cs, ho, hy, hd⟩ := Statement.readAll_sound ht hh
    exact ⟨⟨cs, (Grammar.allowed_iff.1 ho).2, hy⟩, hd.symm⟩
  rw [reads_iff hr.accepted.1] at hr
  cases lenient with
  | false =>
    obtain ⟨d, hd⟩ := hclauses ha hr
    exact ⟨_, d, .inl rfl, hd⟩
  | true =>
    have hline : ∀ t ∈ (Scanner.ofSource source).run.1 ++ [.terminator .origin], t.Agrees :=
      List.forall_mem_append.2 ⟨ha, by simpa using Token.Agrees.terminator .origin⟩
    obtain ⟨d, hd⟩ := hclauses hline ((Statement.lenient_iff_terminated .origin).1 hr)
    exact ⟨_, d, .inr ⟨rfl, rfl⟩, hd⟩

end Scan

end Script

namespace Origin

def base? : Origin → Option Nat
  | root | initial => none
  | child of | same of | add of _ | addAll of _ | parent of | script of _ _ | chain of _ _ => some of

/-- The history of the new scope, if there will be one, from those of the scopes kept so far. -/
def history? (kept : List History) : Origin → Option History
  | root => some ⟨[]⟩
  | initial => some ⟨[[]]⟩
  | child of => kept[of]?.map (·.extend [])
  | same of => kept[of]?
  | add of d => kept[of]?.map (·.extend [d])
  | addAll of ds => kept[of]?.map (·.extend ds)
  | parent of => kept[of]?.bind fun h => h.links.tail?.map History.mk
  | script of lenient tokens =>
    kept[of]?.bind fun h => (Script.declared? lenient tokens).map h.extend
  | chain of stem count =>
    kept[of]?.map fun h =>
      (List.range count).foldl (fun h i => h.extend [Session.chainLink stem i]) h

theorem history?_congr {kept kept' : List History} {o : Origin}
    (h : ∀ i, o.base? = some i → kept[i]? = kept'[i]?) : o.history? kept = o.history? kept' := by
  cases o <;> simp_all [history?, base?]

end Origin

def Answer.scope? : Answer → Option Scope
  | .scope _ made => some made
  | _ => none

namespace Session

def made (s : Session) : List Scope :=
  s.scopes.toList.map (·.scope)

def run (os : List Origin) : Session :=
  os.foldl (fun s o => (s.make o).2) {}

def histories (os : List Origin) : List History :=
  os.foldl (fun kept o => kept ++ (o.history? kept).toList) []

/-- The answer and the session have the new scope and nothing else. -/
structure Makes (s : Session) (r : Answer × Session) (scope : Option Scope) : Prop where
  answer : r.1.scope? = scope
  made : r.2.made = s.made ++ scope.toList

section Step

variable (s : Session)

theorem makes_keep {m : NumberedScope} {scope : Scope} (h : m.scope = scope) (links : Nat) :
    Makes s (s.keep m links) (some scope) where
  answer := congrArg some h
  made := by simp [Session.made, keep, h]

theorem makes_nothing {a : Answer} (h : a.scope? = none) : Makes s (a, s) none where
  answer := h
  made := by simp

end Step

section Run

variable {s : Session} {kept : List History} {o : Origin} {os more : List Origin}

theorem base_cases (hs : s.made = kept.map History.scope) (of : Nat) :
    (s.scopes[of]? = none ∧ kept[of]? = none) ∨
      ∃ base h, s.scopes[of]? = some base ∧ kept[of]? = some h ∧ base.scope = h.scope := by
  have hget : s.scopes[of]?.map (·.scope) = kept[of]?.map History.scope := by
    rw [← List.getElem?_map, ← hs]
    simp [made]
  cases hb : s.scopes[of]? with
  | none => exact .inl ⟨rfl, by simpa [hb] using hget.symm⟩
  | some base =>
    rw [hb, Option.map_some, eq_comm, Option.map_eq_some_iff] at hget
    obtain ⟨h, hk, he⟩ := hget
    exact .inr ⟨base, h, rfl, hk, he.symm⟩

theorem makes_extend (hs : s.made = kept.map History.scope) (of : Nat)
    {build : Scope → Except Answer Scope} (ds : List Declaration)
    (hb : ∀ scope, build scope = .ok (scope.addAll ds)) :
    Makes s (s.extend of build) ((kept[of]?.map (·.extend ds)).map History.scope) := by
  obtain ⟨hn, hk⟩ | ⟨base, h, hn, hk, he⟩ := base_cases hs of
  · simp only [extend, hn, hk]
    exact makes_nothing s rfl
  · simp only [extend, hn, hk, hb, he]
    exact makes_keep s rfl _

theorem makes_refused (hs : s.made = kept.map History.scope) (of : Nat)
    {build : Scope → Except Answer Scope}
    (hb : ∀ scope, ∃ a, build scope = .error a ∧ a.scope? = none) :
    Makes s (s.extend of build) none := by
  obtain ⟨hn, -⟩ | ⟨base, h, hn, -, -⟩ := base_cases hs of
  · simp only [extend, hn]
    exact makes_nothing s rfl
  · obtain ⟨a, ha, hnone⟩ := hb base.scope
    simp only [extend, hn, ha]
    exact makes_nothing s hnone

theorem scope_chain (base : NumberedScope) (h : History) (hb : base.scope = h.scope)
    (stem : String) (link : Nat) (is : List Nat) :
    (is.foldl (fun (made : NumberedScope) i =>
        made.extend (link + i) (made.scope.add (chainLink stem i))) base).scope =
      (is.foldl (fun h i => h.extend [chainLink stem i]) h).scope := by
  induction is generalizing base h with
  | nil => exact hb
  | cons i is ih =>
    have hi : base.scope.add (chainLink stem i) = (h.extend [chainLink stem i]).scope := by
      rw [hb]
      rfl
    exact ih _ _ hi

/-- One step: the new scope is that of its history, and there is one where there is a history. -/
theorem makes_make (hs : s.made = kept.map History.scope) (o : Origin) :
    Makes s (s.make o) ((o.history? kept).map History.scope) := by
  cases o with
  | root => exact makes_keep s rfl _
  | initial => exact makes_keep s rfl _
  | child of => exact makes_extend hs of [] fun scope => rfl
  | add of d => exact makes_extend hs of [d] fun scope => rfl
  | addAll of ds => exact makes_extend hs of ds fun scope => rfl
  | same of =>
    obtain ⟨hn, hk⟩ | ⟨base, h, hn, hk, he⟩ := base_cases hs of
    · simp only [make, Origin.history?, hn, hk]
      exact makes_nothing s rfl
    · simp only [make, Origin.history?, hn, hk]
      exact makes_keep s he _
  | parent of =>
    obtain ⟨hn, hk⟩ | ⟨base, ⟨links⟩, hn, hk, he⟩ := base_cases hs of
    · simp only [make, Origin.history?, hn, hk]
      exact makes_nothing s rfl
    · simp only [make, Origin.history?, hn, hk, he]
      cases links with
      | nil => exact makes_nothing s rfl
      | cons ds links => exact makes_keep s rfl _
  | script of lenient tokens =>
    cases hd : Script.declared? lenient tokens with
    | none =>
      have hnone : (Origin.script of lenient tokens).history? kept = none := by
        simp [Origin.history?, hd]
      simp only [make, hnone, Option.map_none]
      refine makes_refused hs of fun scope => ?_
      obtain ⟨e, he⟩ := Script.ofTokens_error scope hd
      exact ⟨.rejected e, by simp only [he], rfl⟩
    | some ds =>
      have hsome : (Origin.script of lenient tokens).history? kept =
          kept[of]?.map (·.extend ds) := by
        simp only [Origin.history?, hd, Option.map_some]
        cases kept[of]? <;> rfl
      simp only [make, hsome]
      exact makes_extend hs of ds fun scope => by simp only [Script.ofTokens_ok scope hd]
  | chain of stem count =>
    obtain ⟨hn, hk⟩ | ⟨base, h, hn, hk, he⟩ := base_cases hs of
    · simp only [make, Origin.history?, hn, hk]
      exact makes_nothing s rfl
    · simp only [make, Origin.history?, hn, hk]
      exact makes_keep s (scope_chain base h he stem s.links _) _

theorem made_foldl (hs : s.made = kept.map History.scope) (os : List Origin) :
    (os.foldl (fun s o => (s.make o).2) s).made =
      (os.foldl (fun kept o => kept ++ (o.history? kept).toList) kept).map History.scope := by
  induction os generalizing s kept with
  | nil => exact hs
  | cons o os ih =>
    refine ih ?_
    rw [(makes_make hs o).made, hs, List.map_append]
    cases o.history? kept <;> rfl

theorem made_run (os : List Origin) : (run os).made = (histories os).map History.scope := by
  have hs : Session.made {} = ([] : List History).map History.scope := rfl
  exact made_foldl hs os

theorem histories_prefix (os more : List Origin) : histories os <+: histories (os ++ more) := by
  rw [histories, histories, List.foldl_append]
  generalize os.foldl _ [] = kept
  induction more generalizing kept with
  | nil => exact List.prefix_rfl
  | cons o more ih => exact (List.prefix_append _ _).trans (ih _)

theorem histories_append {i : Nat} {h : History} (hi : (histories os)[i]? = some h)
    (more : List Origin) : (histories (os ++ more))[i]? = some h := by
  obtain ⟨rest, hr⟩ := histories_prefix os more
  obtain ⟨hlt, -⟩ := List.getElem?_eq_some_iff.1 hi
  rw [← hr, List.getElem?_append_left hlt, hi]

theorem history?_script {i : Nat} {h h' : History} (hi : (histories os)[i]? = some h) {σ : Type}
    [Source σ Char InputError] {lenient : Bool} {source : σ}
    (hs : (Origin.script i lenient (Scanner.ofSource source).feed).history? (histories os) =
      some h') :
    ∃ (ts : List Token) (d : Grammar.Derivation ts),
      Script.Written lenient source ts ∧ h' = h.extend d.declarations := by
  simp only [Origin.history?, hi, Option.bind_some, Option.map_eq_some_iff] at hs
  obtain ⟨ds, hds, rfl⟩ := hs
  obtain ⟨ts, d, ht, rfl⟩ := Script.derivation_of_declared hds
  exact ⟨ts, d, ht, rfl⟩

theorem scope_make_append {i : Nat} {h : History} (hi : (histories os)[i]? = some h)
    (more : List Origin) (ho : o.base? = some i) :
    ((run (os ++ more)).make o).1.scope? = ((run os).make o).1.scope? := by
  rw [(makes_make (made_run _) o).answer, (makes_make (made_run _) o).answer]
  refine congrArg _ (Origin.history?_congr fun j hj => ?_)
  obtain rfl : i = j := Option.some.inj (ho.symm.trans hj)
  rw [hi, histories_append hi more]

end Run

/-- In every scope of a session a name stands for the declaration of it that was made last along the
scope's own chain. It makes no difference whether declarations were made at once or one by one, nor
which other scopes are made, be it from the same scope. -/
theorem run_resolves {os : List Origin} {i : Nat} {scope : Scope}
    (hi : (run os).made[i]? = some scope) :
    ∃ h, (histories os)[i]? = some h ∧ Resolves scope h.declarations ∧
      (∀ {σ : Type} [Source σ Char InputError] (lenient : Bool) (source : σ) (h' : History),
        (Origin.script i lenient (Scanner.ofSource source).feed).history? (histories os) =
            some h' →
          ∃ (ts : List Token) (d : Grammar.Derivation ts),
            Script.Written lenient source ts ∧ h' = h.extend d.declarations) ∧
      (∀ ds id, (scope.addAll ds).get? id = (ds.foldl Scope.add scope).get? id) ∧
      ∀ more, (run (os ++ more)).made[i]? = some scope ∧ ∀ o : Origin, o.base? = some i →
        ((run (os ++ more)).make o).1.scope? = ((run os).make o).1.scope? := by
  rw [made_run, List.getElem?_map, Option.map_eq_some_iff] at hi
  obtain ⟨h, hh, rfl⟩ := hi
  refine ⟨h, hh, h.resolves, fun _ _ _ hs => history?_script hh hs,
    fun ds id => (Scope.get?_foldl_add _ ds id).symm, fun more => ?_⟩
  refine ⟨?_, fun o ho => scope_make_append hh more ho⟩
  rw [made_run, List.getElem?_map, histories_append hh more]
  rfl

theorem run_resolves_siblings :
    let bound (line : Nat) (name : String) : Declaration :=
      .bound ⟨⟨line, 1⟩, name, .named "int", .int line⟩
    let source : Feed Char InputError := .ofList "let k = 1\nlet k = 2\n".toList
    let os : List Origin :=
      [.initial, .addAll 0 [bound 8 "k", bound 9 "k"],
        .script 1 false (Scanner.ofSource source).feed, .add 1 (bound 7 "j"), .child 2]
    let scope : Scope := ⟨[[], [bound 2 "k"], [bound 9 "k"], []]⟩
    (run os).made[4]? = some scope ∧
      (histories os)[4]? =
        some ⟨[[], [bound 1 "k", bound 2 "k"], [bound 8 "k", bound 9 "k"], []]⟩ ∧
      Resolves scope [bound 8 "k", bound 9 "k", bound 1 "k", bound 2 "k"] ∧
      scope.get? "j" = none := by
  intro bound source os scope
  have hi : (run os).made[4]? = some scope := by decide +kernel
  have hh : (histories os)[4]? =
      some ⟨[[], [bound 1 "k", bound 2 "k"], [bound 8 "k", bound 9 "k"], []]⟩ := by decide +kernel
  obtain ⟨h, hk, hr, -⟩ := run_resolves hi
  cases hh.symm.trans hk
  exact ⟨hi, hh, hr, (hr.missing "j").2 (by decide)⟩

end Session

end ScriptFrontend
