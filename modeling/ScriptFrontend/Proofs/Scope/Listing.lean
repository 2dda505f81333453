import Mathlib.Data.List.Basic
import ScriptFrontend.Proofs.Scope.History

set_option autoImplicit false

namespace ScriptFrontend

namespace Locals

variable {locals : Locals} {ds : List Declaration} {d : Declaration} {id : String}

theorem ids_insert (d : Declaration) (locals : Locals) :
    (insert d locals).map Declaration.id =
      if d.id ∈ locals.map Declaration.id then locals.map Declaration.id
      else locals.map Declaration.id ++ [d.id] := by
  induction locals with
  | nil => rfl
  | cons e rest ih =>
    by_cases he : e.id = d.id
    · simp [insert, he]
    · have hd : ¬d.id = e.id := fun h => he h.symm
      simp only [insert, he, hd, if_false, List.map_cons, ih, List.mem_cons, false_or]
      split <;> rfl

theorem ofList_snoc (ds : List Declaration) (d : Declaration) :
    ofList (ds ++ [d]) = insert d (ofList ds) := by
  simp [ofList]

theorem get?_eq_none : (ofList ds).get? id = none ↔ ∀ d ∈ ds, d.id ≠ id := by
  simp [get?_ofList]

theorem mem_ids_ofList : id ∈ (ofList ds).map Declaration.id ↔ id ∈ ds.map Declaration.id := by
  have h : (ofList ds).get? id = none ↔ ∀ d ∈ ofList ds, d.id ≠ id := by simp [get?]
  simpa using not_congr (h.symm.trans get?_eq_none)

/-- Each name came up for the first time before those that are listed behind it. -/
theorem pairwise_ofList (ds : List Declaration) :
    ((ofList ds).map Declaration.id).Pairwise fun a b =>
      (ds.map Declaration.id).idxOf a < (ds.map Declaration.id).idxOf b := by
  induction ds using List.reverseRecOn with
  | nil => exact .nil
  | append_singleton ds d ih =>
    have hold : ∀ a ∈ (ofList ds).map Declaration.id,
        ((ds ++ [d]).map Declaration.id).idxOf a = (ds.map Declaration.id).idxOf a := by
      intro a ha
      rw [List.map_append, List.idxOf_append_of_mem (mem_ids_ofList.1 ha)]
    have hih := ih.imp_of_mem fun {a b} ha hb hab => by
      rwa [← hold a ha, ← hold b hb] at hab
    rw [ofList_snoc, ids_insert]
    split
    · exact hih
    · rename_i hnew
      refine List.pairwise_append.2 ⟨hih, List.pairwise_singleton .., fun a ha b hb => ?_⟩
      obtain rfl := List.mem_singleton.1 hb
      rw [mem_ids_ofList] at hnew
      rw [hold a ha, List.map_append, List.idxOf_append_of_notMem hnew]
      exact Nat.lt_add_right _ (List.idxOf_lt_length_of_mem (mem_ids_ofList.1 ha))

theorem nodup_ofList (ds : List Declaration) : ((ofList ds).map Declaration.id).Nodup :=
  (pairwise_ofList ds).imp fun h he => by simp [he] at h

theorem get?_of_mem (hn : (locals.map Declaration.id).Nodup) (hd : d ∈ locals) :
    locals.get? d.id = some d := by
  induction locals with
  | nil => cases hd
  | cons e rest ih =>
    rw [List.map_cons, List.nodup_cons] at hn
    obtain rfl | hd := List.mem_cons.1 hd
    · simp [get?]
    · have he : e.id ≠ d.id := fun h => hn.1 (h ▸ List.mem_map_of_mem hd)
      rw [get?, List.find?_cons_of_neg (by simpa using he)]
      exact ih hn.2 hd

theorem get?_eq_some : (ofList ds).get? id = some d ↔ d ∈ ofList ds ∧ d.id = id := by
  constructor
  · intro h
    exact ⟨List.mem_of_find?_eq_some h, by simpa using List.find?_some h⟩
  · intro h
    obtain ⟨hd, rfl⟩ := h
    exact get?_of_mem (nodup_ofList ds) hd

end Locals

/-- What a scope lists of its own when it was made from the declarations `ds`. -/
structure Scope.Lists (s : Scope) (ds : List Declaration) : Prop where
  distinct : (s.locals.map Declaration.id).Nodup
  order : s.locals.Pairwise fun d e =>
    (ds.map Declaration.id).idxOf d.id < (ds.map Declaration.id).idxOf e.id
  latest : ∀ d ∈ s.locals, IsLatest ds d.id d
  found : ∀ id d, s.getLocal? id = some d ↔ d ∈ s.locals ∧ d.id = id
  missing : ∀ id, s.getLocal? id = none ↔ ∀ d ∈ ds, d.id ≠ id
  ids : s.localIds = s.locals.map Declaration.id

theorem Scope.lists_addAll (s : Scope) (ds : List Declaration) : (s.addAll ds).Lists ds where
  distinct := Locals.nodup_ofList ds
  order := by
    have h := Locals.pairwise_ofList ds
    rwa [List.pairwise_map] at h
  latest d hd := by
    rw [← find?_reverse_eq_some, ← Locals.get?_ofList]
    exact Locals.get?_eq_some.2 ⟨hd, rfl⟩
  found id d := Locals.get?_eq_some
  missing id := Locals.get?_eq_none
  ids := rfl

/-- A scope lists each name that it was given once, in the order in which the names came up, and
with its last declaration. A script lists the declarations of its clauses so. -/
theorem Scope.addAll_listed :
    (∀ (s : Scope) (ds : List Declaration), (s.addAll ds).Lists ds) ∧
      ∀ {σ : Type} [Source σ Char InputError] (lenient : Bool) (enclosing : Scope) (source : σ)
        (script : Script), Script.ofSource lenient enclosing source = .ok script →
        ∃ (ts : List Token) (d : Grammar.Derivation ts), Script.Written lenient source ts ∧
          script.declarations = script.scope.locals ∧ script.scope.Lists d.declarations := by
  refine ⟨Scope.lists_addAll, ?_⟩
  intro σ _ lenient enclosing source script hs
  obtain ⟨ds, hr, rfl⟩ := Script.ofSource_ok.1 hs
  obtain ⟨ts, d, ht, rfl⟩ := Script.derivation_of_declared (Script.declared?_eq_some.2 hr)
  exact ⟨ts, d, ht, rfl, Scope.lists_addAll ..⟩

theorem Scope.addAll_listed_replaced :
    let source : Feed Char InputError :=
      .ofList "import \"m\" as a\nlet b = 1\nlet a = 2\n".toList
    let script : Script := ⟨⟨[[.bound ⟨⟨3, 1⟩, "a", .named "int", .int 2⟩,
      .bound ⟨⟨2, 1⟩, "b", .named "int", .int 1⟩]]⟩⟩
    Script.ofSource false .root source = .ok script ∧
      script.scope.localIds = ["a", "b"] ∧
      ∃ (ts : List Token) (d : Grammar.Derivation ts), Script.Written false source ts ∧
        script.scope.Lists d.declarations := by
  intro source script
  have hs : Script.ofSource false .root source = .ok script := by decide +kernel
  obtain ⟨ts, d, ht, -, hl⟩ := Scope.addAll_listed.2 false .root source script hs
  exact ⟨hs, rfl, ts, d, ht, hl⟩

end ScriptFrontend
