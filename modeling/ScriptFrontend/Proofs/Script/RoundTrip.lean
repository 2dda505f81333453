import ScriptFrontend.Proofs.Script.Fault
import ScriptFrontend.Proofs.Script.Printing

set_option autoImplicit false

namespace ScriptFrontend

open Grammar Longest

theorem Position.behind_line {before : List Char} (hb : ∀ c ∈ before.getLast?, c = '\n') :
    behind before = ⟨1 + before.count '\n', 1⟩ := by
  cases hl : before.getLast? with
  | none => rw [List.getLast?_eq_none_iff.1 hl]; rfl
  | some c =>
    obtain ⟨lines, rfl⟩ := List.getLast?_eq_some_iff.1 hl
    obtain rfl := hb c hl
    rw [behind_newline]
    simp [behind, Nat.add_assoc]

namespace Printing

theorem Word.kind_operand (v : Operand) :
    (Word.operand v).kind ∈ [.int, .float, .string, .ident] := by
  cases v <;> simp [Word.operand, Word.quoted, Word.name]

def separator (p : Position) : Separator :=
  ⟨.terminator p, by simp [Token.terminator]⟩

/-- A line is a clause, which declares what the line stands for. -/
theorem Line.exists_clause (l : Line) (before : List Char) :
    ∃ c : Clause, c.tokens = phraseTokens before l.words ∧
      c.declaration? = some (l.declaration (.behind before)) ∧
      (c.isBinding, c.isImport) = (!l.isImport, l.isImport) := by
  obtain ⟨path, _ | given⟩ | ⟨name, _ | stated, value⟩ := l
  · exact ⟨.imported ⟨_, .head _⟩ ⟨_, .head _⟩ none (separator _), rfl, rfl, rfl⟩
  · exact ⟨.imported ⟨_, .head _⟩ ⟨_, .head _⟩ (some (⟨_, .head _⟩, ⟨_, .head _⟩)) (separator _),
      rfl, rfl, rfl⟩
  · refine ⟨.bound ⟨_, .head _⟩ ⟨_, .head _⟩ none ⟨_, .head _⟩ ⟨_, Word.kind_operand value⟩
      (separator _), rfl, ?_, rfl⟩
    cases value <;> rfl
  · refine ⟨.bound ⟨_, .head _⟩ ⟨_, .head _⟩ (some ⟨_, .head _⟩) ⟨_, .head _⟩
      ⟨_, Word.kind_operand value⟩ (separator _), rfl, ?_, rfl⟩
    cases value <;> rfl

theorem Line.words_ne_nil (l : Line) : l.words ≠ [] := by
  obtain ⟨path, _ | given⟩ | ⟨name, _ | stated, value⟩ := l <;> simp [words]

theorem Line.outcome_line (l : Line) (before rest : List Char) :
    outcome true before (l.render.toList ++ rest) =
      (outcome true (before ++ l.render.toList) rest).after (phraseTokens before l.words) := by
  obtain ⟨w, ws, hw⟩ := List.exists_cons_of_ne_nil l.words_ne_nil
  rw [render_eq, hw]
  exact outcome_phrase w ws true before rest

theorem Line.getLast?_render (l : Line) : l.render.toList.getLast? = some '\n' := by
  obtain ⟨path, _ | given⟩ | ⟨name, _ | stated, value⟩ := l <;>
    simp [render, List.getLast?_cons]

theorem exists_clauses (ls : List Line) {before : List Char}
    (hb : ∀ c ∈ before.getLast?, c = '\n') :
    ∃ cs : List Clause,
      outcome true before (ls.flatMap fun l => l.render.toList) =
        ⟨cs.flatMap Clause.tokens, false⟩ ∧
      cs.filterMap Clause.declaration? = Line.declarations (1 + before.count '\n') ls ∧
      (cs.map fun c => (c.isBinding, c.isImport)) = ls.map fun l => (!l.isImport, l.isImport) := by
  -- for any text before that ends in a newline, since every line puts one more line there
  induction ls generalizing before with
  | nil => exact ⟨[], outcome_nil .., rfl, rfl⟩
  | cons l ls ih =>
    have hline : ∀ c ∈ (before ++ l.render.toList).getLast?, c = '\n' := by
      intro c hc
      rw [List.getLast?_append, l.getLast?_render] at hc
      simpa using hc.symm
    obtain ⟨c, ht, hd, hi⟩ := l.exists_clause before
    obtain ⟨cs, hts, hds, his⟩ := ih hline
    refine ⟨c :: cs, ?_, ?_, ?_⟩
    · rw [List.flatMap_cons, l.outcome_line, hts, List.flatMap_cons, ht]
      rfl
    · rw [List.filterMap_cons_some hd, hds, Position.behind_line hb, List.count_append,
        ← Nat.add_assoc]
      rfl
    · rw [List.map_cons, List.map_cons, hi, his]

theorem Program.ordered (p : Program) :
    (p.lines.map fun l => (!l.isImport, l.isImport)).Pairwise fun a b => a.1 → b.2 = false := by
  simp only [lines, List.map_append, List.map_map, List.pairwise_append, List.pairwise_map]
  refine ⟨List.pairwise_of_forall fun a b h => ?_, List.pairwise_of_forall fun a b _ => rfl, ?_⟩
  · cases h
  · simp [Line.isImport]

end Printing

namespace Script

open Printing

variable {σ : Type} [Source σ Char InputError] {source : σ}

/-- A printed program is read strictly, and declares what it was printed from, in its order. -/
theorem ofSource_printed (p : Program) (enclosing : Scope)
    (hd : Source.Delivers source p.text) :
    Reads false source p.declarations ∧
      ofSource false enclosing source = .ok ⟨enclosing.addAll p.declarations⟩ := by
  obtain ⟨cs, ho, hds, hi⟩ :=
    exists_clauses p.lines (show ∀ c ∈ ([] : List Char).getLast?, c = '\n' by simp)
  obtain ⟨ht, hf⟩ := Scanner.run_outcome hd
  rw [Program.text, ho] at ht hf
  have he : (Scanner.ofSource source).run.2.error? = none := by simpa using hf
  have hp := p.ordered
  rw [← hi, List.pairwise_map] at hp
  have hr : Reads false source p.declarations := by
    obtain ⟨h, hh⟩ := readAll_derivation he ⟨cs, hp, ht.symm⟩
    rw [Derivation.declarations, hds] at hh
    exact ⟨h, hh⟩
  exact ⟨hr, ofSource_ok.2 ⟨_, hr, rfl⟩⟩

theorem ofSource_printed_newline :
    let x : Name := ⟨"x!", by decide +kernel⟩
    let t : Name := ⟨"T", by decide +kernel⟩
    let p : Program := ⟨[⟨"a/b", none⟩],
      [⟨x, none, .string "\"\n"⟩, ⟨t, some t, .name x⟩, ⟨x, none, .int ⟨10, by decide⟩⟩]⟩
    let text := "import \"a/b\"\nlet x! = \"\\\"\n\"\nlet T T = x!\nlet x! = 10\n"
    let source : Feed Char InputError := .ofList text.toList
    let ds : List Declaration := [.imported ⟨⟨1, 1⟩, "b", "a/b"⟩,
      .bound ⟨⟨2, 1⟩, "x!", .named "string", .string "\"\n"⟩,
      .bound ⟨⟨4, 1⟩, "T", .named "T", .name "x!"⟩, .bound ⟨⟨5, 1⟩, "x!", .named "int", .int 10⟩]
    Source.Delivers source p.text ∧ ofSource false .root source = .ok ⟨Scope.root.addAll ds⟩ := by
  intro x t p text source ds
  have ht : p.text = text.toList := by decide +kernel
  have hds : p.declarations = ds := by decide +kernel
  have hd : Source.Delivers source p.text := ht ▸ Feed.delivers_ofList _
  exact ⟨hd, hds ▸ (ofSource_printed p .root hd).2⟩

end Script

end ScriptFrontend
