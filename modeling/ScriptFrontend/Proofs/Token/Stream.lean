import ScriptFrontend.Proofs.Token.Flaw
import ScriptFrontend.Proofs.Token.Step

set_option autoImplicit false

namespace ScriptFrontend

namespace Longest

/-- The terminator of a gap, where a line ends in it. `continues` says that no statement can end. -/
def breaks (continues : Bool) (before gap : List Char) : List Token :=
  if continues then []
  else (lineEnd gap).toList.map fun p => Token.terminator (.behind (before ++ p.1))

def Chunk.token (before : List Char) (k : Chunk) : Token :=
  ⟨.behind (before ++ k.gap), k.kind, k.value⟩

/-- The tokens of some lexemes behind `before`, with the terminators of their gaps. -/
def weave (continues : Bool) (before : List Char) : List Chunk → Ending → List Token
  | [], e => breaks continues before e.gap
  | k :: ks, e =>
    breaks continues before k.gap ++
      k.token before :: weave k.kind.continuesStatement (before ++ k.text) ks e

end Longest

open Longest

variable {σ : Type} [Source σ Char InputError]

namespace Scanner

/-- The scan is going on between `before` and `after`. -/
structure Stands (s : Scanner σ) (continues : Bool) (before after : List Char) : Prop where
  scanning : ∃ last, s.phase = .scanning last ∧ Scanner.continues last = continues
  between : s.head.Between before after

theorem stands_ofSource {source : σ} {text : List Char} (hd : Source.Delivers source text) :
    (ofSource source).Stands true [] text :=
  ⟨⟨none, rfl, rfl⟩, .start hd⟩

theorem run_false {s t : Scanner σ} (h : s.advance = (false, t)) : s.run = ([], t) := by
  rw [run, run.go]
  split <;> simp_all

theorem go_true {s t : Scanner σ} (h : s.advance = (true, t)) (earlier : List Token) :
    run.go s earlier = run.go t (t.current?.toList ++ earlier) := by
  rw [run.go]
  split
  · simp_all
  · rename_i u hu
    obtain rfl : t = u := by simpa [h] using hu
    rfl

theorem go_eq (s : Scanner σ) (earlier : List Token) :
    run.go s earlier = (earlier.reverse ++ s.run.1, s.run.2) := by
  induction hn : s.size using Nat.strongRecOn generalizing s earlier with
  | ind n ih =>
    cases ha : s.advance with
    | mk more t =>
      cases more with
      | false =>
        rw [run_false ha, run.go]
        split <;> simp_all
      | true =>
        have hlt : t.size < n := hn ▸ size_advance ha
        rw [run, go_true ha, go_true ha, ih _ hlt _ _ rfl, ih _ hlt t (_ ++ []) rfl]
        cases t.current? <;> simp

theorem run_true {s t : Scanner σ} (h : s.advance = (true, t)) :
    s.run = (t.current?.toList ++ t.run.1, t.run.2) := by
  rw [run, go_true h, go_eq]
  cases t.current? <;> rfl

theorem run_of_scan {s : Scanner σ} {continues : Bool} {before after : List Char} {token : Token}
    {head : Head σ} (hs : s.Stands continues before after)
    (h : Token.scan continues s.head = .ok (some token) head) :
    s.run = (token :: (⟨head, .scanning (some token)⟩ : Scanner σ).run.1,
      (⟨head, .scanning (some token)⟩ : Scanner σ).run.2) := by
  obtain ⟨last, hp, rfl⟩ := hs.scanning
  exact run_true (t := ⟨head, .scanning (some token)⟩) (by simp [advance, hp, h])

theorem run_of_line {s : Scanner σ} {before cs u v : List Char} (he : lineEnd cs = some (u, v))
    (hs : s.Stands false before cs) :
    ∃ t : Scanner σ, s.run = (.terminator (.behind (before ++ u)) :: t.run.1, t.run.2) ∧
      t.Stands true (before ++ u ++ ['\n']) v := by
  obtain ⟨head, hh, hb⟩ := Token.scan_line he hs.between
  exact ⟨_, run_of_scan hs hh, ⟨_, rfl, rfl⟩, hb⟩

/-- The terminator of a gap is given before all else, and then the scan stands in a gap that ends at
the same place and gives no terminator any more. -/
theorem run_of_breaks {s : Scanner σ} {continues : Bool} {before cs : List Char}
    (hs : s.Stands continues before cs) :
    ∃ (t : Scanner σ) (continues' : Bool) (before' cs' : List Char),
      s.run = (breaks continues before (gap false cs).1 ++ t.run.1, t.run.2) ∧
      t.Stands continues' before' cs' ∧ (continues' ∨ lineEnd cs' = none) ∧
      before' ++ (gap false cs').1 = before ++ (gap false cs).1 ∧
      (gap false cs').2 = (gap false cs).2 := by
  by_cases hc : continues
  · exact ⟨s, continues, before, cs, by simp [breaks, hc], hs, .inl hc, rfl, rfl⟩
  obtain rfl : continues = false := by simpa using hc
  cases he : lineEnd cs with
  | none =>
    exact ⟨s, false, before, cs, by simp [breaks, lineEnd_gap_none he], hs, .inr he, rfl, rfl⟩
  | some p =>
    obtain ⟨u, v⟩ := p
    obtain ⟨hg, hl⟩ := lineEnd_gap he
    obtain ⟨t, ht, hst⟩ := run_of_line he hs
    refine ⟨t, true, _, v, ?_, hst, .inl rfl, ?_, ?_⟩
    · simp [ht, breaks, hl]
    · simp [hg]
    · rw [hg]

section Gap

variable {s : Scanner σ} {continues : Bool} {before cs : List Char}

theorem run_of_end (hs : s.Stands continues before cs) (hc : continues ∨ lineEnd cs = none)
    (hg : (gap false cs).2 = []) : s.run.1 = [] ∧ s.run.2.error? = none := by
  obtain ⟨last, hp, rfl⟩ := hs.scanning
  obtain ⟨t, ht, hb⟩ := Token.scan_gap hc hs.between
  rw [hg] at hb
  obtain ⟨u, hu⟩ := Token.scan_end (Scanner.continues last) hb
  rw [run_false (t := ⟨u, .finished⟩) (by simp [advance, hp, ht, hu])]
  exact ⟨rfl, rfl⟩

theorem run_of_lexeme {c : Char} {rest : List Char} {kind : Kind} {value : Value}
    (hs : s.Stands continues before cs) (hc : continues ∨ lineEnd cs = none)
    (hg : (gap false cs).2 = c :: rest) (hd : decode c (tail c rest).1 = some (kind, value)) :
    ∃ t : Scanner σ,
      s.run = (⟨.behind (before ++ (gap false cs).1), kind, value⟩ :: t.run.1, t.run.2) ∧
      t.Stands kind.continuesStatement (before ++ ((gap false cs).1 ++ c :: (tail c rest).1))
        (tail c rest).2 := by
  obtain ⟨t, ht, hb⟩ := Token.scan_gap hc hs.between
  obtain ⟨hm, hblank⟩ := gap_stops hg
  rw [hg] at hb
  obtain ⟨u, hbu, hu⟩ := Token.scan_lexeme continues hm hblank hb
  rw [← tail_append c rest] at hbu
  obtain ⟨v, hv, hbv⟩ := Lexeme.takes_lexeme (.behind (before ++ (gap false cs).1)) _ hd u hbu
  rw [hv] at hu
  exact ⟨_, run_of_scan hs (ht.trans hu), ⟨_, rfl, rfl⟩, by simpa using hbv⟩

theorem run_of_fail {last : Option Token} {e : LexError} {head : Head σ}
    (hp : s.phase = .scanning last)
    (h : Token.scan (Scanner.continues last) s.head = .error e head) :
    s.run.1 = [] ∧ s.run.2.error? = some e := by
  rw [run_false (t := ⟨head, .failed e⟩) (by simp [advance, hp, h])]
  exact ⟨rfl, rfl⟩

theorem run_of_flaw {c : Char} {rest used : List Char} {cause : LexCause}
    (hs : s.Stands continues before cs) (hc : continues ∨ lineEnd cs = none)
    (hg : (gap false cs).2 = c :: rest) (hf : Flaw c rest used cause) :
    s.run.1 = [] ∧ s.run.2.error? =
      some ⟨cause, some (Cursor.after (before ++ ((gap false cs).1 ++ c :: used))).last⟩ := by
  obtain ⟨last, hp, rfl⟩ := hs.scanning
  obtain ⟨t, ht, hb⟩ := Token.scan_gap hc hs.between
  obtain ⟨hm, hblank⟩ := gap_stops hg
  rw [hg] at hb
  obtain ⟨u, hbu, hu⟩ := Token.scan_lexeme (Scanner.continues last) hm hblank hb
  have hfail := Lexeme.fails_flaw (σ := σ) (.behind (before ++ (gap false cs).1))
    (before ++ (gap false cs).1 ++ [c]) hf
  simp only [List.append_assoc, List.singleton_append] at hfail hbu
  obtain ⟨v, hv⟩ := hfail u hbu
  rw [hv] at hu
  exact run_of_fail hp (ht.trans hu)

theorem run_of_stuck {c : Char} {rest : List Char} (hs : s.Stands continues before cs)
    (hc : continues ∨ lineEnd cs = none) (hg : (gap false cs).2 = c :: rest)
    (hd : decode c (tail c rest).1 = none) : s.run.1 = [] ∧ s.run.2.error?.isSome := by
  obtain ⟨used, cause, hf⟩ := exists_flaw hd
  obtain ⟨h1, h2⟩ := run_of_flaw hs hc hg hf
  exact ⟨h1, by rw [h2]; rfl⟩

end Gap

/-- A scan gives the tokens of longest match with their terminators, and fails where it is stuck. -/
theorem run_eq_weave {s : Scanner σ} {continues : Bool} {before cs : List Char}
    (hs : s.Stands continues before cs) :
    s.run.1 = weave continues before (lex cs).chunks (lex cs).ending ∧
      s.run.2.error?.isSome = (lex cs).ending.isStuck := by
  fun_induction lex cs generalizing s continues before with
  | case1 cs hg =>
    obtain ⟨t, _, before', cs', hr, hst, hc, -, he⟩ := run_of_breaks hs
    obtain ⟨h1, h2⟩ := run_of_end hst hc (he.trans hg)
    simp [hr, h1, h2, weave, Ending.gap, Ending.isStuck]
  | case2 cs c rest hg hd =>
    obtain ⟨t, _, before', cs', hr, hst, hc, -, he⟩ := run_of_breaks hs
    obtain ⟨h1, h2⟩ := run_of_stuck hst hc (he.trans hg) hd
    simp [hr, h1, h2, weave, Ending.gap, Ending.isStuck]
  | case3 cs c rest hg kind value hd _ ih =>
    obtain ⟨t, _, before', cs', hr, hst, hc, hb, he⟩ := run_of_breaks hs
    obtain ⟨u, hu, hsu⟩ := run_of_lexeme hst hc (he.trans hg) hd
    rw [← List.append_assoc, hb, List.append_assoc] at hsu
    obtain ⟨h1, h2⟩ := ih hsu
    refine ⟨?_, by rw [hr, hu]; exact h2⟩
    simp [hr, hu, h1, hb, weave, Chunk.token, Chunk.text]

theorem error_of_flaw {s : Scanner σ} {continues : Bool} {before cs : List Char} {c : Char}
    {gap taken rest used : List Char} {cause : LexCause} (hs : s.Stands continues before cs)
    (he : (lex cs).ending = .stuck gap (c :: taken) rest)
    (hf : Flaw c (taken ++ rest) used cause) :
    s.run.2.error? = some ⟨cause,
      some (Cursor.after (before ++ (covered (lex cs).chunks ++ (gap ++ c :: used)))).last⟩ := by
  fun_induction lex cs generalizing s continues before with
  | case1 => cases he
  | case2 cs d more hg hd =>
    simp only [Ending.stuck.injEq, List.cons.injEq] at he
    obtain ⟨rfl, ⟨rfl, rfl⟩, rfl⟩ := he
    rw [tail_append] at hf
    obtain ⟨t, _, before', cs', hr, hst, hc, hb, he⟩ := run_of_breaks hs
    obtain ⟨-, herr⟩ := run_of_flaw hst hc (he.trans hg) hf
    rw [← List.append_assoc, hb, List.append_assoc] at herr
    simpa [hr] using herr
  | case3 cs d more hg kind value hd _ ih =>
    obtain ⟨t, _, before', cs', hr, hst, hc, hb, he'⟩ := run_of_breaks hs
    obtain ⟨u, hu, hsu⟩ := run_of_lexeme hst hc (he'.trans hg) hd
    rw [← List.append_assoc, hb, List.append_assoc] at hsu
    have herr := ih hsu he
    simpa [hr, hu] using herr

theorem run_ofSource {source : σ} {text : List Char} (hd : Source.Delivers source text) :
    (ofSource source).run.1 = weave true [] (lex text).chunks (lex text).ending ∧
      (ofSource source).run.2.error?.isSome = (lex text).ending.isStuck :=
  run_eq_weave (stands_ofSource hd)

end Scanner

end ScriptFrontend
