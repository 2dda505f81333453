import Mathlib.Data.List.Chain
import ScriptFrontend.Proofs.Token.Placement

set_option autoImplicit false

namespace ScriptFrontend

namespace Longest

/-- The offset belongs to a lexeme of the text. A lexeme without a meaning counts too. -/
inductive InLexeme (text : List Char) (i : Nat) : Prop where
  | token {pre : List Chunk} {k : Chunk} {post : List Chunk} :
      (lex text).chunks = pre ++ k :: post → (covered pre ++ k.gap).length ≤ i →
      i < (covered (pre ++ [k])).length → InLexeme text i
  | stuck {gap lexeme rest : List Char} : (lex text).ending = .stuck gap lexeme rest →
      (covered (lex text).chunks ++ gap).length ≤ i →
      i < (covered (lex text).chunks ++ (gap ++ lexeme)).length → InLexeme text i

/-- If `t` is a terminator, the token `s` before it can end a statement. -/
def Admits (s t : Token) : Prop :=
  t.isTerminator → s.kind.continuesStatement = false

section Weave

variable {continues : Bool} {before : List Char} {ks : List Chunk} {e : Ending} {t : Token}
  {earlier later : List Token}

theorem weave_eq_breaks :
    weave continues before ks e =
      breaks continues before (nextGap ks e) ++ weave true before ks e := by
  cases ks <;> simp [weave, breaks, nextGap]

theorem weave_true_nil : weave true before [] e = [] := by
  simp [weave, breaks]

theorem weave_true_cons (k : Chunk) :
    weave true before (k :: ks) e =
      k.token before :: weave k.kind.continuesStatement (before ++ k.text) ks e := by
  simp [weave, breaks]

theorem head_weave_true : (weave true before ks e).head? = (placed before ks).head? := by
  cases ks with
  | nil => rw [weave_true_nil]; rfl
  | cons k ks => rw [weave_true_cons]; rfl

theorem isTerminator_placed (hs : ∀ k ∈ ks, k.Sound) (ht : t ∈ placed before ks) :
    t.isTerminator = false := by
  induction ks generalizing before with
  | nil => cases ht
  | cons k ks ih =>
    obtain rfl | ht := List.mem_cons.1 ht
    · exact (hs k (.head _)).isTerminator before
    · exact ih (fun k hk => hs k (.tail _ hk)) ht

theorem isTerminator_head (hs : ∀ k ∈ ks, k.Sound)
    (ht : t ∈ (weave true before ks e).head?) : t.isTerminator = false := by
  rw [head_weave_true] at ht
  exact isTerminator_placed hs (List.mem_of_head? ht)

theorem isChain_breaks (gap : List Char) : (breaks continues before gap).IsChain Admits := by
  unfold breaks
  split
  · exact .nil
  · cases lineEnd gap with
    | none => exact .nil
    | some p => exact .singleton _

theorem isChain_of_true (hs : ∀ k ∈ ks, k.Sound) (h : (weave true before ks e).IsChain Admits) :
    (weave continues before ks e).IsChain Admits := by
  rw [weave_eq_breaks, List.isChain_append]
  refine ⟨isChain_breaks _, h, ?_⟩
  intro s _ t ht hterm
  rw [isTerminator_head hs ht] at hterm
  cases hterm

/-- No token comes directly before a terminator unless a statement can end there. -/
theorem isChain_weave (hs : ∀ k ∈ ks, k.Sound) :
    (weave continues before ks e).IsChain Admits := by
  apply isChain_of_true hs
  induction ks generalizing before with
  | nil =>
    rw [weave_true_nil]
    exact .nil
  | cons k ks ih =>
    have hks : ∀ k ∈ ks, k.Sound := fun k hk => hs k (.tail _ hk)
    have hnext : ∀ t ∈ (weave k.kind.continuesStatement (before ++ k.text) ks e).head?,
        Admits (k.token before) t := by
      intro t ht hterm
      cases hc : k.kind.continuesStatement with
      | false => exact hc
      | true =>
        rw [hc] at ht
        rw [isTerminator_head hks ht] at hterm
        cases hterm
    rw [weave_true_cons, List.isChain_cons]
    exact ⟨hnext, isChain_of_true hks (ih hks)⟩

theorem countP_breaks (gap : List Char) :
    (breaks continues before gap).countP (·.isTerminator) ≤ if continues then 0 else 1 := by
  cases continues with
  | true => simp [breaks]
  | false => exact Nat.le_trans List.countP_le_length (length_breaks_le ..)

theorem countP_weave (hs : ∀ k ∈ ks, k.Sound) :
    (weave continues before ks e).countP (·.isTerminator) ≤
      (weave continues before ks e).countP (!·.isTerminator) + if continues then 0 else 1 := by
  induction ks generalizing continues before with
  | nil =>
    have hgap : (breaks continues before e.gap).countP (·.isTerminator) ≤ _ := countP_breaks _
    rw [weave]
    omega
  | cons k ks ih =>
    have hgap : (breaks continues before k.gap).countP (·.isTerminator) ≤ _ := countP_breaks _
    have hk := (hs k (.head _)).isTerminator before
    have hrest : (weave k.kind.continuesStatement (before ++ k.text) ks e).countP
        (·.isTerminator) ≤ _ := ih fun k hk => hs k (.tail _ hk)
    have hone : (if k.kind.continuesStatement then 0 else 1) ≤ 1 := by split <;> omega
    simp only [weave, List.countP_append, List.countP_cons, hk]
    simp only [Bool.not_false, Bool.false_eq_true, if_false, if_true]
    omega

theorem weave_first (hs : ∀ k ∈ ks, k.Sound) (ht : t.isTerminator)
    (h : weave continues before ks e = earlier ++ t :: later) :
    (earlier = [] ∧ later = weave true before ks e ∧ ∃ u v,
        lineEnd (nextGap ks e) = some (u, v) ∧ t = .terminator (.behind (before ++ u))) ∨
      ∃ mid, earlier = breaks continues before (nextGap ks e) ++ mid ∧
        weave true before ks e = mid ++ t :: later := by
  rw [weave_eq_breaks, List.append_eq_append_iff] at h
  obtain ⟨mid, he, hm⟩ | ⟨cs, hb, hm⟩ := h
  · exact .inr ⟨mid, he, hm⟩
  · cases cs with
    | nil =>
      have hhead : t ∈ (weave true before ks e).head? := by
        rw [← List.nil_append (weave true before ks e), ← hm]
        rfl
      rw [isTerminator_head hs hhead] at ht
      cases ht
    | cons s cs =>
      obtain ⟨rfl, hlater⟩ := List.cons.inj hm
      have hone := length_breaks_le continues before (nextGap ks e)
      obtain ⟨rfl, hu⟩ := breaks_split hb
      obtain rfl : cs = [] := by simpa [hb] using hone
      exact .inl ⟨rfl, hlater, hu⟩

/-- A terminator stands where a line ends in the gap between two lexemes, and the tokens next to it
are those of the two. -/
theorem weave_terminator (hs : ∀ k ∈ ks, k.Sound) (ht : t.isTerminator)
    (h : weave continues before ks e = earlier ++ t :: later) :
    ∃ pre post u v, ks = pre ++ post ∧ earlier.getLast? = (placed before pre).getLast? ∧
      later.head? = (placed (before ++ covered pre) post).head? ∧
      lineEnd (nextGap post e) = some (u, v) ∧
      t = .terminator (.behind (before ++ covered pre ++ u)) := by
  induction ks generalizing continues before earlier with
  | nil =>
    obtain ⟨rfl, rfl, u, v, hl, hu⟩ | ⟨mid, -, hm⟩ := weave_first hs ht h
    · exact ⟨[], [], u, v, rfl, rfl, by simp [head_weave_true], hl, by simpa using hu⟩
    · simp [weave_true_nil] at hm
  | cons k ks ih =>
    obtain ⟨rfl, rfl, u, v, hl, hu⟩ | ⟨mid, he, hm⟩ := weave_first hs ht h
    · exact ⟨[], k :: ks, u, v, rfl, rfl, by simp [head_weave_true], hl, by simpa using hu⟩
    have hk := (hs k (.head _)).isTerminator before
    rw [weave_true_cons] at hm
    cases mid with
    | nil =>
      obtain ⟨rfl, -⟩ := List.cons.inj hm
      rw [hk] at ht
      cases ht
    | cons s mid =>
      obtain ⟨rfl, hw⟩ := List.cons.inj hm
      obtain ⟨pre, post, u, v, rfl, hlast, hhead, hl, hu⟩ := ih (fun k hk => hs k (.tail _ hk)) hw
      refine ⟨k :: pre, post, u, v, rfl, ?_, ?_, hl, ?_⟩
      · simp [he, placed, List.getLast?_cons, hlast]
      · simpa [Chunk.text] using hhead
      · simpa [Chunk.text] using hu

end Weave

theorem not_inLexeme {text : List Char} {pre post : List Chunk} {i : Nat}
    (hks : (lex text).chunks = pre ++ post) (hl : (covered pre).length ≤ i)
    (hr : i < (covered pre ++ nextGap post (lex text).ending).length) : ¬InLexeme text i := by
  intro h
  cases h with
  | @token front k back hk h1 h2 =>
    have hsplit : pre ++ post = front ++ k :: back := hks.symm.trans hk
    rw [List.append_eq_append_iff] at hsplit
    obtain ⟨mid, rfl, rfl⟩ | ⟨mid, rfl, hmid⟩ := hsplit
    · have hgap : (nextGap (mid ++ k :: back) (lex text).ending).length ≤
          (covered mid ++ k.gap).length := by
        cases mid <;> simp [nextGap]
      simp only [covered_append, List.length_append] at h1 hr hgap
      omega
    · cases mid with
      | nil =>
        obtain rfl : k :: back = post := by simpa using hmid
        simp only [List.append_nil, nextGap] at h1 hr
        omega
      | cons l mid =>
        obtain ⟨rfl, -⟩ := List.cons.inj hmid
        simp only [covered_append, covered_cons, covered_nil, List.length_append,
          List.length_nil] at h2 hl
        omega
  | @stuck gap lexeme rest he h1 h2 =>
    have hgap : (nextGap post (lex text).ending).length ≤ (covered post ++ gap).length := by
      cases post <;> simp [nextGap, he, Ending.gap]
    simp only [hks, covered_append, List.length_append] at h1 hr hgap
    omega

end Longest

open Longest

variable {σ : Type} [Source σ Char InputError]

/-- A terminator never comes first, nor behind a token with which a statement goes on, and stands at
a newline between the lexemes of the tokens next to it. -/
theorem Scanner.terminator_sound {source : σ} {text : List Char}
    (hd : Source.Delivers source text) :
    (∀ t ∈ (ofSource source).run.1.head?, t.isTerminator = false) ∧
      (∀ earlier s t later, (ofSource source).run.1 = earlier ++ s :: t :: later →
        t.isTerminator → s.kind ∉ [.terminator, .symbol .dot, .symbol .pipeForward, .symbol .comma,
          .symbol .lParen, .symbol .lBrace, .symbol .lBracket]) ∧
      (∀ earlier t later, (ofSource source).run.1 = earlier ++ t :: later → t.isTerminator →
        ∃ pre post i, (lex text).chunks = pre ++ post ∧
          earlier.getLast? = (placed [] pre).getLast? ∧
          later.head? = (placed (covered pre) post).head? ∧
          text[i]? = some '\n' ∧ t.position = .ofOffset text i ∧ (covered pre).length ≤ i ∧
          i < (covered pre ++ nextGap post (lex text).ending).length ∧ ¬InLexeme text i) ∧
      (ofSource source).run.1.countP (·.isTerminator) ≤
        (ofSource source).run.1.countP (!·.isTerminator) := by
  have hs := sound_lex text
  rw [(run_ofSource hd).1]
  refine ⟨fun t ht => isTerminator_head hs ht, ?_, ?_, countP_weave hs⟩
  · intro earlier s t later h ht hk
    have hc : s.kind.continuesStatement = false :=
      List.isChain_iff_forall_rel_of_append_cons_cons.1 (isChain_weave hs) h ht
    simp only [List.mem_cons, List.not_mem_nil, or_false] at hk
    obtain hk | hk | hk | hk | hk | hk | hk := hk
    all_goals
      rw [hk] at hc
      cases hc
  · intro earlier t later h ht
    obtain ⟨pre, post, u, v, hks, hlast, hhead, hl, hu⟩ := weave_terminator hs ht h
    have htext : text = covered pre ++ (covered post ++ (lex text).ending.text) := by
      simpa [hks, covered_append] using (text_lex text).symm
    have hpost : ∀ k ∈ post, k.Sound := fun k hk => hs k (by simp [hks, hk])
    have hfound : Found [] (lex text).ending t later pre post := .terminator hl hu
    cases truePlace_of_found htext hpost hfound with
    | lexeme hf =>
      rw [hf] at ht
      cases ht
    | @terminator _ _ _ i _ he hi hn hp =>
      have hbehind : (covered pre).length ≤ i := by simp [hi]
      have hahead : i < (covered pre ++ nextGap post (lex text).ending).length := by
        simp [hi, he.split]
      exact ⟨pre, post, i, hks, hlast, hhead, hn, hp, hbehind, hahead,
        not_inLexeme hks hbehind hahead⟩

theorem Scanner.terminator_sound_literal :
    let text : List Char := "(\n'\n' # c\n# d\n\n.\n\"".toList
    let source : Feed Char InputError := .ofList text
    (ofSource source).run.1.map (·.position) = [⟨1, 1⟩, ⟨2, 1⟩, ⟨4, 4⟩, ⟨6, 1⟩] ∧
      ∃ i, text[i]? = some '\n' ∧ Position.ofOffset text i = ⟨4, 4⟩ ∧ ¬InLexeme text i := by
  intro text source
  have hr : (ofSource source).run.1 =
      [⟨⟨1, 1⟩, .symbol .lParen, .symbol "("⟩, ⟨⟨2, 1⟩, .int, .int 10⟩] ++
        Token.terminator ⟨4, 4⟩ :: [⟨⟨6, 1⟩, .symbol .dot, .symbol "."⟩] := by decide +kernel
  have hd : Source.Delivers source text := Feed.delivers_ofList text
  obtain ⟨-, -, hplace, -⟩ := terminator_sound hd
  obtain ⟨pre, post, i, -, -, -, hn, hp, -, -, hout⟩ := hplace _ _ _ hr rfl
  exact ⟨by rw [hr]; rfl, i, hn, hp.symm, hout⟩

end ScriptFrontend
