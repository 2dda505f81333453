import ScriptFrontend.Proofs.Token.Terminators

set_option autoImplicit false

namespace ScriptFrontend

namespace Longest

variable {continues : Bool} {before gap : List Char} {ks : List Chunk} {e : Ending} {t : Token}

theorem EndsLine.split {gap u v : List Char} (h : EndsLine gap u v) : gap = u ++ '\n' :: v := by
  cases h with
  | direct => rfl
  | comment => simp

theorem place_breaks (ht : t ∈ breaks continues before gap) :
    ∃ u v, gap = u ++ '\n' :: v ∧ t.position = .behind (before ++ u) := by
  obtain ⟨earlier, later, hb⟩ := List.append_of_mem ht
  obtain ⟨-, u, v, hl, rfl⟩ := breaks_split hb
  exact ⟨u, v, (lineEnd_sound hl).split, rfl⟩

theorem place_weave (ht : t ∈ weave continues before ks e) :
    ∃ more, t.position = .behind (before ++ more) := by
  induction ks generalizing continues before with
  | nil =>
    obtain ⟨u, _, _, hu⟩ := place_breaks ht
    exact ⟨u, hu⟩
  | cons k ks ih =>
    rw [weave, List.mem_append, List.mem_cons] at ht
    obtain ht | rfl | ht := ht
    · obtain ⟨u, _, _, hu⟩ := place_breaks ht
      exact ⟨u, hu⟩
    · exact ⟨k.gap, rfl⟩
    · obtain ⟨more, hm⟩ := ih ht
      exact ⟨k.text ++ more, by rw [hm, List.append_assoc]⟩

theorem pairwise_breaks (continues : Bool) (before gap : List Char) (R : Token → Token → Prop) :
    (breaks continues before gap).Pairwise R := by
  unfold breaks
  split
  · exact .nil
  · cases lineEnd gap <;> simp

/-- Each gap moves on from its terminator to its lexeme, and each lexeme moves on to the next gap.
-/
theorem pairwise_weave (hs : ∀ k ∈ ks, k.Sound) :
    (weave continues before ks e).Pairwise fun s t => compare s.position t.position = .lt := by
  induction ks generalizing continues before with
  | nil => exact pairwise_breaks ..
  | cons k ks ih =>
    have hk := (hs k (.head _)).lexeme_ne
    have hlast : ∀ t ∈ weave k.kind.continuesStatement (before ++ k.text) ks e,
        compare (k.token before).position t.position = .lt := by
      intro t ht
      obtain ⟨more, hm⟩ := place_weave ht
      have hne : k.lexeme ++ more ≠ [] := by simp [hk]
      simpa [hm, Chunk.token, Chunk.text] using Position.behind_lt_append (before ++ k.gap) hne
    have hfirst : ∀ s ∈ breaks continues before k.gap,
        compare s.position (k.token before).position = .lt := by
      intro s hs
      obtain ⟨u, v, hg, hu⟩ := place_breaks hs
      have hne : '\n' :: v ≠ [] := by simp
      simpa [hu, hg, Chunk.token] using Position.behind_lt_append (before ++ u) hne
    rw [weave, List.pairwise_append, List.pairwise_cons]
    refine ⟨pairwise_breaks .., ⟨hlast, ih fun k hk => hs k (.tail _ hk)⟩, ?_⟩
    intro s hsm t ht
    obtain rfl | ht := List.mem_cons.1 ht
    · exact hfirst s hsm
    · exact Position.compare_trans (hfirst s hsm) (hlast t ht)

/-- With the lexemes `pre` before it, `t` stands at the first character of the next lexeme, or at
the newline that ends a line before it. -/
inductive TruePlace (text : List Char) (e : Ending) (t : Token) (pre : List Chunk) :
    List Chunk → Prop where
  | lexeme {k : Chunk} {post : List Chunk} {i : Nat} :
      t.isTerminator = false → t.kind = k.kind → t.value = k.value →
      i = (covered pre ++ k.gap).length → k.lexeme ≠ [] → k.lexeme <+: text.drop i →
      t.position = .ofOffset text i → TruePlace text e t pre (k :: post)
  | terminator {post : List Chunk} {u v : List Char} {i : Nat} :
      t.isTerminator → EndsLine (nextGap post e) u v → i = (covered pre ++ u).length →
      text[i]? = some '\n' → t.position = .ofOffset text i → TruePlace text e t pre post

theorem nextGap_prefix (ks : List Chunk) (e : Ending) : nextGap ks e <+: covered ks ++ e.text := by
  cases ks with
  | nil => cases e <;> simp [nextGap, Ending.gap, Ending.text]
  | cons k ks => simp [nextGap]

theorem truePlace_of_found {text : List Char} {later : List Token} {pre post : List Chunk}
    (htext : text = covered pre ++ (covered post ++ e.text)) (hs : ∀ k ∈ post, k.Sound)
    (h : Found [] e t later pre post) : TruePlace text e t pre post := by
  cases h with
  | @terminator _ u v hl ht =>
    have he := lineEnd_sound hl
    obtain ⟨rest, hrest⟩ := nextGap_prefix post e
    have hu : text = covered pre ++ u ++ '\n' :: (v ++ rest) := by
      rw [htext, ← hrest, he.split]
      simp
    refine .terminator (by rw [ht]; rfl) he rfl ?_ ?_
    · simp [hu]
    · rw [ht, hu, Position.ofOffset_append]
      rfl
  | @lexeme k post ht _ =>
    have hk := hs k (.head _)
    have hu : text = covered pre ++ k.gap ++ (k.lexeme ++ (covered post ++ e.text)) := by
      simp [htext]
    refine .lexeme (by rw [ht]; exact hk.isTerminator _) (by rw [ht]; rfl) (by rw [ht]; rfl) rfl
      hk.lexeme_ne ?_ ?_
    · rw [hu, List.drop_left]
      exact List.prefix_append ..
    · rw [ht, hu, Position.ofOffset_append]
      rfl

end Longest

open Longest

variable {σ : Type} [Source σ Char InputError]

/-- Every token stands at its true place, and the places of the tokens increase. -/
theorem Scanner.position_true {source : σ} {text : List Char} (hd : Source.Delivers source text) :
    (∀ earlier t later, (ofSource source).run.1 = earlier ++ t :: later →
      ∃ pre post, (lex text).chunks = pre ++ post ∧
        earlier.filter (!·.isTerminator) = placed [] pre ∧
        TruePlace text (lex text).ending t pre post) ∧
      (ofSource source).run.1.Pairwise fun s t => compare s.position t.position = .lt := by
  have hs := sound_lex text
  rw [(run_ofSource hd).1]
  refine ⟨?_, pairwise_weave hs⟩
  intro earlier t later h
  obtain ⟨pre, post, hks, hf, hfound⟩ := weave_split hs h
  have htext : text = covered pre ++ (covered post ++ (lex text).ending.text) := by
    simpa [hks, covered_append] using (text_lex text).symm
  have hpost : ∀ k ∈ post, k.Sound := fun k hk => hs k (by simp [hks, hk])
  exact ⟨pre, post, hks, hf, truePlace_of_found htext hpost hfound⟩

theorem Scanner.position_true_newline :
    let source : Feed Char InputError := .ofList "x # a\n# b\n 'c'".toList
    (ofSource source).run.1.map (·.position) = [⟨1, 1⟩, ⟨2, 4⟩, ⟨3, 2⟩] ∧
      (ofSource source).run.1.Pairwise fun s t => compare s.position t.position = .lt :=
  ⟨by decide +kernel, (position_true (Feed.delivers_ofList _)).2⟩

end ScriptFrontend
