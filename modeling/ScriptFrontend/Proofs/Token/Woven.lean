import ScriptFrontend.Proofs.Token.LongestMatch

set_option autoImplicit false

namespace ScriptFrontend.Longest

/-- What stands between a lexeme and the next one, or the end of the text. -/
def nextGap : List Chunk → Ending → List Char
  | [], e => e.gap
  | k :: _, _ => k.gap

variable {continues : Bool} {before gap : List Char} {ks : List Chunk} {e : Ending}
  {earlier later : List Token} {t : Token}

theorem filter_breaks : (breaks continues before gap).filter (!·.isTerminator) = [] := by
  rw [List.filter_eq_nil_iff]
  intro t ht
  simp [isTerminator_breaks t ht]

theorem breaks_split (h : breaks continues before gap = earlier ++ t :: later) :
    earlier = [] ∧ ∃ u v, lineEnd gap = some (u, v) ∧
      t = .terminator (.behind (before ++ u)) := by
  unfold breaks at h
  split at h
  · simp at h
  · cases hl : lineEnd gap with
    | none => simp [hl] at h
    | some p =>
      obtain ⟨u, v⟩ := p
      simp only [hl, Option.toList_some, List.map_cons, List.map_nil] at h
      cases earlier with
      | nil => exact ⟨rfl, u, v, rfl, (List.cons.inj h).1.symm⟩
      | cons s earlier => simp at h

/-- Before `t` stand the lexemes `pre`, and the token is what the next gap or the next lexeme gives.
-/
inductive Found (before : List Char) (e : Ending) (t : Token) (later : List Token)
    (pre : List Chunk) : List Chunk → Prop where
  | terminator {post : List Chunk} {u v : List Char} :
      lineEnd (nextGap post e) = some (u, v) →
      t = .terminator (.behind (before ++ covered pre ++ u)) → Found before e t later pre post
  | lexeme {k : Chunk} {post : List Chunk} :
      t = k.token (before ++ covered pre) →
      later = weave k.kind.continuesStatement (before ++ covered (pre ++ [k])) post e →
      Found before e t later pre (k :: post)

theorem Found.cons {k : Chunk} {pre post : List Chunk}
    (h : Found (before ++ k.text) e t later pre post) :
    Found before e t later (k :: pre) post := by
  cases h with
  | terminator hl ht => exact .terminator hl (by simpa [Chunk.text] using ht)
  | lexeme ht hl => exact .lexeme (by simpa [Chunk.text] using ht) (by simpa [Chunk.text] using hl)

theorem weave_split (hs : ∀ k ∈ ks, k.Sound)
    (h : weave continues before ks e = earlier ++ t :: later) :
    ∃ pre post, ks = pre ++ post ∧ earlier.filter (!·.isTerminator) = placed before pre ∧
      Found before e t later pre post := by
  induction ks generalizing continues before earlier with
  | nil =>
    obtain ⟨rfl, u, v, hl, ht⟩ := breaks_split h
    exact ⟨[], [], rfl, rfl, .terminator hl (by simpa using ht)⟩
  | cons k ks ih =>
    have hk := (hs k (.head _)).isTerminator before
    have here : Found before e (k.token before)
        (weave k.kind.continuesStatement (before ++ k.text) ks e) [] (k :: ks) :=
      .lexeme (by simp) (by simp [Chunk.text])
    rw [weave, List.append_eq_append_iff] at h
    obtain ⟨mid, rfl, hm⟩ | ⟨cs, hb, hm⟩ := h
    · cases mid with
      | nil =>
        obtain ⟨rfl, rfl⟩ := List.cons.inj hm
        exact ⟨[], k :: ks, rfl, by simp [filter_breaks, placed], here⟩
      | cons s mid =>
        obtain ⟨rfl, hw⟩ := List.cons.inj hm
        obtain ⟨pre, post, rfl, hf, hp⟩ := ih (fun k hk => hs k (.tail _ hk)) hw
        exact ⟨k :: pre, post, rfl, by simp [filter_breaks, hk, hf, placed], hp.cons⟩
    · cases cs with
      | nil =>
        obtain ⟨rfl, rfl⟩ := List.cons.inj hm
        rw [List.append_nil] at hb
        exact ⟨[], k :: ks, rfl, by simp [← hb, filter_breaks, placed], here⟩
      | cons s cs =>
        obtain ⟨rfl, -⟩ := List.cons.inj hm
        obtain ⟨rfl, u, v, hl, ht⟩ := breaks_split hb
        exact ⟨[], k :: ks, rfl, rfl, .terminator hl (by simpa using ht)⟩

theorem exists_chunk (hs : ∀ k ∈ ks, k.Sound) (hm : t ∈ weave continues before ks e)
    (ht : t.isTerminator = false) :
    ∃ pre k post, ks = pre ++ k :: post ∧ t = k.token (before ++ covered pre) := by
  obtain ⟨earlier, later, h⟩ := List.append_of_mem hm
  obtain ⟨pre, post, rfl, -, hf⟩ := weave_split hs h
  cases hf with
  | terminator _ hk =>
    rw [hk] at ht
    cases ht
  | @lexeme k post hk _ => exact ⟨pre, k, post, rfl, hk⟩

theorem takeWhile_weave (hs : ∀ k ∈ ks, k.Sound) :
    (weave continues before ks e).takeWhile (·.isTerminator) =
      breaks continues before (nextGap ks e) := by
  have hb : ∀ g : List Char, ∀ t ∈ breaks continues before g, t.isTerminator = true :=
    fun g t ht => isTerminator_breaks t ht
  cases ks with
  | nil =>
    rw [weave, nextGap]
    have h : (breaks continues before e.gap ++ []).takeWhile Token.isTerminator = _ :=
      List.takeWhile_append_of_pos (hb e.gap)
    simpa using h
  | cons k ks =>
    have hk := (hs k (.head _)).isTerminator before
    rw [weave, nextGap, List.takeWhile_append_of_pos (hb k.gap)]
    simp [hk]

end ScriptFrontend.Longest
