import Mathlib.Data.List.Forall2
import ScriptFrontend.Proofs.Token.Extension
import ScriptFrontend.Proofs.Token.LongestMatch

/-! Texts without their comments.

A comment has no part in what a scan gives: without its comments a text gives the same tokens in the
same places. Only a terminator can move, to the end of the line on which the comment began.
-/

set_option autoImplicit false

namespace ScriptFrontend

namespace Position

variable {before before' : List Char}

theorem behind_append_congr (h : behind before = behind before') (more : List Char) :
    behind (before ++ more) = behind (before' ++ more) := by
  induction more using List.reverseRecOn with
  | nil => simpa using h
  | append_singleton more c ih =>
    rw [← List.append_assoc, ← List.append_assoc]
    by_cases hc : c = '\n'
    · rw [hc, behind_newline, behind_newline, ih]
    · rw [behind_char _ hc, behind_char _ hc, ih]

theorem behind_newline_congr (h : (behind before).line = (behind before').line) :
    behind (before ++ ['\n']) = behind (before' ++ ['\n']) := by
  rw [behind_newline, behind_newline, h]

end Position

namespace Longest

/-- What a place of a text belongs to. Behind a backslash a quoted text goes on whatever the
character is. -/
inductive Region where
  | code
  | comment
  | quoted (delimiter : Char)
  | escaped (delimiter : Char)
deriving DecidableEq

namespace Region

def next : Region → Char → Region
  | code, c => if c = '#' then comment else if c = '"' ∨ c = '\'' then quoted c else code
  | comment, c => if c = '\n' then code else comment
  | quoted delimiter, c =>
    if c = '\\' then escaped delimiter else if c = delimiter then code else quoted delimiter
  | escaped delimiter, _ => quoted delimiter

def behind (r : Region) (text : List Char) : Region :=
  text.foldl next r

@[simp] theorem behind_cons (r : Region) (c : Char) (cs : List Char) :
    r.behind (c :: cs) = (r.next c).behind cs := rfl

@[simp] theorem behind_append (r : Region) (u v : List Char) :
    r.behind (u ++ v) = (r.behind u).behind v := List.foldl_append

@[simp] theorem next_comment_newline : comment.next '\n' = code := rfl

theorem next_comment {c : Char} (h : c ≠ '\n') : comment.next c = comment := if_neg h

/-- Only three characters begin anything in code. -/
theorem next_code {c : Char} (hm : c ≠ '#') (hs : c ≠ '"') (hc : c ≠ '\'') :
    code.next c = code := by
  simp [next, hm, hs, hc]

theorem next_code_of_isBlank {c : Char} (hm : c ≠ '#') (h : Text.isBlank c) : code.next c = code :=
  next_code hm (Text.of_isBlank (P := fun c => c ≠ '"') (by decide +kernel) h)
    (Text.of_isBlank (P := fun c => c ≠ '\'') (by decide +kernel) h)

end Region

/-- The text without its comments, where it starts in the region `r`. A comment goes from its `#` up
to the newline that ends its line, which is left. -/
def uncomment (r : Region) : List Char → List Char
  | [] => []
  | c :: cs =>
    if r.next c = .comment then uncomment (r.next c) cs else c :: uncomment (r.next c) cs

section Uncomment

variable {r s t : Region} {u v cs : List Char} {c : Char}

@[simp] theorem uncomment_nil (r : Region) : uncomment r [] = [] := rfl

theorem uncomment_drop (h : r.next c = .comment) (cs : List Char) :
    uncomment r (c :: cs) = uncomment .comment cs := by
  simp [uncomment, h]

theorem uncomment_keep (h : r.next c ≠ .comment) (cs : List Char) :
    uncomment r (c :: cs) = c :: uncomment (r.next c) cs := if_neg h

theorem uncomment_code (h : Region.code.next c = .code) (cs : List Char) :
    uncomment .code (c :: cs) = c :: uncomment .code cs := by
  rw [uncomment_keep (by simp [h]), h]

theorem uncomment_append (r : Region) (u v : List Char) :
    uncomment r (u ++ v) = uncomment r u ++ uncomment (r.behind u) v := by
  induction u generalizing r with
  | nil => rfl
  | cons c u ih =>
    by_cases h : r.next c = .comment
    · rw [List.cons_append, uncomment_drop h, uncomment_drop h, ih, Region.behind_cons, h]
    · rw [List.cons_append, uncomment_keep h, uncomment_keep h, ih]
      rfl

/-- The text has no comment and goes from one region to another. -/
structure Copied (r : Region) (u : List Char) (s : Region) : Prop where
  text : uncomment r u = u
  region : r.behind u = s

theorem copied_nil (r : Region) : Copied r [] r := ⟨rfl, rfl⟩

theorem Copied.cons (h : r.next c = s) (hs : s ≠ .comment) (hu : Copied s u t) :
    Copied r (c :: u) t where
  text := by rw [uncomment_keep (h ▸ hs), h, hu.text]
  region := by rw [Region.behind_cons, h, hu.region]

theorem Copied.append (hu : Copied r u s) (hv : Copied s v t) : Copied r (u ++ v) t where
  text := by rw [uncomment_append, hu.text, hu.region, hv.text]
  region := by rw [Region.behind_append, hu.region, hv.region]

theorem copied_code (h : ∀ c ∈ u, Region.code.next c = .code) : Copied .code u .code := by
  induction u with
  | nil => exact copied_nil _
  | cons c u ih =>
    exact .cons (h c (.head _)) (by simp) (ih fun d hd => h d (.tail _ hd))

end Uncomment

section Lexemes

variable {delimiter c : Char} {cs : List Char}

theorem copied_piece {p : List Char} (hq : Delimits delimiter) (hp : Spells delimiter p c) :
    Copied (.quoted delimiter) p (.quoted delimiter) := by
  have hraw {d : Char} (hb : d ≠ '\\') (hd : d ≠ delimiter) :
      (Region.quoted delimiter).next d = .quoted delimiter := by
    simp [Region.next, hb, hd]
  have hdigit {a : Char} {n : Nat} (ha : Numeral.digit? 16 a = some n) :
      (Region.quoted delimiter).next a = .quoted delimiter := by
    refine hraw (fun h => ?_) (fun h => ?_)
    · rw [h] at ha
      cases ha
    · rw [h, hq.not_digit] at ha
      cases ha
  have hescaped (d : Char) {u : List Char} (hu : Copied (.quoted delimiter) u (.quoted delimiter)) :
      Copied (.quoted delimiter) ('\\' :: d :: u) (.quoted delimiter) :=
    .cons rfl (by simp [Region.next]) (.cons rfl (by simp [Region.next]) hu)
  cases hp with
  | raw hd hb => exact .cons (hraw hb hd) (by simp) (copied_nil _)
  | escaped hx => exact hescaped _ (copied_nil _)
  | hex ha hb =>
    exact hescaped 'x' (.cons (hdigit ha) (by simp) (.cons (hdigit hb) (by simp) (copied_nil _)))

theorem copied_quotedTail {text : List Char} (hq : Delimits delimiter)
    (hu : Unquotes delimiter cs text) :
    Copied (.quoted delimiter) (quotedTail delimiter cs).1 .code := by
  induction hu with
  | close rest =>
    rw [quotedTail_close hq]
    exact .cons (by simp [Region.next, hq.not_backslash]) (by simp) (copied_nil _)
  | piece hp _ ih =>
    rw [quotedTail_piece hq hp]
    exact (copied_piece hq hp).append ih

theorem code_munched {β : Type} {judge : β → Char → Lexeme.Verdict β}
    (hstop : ∀ state c, c = '#' ∨ c = '"' ∨ c = '\'' → judge state c = .stop) (state : β) :
    ∀ c ∈ (Lexeme.munched judge state cs).2.1, Region.code.next c = .code := by
  have htaken (state : β) (c : Char) (h : judge state c ≠ .stop) : Region.code.next c = .code :=
    Region.next_code (fun hc => h (hstop state c (.inl hc)))
      (fun hc => h (hstop state c (.inr (.inl hc)))) (fun hc => h (hstop state c (.inr (.inr hc))))
  induction cs generalizing state with
  | nil => simp [Lexeme.munched]
  | cons c cs ih =>
    cases hj : judge state c with
    | more next =>
      have hc := htaken state c (by simp [hj])
      simpa [Lexeme.munched, hj, hc] using ih next
    | last => simp [Lexeme.munched, hj, htaken state c (by simp [hj])]
    | stop => simp [Lexeme.munched, hj]

theorem code_wordTail : ∀ c ∈ (wordTail cs).1, Region.code.next c = .code := by
  have hstop : ∀ state c, c = '#' ∨ c = '"' ∨ c = '\'' → Lexeme.judgeWord state c = .stop := by
    rintro state c (rfl | rfl | rfl) <;> rfl
  have h : ∀ c ∈ (Lexeme.munched Lexeme.judgeWord () cs).2.1, _ := code_munched hstop ()
  rwa [Lexeme.munched_word] at h

theorem code_numberTail : ∀ c ∈ (numberTail cs).1, Region.code.next c = .code := by
  have hstop : ∀ state c, c = '#' ∨ c = '"' ∨ c = '\'' → Lexeme.judgeNumber state c = .stop := by
    rintro state c (rfl | rfl | rfl) <;> cases state <;> rfl
  have h : ∀ c ∈ (Lexeme.munched Lexeme.judgeNumber false cs).2.1, _ := code_munched hstop false
  rwa [Lexeme.munched_number] at h

theorem code_spelling (sign : Symbol) :
    sign.spelling.toList.all fun c => Region.code.next c = .code := by
  cases sign <;> decide

theorem code_signTail {first : Char} : ∀ c ∈ (signTail first cs).1, Region.code.next c = .code := by
  cases cs with
  | nil => simp [signTail]
  | cons d cs =>
    cases ho : Symbol.ofSpelling? (String.ofList [first, d]) with
    | none => simp [signTail_single cs ho]
    | some sign =>
      have hs := code_spelling sign
      rw [toList_spelling ho, List.all_eq_true] at hs
      simpa [signTail_pair cs ho] using hs d (by simp)

/-- No comment begins in a lexeme. -/
theorem copied_lexeme {kind : Kind} {value : Value} (hm : c ≠ '#')
    (hd : decode c (tail c cs).1 = some (kind, value)) :
    Copied .code (c :: (tail c cs).1) .code := by
  have hfirst (hs : Form.of c ≠ .string) (hc : Form.of c ≠ .character) :
      Region.code.next c = .code :=
    Region.next_code hm (fun h => hs (by rw [h]; decide)) (fun h => hc (by rw [h]; decide))
  cases means_of_decode hd with
  | word hf =>
    simp only [tail, hf]
    exact .cons (hfirst (by simp [hf]) (by simp [hf])) (by simp) (copied_code code_wordTail)
  | string hf hu =>
    obtain rfl := Lexeme.eq_of_form_string hf
    simp only [tail, hf] at hu ⊢
    have hquoted := unquotes_of_unquote delimits_string hu
    exact .cons rfl (by decide) (copied_quotedTail delimits_string hquoted)
  | character hf hu =>
    obtain rfl := Lexeme.eq_of_form_character hf
    simp only [tail, hf] at hu ⊢
    have hquoted := unquotes_of_unquote delimits_character hu
    exact .cons rfl (by decide) (copied_quotedTail delimits_character hquoted)
  | number hf hn =>
    simp only [tail, hf]
    exact .cons (hfirst (by simp [hf]) (by simp [hf])) (by simp) (copied_code code_numberTail)
  | sign hf hs =>
    simp only [tail, hf]
    exact .cons (hfirst (by simp [hf]) (by simp [hf])) (by simp) (copied_code code_signTail)

end Lexemes

section Comments

variable {u cs : List Char}

theorem behind_head_comment (h : cs.head? = some '#') :
    Region.code.behind cs = Region.comment.behind cs := by
  cases cs with
  | nil => cases h
  | cons c cs =>
    obtain rfl : c = '#' := by simpa using h
    rfl

theorem behind_merged (h : Merged u) : Region.comment.behind u = .comment := by
  induction u with
  | nil => rfl
  | cons c u ih =>
    obtain ⟨hu, hc⟩ := merged_cons.1 h
    by_cases hn : c = '\n'
    · rw [hn, Region.behind_cons, Region.next_comment_newline, behind_head_comment (hc hn), ih hu]
    · rw [Region.behind_cons, Region.next_comment hn, ih hu]

theorem uncomment_head_comment (h : cs.head? = some '#') :
    uncomment .code cs = uncomment .comment cs := by
  cases cs with
  | nil => cases h
  | cons c cs =>
    obtain rfl : c = '#' := by simpa using h
    rfl

theorem uncomment_merged (h : Merged u) :
    uncomment .comment u = List.replicate (u.count '\n') '\n' := by
  induction u with
  | nil => rfl
  | cons c u ih =>
    obtain ⟨hu, hc⟩ := merged_cons.1 h
    by_cases hn : c = '\n'
    · rw [hn, uncomment_keep (by simp), Region.next_comment_newline,
        uncomment_head_comment (hc hn), ih hu, List.count_cons_self, List.replicate_succ]
    · rw [uncomment_drop (Region.next_comment hn), ih hu, List.count_cons_of_ne hn]

theorem head_uncomment_comment (h : Region.comment.behind cs ≠ .comment) :
    (uncomment .comment cs).head? = some '\n' := by
  induction cs with
  | nil => exact absurd rfl h
  | cons c cs ih =>
    by_cases hn : c = '\n'
    · rw [hn, uncomment_keep (by simp)]
      rfl
    · rw [Region.behind_cons, Region.next_comment hn] at h
      rw [uncomment_drop (Region.next_comment hn), ih h]

theorem replaces_uncomment (h : Region.code.behind cs ≠ .comment) :
    Replaces (uncomment .code cs) cs := by
  cases cs with
  | nil => exact .inr rfl
  | cons c cs =>
    by_cases hm : Region.code.next c = .comment
    · rw [Region.behind_cons, hm] at h
      left
      intro d hd
      rw [uncomment_drop hm, head_uncomment_comment h] at hd
      obtain rfl : '\n' = d := by simpa using hd
      exact isBlank_newline
    · right
      rw [uncomment_keep hm]
      rfl

end Comments

/-- The same token, at the same place if it is no terminator. -/
structure Alike (t u : Token) : Prop where
  kind : t.kind = u.kind
  value : t.value = u.value
  position : t.isTerminator = false → t.position = u.position

theorem alike_lineBreak (continues : Bool) (before before' : List Char) :
    List.Forall₂ Alike (lineBreak continues before) (lineBreak continues before') := by
  cases continues with
  | true => exact .nil
  | false => exact .cons ⟨rfl, rfl, fun h => by cases h⟩ .nil

theorem outcome_newlines (continues : Bool) (before : List Char) (n : Nat) (cs : List Char) :
    outcome continues before (List.replicate n '\n' ++ '\n' :: cs) =
      (outcome true (before ++ List.replicate n '\n' ++ ['\n']) cs).after
        (lineBreak continues before) := by
  induction n generalizing continues before with
  | zero => simp [outcome_newline]
  | succ n ih =>
    rw [List.replicate_succ, List.cons_append, outcome_newline, ih, Outcome.after_after]
    simp [lineBreak]

/-- Without its comments a text gives the same tokens, also where it follows another text that ends
at the same place. -/
theorem outcome_uncomment {continues : Bool} {before before' text : List Char}
    (hp : Position.behind before = .behind before')
    (hf : (outcome continues before text).fails = false)
    (hc : Region.code.behind text ≠ .comment) :
    (outcome continues before' (uncomment .code text)).fails = false ∧
      List.Forall₂ Alike (outcome continues before text).tokens
        (outcome continues before' (uncomment .code text)).tokens := by
  fun_induction outcome continues before text generalizing before' with
  | case1 =>
    rw [uncomment_nil, outcome_nil]
    exact ⟨rfl, .nil⟩
  | case2 continues before cs ih =>
    have hn : Region.code.next '\n' = .code := rfl
    rw [Region.behind_cons, hn] at hc
    obtain ⟨hfails, htokens⟩ := ih (Position.behind_append_congr hp _) hf hc
    rw [uncomment_code hn, outcome_newline]
    exact ⟨hfails, List.rel_append (alike_lineBreak _ _ _) htokens⟩
  | case3 continues before cs hend =>
    have hm := behind_merged (commentEnd_eq_none.1 hend)
    exact absurd hm hc
  | case4 continues before cs u v hend lt _ ih =>
    obtain ⟨rfl, hm, -⟩ := commentEnd_sound hend
    have hmark : Region.code.next '#' = .comment := rfl
    have hrest : uncomment .code ('#' :: (u ++ '\n' :: v)) =
        List.replicate (u.count '\n') '\n' ++ '\n' :: uncomment .code v := by
      rw [uncomment_drop hmark, uncomment_append, uncomment_merged hm, behind_merged hm,
        uncomment_keep (by simp), Region.next_comment_newline]
    have hline : (Position.behind (before ++ '#' :: u)).line =
        (Position.behind (before' ++ List.replicate (u.count '\n') '\n')).line := by
      have hl := congrArg Position.line hp
      simp only [Position.behind] at hl ⊢
      simpa using hl
    rw [Region.behind_cons, hmark, Region.behind_append, behind_merged hm] at hc
    obtain ⟨hfails, htokens⟩ := ih (Position.behind_newline_congr hline) hf hc
    rw [hrest, outcome_newlines]
    exact ⟨hfails, List.rel_append (alike_lineBreak _ _ _) htokens⟩
  | case5 continues before c cs hn hm hblank ih =>
    have hnext := Region.next_code_of_isBlank hm hblank
    rw [Region.behind_cons, hnext] at hc
    rw [uncomment_code hnext, outcome_blank _ _ hn hm hblank]
    exact ih (Position.behind_append_congr hp _) hf hc
  | case6 => cases hf
  | case7 continues before c cs hn hm hblank kind value hd le ih =>
    have hcopied := copied_lexeme hm hd
    have htext : c :: cs = (c :: (tail c cs).1) ++ (tail c cs).2 := by simp [tail_append]
    rw [htext, Region.behind_append, hcopied.region] at hc
    have ht := tail_replace (replaces_uncomment hc) hd
    obtain ⟨hfails, htokens⟩ := ih (Position.behind_append_congr hp _) hf hc
    rw [htext, uncomment_append, hcopied.text, hcopied.region, List.cons_append,
      outcome_lexeme _ _ hm (by simpa using hblank) (by rw [ht]; exact hd), ht]
    exact ⟨hfails, .cons ⟨rfl, rfl, fun _ => hp⟩ htokens⟩

end Longest

open Longest

namespace Scanner

variable {σ₁ σ₂ : Type} [Source σ₁ Char InputError] [Source σ₂ Char InputError]

/-- A text that scans without error, and in which a newline ends every comment, scans without error
and to the same tokens when its comments are left out. Only terminators may stand elsewhere. -/
theorem run_uncomment {source : σ₁} {bare : σ₂} {text : List Char}
    (hd : Source.Delivers source text) (hb : Source.Delivers bare (uncomment .code text))
    (he : (ofSource source).run.2.error? = none) (hc : Region.code.behind text ≠ .comment) :
    (ofSource bare).run.2.error? = none ∧
      List.Forall₂ Alike (ofSource source).run.1 (ofSource bare).run.1 := by
  obtain ⟨ht, hf⟩ := run_outcome hd
  obtain ⟨hbt, hbf⟩ := run_outcome hb
  rw [he] at hf
  obtain ⟨hfails, htokens⟩ := outcome_uncomment rfl hf.symm hc
  rw [← hbf] at hfails
  exact ⟨by simpa using hfails, by rwa [ht, hbt]⟩

theorem run_uncomment_block :
    let text := "f(# one\n# two '\n1) # \"three\n'#' \"#\\\"\n\"# four\n".toList
    let rest := "f(\n\n1) \n'#' \"#\\\"\n\"\n".toList
    let source : Feed Char InputError := .ofList text
    let bare : Feed Char InputError := .ofList rest
    (ofSource source).run.2.error? = none ∧ Region.code.behind text ≠ .comment ∧
      uncomment .code text = rest ∧ (ofSource bare).run.2.error? = none ∧
      List.Forall₂ Alike (ofSource source).run.1 (ofSource bare).run.1 := by
  intro text rest source bare
  have he : (ofSource source).run.2.error? = none := by decide +kernel
  have hc : Region.code.behind text ≠ .comment := by decide
  have ht : uncomment .code text = rest := by decide
  have hb : Source.Delivers bare (uncomment .code text) := by
    rw [ht]
    exact Feed.delivers_ofList _
  exact ⟨he, hc, ht, run_uncomment (Feed.delivers_ofList _) hb he hc⟩

end Scanner

end ScriptFrontend
