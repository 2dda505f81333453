import Mathlib.Data.List.TakeWhile
import ScriptFrontend.Proofs.Token.Readers
import ScriptFrontend.Token.Scanner

/-! The value of a scanned token is of the sort that its kind calls for, whatever source it comes
from. -/

set_option autoImplicit false

namespace ScriptFrontend

/-- Where the reader succeeds, its result satisfies `P`. -/
def Gives {ε τ α : Type} (P : α → Prop) (x : EStateM ε τ α) : Prop :=
  ∀ ⦃s t : τ⦄ ⦃a : α⦄, x s = .ok a t → P a

namespace Gives

variable {ε τ α β : Type} {P : β → Prop}

theorem pure {b : β} (hb : P b) : Gives P (Pure.pure b : EStateM ε τ β) := by
  intro s t a ha
  simp only [Pure.pure, EStateM.pure, EStateM.Result.ok.injEq] at ha
  exact ha.1 ▸ hb

theorem bind_of {Q : α → Prop} {x : EStateM ε τ α} {f : α → EStateM ε τ β} (hx : Gives Q x)
    (hf : ∀ a, Q a → Gives P (f a)) : Gives P (x >>= f) := by
  intro s t b hb
  simp only [Bind.bind, EStateM.bind] at hb
  split at hb
  · rename_i ha
    exact hf _ (hx ha) hb
  · cases hb

theorem bind {x : EStateM ε τ α} {f : α → EStateM ε τ β} (hf : ∀ a, Gives P (f a)) :
    Gives P (x >>= f) :=
  bind_of (Q := fun _ => True) (fun _ _ _ _ => trivial) fun a _ => hf a

end Gives

/-- A letter or `_`, then letters, digits and `_`, with a `!` at the very end or none, and no
keyword. -/
structure IsIdentifier (text : String) : Prop where
  start : ∃ c ∈ text.toList.head?, Text.isAlphabetic c ∨ c = '_'
  parts : ∀ c ∈ text.toList, Text.isAlphanumeric c ∨ c = '_' ∨ c = '!'
  mark : '!' ∉ text.toList.dropLast
  free : ∀ word : Keyword, word.spelling ≠ text

/-- What a token of the kind may have for its value. -/
def Kind.Carries : Kind → Value → Prop
  | keyword word, v => v = .string word.spelling
  | symbol sign, v => v = .symbol sign.spelling
  | terminator, v => v = .symbol "\n"
  | ident, v => ∃ text, v = .string text ∧ IsIdentifier text
  | string, v => ∃ text, v = .string text
  | int, v => ∃ i, v = .int i ∧ 0 ≤ i
  | float, v => ∃ x, v = .float x

inductive Token.Agrees : Token → Prop where
  | keyword (p : Position) (word : Keyword) : Agrees ⟨p, .keyword word, .string word.spelling⟩
  | symbol (p : Position) (sign : Symbol) : Agrees ⟨p, .symbol sign, .symbol sign.spelling⟩
  | ident (p : Position) (text : String) : Agrees ⟨p, .ident, .string text⟩
  | string (p : Position) (text : String) : Agrees ⟨p, .string, .string text⟩
  | int (p : Position) (value : Int) : Agrees ⟨p, .int, .int value⟩
  | float (p : Position) (value : Float) : Agrees ⟨p, .float, .float value⟩
  | terminator (p : Position) : Agrees (.terminator p)

theorem Token.agrees_of_carries {t : Token} (h : t.kind.Carries t.value) : t.Agrees := by
  obtain ⟨p, kind, value⟩ := t
  cases kind with
  | keyword word =>
    obtain rfl := h
    exact .keyword p word
  | symbol sign =>
    obtain rfl := h
    exact .symbol p sign
  | terminator =>
    obtain rfl := h
    exact .terminator p
  | ident =>
    obtain ⟨text, rfl, -⟩ := h
    exact .ident p text
  | string =>
    obtain ⟨text, rfl⟩ := h
    exact .string p text
  | int =>
    obtain ⟨i, rfl, -⟩ := h
    exact .int p i
  | float =>
    obtain ⟨x, rfl⟩ := h
    exact .float p x

theorem gives_fail {σ α : Type} {P : α → Prop} (cause : LexCause) :
    Gives P (Head.fail cause : Lex σ α) := by
  intro h t a ha
  cases ha

open Longest

def Token.Fits (start : Position) (t : Token) : Prop :=
  t.position = start ∧ t.kind.Carries t.value

theorem Numeral.int_nonneg {text : List Char} {i : Int} (h : int text = .ok i) : 0 ≤ i := by
  unfold int at h
  repeat' split at h
  all_goals cases h
  exact Int.natCast_nonneg _

theorem Lexeme.fits_single {σ : Type} (start : Position) (first : Char) :
    Gives (Token.Fits start) (Lexeme.singleSign start first : Lex σ Token) := by
  unfold Lexeme.singleSign
  split
  · exact .pure ⟨rfl, rfl⟩
  · exact gives_fail _

namespace Lexeme

theorem isIdentifier_word {first : Char} {used : List Char}
    (hf : Text.isAlphabetic first || first == '_') (hu : wordTail used = (used, []))
    (hk : Keyword.ofSpelling? (String.ofList (first :: used)) = none) :
    IsIdentifier (String.ofList (first :: used)) := by
  have hmark : isWordPart '!' = false := by decide +kernel
  have hword : ∀ c ∈ first :: used.takeWhile isWordPart, isWordPart c := by
    refine List.forall_mem_cons.2 ⟨?_, fun c hc => List.mem_takeWhile_imp hc⟩
    simp only [isWordPart, Text.isAlphanumeric, Bool.or_eq_true] at hf ⊢
    tauto
  have hfree : '!' ∉ first :: used.takeWhile isWordPart := by
    intro hm
    rw [hword _ hm] at hmark
    cases hmark
  have hsplit : used.takeWhile isWordPart ++ used.dropWhile isWordPart = used :=
    List.takeWhile_append_dropWhile
  have hend : used.dropWhile isWordPart = [] ∨ used.dropWhile isWordPart = ['!'] := by
    simpa using wordTail_eq_self.1 hu
  refine ⟨⟨first, by simp, by simpa using hf⟩, ?parts, ?mark, ?free⟩
  case parts =>
    intro c hc
    have hc : c ∈ (first :: used.takeWhile isWordPart) ++ used.dropWhile isWordPart := by
      simpa [hsplit] using hc
    obtain hc | hc := List.mem_append.1 hc
    · have hp := hword c hc
      simp only [isWordPart, Bool.or_eq_true, beq_iff_eq] at hp
      tauto
    · obtain he | he := hend <;> simp_all
  case mark =>
    rw [String.toList_ofList, ← hsplit]
    obtain he | he := hend
    · rw [he, List.append_nil]
      exact fun hm => hfree ((List.dropLast_prefix _).mem hm)
    · rw [he, ← List.cons_append, List.dropLast_concat]
      exact hfree
  case free =>
    intro word hw
    have := List.find?_eq_none.1 hk word (by cases word <;> decide)
    simp [hw] at this

theorem carries_wordKind {first : Char} {used : List Char}
    (hf : Text.isAlphabetic first || first == '_') (hu : wordTail used = (used, [])) :
    (wordKind (String.ofList (first :: used))).Carries
      (.string (String.ofList (first :: used))) := by
  unfold wordKind
  split
  · rename_i word hw
    have hs : word.spelling = String.ofList (first :: used) := by simpa using List.find?_some hw
    rw [← hs]
    rfl
  · rename_i hw
    exact ⟨_, rfl, isIdentifier_word hf hu hw⟩

variable {σ : Type} [Source σ Char InputError]

theorem taken_munch {β : Type} (judge : β → Char → Verdict β) (state : β) (taken : List Char) :
    Gives (fun a => ∃ used, a.2 = taken.reverse ++ used ∧
      munched judge state used = (a.1, used, []))
      (munch judge state taken : Lex σ (β × List Char)) := by
  intro h t a hm
  fun_induction munch judge state taken h with
  | case1 => cases hm
  | case2 state taken =>
    cases hm
    exact ⟨[], by simp, rfl⟩
  | case3 state taken h c u hr _ next hj ih =>
    obtain ⟨used, htext, hu⟩ := ih hm
    exact ⟨c :: used, by simp [htext], by simp [munched, hj, hu]⟩
  | case4 state taken h c u hr _ hj =>
    cases hm
    exact ⟨[c], by simp, by simp [munched, hj]⟩
  | case5 state taken =>
    cases hm
    exact ⟨[], by simp, rfl⟩

theorem fits_word (start : Position) {first : Char}
    (hf : Text.isAlphabetic first || first == '_') :
    Gives (Token.Fits start) (word start first : Lex σ Token) := by
  refine (taken_munch judgeWord () [first]).bind_of fun a ha => ?_
  obtain ⟨_, text⟩ := a
  obtain ⟨used, rfl, hu⟩ := ha
  rw [munched_word, Prod.mk.injEq] at hu
  exact .pure ⟨rfl, carries_wordKind hf hu.2⟩

theorem fits_number (start : Position) (first : Char) :
    Gives (Token.Fits start) (number start first : Lex σ Token) := by
  refine .bind fun ⟨fraction, text⟩ => ?_
  dsimp only
  split
  · split
    · exact .pure ⟨rfl, _, rfl⟩
    · exact gives_fail _
  · split
    · rename_i hi
      exact .pure ⟨rfl, _, rfl, Numeral.int_nonneg hi⟩
    · exact gives_fail _

theorem fits_character (start : Position) :
    Gives (Token.Fits start) (character start : Lex σ Token) := by
  refine .bind fun p => ?_
  split
  · exact gives_fail _
  · exact gives_fail _
  · refine .bind fun c => ?_
    split
    · exact .pure ⟨rfl, _, rfl, Int.natCast_nonneg _⟩
    · exact gives_fail _
    · exact gives_fail _

theorem fits_sign (start : Position) (first : Char) :
    Gives (Token.Fits start) (sign start first : Lex σ Token) := by
  intro h t a ha
  unfold sign at ha
  split at ha
  · cases ha
  · exact fits_single _ _ ha
  · split at ha
    · cases ha
      exact ⟨rfl, rfl⟩
    · exact fits_single _ _ ha

theorem fits_read (start : Position) (first : Char) :
    Gives (Token.Fits start) (Lexeme.read start first : Lex σ Token) := by
  unfold Lexeme.read
  split
  · exact fits_word start ‹_›
  split
  · exact .bind fun _ => .pure ⟨rfl, _, rfl⟩
  split
  · exact fits_character start
  split
  · exact fits_number ..
  · exact fits_sign ..

end Lexeme

variable {σ : Type} [Source σ Char InputError]

theorem Token.carries_scan {continues : Bool} {h t : Head σ} {token : Token}
    (hs : scan continues h = .ok (some token) t) : token.kind.Carries token.value := by
  fun_induction scan continues h with
  | case1 | case2 | case5 | case11 => cases hs
  | case3 _ _ _ _ _ ih => exact ih hs
  | case4 | case7 =>
    cases hs
    rfl
  | case6 => rename_i ih; exact ih hs
  | case8 => rename_i ih; exact ih hs
  | case9 => rename_i ih; exact ih hs
  | case10 _ _ _ _ _ _ _ _ _ _ hl =>
    cases hs
    exact (Lexeme.fits_read _ _ hl).2

namespace Scanner

theorem carries_advance {s t : Scanner σ} (h : s.advance = (true, t)) :
    ∀ token ∈ t.current?, token.kind.Carries token.value := by
  intro token ht
  unfold advance at h
  split at h
  · split at h
    · rename_i hs
      cases h
      obtain rfl := Option.some.inj ht
      exact Token.carries_scan hs
    · cases h
    · cases h
  · cases h

theorem carries_go (s : Scanner σ) (earlier : List Token)
    (he : ∀ token ∈ earlier, token.kind.Carries token.value) :
    ∀ token ∈ (run.go s earlier).1, token.kind.Carries token.value := by
  fun_induction run.go s earlier with
  | case1 s earlier t h => simpa using he
  | case2 s earlier t h lt ih =>
    refine ih fun token ht => ?_
    obtain ht | ht := List.mem_append.1 ht
    · exact carries_advance h token (by simpa using ht)
    · exact he token ht

theorem carries_run (s : Scanner σ) : ∀ token ∈ s.run.1, token.kind.Carries token.value :=
  carries_go s [] (by simp)

theorem agrees_run (s : Scanner σ) : ∀ token ∈ s.run.1, token.Agrees :=
  fun token ht => Token.agrees_of_carries (carries_run s token ht)

end Scanner

end ScriptFrontend
