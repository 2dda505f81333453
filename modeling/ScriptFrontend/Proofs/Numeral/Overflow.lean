import ScriptFrontend.Proofs.Decimal.Limit
import ScriptFrontend.Proofs.Numeral.Fraction
import ScriptFrontend.Proofs.Numeral.Integer
import ScriptFrontend.Proofs.Token.Woven

set_option autoImplicit false

namespace ScriptFrontend

namespace Numeral

namespace Fraction

def exactValue (l : Fraction) : ℚ :=
  l.whole.value + l.fraction.value / 10 ^ l.fraction.length

theorem exactValue_eq (l : Fraction) :
    l.exactValue = ((l.whole.value * 10 ^ l.fraction.length + l.fraction.value : Nat) : ℚ) /
      10 ^ l.fraction.length := by
  rw [exactValue]
  push_cast
  field_simp

theorem cast_limit : (Binary64.limit : ℚ) = 2 ^ 1024 - 2 ^ 970 := by
  have key : ∀ a b : ℕ, a ≤ b → ((2 ^ b - 2 ^ a : ℕ) : ℚ) = 2 ^ b - 2 ^ a := by
    intro a b h
    rw [Nat.cast_sub (Nat.pow_le_pow_right (by decide) h)]
    push_cast
    rfl
  exact key 970 1024 (by decide)

theorem exactValue_lt_iff (l : Fraction) :
    l.exactValue < 2 ^ 1024 - 2 ^ 970 ↔
      l.whole.value * 10 ^ l.fraction.length + l.fraction.value <
        Binary64.limit * 10 ^ l.fraction.length := by
  have hpos : (0 : ℚ) < 10 ^ l.fraction.length := by positivity
  rw [← cast_limit, exactValue_eq, div_lt_iff₀ hpos]
  exact_mod_cast Iff.rfl

theorem point_mem (l : Fraction) : '.' ∈ l.text := by
  simp [text]

theorem nearest_cases (l : Fraction) :
    (l.exactValue < 2 ^ 1024 - 2 ^ 970 ∧ (nearest l.plain).isFinite) ∨
      (2 ^ 1024 - 2 ^ 970 ≤ l.exactValue ∧ (nearest l.plain).isInf) := by
  rw [nearest_plain, ← not_lt, exactValue_lt_iff, not_lt]
  exact Binary64.ofScientific_cases _ _

theorem isFinite_nearest (l : Fraction) :
    (nearest l.plain).isFinite ↔ l.exactValue < 2 ^ 1024 - 2 ^ 970 := by
  obtain ⟨hlt, hf⟩ | ⟨hle, hi⟩ := l.nearest_cases
  · simp [hlt, hf]
  · simp [Binary64.not_isFinite_of_isInf hi, not_lt.2 hle]

theorem isInf_nearest (l : Fraction) :
    (nearest l.plain).isInf ↔ 2 ^ 1024 - 2 ^ 970 ≤ l.exactValue := by
  obtain ⟨hlt, hf⟩ | ⟨hle, hi⟩ := l.nearest_cases
  · have hi : ¬(nearest l.plain).isInf := fun hi => by
      rw [Binary64.not_isFinite_of_isInf hi] at hf
      cases hf
    exact iff_of_false hi (not_le.2 hlt)
  · simp [hle, hi]

end Fraction

theorem Whole.point_notMem (l : Whole) : '.' ∉ l.text := by
  obtain ⟨r, mark, hm, run⟩ := l
  rw [Whole.text, List.mem_append, not_or]
  constructor
  · have key : ∀ mark ∈ r.marks, '.' ∉ mark := by
      cases r <;> decide
    exact key mark hm
  · intro hp
    have hd := isDigitOrSeparator_text r.base_le run '.' hp
    revert hd
    cases r <;> decide

end Numeral

open Longest Numeral

theorem Longest.fraction_of_decode {c : Char} {used : List Char} {value : Value}
    (h : decode c used = some (.float, value)) :
    ∃ l : Fraction, l.text = c :: used ∧ value = .float (nearest l.plain) := by
  have hm := means_of_decode h
  generalize hk : Kind.float = kind at hm
  cases hm with
  | word hf =>
    unfold Lexeme.wordKind at hk
    split at hk <;> cases hk
  | string hf hu => cases hk
  | character hf hu => cases hk
  | sign hf hs => cases hk
  | number hf hn =>
    subst hk
    unfold decodeNumber at hn
    split at hn
    · cases hx : float (c :: used) with
      | error fault =>
        rw [hx] at hn
        cases hn
      | ok x =>
        obtain ⟨l, hl, rfl⟩ := float_eq_ok_iff.1 hx
        rw [hx] at hn
        cases hn
        exact ⟨l, hl, rfl⟩
    · cases hi : int (c :: used) <;> rw [hi] at hn <;> cases hn

variable {σ : Type} [Source σ Char InputError]

namespace Scanner

theorem refuses_whole {s : Scanner σ} {continues : Bool} {before cs : List Char} {c : Char}
    (hc : c.isDigit) (hs : s.Stands continues before (c :: cs)) {l : Whole} (hne : l.run ≠ [])
    (hv : bound ≤ l.run.value) (hl : l.text = c :: (numberTail cs).1) :
    s.Refuses (.malformedNumber (String.ofList l.text) Fault.tooLarge.message) := by
  have hd : decodeNumber l.text = .error .tooLarge := by
    rw [decodeNumber, if_neg l.point_notMem, int_text hne, if_neg (Nat.not_lt.2 hv)]
    rfl
  rw [hl] at hd ⊢
  exact refuses_number hc hs hd

theorem fraction_of_run {source : σ} {text : List Char} {t : Token}
    (hd : Source.Delivers source text) (ht : t ∈ (ofSource source).run.1) (hk : t.kind = .float) :
    ∃ (l : Fraction) (before rest : List Char), text = before ++ (l.text ++ rest) ∧
      t.position = .behind before ∧ t.value = .float (nearest l.plain) := by
  have hs := sound_lex text
  have htext := text_lex text
  rw [(run_ofSource hd).1] at ht
  obtain ⟨pre, k, post, hks, rfl⟩ := exists_chunk hs ht (by rw [Token.isTerminator, hk]; rfl)
  obtain ⟨c, used, hl, hdec⟩ := (hs k (by simp [hks])).decoded
  have hkind : k.kind = .float := hk
  rw [hkind] at hdec
  obtain ⟨l, hused, hv⟩ := fraction_of_decode hdec
  refine ⟨l, covered pre ++ k.gap, covered post ++ (lex text).ending.text, ?_, rfl, hv⟩
  rw [hused, ← hl]
  simpa [hks, covered_append] using htext.symm

/-- An integer that is too large is refused. A number with a point is given whatever its size: it is
finite below `2 ^ 1024 - 2 ^ 970`, and infinite from there on. Every number with a point that a scan
gives stands in the text and is one or the other in the same way. -/
theorem fractions_overflow :
    (∀ (s : Scanner σ) (continues : Bool) (before cs : List Char) (c : Char), c.isDigit →
      s.Stands continues before (c :: cs) →
        (∀ l : Whole, l.run ≠ [] → 2 ^ 63 - 1 < l.run.value → l.text = c :: (numberTail cs).1 →
          s.Refuses (.malformedNumber (String.ofList l.text)
            "number too large to fit in target type")) ∧
        (∀ l : Fraction, l.text = c :: (numberTail cs).1 → ∃ x : Float,
          s.Yields before l.text (numberTail cs).2 .float (.float x) ∧
            (x.isFinite ↔ l.exactValue < 2 ^ 1024 - 2 ^ 970) ∧
            (x.isInf ↔ 2 ^ 1024 - 2 ^ 970 ≤ l.exactValue))) ∧
    (∀ (source : σ) (text : List Char), Source.Delivers source text →
      ∀ t ∈ (ofSource source).run.1, t.kind = .float →
        ∃ (l : Fraction) (before rest : List Char) (x : Float),
          text = before ++ (l.text ++ rest) ∧ t.position = .behind before ∧ t.value = .float x ∧
            (x.isFinite ↔ l.exactValue < 2 ^ 1024 - 2 ^ 970) ∧
            (x.isInf ↔ 2 ^ 1024 - 2 ^ 970 ≤ l.exactValue)) := by
  have hbound : bound = 2 ^ 63 := by decide
  constructor
  · intro s continues before cs c hc hs
    constructor
    · intro l hne hv hl
      exact refuses_whole hc hs hne (by omega) hl
    · intro l hl
      have hp : '.' ∈ (numberTail cs).1 := by
        have hp : '.' ∈ c :: (numberTail cs).1 := hl ▸ l.point_mem
        exact (List.mem_cons.1 hp).resolve_left (ne_point_of_isDigit hc).symm
      exact ⟨_, yields_fraction hc hp hs hl, l.isFinite_nearest, l.isInf_nearest⟩
  · intro source text hd t ht hk
    obtain ⟨l, before, rest, htext, hplace, hv⟩ := fraction_of_run hd ht hk
    exact ⟨l, before, rest, _, htext, hplace, hv, l.isFinite_nearest, l.isInf_nearest⟩

theorem fractions_overflow_below :
    (ofSource (.ofList "0x8000000000000000".toList : Feed Char InputError)).Refuses
        (.malformedNumber "0x8000000000000000" "number too large to fit in target type") ∧
      (∃ x : Float, (ofSource (.ofList "2.5".toList : Feed Char InputError)).Yields []
        "2.5".toList [] .float (.float x) ∧ x.isFinite ∧ ¬x.isInf) ∧
      ∃ (l : Fraction) (before rest : List Char), "2.5".toList = before ++ (l.text ++ rest) ∧
        Position.behind before = ⟨1, 1⟩ ∧
          ((nearest "2.5".toList).isFinite ↔ l.exactValue < 2 ^ 1024 - 2 ^ 970) := by
  have h := fractions_overflow (σ := Feed Char InputError)
  have hx := stands_ofSource (Feed.delivers_ofList "0x8000000000000000".toList)
  have hs := stands_ofSource (Feed.delivers_ofList "2.5".toList)
  have hr : (ofSource (.ofList "2.5".toList : Feed Char InputError)).run.1 =
      [⟨⟨1, 1⟩, .float, .float (nearest "2.5".toList)⟩] := by
    decide +kernel
  refine ⟨?_, ?_, ?_⟩
  · exact (h.1 _ _ _ _ _ (by decide) hx).1
      ⟨.hexadecimal, ['0', 'x'], by decide,
        (⟨⟨8, by decide⟩, false⟩, 0) :: List.replicate 15 (⟨⟨0, by decide⟩, false⟩, 0)⟩
      (List.cons_ne_nil _ _) (by decide) (by decide)
  · let l : Fraction := ⟨[(⟨2, false⟩, 0)], [(⟨5, false⟩, 0)], List.cons_ne_nil _ _⟩
    have hlt : l.exactValue < 2 ^ 1024 - 2 ^ 970 := by
      rw [Fraction.exactValue_lt_iff]
      decide +kernel
    obtain ⟨x, hy, hf, hi⟩ := (h.1 _ _ _ _ _ (by decide) hs).2 l (by decide)
    exact ⟨x, hy, hf.2 hlt, fun hx => not_lt.2 (hi.1 hx) hlt⟩
  · obtain ⟨l, before, rest, x, htext, hplace, hv, hf, -⟩ :=
      h.2 _ _ (Feed.delivers_ofList "2.5".toList) _ (hr ▸ List.mem_singleton_self _) rfl
    obtain rfl : nearest "2.5".toList = x := Value.float.inj hv
    exact ⟨l, before, rest, htext, hplace.symm, hf⟩

/-- A number that is too large for any finite one is given, and nothing is reported. -/
theorem overflow_infinite :
    let text : List Char := '1' :: List.replicate 309 '0' ++ ['.']
    let source : Feed Char InputError := .ofList text
    (∃ l : Fraction, l.text = text ∧ 2 ^ 1024 - 2 ^ 970 ≤ l.exactValue) ∧
      (∃ x : Float, (ofSource source).run.1 = [⟨⟨1, 1⟩, .float, .float x⟩] ∧ x.isInf) ∧
      (ofSource source).run.2.error? = none := by
  refine ⟨?literal, ⟨.ofBits 0x7FF0000000000000, ?token, ?infinite⟩, ?silent⟩
  case literal =>
    let whole : Run 10 := (⟨1, false⟩, 0) :: List.replicate 309 (⟨0, false⟩, 0)
    refine ⟨⟨whole, [], List.cons_ne_nil _ _⟩, by decide +kernel, ?_⟩
    rw [← not_lt, Fraction.exactValue_lt_iff]
    decide +kernel
  case token => decide +kernel
  case infinite => decide +kernel
  case silent => decide +kernel

end Scanner

end ScriptFrontend
