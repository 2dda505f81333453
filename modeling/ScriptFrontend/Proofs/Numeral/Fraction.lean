import ScriptFrontend.Proofs.Token.First

set_option autoImplicit false

namespace ScriptFrontend

namespace Numeral

structure Fraction where
  whole : Run 10
  fraction : Run 10
  whole_ne : whole ≠ []

namespace Fraction

def text (l : Fraction) : List Char :=
  l.whole.text ++ '.' :: l.fraction.text

def plain (l : Fraction) : List Char :=
  l.whole.plain ++ '.' :: l.fraction.plain

theorem plain_eq (l : Fraction) : l.plain = l.text.filter (· != '_') := by
  have hw : l.whole.text.filter (· != '_') = l.whole.plain := plain_text (by decide) l.whole
  have hf : l.fraction.text.filter (· != '_') = l.fraction.plain :=
    plain_text (by decide) l.fraction
  rw [text, List.filter_append, List.filter_cons_of_pos (by decide), hw, hf, plain]

theorem value_plain (l : Fraction) :
    Numeral.value 10 l.plain = l.whole.value * 10 ^ l.fraction.length + l.fraction.value := by
  have hp : digit? 10 '.' = none := by decide
  have hf : Numeral.value 10 l.plain = Numeral.value 10 (Run.plain (l.whole ++ l.fraction)) := by
    simp [Numeral.value, Fraction.plain, Run.plain, List.filterMap_append, hp]
  rw [hf, value_run (by decide), Run.value_append]

theorem places_plain (l : Fraction) :
    (l.plain.dropWhile (· != '.')).tail.length = l.fraction.length := by
  have hw : ∀ c ∈ l.whole.plain, (c != '.') = true := by
    intro c hc
    obtain ⟨d, -, rfl⟩ := List.mem_map.1 hc
    have hd := digit?_char (show 10 ≤ 16 by decide) d.1
    rw [bne_iff_ne]
    intro hp
    rw [hp] at hd
    cases hd
  rw [Fraction.plain, List.dropWhile_append_of_pos hw]
  simp [Run.plain]

theorem nearest_plain (l : Fraction) :
    nearest l.plain = Float.ofScientific
      (l.whole.value * 10 ^ l.fraction.length + l.fraction.value) true l.fraction.length := by
  rw [nearest, l.value_plain, l.places_plain]

def stripped (l : Fraction) : Fraction where
  whole := l.whole.map fun d => (d.1, 0)
  fraction := l.fraction.map fun d => (d.1, 0)
  whole_ne := by simp [l.whole_ne]

end Fraction

theorem Run.text_stripped {base : Nat} (run : Run base) :
    Run.text (run.map fun d => (d.1, 0)) = run.plain := by
  induction run with
  | nil => rfl
  | cons d run ih =>
    rw [List.map_cons, Run.text_cons, ih]
    rfl

theorem Fraction.text_stripped (l : Fraction) : l.stripped.text = l.plain := by
  rw [Fraction.text, Fraction.stripped, Run.text_stripped, Run.text_stripped, Fraction.plain]

theorem stops_point (run : Run 10) (rest : List Char) : Stops 10 run ('.' :: rest) := by
  intro c hc
  obtain rfl : '.' = c := by simpa using hc
  exact ⟨by decide, fun _ => by decide⟩

theorem float_text (l : Fraction) : float l.text = .ok (nearest l.plain) := by
  have hw : digits 10 l.text = some (l.whole.text, '.' :: l.fraction.text) :=
    digits_text (by decide) l.whole_ne (stops_point l.whole l.fraction.text)
  by_cases hf : l.fraction = []
  · have hd : digits 10 ([] : List Char) = none := by simp [digits]
    simp [float, hw, hf, hd, plain_text, Fraction.plain]
  · have hd : digits 10 l.fraction.text = some (l.fraction.text, []) := by
      simpa using digits_text (by decide) hf (stops_nil l.fraction)
    simp [float, hw, hd, plain_text, Fraction.plain]

theorem exists_fraction {text : List Char} {x : Float} (h : float text = .ok x) :
    ∃ l : Fraction, l.text = text := by
  obtain ⟨whole, rest, rfl, -, hw⟩ := exists_run (show 10 ≤ 16 by decide) text
  by_cases hne : whole = []
  · rw [if_pos hne] at hw
    rw [float, hw] at h
    cases h
  rw [if_neg hne] at hw
  rw [float, hw] at h
  match rest with
  | [] => cases h
  | c :: rest =>
    by_cases hc : c = '.'
    case neg => simp [hc] at h
    subst hc
    obtain ⟨fraction, more, rfl, -, hf⟩ := exists_run (show 10 ≤ 16 by decide) rest
    simp only [hf] at h
    cases more with
    | nil => exact ⟨⟨whole, fraction, hne⟩, by rw [List.append_nil]; rfl⟩
    | cons d more => by_cases hfr : fraction = [] <;> simp [hfr] at h

theorem float_eq_ok_iff {text : List Char} {x : Float} :
    float text = .ok x ↔ ∃ l : Fraction, l.text = text ∧ x = nearest l.plain := by
  constructor
  · intro h
    obtain ⟨l, rfl⟩ := exists_fraction h
    rw [float_text, Except.ok.injEq] at h
    exact ⟨l, rfl, h.symm⟩
  · intro h
    obtain ⟨l, rfl, rfl⟩ := h
    exact float_text l

end Numeral

open Longest Numeral

variable {σ : Type} [Source σ Char InputError]

namespace Scanner

section Point

variable {s : Scanner σ} {continues : Bool} {before cs : List Char} {c : Char}

theorem decodeNumber_point (hp : '.' ∈ (numberTail cs).1) :
    decodeNumber (c :: (numberTail cs).1) =
      (float (c :: (numberTail cs).1)).map fun x => (.float, .float x) := by
  rw [decodeNumber, if_pos (by simp [hp])]

variable (hc : c.isDigit) (hp : '.' ∈ (numberTail cs).1)
  (hs : s.Stands continues before (c :: cs))

include hc hp hs

theorem yields_fraction {l : Fraction} (hl : l.text = c :: (numberTail cs).1) :
    s.Yields before l.text (numberTail cs).2 .float (.float (nearest l.plain)) := by
  have hd := decodeNumber_point (c := c) hp
  rw [← hl, float_text] at hd
  rw [hl]
  exact yields_number hc hs (by rw [← hl, hd]; rfl)

theorem refuses_fraction (hl : ¬∃ l : Fraction, l.text = c :: (numberTail cs).1) :
    ∃ reason, s.Refuses (.malformedNumber (String.ofList (c :: (numberTail cs).1)) reason) := by
  have hd := decodeNumber_point (c := c) hp
  cases hf : float (c :: (numberTail cs).1) with
  | ok x => exact absurd (exists_fraction hf) hl
  | error fault =>
    rw [hf] at hd
    exact ⟨_, refuses_number hc hs hd⟩

end Point

/-- A number with a point has a value if it is separated digits, a point, and separated digits or
nothing. It is that of the digits without the separators: they are one integer, divided by as many
tens as there are digits behind the point. Any other is refused. -/
theorem fractions_decode :
    (∀ (text : List Char) (x : Float), float text = .ok x ↔
      ∃ l : Fraction, l.text = text ∧ x = nearest l.plain) ∧
    (∀ l : Fraction, nearest l.plain = .ofScientific
      (l.whole.value * 10 ^ l.fraction.length + l.fraction.value) true l.fraction.length) ∧
    (∀ l : Fraction, l.plain = l.text.filter (· != '_')) ∧
    (∀ l : Fraction, float l.text = float l.plain) ∧
    (∀ l m : Fraction, l.text.filter (· != '_') = m.text.filter (· != '_') →
      float l.text = float m.text) ∧
    (∀ (s : Scanner σ) (continues : Bool) (before cs : List Char) (c : Char), c.isDigit →
      '.' ∈ (numberTail cs).1 → s.Stands continues before (c :: cs) →
        (∀ l : Fraction, l.text = c :: (numberTail cs).1 →
          s.Yields before l.text (numberTail cs).2 .float (.float (nearest l.plain))) ∧
        ((¬∃ l : Fraction, l.text = c :: (numberTail cs).1) →
          ∃ reason,
            s.Refuses (.malformedNumber (String.ofList (c :: (numberTail cs).1)) reason))) := by
  refine ⟨fun text x => float_eq_ok_iff, Fraction.nearest_plain, Fraction.plain_eq, ?plain, ?same,
    ?scan⟩
  case plain =>
    intro l
    have hl : l.stripped.plain = l.plain := by
      rw [Fraction.plain_eq, Fraction.text_stripped, Fraction.plain_eq, List.filter_filter]
      simp
    rw [← Fraction.text_stripped, float_text, float_text, hl]
  case same =>
    intro l m h
    rw [float_text, float_text, Fraction.plain_eq, Fraction.plain_eq, h]
  case scan =>
    intro s continues before cs c hc hp hs
    exact ⟨fun l hl => yields_fraction hc hp hs hl, refuses_fraction hc hp hs⟩

theorem fractions_decode_separated :
    (ofSource (.ofList "1_0__.5_x".toList : Feed Char InputError)).Yields [] "1_0__.5_".toList
        "x".toList .float (.float (.ofScientific 105 true 1)) ∧
      ∃ reason, (ofSource (.ofList "0x1.5".toList : Feed Char InputError)).Refuses
        (.malformedNumber "0x1.5" reason) := by
  have h := fractions_decode (σ := Feed Char InputError)
  have hu := stands_ofSource (Feed.delivers_ofList "1_0__.5_x".toList)
  have hx := stands_ofSource (Feed.delivers_ofList "0x1.5".toList)
  refine ⟨?_, (h.2.2.2.2.2 _ _ _ _ _ (by decide) (by decide) hx).2 ?_⟩
  · let l : Fraction := ⟨[(⟨1, false⟩, 1), (⟨0, false⟩, 2)], [(⟨5, false⟩, 1)], by simp⟩
    have hvalue : nearest l.plain = .ofScientific 105 true 1 := h.2.1 l
    exact hvalue ▸ (h.2.2.2.2.2 _ _ _ _ _ (by decide) (by decide) hu).1 l (by decide)
  · rintro ⟨l, hl⟩
    have hf : float "0x1.5".toList = .error (.unexpected "x1.5".toList) := by rfl
    cases hf.symm.trans ((h.1 _ _).2 ⟨l, hl, rfl⟩)

end Scanner

end ScriptFrontend
