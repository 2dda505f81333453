import ScriptFrontend.Proofs.Token.First

set_option autoImplicit false

namespace ScriptFrontend

namespace Numeral

inductive Radix where
  | binary | octal | decimal | hexadecimal
deriving DecidableEq

namespace Radix

def base : Radix → Nat
  | binary => 2
  | octal => 8
  | decimal => 10
  | hexadecimal => 16

def marks : Radix → List (List Char)
  | binary => [['0', 'b'], ['0', 'B']]
  | octal => [['0', 'o'], ['0', 'O']]
  | decimal => [[]]
  | hexadecimal => [['0', 'x'], ['0', 'X']]

theorem base_le (r : Radix) : r.base ≤ 16 := by
  cases r <;> decide

theorem one_lt_base (r : Radix) : 1 < r.base := by
  cases r <;> decide

theorem base_injective {r q : Radix} (h : r.base = q.base) : r = q := by
  cases r <;> cases q <;> first | rfl | cases h

end Radix

/-- A mark and digits, which are the start of an integer literal or, where there are digits at all,
the literal as a whole. -/
structure Whole where
  radix : Radix
  mark : List Char
  named : mark ∈ radix.marks
  run : Run radix.base

def Whole.text (l : Whole) : List Char :=
  l.mark ++ l.run.text

theorem exists_radix (text : List Char) :
    ∃ (r : Radix) (mark body : List Char), mark ∈ r.marks ∧ text = mark ++ body ∧
      radix text = (r.base, body) := by
  unfold radix
  split
  · exact ⟨.hexadecimal, ['0', 'x'], _, by decide, rfl, rfl⟩
  · exact ⟨.hexadecimal, ['0', 'X'], _, by decide, rfl, rfl⟩
  · exact ⟨.octal, ['0', 'o'], _, by decide, rfl, rfl⟩
  · exact ⟨.octal, ['0', 'O'], _, by decide, rfl, rfl⟩
  · exact ⟨.binary, ['0', 'b'], _, by decide, rfl, rfl⟩
  · exact ⟨.binary, ['0', 'B'], _, by decide, rfl, rfl⟩
  · exact ⟨.decimal, [], text, by decide, rfl, rfl⟩

theorem radix_mark {r : Radix} {mark : List Char} (hr : r ≠ .decimal) (hm : mark ∈ r.marks)
    (body : List Char) : radix (mark ++ body) = (r.base, body) := by
  cases r with
  | decimal => exact absurd rfl hr
  | binary | octal | hexadecimal =>
    simp only [Radix.marks, List.mem_cons, List.not_mem_nil, or_false] at hm
    obtain rfl | rfl := hm <;> rfl

theorem exists_letter {r : Radix} {mark : List Char} (hr : r ≠ .decimal) (hm : mark ∈ r.marks) :
    ∃ letter, mark = ['0', letter] ∧ isDigitOrSeparator Radix.decimal.base letter = false := by
  cases r with
  | decimal => exact absurd rfl hr
  | binary | octal | hexadecimal =>
    simp only [Radix.marks, List.mem_cons, List.not_mem_nil, or_false] at hm
    obtain rfl | rfl := hm <;> exact ⟨_, rfl, by decide⟩

theorem length_lt_of_mark {r : Radix} {mark body after : List Char} {run : Run Radix.decimal.base}
    (hr : r ≠ .decimal) (hm : mark ∈ r.marks) (h : run.text ++ after = mark ++ body) :
    run.text.length < mark.length := by
  obtain ⟨letter, rfl, hletter⟩ := exists_letter hr hm
  have hd := isDigitOrSeparator_text Radix.decimal.base_le run
  match ht : run.text with
  | [] | [_] => simp
  | a :: b :: more =>
    rw [ht] at h hd
    simp only [List.cons_append, List.cons.injEq] at h
    rw [← h.2.1, hd b (by simp)] at hletter
    cases hletter

theorem eq_nil_of_decimal {mark : List Char} (hm : mark ∈ Radix.decimal.marks) : mark = [] := by
  simpa [Radix.marks] using hm

theorem radix_text (l : Whole) : radix l.text = (l.radix.base, l.run.text) := by
  obtain ⟨q, m, hq, run⟩ := l
  cases q with
  | binary | octal | hexadecimal => exact radix_mark (by decide) hq _
  | decimal =>
    obtain rfl := eq_nil_of_decimal hq
    obtain ⟨r, mark, body, hm, ht, hradix⟩ := exists_radix run.text
    by_cases hr : r = .decimal
    · subst hr
      obtain rfl := eq_nil_of_decimal hm
      rw [List.nil_append] at ht
      rwa [← ht] at hradix
    · have hstart : run.text ++ [] = mark ++ body := by rwa [List.append_nil]
      have hlt := length_lt_of_mark hr hm hstart
      rw [ht, List.length_append] at hlt
      omega

theorem starts_alike {r : Radix} {mark body after : List Char} {other : Whole}
    (hm : mark ∈ r.marks) (hradix : radix (mark ++ body) = (r.base, body))
    (h : other.text ++ after = mark ++ body) :
    other.text.length < mark.length ∨ ∃ run : Run r.base, other.text = mark ++ run.text := by
  obtain ⟨q, m, hq, run⟩ := other
  by_cases hd : q = .decimal
  · subst hd
    obtain rfl := eq_nil_of_decimal hq
    by_cases hr : r = .decimal
    · subst hr
      obtain rfl := eq_nil_of_decimal hm
      exact .inr ⟨run, rfl⟩
    · exact .inl (length_lt_of_mark hr hm h)
  · have hsame : radix (m ++ (run.text ++ after)) = (q.base, run.text ++ after) :=
      radix_mark hd hq _
    have htext : m ++ (run.text ++ after) = mark ++ body := by
      rw [← h, Whole.text, List.append_assoc]
    rw [htext, hradix, Prod.mk.injEq] at hsame
    obtain ⟨hb, rfl⟩ := hsame
    obtain rfl := Radix.base_injective hb
    rw [List.append_cancel_right_eq] at htext
    subst htext
    exact .inr ⟨run, rfl⟩

theorem int_text {l : Whole} (hne : l.run ≠ []) :
    int l.text = if l.run.value < bound then .ok l.run.value else .error .tooLarge := by
  have hd : digits l.radix.base l.run.text = some (l.run.text, []) := by
    simpa using digits_text l.radix.base_le hne (stops_nil l.run)
  simp [int, radix_text, hd, value_text l.radix.base_le]

/-- Every text starts like a literal, and is read as far as that goes. -/
theorem exists_whole (text : List Char) :
    ∃ (l : Whole) (rest : List Char), text = l.text ++ rest ∧
      (∀ (other : Whole) (after : List Char), text = other.text ++ after →
        other.text.length ≤ l.text.length) ∧
      (l.run ≠ [] ∧ rest = [] ∨ int text = .error (.unused rest)) := by
  obtain ⟨r, mark, body, hm, rfl, hradix⟩ := exists_radix text
  obtain ⟨run, rest, rfl, hstops, hd⟩ := exists_run r.base_le body
  refine ⟨⟨r, mark, hm, run⟩, rest, (List.append_assoc ..).symm, ?_, ?_⟩
  · intro other after h
    show other.text.length ≤ (mark ++ run.text).length
    rw [List.length_append]
    obtain hlt | ⟨more, hmore⟩ := starts_alike hm hradix h.symm
    · omega
    · rw [hmore, List.append_assoc, List.append_cancel_left_eq] at h
      have hle := (prefix_of_stops r.base_le hstops h.symm).length_le
      rw [hmore, List.length_append]
      omega
  · rw [int, hradix]
    dsimp only
    rw [hd]
    by_cases hrun : run = []
    · exact .inr (by simp [hrun])
    · cases rest with
      | nil => exact .inl ⟨hrun, rfl⟩
      | cons c cs => exact .inr (by simp [hrun])

section Rendering

variable {base : Nat} {text : List Char}

theorem value_append_digit {c : Char} {v : Nat} (hc : digit? base c = some v) :
    value base (text ++ [c]) = base * value base text + v := by
  simp [value, hc]

theorem digit?_digitChar (hb : base ≤ 16) {v : Nat} (hv : v < base) :
    digit? base (Nat.digitChar v) = some v :=
  digit?_char hb ⟨⟨v, hv⟩, false⟩

theorem value_toDigits (hl : 1 < base) (hb : base ≤ 16) (n : Nat) :
    value base (Nat.toDigits base n) = n := by
  induction n using Nat.strongRecOn with
  | ind n ih =>
    by_cases hn : n < base
    · rw [Nat.toDigits_of_lt_base hn]
      simp [value, digit?_digitChar hb hn]
    · have hlt : n / base < n := Nat.div_lt_self (by omega) hl
      have hmod : n % base < base := Nat.mod_lt n (by omega)
      rw [Nat.toDigits_of_base_le hl (by omega), value_append_digit (digit?_digitChar hb hmod),
        ih _ hlt, Nat.div_add_mod]

theorem isDigit_toDigits (hl : 1 < base) (hb : base ≤ 16) (n : Nat) :
    ∀ c ∈ Nat.toDigits base n, isDigit base c := by
  induction n using Nat.strongRecOn with
  | ind n ih =>
    intro c hc
    by_cases hn : n < base
    · rw [Nat.toDigits_of_lt_base hn, List.mem_singleton] at hc
      simp [hc, isDigit, digit?_digitChar hb hn]
    · have hlt : n / base < n := Nat.div_lt_self (by omega) hl
      have hmod : n % base < base := Nat.mod_lt n (by omega)
      rw [Nat.toDigits_of_base_le hl (by omega), List.mem_append, List.mem_singleton] at hc
      obtain hc | rfl := hc
      · exact ih _ hlt c hc
      · simp [isDigit, digit?_digitChar hb hmod]

theorem digit?_toLower (hb : base ≤ 16) (c : Char) : digit? base c.toLower = digit? base c := by
  by_cases hc : c.val ≥ 'A'.val ∧ c.val ≤ 'Z'.val
  · have hn : c.toNat ∈ List.range' 65 26 := by
      have hval : c.toNat = c.val.toNat := rfl
      have hlow : 'A'.val.toNat = 65 := rfl
      have hhigh : 'Z'.val.toNat = 90 := rfl
      simp only [ge_iff_le, UInt32.le_iff_toNat_le] at hc
      rw [List.mem_range'_1]
      omega
    have key : ∀ n ∈ List.range' 65 26,
        digit? 16 (Char.ofNat n).toLower = digit? 16 (Char.ofNat n) := by
      decide +kernel
    have hlower := key c.toNat hn
    rw [Char.ofNat_toNat] at hlower
    rw [digit?_eq_filter hb, hlower, ← digit?_eq_filter hb]
  · exact congrArg (digit? base) (dif_neg hc)

theorem value_toLower (hb : base ≤ 16) (text : List Char) :
    value base (text.map Char.toLower) = value base text := by
  have key : digit? base ∘ Char.toLower = digit? base := funext (digit?_toLower hb)
  rw [value, List.filterMap_map, key]
  rfl

theorem value_zeros (hl : 1 < base) (zeros : Nat) (text : List Char) :
    value base (List.replicate zeros '0' ++ text) = value base text := by
  have hz : digit? base '0' = some 0 := by
    simp [digit?]
    omega
  induction zeros with
  | zero => rfl
  | succ zeros ih =>
    rw [← ih, List.replicate_succ, List.cons_append, value, List.filterMap_cons_some hz]
    rfl

theorem int_separated {r : Radix} {mark text : List Char} (hm : mark ∈ r.marks) (hne : text ≠ [])
    (hh : text.head? ≠ some '_') (hd : ∀ c ∈ text, isDigitOrSeparator r.base c)
    (hv : value r.base text < bound) : int (mark ++ text) = .ok (value r.base text) := by
  obtain ⟨k, run, rfl⟩ := exists_separated r.base_le hd
  obtain rfl : k = 0 := by
    cases k with
    | zero => rfl
    | succ k => simp [List.replicate_succ] at hh
  rw [List.replicate_zero, List.nil_append] at hne hv ⊢
  have hrun : run ≠ [] := by
    rintro rfl
    exact hne rfl
  have hi : int (mark ++ run.text) = _ := int_text (l := ⟨r, mark, hm, run⟩) hrun
  rw [value_text r.base_le] at hv ⊢
  rw [hi, if_pos hv]

theorem int_toDigits {r : Radix} {mark : List Char} {n : Nat} (hm : mark ∈ r.marks)
    (hn : n < bound) : int (mark ++ Nat.toDigits r.base n) = .ok n := by
  have hd := isDigit_toDigits r.one_lt_base r.base_le n
  have hv := value_toDigits r.one_lt_base r.base_le n
  have hh : (Nat.toDigits r.base n).head? ≠ some '_' := by
    intro hh
    have hu := hd '_' (List.mem_of_head? hh)
    simp [isDigit, digit?_separator] at hu
  have hs : ∀ c ∈ Nat.toDigits r.base n, isDigitOrSeparator r.base c := fun c hc => by
    simp [isDigitOrSeparator, hd c hc]
  rw [int_separated hm Nat.toDigits_ne_nil hh hs (hv.symm ▸ hn), hv]

/-- A rendered number is read back in every radix, whatever the case of its letters and with any
zeros before it and any separators in it. -/
theorem int_render {r : Radix} {mark text : List Char} {n zeros : Nat} (hm : mark ∈ r.marks)
    (hn : n < bound) (hh : text.head? ≠ some '_')
    (ht : (plain text).map Char.toLower = List.replicate zeros '0' ++ Nat.toDigits r.base n) :
    int (mark ++ text) = .ok n := by
  have hl := r.one_lt_base
  have hv : value r.base text = n := by
    rw [← value_plain, ← value_toLower r.base_le, ht, value_zeros hl, value_toDigits hl r.base_le]
  have hne : text ≠ [] := by
    rintro rfl
    simp [plain, Nat.toDigits_ne_nil] at ht
  have hd : ∀ c ∈ text, isDigitOrSeparator r.base c := by
    intro c hc
    by_cases hu : c = '_'
    · simp [isDigitOrSeparator, hu]
    have hm : c.toLower ∈ (plain text).map Char.toLower :=
      List.mem_map_of_mem (List.mem_filter.2 ⟨hc, by simpa using hu⟩)
    rw [ht, List.mem_append, List.mem_replicate] at hm
    have hdigit : isDigit r.base c.toLower := by
      obtain ⟨-, hz⟩ | hm := hm
      · rw [hz]
        cases r <;> decide
      · exact isDigit_toDigits hl r.base_le n _ hm
    rw [isDigit, digit?_toLower r.base_le] at hdigit
    simp [isDigitOrSeparator, isDigit, hdigit]
  rw [int_separated hm hne hh hd (hv.symm ▸ hn), hv]

end Rendering

theorem int_eq_ok_iff {text : List Char} {v : Int} :
    int text = .ok v ↔
      ∃ l : Whole, l.run ≠ [] ∧ l.text = text ∧ l.run.value < bound ∧ v = l.run.value := by
  constructor
  · intro h
    obtain ⟨l, rest, rfl, -, ⟨hne, rfl⟩ | hf⟩ := exists_whole text
    · rw [List.append_nil] at h
      rw [int_text hne] at h
      split at h
      · rename_i hlt
        exact ⟨l, hne, (List.append_nil _).symm, hlt, (Except.ok.inj h).symm⟩
      · cases h
    · rw [hf] at h
      cases h
  · intro h
    obtain ⟨l, hne, rfl, hlt, rfl⟩ := h
    rw [int_text hne, if_pos hlt]

theorem int_of_not_whole {text : List Char} (h : ¬∃ l : Whole, l.run ≠ [] ∧ l.text = text) :
    ∃ (l : Whole) (rest : List Char), text = l.text ++ rest ∧
      (∀ (other : Whole) (after : List Char), text = other.text ++ after →
        other.text.length ≤ l.text.length) ∧
      int text = .error (.unused rest) := by
  obtain ⟨l, rest, ht, hlongest, ⟨hne, rfl⟩ | hf⟩ := exists_whole text
  · exact absurd ⟨l, hne, by rw [ht, List.append_nil]⟩ h
  · exact ⟨l, rest, ht, hlongest, hf⟩

theorem Fault.message_unused (rest : List Char) :
    (unused rest).message =
      if rest = [] then "expected more digits"
      else "unexpected " ++ Text.quoted (String.ofList rest) := by
  cases rest <;> rfl

end Numeral

open Longest Numeral

variable {σ : Type} [Source σ Char InputError]

/-- A number without a point stands for its digits if it is an integer literal below `2 ^ 63`. Any
other is refused, for its size or for what stands behind the longest start of a literal. -/
theorem Scanner.integers_decode :
    (∀ (text : List Char) (v : Int), int text = .ok v ↔
      ∃ l : Whole, l.run ≠ [] ∧ l.text = text ∧ l.run.value ≤ 2 ^ 63 - 1 ∧ v = l.run.value) ∧
    (∀ l : Whole, l.run ≠ [] → 2 ^ 63 - 1 < l.run.value →
      (int l.text).mapError Fault.message = .error "number too large to fit in target type") ∧
    (∀ text : List Char, (¬∃ l : Whole, l.run ≠ [] ∧ l.text = text) →
      ∃ (l : Whole) (rest : List Char), text = l.text ++ rest ∧
        (∀ (other : Whole) (after : List Char), text = other.text ++ after →
          other.text.length ≤ l.text.length) ∧
        (int text).mapError Fault.message =
          .error (if rest = [] then "expected more digits"
            else "unexpected " ++ Text.quoted (String.ofList rest))) ∧
    (∀ (s : Scanner σ) (continues : Bool) (before cs : List Char) (c : Char), c.isDigit →
      '.' ∉ (numberTail cs).1 → s.Stands continues before (c :: cs) →
        (∀ v, int (c :: (numberTail cs).1) = .ok v →
          s.Yields before (c :: (numberTail cs).1) (numberTail cs).2 .int (.int v)) ∧
        (∀ reason, (int (c :: (numberTail cs).1)).mapError Fault.message = .error reason →
          s.Refuses (.malformedNumber (String.ofList (c :: (numberTail cs).1)) reason))) ∧
    (∀ (r : Radix) (mark text : List Char) (n zeros : Nat), mark ∈ r.marks → n < 2 ^ 63 →
      text.head? ≠ some '_' →
      (plain text).map Char.toLower = List.replicate zeros '0' ++ Nat.toDigits r.base n →
      int (mark ++ text) = .ok n) := by
  have hbound : bound = 2 ^ 63 := by decide
  refine ⟨?value, ?overflow, ?malformed, ?scan, ?render⟩
  case value =>
    intro text v
    rw [int_eq_ok_iff, hbound]
    simp only [Nat.lt_iff_le_pred (show 0 < 2 ^ 63 by decide)]
  case overflow =>
    intro l hne hlt
    rw [int_text hne, if_neg (by omega)]
    rfl
  case malformed =>
    intro text h
    obtain ⟨l, rest, ht, hlongest, hf⟩ := int_of_not_whole h
    refine ⟨l, rest, ht, hlongest, ?_⟩
    rw [hf, ← Fault.message_unused]
    rfl
  case scan =>
    intro s continues before cs c hc hp hs
    have hd : decodeNumber (c :: (numberTail cs).1) =
        (int (c :: (numberTail cs).1)).map fun i => (.int, .int i) := by
      have hne : c ≠ '.' := ne_point_of_isDigit hc
      rw [decodeNumber, if_neg (by simp [hp, hne.symm])]
    constructor
    · intro v hv
      exact yields_number hc hs (by rw [hd, hv]; rfl)
    · intro reason hr
      cases hi : int (c :: (numberTail cs).1) with
      | ok v =>
        rw [hi] at hr
        cases hr
      | error fault =>
        rw [hi] at hr
        cases hr
        exact refuses_number hc hs (by rw [hd, hi]; rfl)
  case render =>
    intro r mark text n zeros hm hn hh ht
    exact int_render hm (hbound ▸ hn) hh ht

theorem Scanner.integers_decode_marked :
    (ofSource (.ofList "0X1_f+2".toList : Feed Char InputError)).Yields []
        "0X1_f".toList "+2".toList .int (.int 31) ∧
      (ofSource (.ofList "0b12".toList : Feed Char InputError)).Refuses
        (.malformedNumber "0b12" "unexpected \"2\"") ∧
      int "0o0_17_".toList = .ok 15 := by
  have h := integers_decode (σ := Feed Char InputError)
  have hx := stands_ofSource (Feed.delivers_ofList "0X1_f+2".toList)
  have hb := stands_ofSource (Feed.delivers_ofList "0b12".toList)
  refine ⟨?_, ?_, ?_⟩
  · exact (h.2.2.2.1 _ _ _ _ _ (by decide) (by decide) hx).1 31 (by rfl)
  · exact (h.2.2.2.1 _ _ _ _ _ (by decide) (by decide) hb).2 _ (by rfl)
  · exact h.2.2.2.2 .octal ['0', 'o'] "0_17_".toList 15 1 (by decide) (by decide) (by decide)
      (by decide)

end ScriptFrontend
