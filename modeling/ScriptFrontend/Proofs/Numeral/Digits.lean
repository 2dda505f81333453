import Mathlib.Data.List.TakeDrop
import Mathlib.Data.List.TakeWhile
import Mathlib.Data.Nat.Digits.Defs
import ScriptFrontend.Token.Numeral

set_option autoImplicit false

namespace ScriptFrontend.Numeral

structure Digit (base : Nat) where
  value : Fin base
  capital : Bool
deriving DecidableEq

def Digit.char {base : Nat} (d : Digit base) : Char :=
  if d.capital then (Nat.digitChar d.value).toUpper else Nat.digitChar d.value

/-- Digits, and how many separators there are behind each of them. -/
abbrev Run (base : Nat) :=
  List (Digit base × Nat)

namespace Run

variable {base : Nat}

def text (run : Run base) : List Char :=
  run.flatMap fun d => d.1.char :: List.replicate d.2 '_'

def plain (run : Run base) : List Char :=
  run.map (·.1.char)

def value (run : Run base) : Nat :=
  Nat.ofDigits base (run.map (·.1.value.val)).reverse

@[simp] theorem text_nil : text ([] : Run base) = [] := rfl

theorem text_cons (d : Digit base × Nat) (run : Run base) :
    text (d :: run) = d.1.char :: (List.replicate d.2 '_' ++ text run) := by
  simp [text]

@[simp] theorem plain_nil : plain ([] : Run base) = [] := rfl

@[simp] theorem plain_cons (d : Digit base × Nat) (run : Run base) :
    plain (d :: run) = d.1.char :: plain run := rfl

theorem text_ne_nil {run : Run base} (h : run ≠ []) : run.text ≠ [] := by
  cases run with
  | nil => exact absurd rfl h
  | cons d run => simp [text_cons]

theorem value_append (a b : Run base) :
    value (a ++ b) = a.value * base ^ b.length + b.value := by
  rw [value, List.map_append, List.reverse_append, Nat.ofDigits_append, List.length_reverse,
    List.length_map, Nat.add_comm, Nat.mul_comm]
  rfl

end Run

section Digit

variable {base v : Nat} {c : Char}

theorem digit?_eq_filter (hb : base ≤ 16) : digit? base c = (digit? 16 c).filter (· < base) := by
  simp only [digit?, Option.filter_filter]
  congr 1
  funext v
  simp only [Bool.and_eq_decide]
  simp
  omega

theorem of_isDigit {P : Char → Prop} (hp : ∀ n ∈ List.range' 48 10, P (Char.ofNat n)) {c : Char}
    (h : c.isDigit) : P c := by
  have hn : c.toNat ∈ List.range' 48 10 := by
    simp only [Char.isDigit, Bool.and_eq_true, decide_eq_true_eq, ge_iff_le,
      UInt32.le_iff_toNat_le] at h
    have hval : c.toNat = c.val.toNat := rfl
    have hlow : '0'.val.toNat = 48 := rfl
    have hhigh : '9'.val.toNat = 57 := rfl
    rw [List.mem_range'_1]
    omega
  have hc := hp c.toNat hn
  rwa [Char.ofNat_toNat] at hc

theorem of_digit? {P : Char → Nat → Prop}
    (hp : ∀ n < 128, ∀ v ∈ digit? 16 (Char.ofNat n), P (Char.ofNat n) v)
    (h : digit? 16 c = some v) : P c v := by
  have hn : c.toNat < 128 := by
    have hval : c.toNat = c.val.toNat := rfl
    simp only [digit?, Char.isDigit, Char.le_def, UInt32.le_iff_toNat_le, Option.filter_eq_some_iff,
      Bool.and_eq_true, decide_eq_true_eq, ge_iff_le] at h
    obtain ⟨h, -⟩ := h
    split at h
    · have : '9'.val.toNat = 57 := rfl
      omega
    split at h
    · have : 'f'.val.toNat = 102 := rfl
      omega
    split at h
    · have : 'F'.val.toNat = 70 := rfl
      omega
    · cases h
  have hc := hp c.toNat hn
  rw [Char.ofNat_toNat] at hc
  exact hc v h

theorem digit?_char (hb : base ≤ 16) (d : Digit base) : digit? base d.char = some d.value.val := by
  have key : ∀ v < 16, ∀ capital : Bool,
      digit? 16 (if capital then (Nat.digitChar v).toUpper else Nat.digitChar v) = some v := by
    decide
  rw [digit?_eq_filter hb, Digit.char, key _ (by omega)]
  simp

theorem exists_digit (hb : base ≤ 16) (h : digit? base c = some v) :
    ∃ d : Digit base, d.char = c ∧ d.value.val = v := by
  rw [digit?_eq_filter hb, Option.filter_eq_some_iff, decide_eq_true_eq] at h
  obtain ⟨h, hv⟩ := h
  have key : ∃ capital : Bool,
      (if capital then (Nat.digitChar v).toUpper else Nat.digitChar v) = c :=
    of_digit? (P := fun c v => ∃ capital : Bool,
      (if capital then (Nat.digitChar v).toUpper else Nat.digitChar v) = c) (by decide +kernel) h
  obtain ⟨capital, hc⟩ := key
  exact ⟨⟨⟨v, hv⟩, capital⟩, hc, rfl⟩

end Digit

section Run

variable {base : Nat} {text rest : List Char}

theorem digit?_separator (base : Nat) : digit? base '_' = none := by
  simp [digit?]

theorem isDigit_char (hb : base ≤ 16) (d : Digit base) : isDigit base d.char := by
  simp [isDigit, digit?_char hb]

theorem char_ne_separator (hb : base ≤ 16) (d : Digit base) : d.char ≠ '_' := by
  intro h
  have hd := digit?_char hb d
  rw [h, digit?_separator] at hd
  cases hd

theorem isDigitOrSeparator_text (hb : base ≤ 16) (run : Run base) :
    ∀ c ∈ run.text, isDigitOrSeparator base c := by
  induction run with
  | nil => simp
  | cons d run ih =>
    intro c hc
    rw [Run.text_cons, List.mem_cons, List.mem_append, List.mem_replicate] at hc
    obtain rfl | ⟨-, rfl⟩ | hc := hc
    · simp [isDigitOrSeparator, isDigit_char hb]
    · simp [isDigitOrSeparator]
    · exact ih c hc

theorem exists_separated (hb : base ≤ 16) (h : ∀ c ∈ text, isDigitOrSeparator base c) :
    ∃ (n : Nat) (run : Run base), text = List.replicate n '_' ++ run.text := by
  induction text with
  | nil => exact ⟨0, [], rfl⟩
  | cons c cs ih =>
    obtain ⟨n, run, rfl⟩ := ih fun d hd => h d (.tail _ hd)
    have hc := h c (.head _)
    simp only [isDigitOrSeparator, isDigit, Bool.or_eq_true, beq_iff_eq,
      Option.isSome_iff_exists] at hc
    obtain ⟨v, hv⟩ | rfl := hc
    · obtain ⟨d, rfl, -⟩ := exists_digit hb hv
      exact ⟨0, (d, n) :: run, by rw [Run.text_cons]; rfl⟩
    · exact ⟨n + 1, run, by rw [List.replicate_succ]; rfl⟩

/-- The text goes on with nothing that would belong to a run before it. -/
def Stops (base : Nat) (run : Run base) (rest : List Char) : Prop :=
  ∀ c ∈ rest.head?, isDigit base c = false ∧ (run ≠ [] → c ≠ '_')

/-- At the start of every text there is a longest run of digits, and it is what is read there. -/
theorem exists_run (hb : base ≤ 16) (text : List Char) :
    ∃ (run : Run base) (rest : List Char), text = run.text ++ rest ∧ Stops base run rest ∧
      digits base text = if run = [] then none else some (run.text, rest) := by
  cases text with
  | nil => exact ⟨[], [], rfl, by simp [Stops], by simp [digits]⟩
  | cons c cs =>
    cases hv : digit? base c with
    | none =>
      have hc : isDigit base c = false := by simp [isDigit, hv]
      exact ⟨[], c :: cs, rfl, by simpa [Stops] using hc, by simp [digits, hc]⟩
    | some v =>
      have hc : isDigit base c := by simp [isDigit, hv]
      have hs : isDigitOrSeparator base c := by simp [isDigitOrSeparator, hc]
      obtain ⟨d, rfl, -⟩ := exists_digit hb hv
      have hall : ∀ c ∈ cs.takeWhile (isDigitOrSeparator base), isDigitOrSeparator base c :=
        fun c hc => List.mem_takeWhile_imp hc
      obtain ⟨n, run, hrun⟩ := exists_separated hb hall
      have htext : Run.text ((d, n) :: run) = d.char :: cs.takeWhile (isDigitOrSeparator base) := by
        rw [hrun, Run.text_cons]
      refine ⟨(d, n) :: run, cs.dropWhile (isDigitOrSeparator base), ?_, ?_, ?_⟩
      · rw [htext, List.cons_append, List.takeWhile_append_dropWhile]
      · intro c hc
        have hn := List.head?_dropWhile_not (isDigitOrSeparator base) cs
        rw [Option.mem_def.1 hc] at hn
        simpa [isDigitOrSeparator, or_comm] using hn
      · simp [digits, hc, hs, htext, List.span_eq_takeWhile_dropWhile]

theorem prefix_of_stops (hb : base ≤ 16) {run other : Run base} {after : List Char}
    (hs : Stops base run rest) (h : other.text ++ after = run.text ++ rest) :
    other.text <+: run.text := by
  obtain hp | hp := List.prefix_or_prefix_of_prefix (List.prefix_append other.text after)
    (h ▸ List.prefix_append run.text rest)
  · exact hp
  obtain ⟨more, hm⟩ := hp
  cases more with
  | nil => exact (List.append_nil run.text ▸ hm) ▸ List.prefix_refl _
  | cons c more =>
    have hr : rest = c :: (more ++ after) := by
      rw [← hm, List.append_assoc, List.append_cancel_left_eq] at h
      exact h.symm
    obtain ⟨hd, hsep⟩ := hs c (by rw [hr]; rfl)
    have hc : isDigitOrSeparator base c := isDigitOrSeparator_text hb other c (by simp [← hm])
    rw [isDigitOrSeparator, hd, Bool.false_or, beq_iff_eq] at hc
    by_cases hrun : run = []
    · subst hrun
      cases other with
      | nil => cases hm
      | cons d other =>
        rw [Run.text_nil, List.nil_append, Run.text_cons, List.cons.injEq] at hm
        rw [hm.1, isDigit_char hb] at hd
        cases hd
    · exact absurd hc (hsep hrun)

theorem digits_text (hb : base ≤ 16) {run : Run base} (hne : run ≠ []) (hs : Stops base run rest) :
    digits base (run.text ++ rest) = some (run.text, rest) := by
  obtain ⟨other, after, h, hother, hd⟩ := exists_run hb (run.text ++ rest)
  have htext : other.text = run.text :=
    (prefix_of_stops hb hs h.symm).eq_of_length_le (prefix_of_stops hb hother h).length_le
  obtain rfl : rest = after := by rwa [htext, List.append_cancel_left_eq] at h
  rw [hd, htext, if_neg]
  rintro rfl
  exact Run.text_ne_nil hne htext.symm

theorem stops_nil (run : Run base) : Stops base run [] := by
  simp [Stops]

theorem value_text (hb : base ≤ 16) (run : Run base) : Numeral.value base run.text = run.value := by
  have key : run.text.filterMap (digit? base) = run.map (·.1.value.val) := by
    induction run with
    | nil => rfl
    | cons d run ih =>
      rw [Run.text_cons, List.filterMap_cons_some (digit?_char hb d.1), List.filterMap_append, ih,
        List.filterMap_replicate_of_none (digit?_separator base)]
      rfl
  rw [Numeral.value, key, Run.value, Nat.ofDigits_eq_foldr, List.foldr_reverse]
  simp only [Nat.cast_id, add_comm]

theorem value_plain (text : List Char) :
    Numeral.value base (Numeral.plain text) = Numeral.value base text := by
  have key : (fun c => if (c != '_') = true then digit? base c else none) = digit? base := by
    funext c
    by_cases hc : c = '_'
    · simp [hc, digit?_separator]
    · simp [hc]
  rw [Numeral.value, Numeral.plain, List.filterMap_filter, key]
  rfl

theorem plain_text (hb : base ≤ 16) (run : Run base) : Numeral.plain run.text = run.plain := by
  induction run with
  | nil => rfl
  | cons d run ih =>
    have hc : (d.1.char != '_') = true := by simpa using char_ne_separator hb d.1
    rw [Run.text_cons, Run.plain_cons, ← ih]
    simp [Numeral.plain, hc]

theorem value_run (hb : base ≤ 16) (run : Run base) :
    Numeral.value base run.plain = run.value := by
  rw [← plain_text hb, value_plain, value_text hb]

end Run

end ScriptFrontend.Numeral
