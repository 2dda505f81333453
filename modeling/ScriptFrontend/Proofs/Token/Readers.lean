import ScriptFrontend.Proofs.Token.Quoted

set_option autoImplicit false

namespace ScriptFrontend

open Longest

variable {σ : Type} [Source σ Char InputError]

namespace Lexeme

/-- What `munch` takes and leaves, on a text that is there as a whole. -/
def munched {β : Type} (judge : β → Char → Verdict β) (state : β) :
    List Char → β × List Char × List Char
  | [] => (state, [], [])
  | c :: cs =>
    match judge state c with
    | .more next =>
      ((munched judge next cs).1, c :: (munched judge next cs).2.1, (munched judge next cs).2.2)
    | .last => (state, [c], cs)
    | .stop => (state, [], c :: cs)

theorem munch_item {β : Type} {judge : β → Char → Verdict β} {state : β} {taken : List Char}
    {h t : Head σ} {c : Char} (hr : Head.read h = .ok (some c) t) :
    munch judge state taken h =
      match judge state c with
      | .more next => munch judge next (c :: taken) t
      | .last => .ok (state, (c :: taken).reverse) t
      | .stop => .ok (state, taken.reverse) (t.unread c h.cursor) := by
  rw [munch]
  split
  · simp_all
  · simp_all
  · rename_i d u hd
    rw [hr] at hd
    cases hd
    rfl

theorem munch_end {β : Type} {judge : β → Char → Verdict β} {state : β} {taken : List Char}
    {h t : Head σ} (hr : Head.read h = .ok none t) :
    munch judge state taken h = .ok (state, taken.reverse) t := by
  rw [munch]
  split <;> simp_all

theorem munch_fail {β : Type} {judge : β → Char → Verdict β} {state : β} {taken : List Char}
    {h t : Head σ} {e : LexError} (hr : Head.read h = .error e t) :
    munch judge state taken h = .error e t := by
  rw [munch]
  split <;> simp_all

theorem takes_munch {β : Type} {judge : β → Char → Verdict β} {state last : β}
    {taken before cs used rest : List Char} (hm : munched judge state cs = (last, used, rest)) :
    Takes (munch judge state taken : Lex σ (β × List Char)) before used rest
      (last, taken.reverse ++ used) := by
  induction cs generalizing state taken before used with
  | nil =>
    simp only [munched, Prod.mk.injEq] at hm
    obtain ⟨rfl, rfl, rfl⟩ := hm
    intro h hb
    obtain ⟨t, hr, ht⟩ := hb.read_end
    exact ⟨t, by simp [munch_end hr], by simpa using ht⟩
  | cons c cs ih =>
    intro h hb
    cases hj : judge state c with
    | more next =>
      simp only [munched, hj, Prod.mk.injEq] at hm
      obtain ⟨hlast, rfl, hrest⟩ := hm
      obtain ⟨t, hr, ht, -⟩ := hb.read_item
      have hn : munched judge next cs = (last, (munched judge next cs).2.1, rest) := by
        rw [← hlast, ← hrest]
      have hi : Takes (munch judge next (c :: taken) : Lex σ _) (before ++ [c]) _ _ _ := ih hn
      obtain ⟨v, hv, hbv⟩ := hi t ht
      refine ⟨v, ?_, by simpa using hbv⟩
      rw [munch_item hr, hj]
      simpa using hv
    | last =>
      simp only [munched, hj, Prod.mk.injEq] at hm
      obtain ⟨rfl, rfl, rfl⟩ := hm
      obtain ⟨t, hr, ht, -⟩ := hb.read_item
      exact ⟨t, by simp [munch_item hr, hj], ht⟩
    | stop =>
      simp only [munched, hj, Prod.mk.injEq] at hm
      obtain ⟨rfl, rfl, rfl⟩ := hm
      obtain ⟨t, hr, -, hu⟩ := hb.read_item
      exact ⟨t.unread c h.cursor, by simp [munch_item hr, hj], by simpa using hu⟩

theorem munched_word (cs : List Char) :
    munched judgeWord () cs = ((), (wordTail cs).1, (wordTail cs).2) := by
  induction cs with
  | nil => rfl
  | cons c cs ih =>
    have hj : judgeWord () c =
        if isWordPart c then .more () else if c == '!' then .last else .stop := rfl
    by_cases hw : isWordPart c
    · simp [munched, hj, ih, wordTail_cons hw, hw]
    · by_cases hc : c = '!'
      · subst hc
        simp [munched, hj, wordTail, hw]
      · simp [munched, hj, wordTail, hw, hc]

theorem munched_fraction (cs : List Char) :
    munched judgeNumber true cs =
      (true, cs.takeWhile isFractionPart, cs.dropWhile isFractionPart) := by
  induction cs with
  | nil => rfl
  | cons c cs ih =>
    have hj : judgeNumber true c = if isFractionPart c then .more true else .stop := rfl
    by_cases hf : isFractionPart c <;> simp [munched, hj, hf, ih]

theorem munched_number (cs : List Char) :
    munched judgeNumber false cs =
      (decide ('.' ∈ (numberTail cs).1), (numberTail cs).1, (numberTail cs).2) := by
  induction cs with
  | nil => rfl
  | cons c cs ih =>
    have hj : judgeNumber false c =
        if isWholePart c then .more false else if c == '.' then .more true else .stop := rfl
    by_cases hw : isWholePart c
    · have hc : '.' ≠ c := by
        intro hc
        subst hc
        simp [isWholePart] at hw
      simp [munched, hj, ih, numberTail_cons hw, hw, hc]
    · by_cases hc : c = '.'
      · subst hc
        simp [munched, hj, numberTail, hw, munched_fraction]
      · simp [munched, hj, numberTail, hw, hc]

theorem takes_word (start : Position) (first : Char) (before cs : List Char) :
    Takes (word start first : Lex σ Token) before (wordTail cs).1 (wordTail cs).2
      ⟨start, wordKind (String.ofList (first :: (wordTail cs).1)),
        .string (String.ofList (first :: (wordTail cs).1))⟩ :=
  (takes_munch (munched_word cs)).bind_nil (.pure _)

def numeral (start : Position) (text : List Char) : Lex σ Token :=
  match decodeNumber text with
  | .ok (kind, value) => pure ⟨start, kind, value⟩
  | .error fault => Head.fail (.malformedNumber (String.ofList text) fault.message)

theorem number_eq (start : Position) {first : Char} (cs : List Char) (hf : first ≠ '.') :
    ∃ rest : Bool × List Char → Lex σ Token,
      number start first = munch judgeNumber false [first] >>= rest ∧
        rest (decide ('.' ∈ (numberTail cs).1), [first].reverse ++ (numberTail cs).1) =
          numeral start (first :: (numberTail cs).1) := by
  refine ⟨_, rfl, ?_⟩
  have hm : '.' ∈ first :: (numberTail cs).1 ↔ '.' ∈ (numberTail cs).1 := by
    simp [Ne.symm hf]
  simp only [numeral, decodeNumber, hm]
  by_cases hp : '.' ∈ (numberTail cs).1
  · simp only [hp, if_true, decide_true]
    cases hx : Numeral.float (first :: (numberTail cs).1) <;> simp [hx, Except.map]
  · simp only [hp, if_false, decide_false]
    cases hx : Numeral.int (first :: (numberTail cs).1) <;> simp [hx, Except.map]

theorem takes_number (start : Position) {first : Char} (before : List Char) {cs : List Char}
    {kind : Kind} {value : Value} (hf : first ≠ '.')
    (hd : decodeNumber (first :: (numberTail cs).1) = .ok (kind, value)) :
    Takes (number start first : Lex σ Token) before (numberTail cs).1 (numberTail cs).2
      ⟨start, kind, value⟩ := by
  obtain ⟨rest, hn, hr⟩ := number_eq (σ := σ) start cs hf
  rw [hn]
  refine (takes_munch (munched_number cs)).bind_nil ?_
  rw [hr, numeral, hd]
  exact .pure _

theorem fails_number (start : Position) {first : Char} (before : List Char) {cs : List Char}
    {fault : Numeral.Fault} (hf : first ≠ '.')
    (hd : decodeNumber (first :: (numberTail cs).1) = .error fault) :
    Fails (number start first : Lex σ Token) before cs
      ⟨.malformedNumber (String.ofList (first :: (numberTail cs).1)) fault.message,
        some (Cursor.after (before ++ (numberTail cs).1)).last⟩ := by
  obtain ⟨rest, hn, hr⟩ := number_eq (σ := σ) start cs hf
  rw [hn]
  refine .bind_right (numberTail_append cs) (takes_munch (munched_number cs)) ?_
  rw [hr, numeral, hd]
  exact .fail _

theorem takes_single {start : Position} {first : Char} {sign : Symbol} (before cs : List Char)
    (hs : Symbol.ofSpelling? (String.ofList [first]) = some sign) :
    Takes (singleSign start first : Lex σ Token) before [] cs (signToken start sign) := by
  rw [singleSign, hs]
  exact .pure _

theorem fails_single (start : Position) {first : Char} (before cs : List Char)
    (hs : Symbol.ofSpelling? (String.ofList [first]) = none) :
    Fails (singleSign start first : Lex σ Token) before cs
      ⟨.unexpectedChar first, some (Cursor.after before).last⟩ := by
  rw [singleSign, hs]
  exact .fail _

theorem sign_eq_single (start : Position) {first : Char} {before cs : List Char} {h : Head σ}
    (hb : h.Between before cs) (hs : (signTail first cs).1 = []) :
    ∃ t, t.Between before cs ∧ sign start first h = singleSign start first t := by
  cases cs with
  | nil =>
    obtain ⟨t, hr, ht⟩ := hb.read_end
    exact ⟨t, ht, by rw [sign, hr]⟩
  | cons second cs =>
    obtain ⟨t, hr, -, hu⟩ := hb.read_item
    refine ⟨t.unread second h.cursor, hu, ?_⟩
    cases ho : Symbol.ofSpelling? (String.ofList [first, second]) with
    | none => simp only [sign, hr, ho]
    | some sign => simp [signTail_pair cs ho] at hs

theorem takes_sign {start : Position} {first : Char} {symbol : Symbol} (before : List Char)
    {cs : List Char}
    (hs : Symbol.ofSpelling? (String.ofList (first :: (signTail first cs).1)) = some symbol) :
    Takes (sign start first : Lex σ Token) before (signTail first cs).1 (signTail first cs).2
      (signToken start symbol) := by
  intro h hb
  rw [signTail_append] at hb
  by_cases ht : (signTail first cs).1 = []
  · have hc := signTail_append first cs
    rw [ht] at hs hc ⊢
    obtain ⟨t, hbt, he⟩ := sign_eq_single start hb ht
    rw [he]
    exact takes_single before _ hs t (by rwa [hc])
  · cases cs with
    | nil => simp [signTail] at ht
    | cons second cs =>
      obtain ⟨t, hr, hbt, -⟩ := hb.read_item
      cases ho : Symbol.ofSpelling? (String.ofList [first, second]) with
      | none => simp [signTail_single cs ho] at ht
      | some pair =>
        rw [signTail_pair cs ho] at hs ⊢
        rw [ho, Option.some.injEq] at hs
        subst hs
        exact ⟨t, by simp only [sign, hr, ho], hbt⟩

theorem fails_sign (start : Position) {first : Char} (before : List Char) {cs : List Char}
    (hs : Symbol.ofSpelling? (String.ofList (first :: (signTail first cs).1)) = none) :
    Fails (sign start first : Lex σ Token) before cs
      ⟨.unexpectedChar first, some (Cursor.after before).last⟩ := by
  intro h hb
  have ht : (signTail first cs).1 = [] := by
    cases cs with
    | nil => rfl
    | cons second cs =>
      cases ho : Symbol.ofSpelling? (String.ofList [first, second]) with
      | none => rw [signTail_single cs ho]
      | some pair => rw [signTail_pair cs ho, ho] at hs; cases hs
  rw [ht] at hs
  obtain ⟨t, hbt, he⟩ := sign_eq_single start hb ht
  rw [he]
  exact fails_single start before cs hs t hbt

theorem read_eq_form (start : Position) (first : Char) :
    (Lexeme.read start first : Lex σ Token) =
      match Form.of first with
      | .word => word start first
      | .string => string start
      | .character => character start
      | .number => number start first
      | .sign => sign start first := by
  unfold Lexeme.read Form.of
  repeat' split
  all_goals first | rfl | simp_all

theorem eq_of_form_string {first : Char} (h : Form.of first = .string) : first = '"' := by
  unfold Form.of at h
  repeat' split at h
  all_goals simp_all

theorem eq_of_form_character {first : Char} (h : Form.of first = .character) : first = '\'' := by
  unfold Form.of at h
  repeat' split at h
  all_goals simp_all

theorem ne_point_of_form_number {first : Char} (h : Form.of first = .number) : first ≠ '.' := by
  intro hp
  subst hp
  revert h
  decide +kernel

/-- A lexeme with a meaning is taken whole, and nothing more is. -/
theorem takes_lexeme (start : Position) {first : Char} (before : List Char) {cs : List Char}
    {kind : Kind} {value : Value} (hd : decode first (tail first cs).1 = some (kind, value)) :
    Takes (Lexeme.read start first : Lex σ Token) before (tail first cs).1 (tail first cs).2
      ⟨start, kind, value⟩ := by
  rw [read_eq_form]
  cases means_of_decode hd with
  | word hf =>
    simp only [tail, hf]
    exact takes_word start first before cs
  | string hf hu =>
    obtain rfl := eq_of_form_string hf
    simp only [tail, hf] at hu ⊢
    exact takes_string start before hu
  | character hf hu =>
    obtain rfl := eq_of_form_character hf
    simp only [tail, hf] at hu ⊢
    exact takes_character start before hu
  | number hf hn =>
    simp only [tail, hf] at hn ⊢
    exact takes_number start before (ne_point_of_form_number hf) hn
  | sign hf hs =>
    simp only [tail, hf] at hs ⊢
    exact takes_sign before hs

end Lexeme

end ScriptFrontend
