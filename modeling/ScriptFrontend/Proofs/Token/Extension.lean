import ScriptFrontend.Proofs.Token.Outcome

set_option autoImplicit false

namespace ScriptFrontend

namespace Text

def Ranges.points (rs : Ranges) : List Nat :=
  rs.parts.flatMap fun r => List.range' r.1 (r.2 + 1 - r.1)

theorem Ranges.mem_points {rs : Ranges} {n : Nat} (h : rs.has n) : n ∈ rs.points := by
  obtain ⟨r, hr, hl, hh⟩ := (rs.has_iff n).1 h
  rw [points, List.mem_flatMap]
  exact ⟨r, hr, List.mem_range'_1.2 ⟨hl, by omega⟩⟩

theorem of_isBlank {P : Char → Prop} (hp : ∀ n ∈ blank.points, P (Char.ofNat n)) {c : Char}
    (h : isBlank c) : P c := by
  have hc := hp c.toNat (Ranges.mem_points h)
  rwa [Char.ofNat_toNat] at hc

theorem not_isAlphanumeric_of_isBlank {c : Char} (h : isBlank c) : isAlphanumeric c = false :=
  of_isBlank (P := fun c => isAlphanumeric c = false) (by decide +kernel) h

end Text

namespace Longest

def Apart (cs : List Char) : Prop :=
  ∀ c ∈ cs.head?, Text.isBlank c

/-- A character with which no lexeme goes on. -/
structure Stops (c : Char) : Prop where
  word : isWordPart c = false
  mark : c ≠ '!'
  whole : isWholePart c = false
  point : c ≠ '.'
  fraction : isFractionPart c = false

theorem stops_of_isBlank {c : Char} (h : Text.isBlank c) : Stops c where
  word := by
    have hu : c ≠ '_' := Text.of_isBlank (P := fun c => c ≠ '_') (by decide +kernel) h
    simp [isWordPart, Text.not_isAlphanumeric_of_isBlank h, hu]
  mark := Text.of_isBlank (P := fun c => c ≠ '!') (by decide +kernel) h
  whole := Text.of_isBlank (P := fun c => isWholePart c = false) (by decide +kernel) h
  point := Text.of_isBlank (P := fun c => c ≠ '.') (by decide +kernel) h
  fraction := Text.of_isBlank (P := fun c => isFractionPart c = false) (by decide +kernel) h

theorem not_isBlank_of_spelling (sign : Symbol) :
    sign.spelling.toList.all fun c => !Text.isBlank c := by
  cases sign <;> decide

theorem toList_spelling {sign : Symbol} {cs : List Char}
    (h : Symbol.ofSpelling? (String.ofList cs) = some sign) : sign.spelling.toList = cs := by
  have hp := List.find?_some h
  rw [eq_of_beq hp, String.toList_ofList]

theorem ofSpelling?_blank (first : Char) {c : Char} (h : Text.isBlank c) :
    Symbol.ofSpelling? (String.ofList [first, c]) = none := by
  cases hs : Symbol.ofSpelling? (String.ofList [first, c]) with
  | none => rfl
  | some sign =>
    have hb := not_isBlank_of_spelling sign
    simp [toList_spelling hs, h] at hb

/-- Where `old` stood there stands `new`. It starts with the same character, or with a blank one if
with any. -/
def Replaces (new old : List Char) : Prop :=
  Apart new ∨ new.head? = old.head?

theorem Replaces.apart {new : List Char} (h : Replaces new []) : Apart new := by
  obtain ha | hn := h
  · exact ha
  · intro c hc
    rw [hn] at hc
    cases hc

theorem replaces_append {old more : List Char} (h : old = [] → Apart more) :
    Replaces (old ++ more) old := by
  cases old with
  | nil => exact .inl (h rfl)
  | cons c old => exact .inr rfl

theorem judgeWord_blank (state : Unit) (c : Char) (h : Text.isBlank c) :
    Lexeme.judgeWord state c = .stop := by
  have hs := stops_of_isBlank h
  have hj : Lexeme.judgeWord state c =
      if isWordPart c then .more () else if c == '!' then .last else .stop := rfl
  simp [hj, hs.word, hs.mark]

theorem judgeNumber_blank (fraction : Bool) (c : Char) (h : Text.isBlank c) :
    Lexeme.judgeNumber fraction c = .stop := by
  have hs := stops_of_isBlank h
  have hj : Lexeme.judgeNumber fraction c =
      if fraction then if isFractionPart c then .more true else .stop
      else if isWholePart c then .more false
      else if c == '.' then .more true else .stop := rfl
  cases fraction <;> simp [hj, hs.fraction, hs.whole, hs.point]

section Replace

variable {cs new : List Char}

theorem munched_replace {β : Type} {judge : β → Char → Lexeme.Verdict β} {state last : β}
    {used rest : List Char} (hblank : ∀ state c, Text.isBlank c → judge state c = .stop)
    (hm : Lexeme.munched judge state cs = (last, used, rest)) (hr : Replaces new rest) :
    Lexeme.munched judge state (used ++ new) = (last, used, new) := by
  have hstop : ∀ state, Apart new → Lexeme.munched judge state new = (state, [], new) := by
    intro state ha
    cases new with
    | nil => rfl
    | cons d new => simp [Lexeme.munched, hblank state d (ha d rfl)]
  induction cs generalizing state used with
  | nil =>
    obtain ⟨rfl, rfl, rfl⟩ : state = last ∧ [] = used ∧ [] = rest := by
      simpa [Lexeme.munched] using hm
    exact hstop state hr.apart
  | cons c cs ih =>
    cases hj : judge state c with
    | more next =>
      simp only [Lexeme.munched, hj, Prod.mk.injEq] at hm
      obtain ⟨hlast, rfl, hrest⟩ := hm
      have hnext : Lexeme.munched judge next cs =
          (last, (Lexeme.munched judge next cs).2.1, rest) := by
        rw [← hlast, ← hrest]
      simp [Lexeme.munched, hj, ih hnext]
    | last =>
      simp only [Lexeme.munched, hj, Prod.mk.injEq] at hm
      obtain ⟨rfl, rfl, -⟩ := hm
      simp [Lexeme.munched, hj]
    | stop =>
      simp only [Lexeme.munched, hj, Prod.mk.injEq] at hm
      obtain ⟨rfl, rfl, rfl⟩ := hm
      obtain ha | hhead := hr
      · exact hstop state ha
      · cases new with
        | nil => cases hhead
        | cons d new =>
          obtain rfl : d = c := by simpa using hhead
          simp [Lexeme.munched, hj]

theorem wordTail_replace (h : Replaces new (wordTail cs).2) :
    wordTail ((wordTail cs).1 ++ new) = ((wordTail cs).1, new) := by
  have hm := munched_replace judgeWord_blank (Lexeme.munched_word cs) h
  rw [Lexeme.munched_word] at hm
  exact (Prod.mk.inj hm).2

theorem numberTail_replace (h : Replaces new (numberTail cs).2) :
    numberTail ((numberTail cs).1 ++ new) = ((numberTail cs).1, new) := by
  have hm := munched_replace judgeNumber_blank (Lexeme.munched_number cs) h
  rw [Lexeme.munched_number] at hm
  exact (Prod.mk.inj hm).2

theorem signTail_replace {first : Char} (h : Replaces new (signTail first cs).2) :
    signTail first ((signTail first cs).1 ++ new) = ((signTail first cs).1, new) := by
  have hapart : Apart new → signTail first new = ([], new) := by
    intro ha
    cases new with
    | nil => rfl
    | cons d new => exact signTail_single new (ofSpelling?_blank first (ha d rfl))
  cases cs with
  | nil => exact hapart h.apart
  | cons c cs =>
    cases ho : Symbol.ofSpelling? (String.ofList [first, c]) with
    | some pair =>
      rw [signTail_pair cs ho]
      exact signTail_pair new ho
    | none =>
      rw [signTail_single cs ho] at h ⊢
      obtain ha | hhead := h
      · exact hapart ha
      · cases new with
        | nil => rfl
        | cons d new =>
          obtain rfl : d = c := by simpa using hhead
          exact signTail_single new ho

theorem quotedTail_replace {delimiter : Char} {text : List Char} (hq : Delimits delimiter)
    (hu : Unquotes delimiter cs text) (new : List Char) :
    quotedTail delimiter ((quotedTail delimiter cs).1 ++ new) =
      ((quotedTail delimiter cs).1, new) := by
  induction hu with
  | close rest =>
    rw [quotedTail_close hq]
    exact quotedTail_close hq new
  | piece hp _ ih =>
    rw [quotedTail_piece hq hp, List.append_assoc, quotedTail_piece hq hp, ih]

/-- A lexeme with a meaning is taken as it is before another text that starts alike. -/
theorem tail_replace {c : Char} {kind : Kind} {value : Value} (h : Replaces new (tail c cs).2)
    (hd : decode c (tail c cs).1 = some (kind, value)) :
    tail c ((tail c cs).1 ++ new) = ((tail c cs).1, new) := by
  cases means_of_decode hd with
  | word hf =>
    simp only [tail, hf] at h ⊢
    exact wordTail_replace h
  | string hf hu =>
    obtain rfl := Lexeme.eq_of_form_string hf
    simp only [tail, hf] at hu ⊢
    exact quotedTail_replace delimits_string (unquotes_of_unquote delimits_string hu) new
  | character hf hu =>
    obtain rfl := Lexeme.eq_of_form_character hf
    simp only [tail, hf] at hu ⊢
    exact quotedTail_replace delimits_character (unquotes_of_unquote delimits_character hu) new
  | number hf hn =>
    simp only [tail, hf] at h ⊢
    exact numberTail_replace h
  | sign hf hs =>
    simp only [tail, hf] at h ⊢
    exact signTail_replace h

end Replace

section Extend

variable {cs more : List Char}

def Extends (take : List Char → List Char × List Char) (cs more : List Char) : Prop :=
  take (cs ++ more) = ((take cs).1, (take cs).2 ++ more)

theorem extends_of_replace {take : List Char → List Char × List Char}
    (happend : (take cs).1 ++ (take cs).2 = cs)
    (h : take ((take cs).1 ++ ((take cs).2 ++ more)) = ((take cs).1, (take cs).2 ++ more)) :
    Extends take cs more := by
  rwa [← List.append_assoc, happend] at h

theorem unquote_newline {delimiter : Char} (hq : Delimits delimiter) (hn : delimiter ≠ '\n')
    (hu : unquote delimiter (quotedTail delimiter cs).1 = none) :
    unquote delimiter (quotedTail delimiter (cs ++ ['\n'])).1 = none := by
  induction cs using quoted_induction delimiter with
  | close rest =>
    rw [quotedTail_close hq, unquote_close hq] at hu
    cases hu
  | piece p c rest hp ih =>
    rw [quotedTail_piece hq hp, unquote_piece hp, Option.map_eq_none_iff] at hu
    rw [List.append_assoc, quotedTail_piece hq hp, unquote_piece hp, ih hu]
    rfl
  | cut cs hc =>
    cases hc with
    | empty => simp [quotedTail, unquote, hn.symm]
    | backslash => simp [quotedTail, unquote]
    | x => exact unquote_wrong (.high (by decide)) []
    | high ha => exact unquote_wrong (.low ha (by decide)) []
  | wrong p c rest hw =>
    rw [List.append_assoc]
    exact unquote_wrong hw _

variable {c : Char} {kind : Kind} {value : Value}

/-- A lexeme with a meaning takes nothing more where something was left behind it, or where a blank
character follows. -/
theorem extends_tail (hm : (tail c cs).2 = [] → Apart more)
    (hd : decode c (tail c cs).1 = some (kind, value)) : Extends (tail c) cs more :=
  extends_of_replace (tail_append c cs) (tail_replace (replaces_append hm) hd)

theorem apart_newline (cs : List Char) : Apart ('\n' :: cs) := by
  intro c hc
  obtain rfl : '\n' = c := by simpa using hc
  exact isBlank_newline

/-- A lexeme without a meaning does not get one from a newline at the end of the text. -/
theorem decode_newline (hd : decode c (tail c cs).1 = none) :
    decode c (tail c (cs ++ ['\n'])).1 = none := by
  have hr {old : List Char} : Replaces (old ++ ['\n']) old :=
    replaces_append fun _ => apart_newline []
  unfold tail decode at *
  cases hf : Form.of c with
  | word => simp [hf] at hd
  | string =>
    simp only [hf, Option.map_eq_none_iff] at hd ⊢
    obtain rfl := Lexeme.eq_of_form_string hf
    exact unquote_newline delimits_string (by decide) hd
  | character =>
    simp only [hf] at hd ⊢
    obtain rfl := Lexeme.eq_of_form_character hf
    cases hu : unquote '\'' (quotedTail '\'' cs).1 with
    | none => rw [unquote_newline delimits_character (by decide) hu]
    | some text =>
      have he : quotedTail '\'' (cs ++ ['\n']) = _ :=
        extends_of_replace (quotedTail_append _ cs)
          (quotedTail_replace delimits_character (unquotes_of_unquote delimits_character hu) _)
      rwa [he]
  | number =>
    simp only [hf] at hd ⊢
    have he : numberTail (cs ++ ['\n']) = _ :=
      extends_of_replace (numberTail_append cs) (numberTail_replace hr)
    rwa [he]
  | sign =>
    simp only [hf] at hd ⊢
    have he : signTail c (cs ++ ['\n']) = _ :=
      extends_of_replace (signTail_append c cs) (signTail_replace hr)
    rwa [he]

end Extend

end Longest

end ScriptFrontend
