import ScriptFrontend.Source.Decoder

/-! Well-formed UTF-8: which bytes make a character, written down byte by byte.

They are exactly what characters are encoded to (`wellFormed_iff`), so each character has one form.
-/

set_option autoImplicit false

namespace ScriptFrontend.Utf8

def Continues (b : UInt8) : Prop :=
  0x80 ≤ b.toNat ∧ b.toNat ≤ 0xBF

/-- The bytes of one character. -/
inductive WellFormed : List UInt8 → Prop where
  | one {a : UInt8} : a.toNat ≤ 0x7F → WellFormed [a]
  -- `C0` and `C1` would make overlong forms
  | two {a b : UInt8} : 0xC2 ≤ a.toNat → a.toNat ≤ 0xDF → Continues b → WellFormed [a, b]
  -- neither overlong nor a surrogate
  | three {a b c : UInt8} : 0xE0 ≤ a.toNat → a.toNat ≤ 0xEF → Continues b → Continues c →
      (a.toNat = 0xE0 → 0xA0 ≤ b.toNat) → (a.toNat = 0xED → b.toNat ≤ 0x9F) →
      WellFormed [a, b, c]
  -- neither overlong nor above `U+10FFFF`
  | four {a b c d : UInt8} : 0xF0 ≤ a.toNat → a.toNat ≤ 0xF4 → Continues b → Continues c →
      Continues d → (a.toNat = 0xF0 → 0x90 ≤ b.toNat) → (a.toNat = 0xF4 → b.toNat ≤ 0x8F) →
      WellFormed [a, b, c, d]

theorem toNat_ofNat {n : Nat} (h : n < 256) : (UInt8.ofNat n).toNat = n := by
  rw [UInt8.toNat_ofNat']
  omega

theorem ofNat_eq {n : Nat} {b : UInt8} (h : b.toNat = n) : UInt8.ofNat n = b := by
  rw [← h, UInt8.ofNat_toNat]

theorem continues_ofNat (n : Nat) : Continues (UInt8.ofNat (n % 64 + 128)) := by
  unfold Continues
  rw [toNat_ofNat (by omega)]
  omega

theorem wellFormed_utf8EncodeChar (c : Char) : WellFormed (String.utf8EncodeChar c) := by
  have hv := c.valid
  simp only [UInt32.isValidChar, Nat.isValidChar] at hv
  simp only [String.utf8EncodeChar]
  generalize c.val.toNat = v at hv ⊢
  split
  · exact .one (by rw [toNat_ofNat] <;> omega)
  split
  · have ha : (UInt8.ofNat (v / 64 % 32 + 192)).toNat = _ := toNat_ofNat (by omega)
    exact .two (by omega) (by omega) (continues_ofNat v)
  split
  · have ha : (UInt8.ofNat (v / 4096 % 16 + 224)).toNat = _ := toNat_ofNat (by omega)
    have hb : (UInt8.ofNat (v / 64 % 64 + 128)).toNat = _ := toNat_ofNat (by omega)
    exact .three (by omega) (by omega) (continues_ofNat _) (continues_ofNat v) (by omega) (by omega)
  · have ha : (UInt8.ofNat (v / 262144 % 8 + 240)).toNat = _ := toNat_ofNat (by omega)
    have hb : (UInt8.ofNat (v / 4096 % 64 + 128)).toNat = _ := toNat_ofNat (by omega)
    exact .four (by omega) (by omega) (continues_ofNat _) (continues_ofNat _) (continues_ofNat v)
      (by omega) (by omega)

theorem exists_scalar {v : Nat} (h : v.isValidChar) : ∃ c : Char, c.val.toNat = v :=
  ⟨.ofNatAux v h, rfl⟩

theorem WellFormed.exists_char {bytes : List UInt8} (h : WellFormed bytes) :
    ∃ c, bytes = String.utf8EncodeChar c := by
  cases h with
  | @one a ha =>
    obtain ⟨c, hc⟩ := exists_scalar (v := a.toNat) (by unfold Nat.isValidChar; omega)
    refine ⟨c, ?_⟩
    simp only [String.utf8EncodeChar, hc]
    rw [if_pos (by omega), ofNat_eq rfl]
  | @two a b ha ha' hb =>
    obtain ⟨hb, hb'⟩ := hb
    obtain ⟨c, hc⟩ := exists_scalar (v := (a.toNat - 0xC0) * 64 + (b.toNat - 0x80))
      (by unfold Nat.isValidChar; omega)
    refine ⟨c, ?_⟩
    simp only [String.utf8EncodeChar, hc]
    rw [if_neg (by omega), if_pos (by omega), ofNat_eq (b := a) (by omega),
      ofNat_eq (b := b) (by omega)]
  | @three a b c ha ha' hb hc ho hs =>
    obtain ⟨hb, hb'⟩ := hb
    obtain ⟨hc, hc'⟩ := hc
    obtain ⟨d, hd⟩ := exists_scalar
      (v := (a.toNat - 0xE0) * 4096 + (b.toNat - 0x80) * 64 + (c.toNat - 0x80))
      (by unfold Nat.isValidChar; omega)
    refine ⟨d, ?_⟩
    simp only [String.utf8EncodeChar, hd]
    rw [if_neg (by omega), if_neg (by omega), if_pos (by omega), ofNat_eq (b := a) (by omega),
      ofNat_eq (b := b) (by omega), ofNat_eq (b := c) (by omega)]
  | @four a b c d ha ha' hb hc hd ho hm =>
    obtain ⟨hb, hb'⟩ := hb
    obtain ⟨hc, hc'⟩ := hc
    obtain ⟨hd, hd'⟩ := hd
    obtain ⟨e, he⟩ := exists_scalar
      (v := (a.toNat - 0xF0) * 262144 + (b.toNat - 0x80) * 4096 + (c.toNat - 0x80) * 64 +
        (d.toNat - 0x80))
      (by unfold Nat.isValidChar; omega)
    refine ⟨e, ?_⟩
    simp only [String.utf8EncodeChar, he]
    rw [if_neg (by omega), if_neg (by omega), if_neg (by omega), ofNat_eq (b := a) (by omega),
      ofNat_eq (b := b) (by omega), ofNat_eq (b := c) (by omega), ofNat_eq (b := d) (by omega)]

theorem wellFormed_iff {bytes : List UInt8} :
    WellFormed bytes ↔ ∃ c, bytes = String.utf8EncodeChar c := by
  constructor
  · exact WellFormed.exists_char
  · rintro ⟨c, rfl⟩
    exact wellFormed_utf8EncodeChar c

theorem following?_eq (first : UInt8) :
    Decoder.following? first =
      if first.toNat < 0x80 then some 0
      else if first.toNat < 0xC0 then none
      else if first.toNat < 0xE0 then some 1
      else if first.toNat < 0xF0 then some 2
      else if first.toNat < 0xF8 then some 3
      else none := by
  simp only [Decoder.following?, UInt8.lt_iff_toNat_lt]
  rfl

theorem WellFormed.exists_cons {bytes : List UInt8} (h : WellFormed bytes) :
    ∃ first used, bytes = first :: used ∧ Decoder.following? first = some used.length := by
  cases h with
  | one ha =>
    refine ⟨_, _, rfl, ?_⟩
    rw [following?_eq, if_pos (by omega)]
    rfl
  | two ha ha' =>
    refine ⟨_, _, rfl, ?_⟩
    rw [following?_eq, if_neg (by omega), if_neg (by omega), if_pos (by omega)]
    rfl
  | three ha ha' =>
    refine ⟨_, _, rfl, ?_⟩
    rw [following?_eq, if_neg (by omega), if_neg (by omega), if_neg (by omega), if_pos (by omega)]
    rfl
  | four ha ha' =>
    refine ⟨_, _, rfl, ?_⟩
    rw [following?_eq, if_neg (by omega), if_neg (by omega), if_neg (by omega), if_neg (by omega),
      if_pos (by omega)]
    rfl

theorem following?_le {first : UInt8} {n : Nat} (h : Decoder.following? first = some n) :
    n ≤ 3 := by
  rw [following?_eq] at h
  repeat' split at h
  all_goals cases h
  all_goals omega

theorem utf8DecodeChar?_encode (c : Char) (more : List UInt8) :
    (String.utf8EncodeChar c ++ more).toByteArray.utf8DecodeChar? 0 = some c := by
  rw [List.toByteArray_append]
  exact ByteArray.utf8DecodeChar?_utf8EncodeChar_append

/-- No character is the start of another one. -/
theorem encode_append_inj {c d : Char} {x y : List UInt8}
    (h : String.utf8EncodeChar c ++ x = String.utf8EncodeChar d ++ y) : c = d ∧ x = y := by
  have hc := utf8DecodeChar?_encode c x
  rw [h, utf8DecodeChar?_encode, Option.some.injEq] at hc
  subst hc
  exact ⟨rfl, List.append_cancel_left h⟩

/-- No character starts here. -/
def Stuck (bytes : List UInt8) : Prop :=
  ∀ c, ¬String.utf8EncodeChar c <+: bytes

def Valid (bytes : List UInt8) : Prop :=
  ∃ blocks : List (List UInt8), bytes = blocks.flatten ∧ ∀ block ∈ blocks, WellFormed block

theorem exists_chars {blocks : List (List UInt8)} (h : ∀ block ∈ blocks, WellFormed block) :
    ∃ cs : List Char, blocks.flatten = cs.flatMap String.utf8EncodeChar := by
  induction blocks with
  | nil => exact ⟨[], rfl⟩
  | cons block blocks ih =>
    obtain ⟨c, rfl⟩ := wellFormed_iff.1 (h block (.head _))
    obtain ⟨cs, hcs⟩ := ih fun block hb => h block (.tail _ hb)
    exact ⟨c :: cs, by simp [hcs]⟩

theorem valid_flatMap (cs : List Char) : Valid (cs.flatMap String.utf8EncodeChar) := by
  refine ⟨cs.map String.utf8EncodeChar, List.flatMap_def, fun block hb => ?_⟩
  obtain ⟨c, -, rfl⟩ := List.mem_map.1 hb
  exact wellFormed_utf8EncodeChar c

theorem prefix_of_decode {bytes : List UInt8} {c : Char}
    (h : bytes.toByteArray.utf8DecodeChar? 0 = some c) : String.utf8EncodeChar c <+: bytes := by
  obtain ⟨rest, hr⟩ := ByteArray.exists_of_utf8DecodeChar?_eq_some h
  have hl := congrArg (·.data.toList) hr
  simp only [List.toList_data_toByteArray, ByteArray.toList_data_append] at hl
  exact ⟨rest.data.toList, hl.symm⟩

theorem prefix_of_stuck {cs ds : List Char} {rest : List UInt8} (hs : Stuck rest)
    (h : ds.flatMap String.utf8EncodeChar <+: cs.flatMap String.utf8EncodeChar ++ rest) :
    ds <+: cs := by
  induction ds generalizing cs with
  | nil => exact List.nil_prefix
  | cons d ds ih =>
    obtain ⟨more, hm⟩ := h
    cases cs with
    | nil =>
      have hd : String.utf8EncodeChar d <+: rest :=
        ⟨ds.flatMap String.utf8EncodeChar ++ more, by simpa using hm⟩
      exact absurd hd (hs d)
    | cons c cs =>
      simp only [List.flatMap_cons, List.append_assoc] at hm
      obtain ⟨rfl, hrest⟩ := encode_append_inj hm
      rw [List.cons_prefix_cons]
      exact ⟨rfl, ih ⟨more, hrest⟩⟩

theorem prefix_flatMap_of_stuck {cs : List Char} {start rest : List UInt8} (hs : Stuck rest)
    (hv : Valid start) (h : start <+: cs.flatMap String.utf8EncodeChar ++ rest) :
    start <+: cs.flatMap String.utf8EncodeChar := by
  obtain ⟨blocks, rfl, hw⟩ := hv
  obtain ⟨ds, hds⟩ := exists_chars hw
  rw [hds] at h ⊢
  obtain ⟨more, rfl⟩ := prefix_of_stuck hs h
  exact ⟨more.flatMap String.utf8EncodeChar, by simp⟩

theorem valid_append_iff {cs : List Char} {rest : List UInt8} (hs : Stuck rest) :
    Valid (cs.flatMap String.utf8EncodeChar ++ rest) ↔ rest = [] := by
  constructor
  · intro hv
    have hp := (prefix_flatMap_of_stuck hs hv (List.prefix_refl _)).length_le
    rw [List.length_append] at hp
    exact List.length_eq_zero_iff.1 (by omega)
  · rintro rfl
    rw [List.append_nil]
    exact valid_flatMap cs

end ScriptFrontend.Utf8
