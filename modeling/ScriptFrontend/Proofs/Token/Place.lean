import Mathlib.Data.List.Induction
import ScriptFrontend.Token.Head

set_option autoImplicit false

namespace ScriptFrontend

namespace Position

/-- The place of the character that follows this much text. -/
def behind (before : List Char) : Position :=
  ⟨1 + before.count '\n', 1 + (before.reverse.takeWhile (· != '\n')).length⟩

def ofOffset (text : List Char) (i : Nat) : Position :=
  behind (text.take i)

theorem ofOffset_append (before after : List Char) :
    ofOffset (before ++ after) before.length = behind before := by
  simp [ofOffset]

theorem compare_eq (p q : Position) :
    compare p q = (compare p.line q.line).then (compare p.column q.column) := by
  obtain ⟨pl, pc⟩ := p
  obtain ⟨ql, qc⟩ := q
  show (compare pl ql).then ((compare pc qc).then .eq) = _
  rw [Ordering.then_eq]

theorem compare_eq_lt {p q : Position} :
    compare p q = .lt ↔ p.line < q.line ∨ p.line = q.line ∧ p.column < q.column := by
  rw [compare_eq, Ordering.then_eq_lt, Nat.compare_eq_lt, Nat.compare_eq_eq, Nat.compare_eq_lt]

theorem isLE_iff {p q : Position} :
    (compare p q).isLE ↔ p.line < q.line ∨ p.line = q.line ∧ p.column ≤ q.column := by
  rw [compare_eq, Ordering.isLE_then_iff_or, Nat.compare_eq_lt, Nat.compare_eq_eq, Nat.isLE_compare]

theorem compare_trans {p q r : Position} (hp : compare p q = .lt) (hq : compare q r = .lt) :
    compare p r = .lt := by
  rw [compare_eq_lt] at *
  omega

theorem behind_newline (before : List Char) :
    behind (before ++ ['\n']) = ⟨(behind before).line + 1, 1⟩ := by
  simp [behind]; omega

theorem behind_char (before : List Char) {c : Char} (h : c ≠ '\n') :
    behind (before ++ [c]) = ⟨(behind before).line, (behind before).column + 1⟩ := by
  simp [behind, h]; omega

theorem behind_lt_snoc (before : List Char) (c : Char) :
    compare (behind before) (behind (before ++ [c])) = .lt := by
  rw [compare_eq_lt]
  by_cases h : c = '\n'
  · subst h
    simp [behind_newline]
  · simp [behind_char before h]

theorem behind_lt_append (before : List Char) {more : List Char} (h : more ≠ []) :
    compare (behind before) (behind (before ++ more)) = .lt := by
  induction more using List.reverseRecOn with
  | nil => simp at h
  | append_singleton more c ih =>
    have hc := behind_lt_snoc (before ++ more) c
    rw [List.append_assoc] at hc
    by_cases hm : more = []
    · simpa [hm] using hc
    · exact compare_trans (ih hm) hc

theorem ofOffset_lt {text : List Char} {i j : Nat} (hij : i < j) (hj : j ≤ text.length) :
    compare (ofOffset text i) (ofOffset text j) = .lt := by
  have hsplit := List.take_append_drop i (text.take j)
  rw [List.take_take, Nat.min_eq_left (Nat.le_of_lt hij)] at hsplit
  have hne : (text.take j).drop i ≠ [] := by
    simp [List.drop_eq_nil_iff]
    omega
  have hlt := behind_lt_append (text.take i) hne
  rwa [hsplit] at hlt

theorem ofOffset_injective {text : List Char} {i j : Nat} (hi : i ≤ text.length)
    (hj : j ≤ text.length) (h : ofOffset text i = ofOffset text j) : i = j := by
  obtain hlt | rfl | hgt := Nat.lt_trichotomy i j
  · have := compare_eq_lt.1 (ofOffset_lt hlt hj)
    rw [h] at this
    omega
  · rfl
  · have := compare_eq_lt.1 (ofOffset_lt hgt hi)
    rw [h] at this
    omega

/-- The place of the last character of a text, or the origin if there is none. -/
def ofLast (text : List Char) : Position :=
  if text = [] then .origin else .ofOffset text (text.length - 1)

theorem ofLast_snoc (before : List Char) (c : Char) : ofLast (before ++ [c]) = behind before := by
  simp [ofLast, ofOffset]

theorem ofLast_eq {read text : List Char} (hpre : read <+: text) (hne : read ≠ []) :
    ofLast read = ofOffset text (read.length - 1) := by
  obtain ⟨more, rfl⟩ := hpre
  have hle : read.length - 1 ≤ read.length := Nat.sub_le ..
  simp [ofLast, ofOffset, hne, List.take_append_of_le_length hle]

end Position

namespace Cursor

def after (before : List Char) : Cursor :=
  before.foldl step start

@[simp] theorem after_snoc (before : List Char) (c : Char) :
    after (before ++ [c]) = (after before).step c := by
  simp [after]

theorem next_after (before : List Char) :
    (⟨(after before).line, (after before).column + 1⟩ : Position) = .behind before := by
  induction before using List.reverseRecOn with
  | nil => rfl
  | append_singleton before c ih =>
    rw [after_snoc]
    by_cases h : c = '\n'
    · subst h
      rw [Position.behind_newline, ← ih]
      rfl
    · rw [Position.behind_char before h, ← ih]
      simp [step, h]

theorem last_snoc (before : List Char) (c : Char) :
    (after (before ++ [c])).last = .behind before := by
  rw [after_snoc, ← next_after]
  unfold step
  split <;> rfl

theorem last_after (text : List Char) : (after text).last = .ofLast text := by
  induction text using List.reverseRecOn with
  | nil => rfl
  | append_singleton text c _ => rw [last_snoc, Position.ofLast_snoc]

end Cursor

end ScriptFrontend
