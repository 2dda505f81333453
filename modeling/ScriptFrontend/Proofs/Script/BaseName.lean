import Mathlib.Data.List.Induction
import Mathlib.Data.List.TakeWhile
import ScriptFrontend.Script.Parser

set_option autoImplicit false

namespace ScriptFrontend

/-- A part without slashes, with nothing but slashes behind it and a slash before it if anything
is. -/
structure IsLastPart (path part : String) : Prop where
  nonempty : part ≠ ""
  plain : '/' ∉ part.toList
  stands : ∃ k, path.toList = part.toList ++ List.replicate k '/' ∨
    ∃ before, path.toList = before ++ '/' :: (part.toList ++ List.replicate k '/')

def withSlashes (path : String) (k : Nat) : String :=
  path ++ String.ofList (List.replicate k '/')

@[simp]
theorem toList_withSlashes (path : String) (k : Nat) :
    (withSlashes path k).toList = path.toList ++ List.replicate k '/' := by
  simp [withSlashes]

theorem stands_iff {path part : List Char} :
    (∃ k, path = part ++ List.replicate k '/' ∨
      ∃ before, path = before ++ '/' :: (part ++ List.replicate k '/')) ↔
    ∃ before k, path = before ++ part ++ List.replicate k '/' ∧
      ∀ c ∈ before.getLast?, c = '/' := by
  constructor
  · rintro ⟨k, rfl | ⟨before, rfl⟩⟩
    · exact ⟨[], k, by simp, by simp⟩
    · exact ⟨before ++ ['/'], k, by simp, by simp⟩
  · rintro ⟨before, k, rfl, hb⟩
    cases hl : before.getLast? with
    | none => exact ⟨k, .inl (by simp [List.getLast?_eq_none_iff.1 hl])⟩
    | some c =>
      obtain ⟨front, rfl⟩ := List.getLast?_eq_some_iff.1 hl
      obtain rfl := hb c hl
      exact ⟨k, .inr ⟨front, by simp⟩⟩

variable {path part : String}

theorem IsLastPart.withSlashes (h : IsLastPart path part) (k : Nat) :
    IsLastPart (withSlashes path k) part where
  nonempty := h.nonempty
  plain := h.plain
  stands := by
    obtain ⟨before, n, hn, hb⟩ := stands_iff.1 h.stands
    exact stands_iff.2 ⟨before, n + k, by simp [hn], hb⟩

theorem isLastPart_self (hn : part ≠ "") (hp : '/' ∉ part.toList) : IsLastPart part part :=
  ⟨hn, hp, 0, .inl (by simp)⟩

/-- The name is found from the end of the path: the slashes there are passed, and then all up to the
next slash is taken. -/
theorem baseName_of_isLastPart (h : IsLastPart path part) : baseName path = part := by
  obtain ⟨before, k, hpath, hbefore⟩ := stands_iff.1 h.stands
  have hback : path.toList.reverse =
      List.replicate k '/' ++ (part.toList.reverse ++ before.reverse) := by simp [hpath]
  have hin : ∀ c ∈ part.toList.reverse, (c != '/') = true := by
    intro c hc
    rw [bne_iff_ne]
    rintro rfl
    exact h.plain (by simpa using hc)
  have hpass : path.toList.reverse.dropWhile (· == '/') =
      part.toList.reverse ++ before.reverse := by
    rw [hback, List.dropWhile_append_of_pos (by simp)]
    have hne : part.toList.reverse ≠ [] := by simpa using h.nonempty
    obtain ⟨c, cs, hc⟩ := List.exists_cons_of_ne_nil hne
    have hs : c ≠ '/' := bne_iff_ne.1 (hin c (hc ▸ List.mem_cons_self ..))
    rw [hc, List.cons_append, List.dropWhile_cons_of_neg (by simpa using hs)]
  have hout : before.reverse.takeWhile (· != '/') = [] := by
    cases hb : before.reverse with
    | nil => rfl
    | cons c cs =>
      obtain rfl : c = '/' := hbefore c (by simp [← List.head?_reverse, hb])
      rfl
  have htake : (part.toList.reverse ++ before.reverse).takeWhile (· != '/') =
      part.toList.reverse := by
    rw [List.takeWhile_append_of_pos hin, hout, List.append_nil]
  unfold baseName
  rw [hpass]
  split
  · rename_i hnil
    simp [h.nonempty] at hnil
  · rw [htake, List.reverse_reverse, String.ofList_toList]

theorem exists_rest (path : List Char) :
    ∃ before rest, path = before ++ rest ∧ '/' ∉ rest ∧ ∀ c ∈ before.getLast?, c = '/' := by
  induction path using List.reverseRecOn with
  | nil => exact ⟨[], [], rfl, by simp, by simp⟩
  | append_singleton path c ih =>
    by_cases hc : c = '/'
    · exact ⟨path ++ [c], [], by simp, by simp, by simp [hc]⟩
    · obtain ⟨before, rest, rfl, hr, hb⟩ := ih
      exact ⟨before, rest ++ [c], by simp, by simp [hr, Ne.symm hc], hb⟩

theorem exists_lastPart (h : ∃ c ∈ path.toList, c ≠ '/') : ∃ part, IsLastPart path part := by
  obtain ⟨part, hn, hp, hs⟩ : ∃ part : List Char, part ≠ [] ∧ '/' ∉ part ∧
      ∃ before k, path.toList = before ++ part ++ List.replicate k '/' ∧
        ∀ c ∈ before.getLast?, c = '/' := by
    generalize path.toList = chars at h
    induction chars using List.reverseRecOn with
    | nil => simp at h
    | append_singleton chars c ih =>
      by_cases hc : c = '/'
      · subst hc
        obtain ⟨part, hn, hp, before, k, rfl, hb⟩ := ih (by simpa using h)
        exact ⟨part, hn, hp, before, k + 1, by simp [List.replicate_succ'], hb⟩
      · obtain ⟨before, rest, rfl, hr, hb⟩ := exists_rest chars
        exact ⟨rest ++ [c], by simp, by simp [hr, Ne.symm hc], before, 0, by simp, hb⟩
  exact ⟨String.ofList part, by simpa using hn, by simpa using hp,
    stands_iff.2 (by simpa using hs)⟩

theorem baseName_of_slashes (hn : path ≠ "") (h : ∀ c ∈ path.toList, c = '/') :
    baseName path = "/" := by
  have hd : path.toList.reverse.dropWhile (· == '/') = [] := by
    rw [List.dropWhile_eq_nil_iff]
    intro c hc
    simpa using h c (by simpa using hc)
  simp [baseName, hd, hn]

theorem baseName_cases (path : String) :
    (path = "" ∧ baseName path = ".") ∨
      (path ≠ "" ∧ (∀ c ∈ path.toList, c = '/') ∧ baseName path = "/") ∨
      IsLastPart path (baseName path) := by
  by_cases he : path = ""
  · exact .inl ⟨he, by subst he; rfl⟩
  by_cases hs : ∀ c ∈ path.toList, c = '/'
  · exact .inr (.inl ⟨he, hs, baseName_of_slashes he hs⟩)
  · obtain ⟨part, hp⟩ : ∃ part, IsLastPart path part := exists_lastPart (by simpa using hs)
    exact .inr (.inr ((baseName_of_isLastPart hp).symm ▸ hp))

theorem baseName_baseName (path : String) : baseName (baseName path) = baseName path := by
  obtain ⟨-, h⟩ | ⟨-, -, h⟩ | h := baseName_cases path
  · rw [h]
    decide
  · rw [h]
    decide
  · exact baseName_of_isLastPart (isLastPart_self h.nonempty h.plain)

theorem baseName_withSlashes (hn : path ≠ "") (k : Nat) :
    baseName (withSlashes path k) = baseName path := by
  obtain ⟨he, -⟩ | ⟨-, hs, h⟩ | h := baseName_cases path
  · exact absurd he hn
  · rw [h]
    refine baseName_of_slashes ?_ ?_
    · simp [withSlashes, hn]
    · intro c hc
      rw [toList_withSlashes, List.mem_append] at hc
      obtain hc | hc := hc
      · exact hs c hc
      · exact List.eq_of_mem_replicate hc
  · exact baseName_of_isLastPart (h.withSlashes k)

/-- The name of a path: `.` for no path, `/` for nothing but slashes, and the one last part
otherwise. It is its own name, and slashes at the end of a path do not count. -/
theorem baseName_lastPart (path : String) :
    (path = "" → baseName path = ".") ∧
    (path ≠ "" → (∀ c ∈ path.toList, c = '/') → baseName path = "/") ∧
    ((∃ c ∈ path.toList, c ≠ '/') →
      IsLastPart path (baseName path) ∧ ∀ part, IsLastPart path part → part = baseName path) ∧
    baseName (baseName path) = baseName path ∧
    (path ≠ "" → ∀ k, baseName (withSlashes path k) = baseName path) ∧
    baseName path ≠ "" ∧ ('/' ∈ (baseName path).toList → baseName path = "/") := by
  refine ⟨?_, baseName_of_slashes, fun hs => ?_, baseName_baseName path, baseName_withSlashes, ?_⟩
  · rintro rfl
    rfl
  · obtain ⟨part, hp⟩ := exists_lastPart hs
    have hname := baseName_of_isLastPart hp
    exact ⟨hname.symm ▸ hp, fun other ho => (baseName_of_isLastPart ho).symm⟩
  · obtain ⟨-, h⟩ | ⟨-, -, h⟩ | h := baseName_cases path
    · simp [h]
    · simp [h]
    · exact ⟨h.nonempty, fun hm => absurd hm h.plain⟩

example : baseName "/std//fmt//" = "fmt" := by decide

end ScriptFrontend
