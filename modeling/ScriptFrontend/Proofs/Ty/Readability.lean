import Mathlib.Data.List.TakeWhile
import ScriptFrontend.Proofs.Script.Printing

/-! Types can be told from their texts.

The text of a type shows where it ends, whatever is written behind it, as long as that can not be
taken for more of it (`Unambiguous`). This goes through types and features by turns, and a list of
either is told from what separates its parts and what closes it.
-/

set_option autoImplicit false

namespace ScriptFrontend

open Longest

/-- A text that a scan takes for one name, a keyword included. -/
def IsWord (text : String) : Prop :=
  Lexes text.toList (Lexeme.wordKind text) (.string text)

mutual

/-- Every name is a word. Only functions have arguments, and only a type without features may be
unknown. -/
def Ty.Readable : Ty → Prop
  | .mk name features =>
    (IsWord name ∨ name = "" ∧ features = []) ∧ Feature.ReadableAll features

def Ty.ReadableAll : List Ty → Prop
  | [] => True
  | t :: ts => Ty.Readable t ∧ Ty.ReadableAll ts

def Feature.Readable : Feature → Prop
  | .mk kind name args ret =>
    IsWord name ∧ (kind = .func ∨ args = []) ∧ Ty.ReadableAll args ∧ Ty.Readable ret

def Feature.ReadableAll : List Feature → Prop
  | [] => True
  | f :: fs => Feature.Readable f ∧ Feature.ReadableAll fs

end

theorem Ty.readableAll_iff {ts : List Ty} : ReadableAll ts ↔ ∀ t ∈ ts, t.Readable := by
  induction ts with
  | nil => simp [ReadableAll]
  | cons t ts ih => simp [ReadableAll, ih]

theorem Feature.readableAll_iff {fs : List Feature} :
    ReadableAll fs ↔ ∀ f ∈ fs, f.Readable := by
  induction fs with
  | nil => simp [ReadableAll]
  | cons f fs ih => simp [ReadableAll, ih]

theorem Ty.renderAll_eq (ts : List Ty) : renderAll ts = ts.map render := by
  induction ts with
  | nil => rfl
  | cons t ts ih => simp [renderAll, ih]

theorem Feature.renderAll_eq (fs : List Feature) : renderAll fs = fs.map render := by
  induction fs with
  | nil => rfl
  | cons f fs ih => simp [renderAll, ih]

def isNamePart (c : Char) : Bool :=
  isWordPart c || c == '!'

theorem wordKind_cases (text : String) :
    Lexeme.wordKind text = .ident ∨ ∃ word, Lexeme.wordKind text = .keyword word := by
  unfold Lexeme.wordKind
  split <;> simp

theorem IsWord.parts {text : String} (h : IsWord text) :
    text.toList ≠ [] ∧ ∀ c ∈ text.toList, isNamePart c := by
  obtain ⟨c, cs, hc, -, -, ht, hd⟩ := h
  have hf := Printing.form_of_name (wordKind_cases text) hd
  simp only [tail, hf, wordTail_eq_self] at ht
  have hfirst : isNamePart c := by
    have hw := Printing.form_eq_word.1 hf
    simp only [isNamePart, isWordPart, Text.isAlphanumeric, Bool.or_eq_true] at hw ⊢
    tauto
  have hrest : ∀ d ∈ cs, isNamePart d := by
    intro d hm
    rw [← List.takeWhile_append_dropWhile (p := isWordPart) (l := cs), List.mem_append] at hm
    obtain hm | hm := hm
    · simp [isNamePart, List.mem_takeWhile_imp hm]
    · obtain he | he : cs.dropWhile isWordPart = [] ∨ cs.dropWhile isWordPart = ['!'] := by
        simpa using ht
      all_goals simp_all [isNamePart]
  rw [hc, List.forall_mem_cons]
  exact ⟨by simp, hfirst, hrest⟩

theorem isWord_iff {text : String} :
    IsWord text ↔ Printing.isName text ∨ ∃ word : Keyword, word.spelling = text := by
  constructor
  · intro h
    obtain hk | ⟨word, hk⟩ := wordKind_cases text
    · exact .inl (Printing.isName_iff.2 (by rwa [IsWord, hk] at h))
    · refine .inr ⟨word, ?_⟩
      unfold Lexeme.wordKind at hk
      split at hk <;> cases hk
      rename_i hw
      simpa using List.find?_some hw
  · rintro (h | ⟨word, rfl⟩)
    · have hk : Keyword.ofSpelling? text = none := by
        unfold Printing.isName at h
        split at h <;> simp_all
      rw [IsWord, Printing.wordKind_eq_ident.2 hk]
      exact Printing.isName_iff.1 h
    · have hk : Lexeme.wordKind word.spelling = .keyword word := by cases word <;> decide
      rw [IsWord, hk]
      exact lexes_keyword word

theorem IsWord.cons_ne {text : String} (h : IsWord text) {c : Char} (hc : isNamePart c = false)
    (u w : List Char) : c :: u ≠ text.toList ++ w := by
  intro he
  obtain ⟨hne, hp⟩ := h.parts
  obtain ⟨d, ds, hd⟩ := List.exists_cons_of_ne_nil hne
  rw [hd, List.cons_append, List.cons.injEq] at he
  obtain ⟨rfl, -⟩ := he
  simp [hp c (by simp [hd])] at hc

theorem append_unique {n m u v : List Char} (hn : ∀ c ∈ n, isNamePart c)
    (hm : ∀ c ∈ m, isNamePart c) (hu : ∀ c ∈ u.head?, isNamePart c = false)
    (hv : ∀ c ∈ v.head?, isNamePart c = false) (h : n ++ u = m ++ v) : n = m ∧ u = v := by
  have stop {w : List Char} (hw : ∀ c ∈ w.head?, isNamePart c = false) :
      w.takeWhile isNamePart = [] := by
    cases w with
    | nil => rfl
    | cons c w => exact List.takeWhile_cons_of_neg (by simp [hw c rfl])
  have ht := congrArg (List.takeWhile isNamePart) h
  rw [List.takeWhile_append_of_pos hn, List.takeWhile_append_of_pos hm, stop hu, stop hv,
    List.append_nil, List.append_nil] at ht
  subst ht
  exact ⟨rfl, List.append_cancel_left h⟩

section Unambiguous

variable {α : Type} {P : α → Prop} {text : α → List Char} {Closes : List Char → Prop}

/-- The text of `a` is told from any other, behind which something else may be written. -/
def Unambiguous (P : α → Prop) (text : α → List Char) (Closes : List Char → Prop) (a : α) : Prop :=
  ∀ b, P b → ∀ u v, Closes u → Closes v → text a ++ u = text b ++ v → a = b ∧ u = v

theorem Unambiguous.separated {sep close : List Char} (hsep : ∀ u, Closes (sep ++ u))
    (hclose : ∀ u, Closes (close ++ u)) (hne : ∀ u v, sep ++ u ≠ close ++ v) {as bs : List α}
    {u v : List Char} (has : ∀ a ∈ as, Unambiguous P text Closes a) (hbs : ∀ b ∈ bs, P b)
    (h : as.flatMap (fun a => sep ++ text a) ++ (close ++ u) =
      bs.flatMap (fun b => sep ++ text b) ++ (close ++ v)) : as = bs ∧ u = v := by
  have closes (cs : List α) (w : List Char) :
      Closes (cs.flatMap (fun c => sep ++ text c) ++ (close ++ w)) := by
    cases cs with
    | nil => exact hclose w
    | cons c cs =>
      rw [List.flatMap_cons, List.append_assoc, List.append_assoc]
      exact hsep _
  induction as generalizing bs with
  | nil =>
    cases bs with
    | nil => exact ⟨rfl, List.append_cancel_left h⟩
    | cons b bs =>
      simp only [List.flatMap_nil, List.nil_append, List.flatMap_cons, List.append_assoc] at h
      exact absurd h.symm (hne _ _)
  | cons a as ih =>
    cases bs with
    | nil =>
      simp only [List.flatMap_nil, List.nil_append, List.flatMap_cons, List.append_assoc] at h
      exact absurd h (hne _ _)
    | cons b bs =>
      rw [List.forall_mem_cons] at has hbs
      simp only [List.flatMap_cons, List.append_assoc, List.append_cancel_left_eq] at h
      obtain ⟨rfl, hrest⟩ := has.1 b hbs.1 _ _ (closes as u) (closes bs v) h
      obtain ⟨rfl, huv⟩ := ih has.2 hbs.2 hrest
      exact ⟨rfl, huv⟩

theorem intercalate_cons (sep x : List Char) (xs : List (List Char)) :
    sep.intercalate (x :: xs) = x ++ xs.flatMap (sep ++ ·) := by
  induction xs generalizing x with
  | nil => simp
  | cons y ys ih => rw [List.intercalate_cons_cons, ih]; simp

theorem Unambiguous.intercalated {sep close : List Char} (hsep : ∀ u, Closes (sep ++ u))
    (hclose : ∀ u, Closes (close ++ u)) (hne : ∀ u v, sep ++ u ≠ close ++ v) {a b : α}
    {as bs : List α} {u v : List Char} (has : ∀ c ∈ a :: as, Unambiguous P text Closes c)
    (hbs : ∀ c ∈ b :: bs, P c)
    (h : sep.intercalate ((a :: as).map text) ++ (close ++ u) =
      sep.intercalate ((b :: bs).map text) ++ (close ++ v)) : a :: as = b :: bs ∧ u = v := by
  refine separated hsep hclose hne has hbs ?_
  have hfront := congrArg (sep ++ ·) h
  simpa [intercalate_cons, List.flatMap_map] using hfront

end Unambiguous

/-- What may follow the text of a type: it neither makes the name longer nor opens a list of
features. -/
def Closes (after : List Char) : Prop :=
  (∀ c ∈ after.head?, isNamePart c = false) ∧ ∀ w, after ≠ ' ' :: '\x7b' :: w

theorem closes_nil : Closes [] :=
  ⟨by simp, by simp⟩

theorem closes_cons {c d : Char} (hc : isNamePart c = false) (hd : d ≠ '\x7b')
    (after : List Char) : Closes ([c, d] ++ after) := by
  refine ⟨by simpa using hc, fun w hw => hd ?_⟩
  simp only [List.cons_append, List.cons.injEq] at hw
  exact hw.2.1

namespace Ty

theorem toList_render_unknown : (mk "" []).render.toList = "<unknown>".toList := rfl

def featuresText : List Feature → List Char
  | [] => []
  | f :: fs => [' ', '\x7b', ' '] ++
      ([';', ' '].intercalate ((f :: fs).map fun g => g.render.toList) ++ [' ', '\x7d'])

theorem toList_render {name : String} (hn : name ≠ "") (features : List Feature) :
    (mk name features).render.toList = name.toList ++ featuresText features := by
  cases features with
  | nil => simp [render, hn, featuresText]
  | cons f fs =>
    simp [render, hn, featuresText, Feature.renderAll_eq, String.toList_intercalate,
      Function.comp_def]

theorem featuresText_unique {fs gs : List Feature} {u v : List Char}
    (hfs : ∀ f ∈ fs, Unambiguous Feature.Readable (fun g => g.render.toList) Closes f)
    (hgs : ∀ g ∈ gs, g.Readable) (hu : Closes u) (hv : Closes v)
    (h : featuresText fs ++ u = featuresText gs ++ v) : fs = gs ∧ u = v := by
  cases fs with
  | nil =>
    cases gs with
    | nil => exact ⟨rfl, h⟩
    | cons g gs => exact absurd h (hu.2 _)
  | cons f fs =>
    cases gs with
    | nil => exact absurd h.symm (hv.2 _)
    | cons g gs =>
      simp only [featuresText, List.append_assoc, List.append_cancel_left_eq] at h
      exact Unambiguous.intercalated (closes_cons (by decide +kernel) (by decide))
        (closes_cons (by decide +kernel) (by decide)) (by simp) hfs hgs h

theorem close_ne {t : Ty} (ht : t.Readable) (u w : List Char) :
    ')' :: u ≠ t.render.toList ++ w := by
  obtain ⟨name, features⟩ := t
  obtain ⟨hn | ⟨rfl, rfl⟩, -⟩ := ht
  · have hne : name ≠ "" := by simpa using hn.parts.1
    rw [toList_render hne, List.append_assoc]
    exact hn.cons_ne (by decide +kernel) _ _
  · rw [toList_render_unknown]
    simp

theorem head_featuresText {fs : List Feature} {u : List Char} (hu : Closes u) :
    ∀ c ∈ (featuresText fs ++ u).head?, isNamePart c = false := by
  intro c hc
  cases fs with
  | nil => exact hu.1 c hc
  | cons f fs =>
    obtain rfl : ' ' = c := by simpa [featuresText] using hc
    decide +kernel

theorem unambiguous_mk {name : String} {features : List Feature}
    (hn : IsWord name ∨ name = "" ∧ features = [])
    (hfs : ∀ f ∈ features, Unambiguous Feature.Readable (fun g => g.render.toList) Closes f) :
    Unambiguous Readable (fun t => t.render.toList) Closes (mk name features) := by
  intro t ht u v hu hv h
  obtain ⟨other, others⟩ := t
  obtain ⟨hm, hgs⟩ := ht
  dsimp only at h
  have named {text : String} (hw : IsWord text) : text ≠ "" := by simpa using hw.parts.1
  obtain hn | ⟨rfl, rfl⟩ := hn
  · rw [toList_render (named hn) features, List.append_assoc] at h
    obtain hm | ⟨rfl, rfl⟩ := hm
    · rw [toList_render (named hm) others, List.append_assoc] at h
      obtain ⟨hname, hrest⟩ := append_unique hn.parts.2 hm.parts.2 (head_featuresText hu)
        (head_featuresText hv) h
      obtain ⟨rfl, huv⟩ :=
        featuresText_unique hfs (Feature.readableAll_iff.1 hgs) hu hv hrest
      exact ⟨by rw [String.toList_injective hname], huv⟩
    · exact absurd h.symm (hn.cons_ne (by decide +kernel) _ _)
  · obtain hm | ⟨rfl, rfl⟩ := hm
    · rw [toList_render (named hm) others, List.append_assoc] at h
      exact absurd h (hm.cons_ne (by decide +kernel) _ _)
    · exact ⟨rfl, List.append_cancel_left h⟩

end Ty

namespace Feature

def argsText : FeatureKind → List Ty → List Char
  | .func, args => '(' :: ([',', ' '].intercalate (args.map fun t => t.render.toList) ++ [')', ' '])
  | _, _ => [' ']

theorem toList_render (kind : FeatureKind) (name : String) (args : List Ty) (ret : Ty) :
    (mk kind name args ret).render.toList =
      kind.name.toList ++ ' ' :: (name.toList ++ (argsText kind args ++ ret.render.toList)) := by
  cases kind <;>
    simp [render, argsText, FeatureKind.name, Ty.renderAll_eq, String.toList_intercalate,
      Function.comp_def]

theorem kind_unique {k l : FeatureKind} {u v : List Char}
    (h : k.name.toList ++ ' ' :: u = l.name.toList ++ ' ' :: v) : k = l ∧ u = v := by
  cases k <;> cases l <;> simp_all [FeatureKind.name]

theorem argsText_unique {kind : FeatureKind} {as bs : List Ty} {u v : List Char}
    (has : ∀ t ∈ as, Unambiguous Ty.Readable (fun t => t.render.toList) Closes t)
    (hra : ∀ t ∈ as, t.Readable) (hrb : ∀ t ∈ bs, t.Readable) (hka : kind = .func ∨ as = [])
    (hkb : kind = .func ∨ bs = []) (h : argsText kind as ++ u = argsText kind bs ++ v) :
    as = bs ∧ u = v := by
  by_cases hk : kind = .func
  · subst hk
    simp only [argsText, List.cons_append, List.append_assoc, List.cons.injEq, true_and] at h
    cases as with
    | nil =>
      cases bs with
      | nil => exact ⟨rfl, by simpa using h⟩
      | cons b bs =>
        rw [List.map_cons, intercalate_cons, List.append_assoc] at h
        exact absurd h (Ty.close_ne (hrb b (by simp)) _ _)
    | cons a as =>
      cases bs with
      | nil =>
        rw [List.map_cons, intercalate_cons, List.append_assoc] at h
        exact absurd h.symm (Ty.close_ne (hra a (by simp)) _ _)
      | cons b bs =>
        exact Unambiguous.intercalated (closes_cons (by decide +kernel) (by decide))
          (closes_cons (by decide +kernel) (by decide)) (by simp) has hrb h
  · obtain rfl := hka.resolve_left hk
    obtain rfl := hkb.resolve_left hk
    exact ⟨rfl, List.append_cancel_left h⟩

theorem head_argsText (kind : FeatureKind) (args : List Ty) (u : List Char) :
    ∀ c ∈ (argsText kind args ++ u).head?, isNamePart c = false := by
  intro c hc
  cases kind with
  | func =>
    obtain rfl : '(' = c := by simpa [argsText] using hc
    decide +kernel
  | letBinding | memLayout =>
    obtain rfl : ' ' = c := by simpa [argsText] using hc
    decide +kernel

theorem unambiguous_mk {kind : FeatureKind} {name : String} {args : List Ty} {ret : Ty}
    (hf : (mk kind name args ret).Readable)
    (hargs : ∀ t ∈ args, Unambiguous Ty.Readable (fun t => t.render.toList) Closes t)
    (hret : Unambiguous Ty.Readable (fun t => t.render.toList) Closes ret) :
    Unambiguous Readable (fun f => f.render.toList) Closes (mk kind name args ret) := by
  intro f hg u v hu hv h
  obtain ⟨other, otherName, others, otherRet⟩ := f
  obtain ⟨hn, hk, has, -⟩ := hf
  obtain ⟨hm, hl, hbs, hr⟩ := hg
  simp only [toList_render, List.append_assoc, List.cons_append] at h
  obtain ⟨rfl, hback⟩ := kind_unique h
  obtain ⟨hname, hrest⟩ := append_unique hn.parts.2 hm.parts.2 (head_argsText _ _ _)
    (head_argsText _ _ _) hback
  obtain ⟨rfl, hresult⟩ := argsText_unique hargs (Ty.readableAll_iff.1 has)
    (Ty.readableAll_iff.1 hbs) hk hl hrest
  obtain ⟨rfl, huv⟩ := hret _ hr u v hu hv hresult
  exact ⟨by rw [String.toList_injective hname], huv⟩

end Feature

mutual

theorem Ty.unambiguous : (t : Ty) → t.Readable →
    Unambiguous Ty.Readable (fun t => t.render.toList) Closes t
  | .mk _ features, ht => Ty.unambiguous_mk ht.1 (Feature.unambiguousAll features ht.2)

theorem Ty.unambiguousAll : (ts : List Ty) → Ty.ReadableAll ts →
    ∀ t ∈ ts, Unambiguous Ty.Readable (fun t => t.render.toList) Closes t
  | [], _ => by simp
  | t :: ts, ht => List.forall_mem_cons.2 ⟨Ty.unambiguous t ht.1, Ty.unambiguousAll ts ht.2⟩

theorem Feature.unambiguous : (f : Feature) → f.Readable →
    Unambiguous Feature.Readable (fun f => f.render.toList) Closes f
  | .mk _ _ args ret, hf =>
    Feature.unambiguous_mk hf (Ty.unambiguousAll args hf.2.2.1) (Ty.unambiguous ret hf.2.2.2)

theorem Feature.unambiguousAll : (fs : List Feature) → Feature.ReadableAll fs →
    ∀ f ∈ fs, Unambiguous Feature.Readable (fun f => f.render.toList) Closes f
  | [], _ => by simp
  | f :: fs, hf =>
    List.forall_mem_cons.2 ⟨Feature.unambiguous f hf.1, Feature.unambiguousAll fs hf.2⟩

end

/-- Different types have different texts, as long as their names are words. -/
theorem Ty.render_inj {s t : Ty} (hs : s.Readable) (ht : t.Readable) :
    s.render = t.render ↔ s = t := by
  constructor
  · intro h
    have htext : s.render.toList ++ [] = t.render.toList ++ [] := by rw [h]
    exact (s.unambiguous hs t ht [] [] closes_nil closes_nil htext).1
  · rintro rfl
    rfl

/-- Two texts with the same parts in the same order. A feature belongs to the result of the one
before it, or stands next to that one. -/
theorem Ty.render_inj_nested :
    let x := Feature.mk .letBinding "x" [] (.named "C")
    let y := Feature.mk .memLayout "y" [] unknown
    let s := mk "A" [.mk .func "f" [.named "let"] (mk "B" [x]), y]
    let t := mk "A" [.mk .func "f" [.named "let"] (mk "B" [x, y])]
    s.Readable ∧ t.Readable ∧
      s.render = "A \x7b func f(let) B \x7b let x C \x7d; mem_layout y <unknown> \x7d" ∧
      t.render = "A \x7b func f(let) B \x7b let x C; mem_layout y <unknown> \x7d \x7d" ∧
      s ≠ t ∧ (s.render = t.render ↔ s = t) := by
  intro x y s t
  have hname : ∀ text ∈ ["A", "B", "C", "f", "x", "y"], IsWord text := by
    intro text ht
    refine isWord_iff.2 (.inl ?_)
    revert text
    decide +kernel
  have hlet : IsWord "let" := isWord_iff.2 (.inr ⟨.letKw, rfl⟩)
  simp only [List.forall_mem_cons] at hname
  have hs : s.Readable := by
    simp [s, x, y, Readable, ReadableAll, Feature.Readable, Feature.ReadableAll, named, unknown,
      hname, hlet]
  have ht : t.Readable := by
    simp [t, x, y, Readable, ReadableAll, Feature.Readable, Feature.ReadableAll, named, unknown,
      hname, hlet]
  exact ⟨hs, ht, by decide, by decide, by simp [s, t], render_inj hs ht⟩

end ScriptFrontend
