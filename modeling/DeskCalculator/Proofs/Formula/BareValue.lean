import DeskCalculator.Proofs.Formula.Unwrapped
import DeskCalculator.Proofs.Formula.ValueAt
import Mathlib.Data.List.Chain
import Mathlib.Data.List.TakeWhile

/-!
# Giving the variable a value and typing it

In a line whose products all have their signs, giving the variable a value is typing that value in
parentheses. The parentheses may be left out where the variable is an operand of its own and the
value has no minus sign, except in front of a percent sign: behind the parentheses it is the
remainder, and behind the number alone it makes a percentage. At the end of a line, with nothing
but operator signs behind it, a percent sign does no harm, since it is dropped either way.
-/

namespace DeskCalculator

/-! ## Lines -/

/-- No product of the line is written without its sign. -/
def IsSigned (line : List Char) : Prop :=
  (line.filter (!isBlank ·)).IsChain fun c d ↦ meet c d = false

/-- Every variable of the line is an operand of its own: it stands at an end of the line, within
parentheses or next to operator signs. -/
def HasWholeVariables (line : List Char) : Prop :=
  line.IsChain fun c d ↦ (isVariable d = true → c ∈ "(+-*/%^×÷".toList) ∧
    (isVariable c = true → d ∈ ")+-*/%^×÷".toList)

/-- No variable has a percent sign behind it. -/
def HasPlainVariables (line : List Char) : Prop :=
  line.IsChain fun c d ↦ isVariable c = true → d ≠ '%'

instance (line : List Char) : Decidable (IsSigned line) :=
  inferInstanceAs (Decidable (List.IsChain _ _))

instance (line : List Char) : Decidable (HasWholeVariables line) :=
  inferInstanceAs (Decidable (List.IsChain _ _))

instance (line : List Char) : Decidable (HasPlainVariables line) :=
  inferInstanceAs (Decidable (List.IsChain _ _))

/-- What a character becomes when a text takes the place of the variable. -/
def put (text : List Char) (c : Char) : List Char := if isVariable c then text else [c]

variable {line s text : List Char} {c d : Char}

/-! ## Signs of products -/

/-- A line passes if no two of its characters with only blanks between them ask for a sign. -/
theorem signBetween_eq_self_of_isChain {r : Char → Char → Bool} (hr : Separates r)
    (h : (s.filter (!isBlank ·)).IsChain fun c d ↦ r c d = false) : signBetween r s = s := by
  induction s with
  | nil => simp
  | cons c s ih =>
    by_cases hc : isBlank c = true
    · rw [List.filter_cons_of_neg (by rw [hc]; exact Bool.false_ne_true)] at h
      rw [signBetween_cons_of_not (fun d ↦ hr.not_left (.inl hc)), ih h]
    · rw [Bool.not_eq_true] at hc
      rw [List.filter_cons_of_pos (by rw [hc]; rfl), List.isChain_cons] at h
      have hhead : (s.dropWhile isBlank).head? = (s.filter (!isBlank ·)).head? := by
        rw [List.head?_filter, List.find?_not_eq_head?_dropWhile]
      rw [signBetween_cons_of_not_any, ih h.2]
      rw [hhead, ← Bool.not_eq_true, Option.any_eq_true]
      rintro ⟨d, hd, hcd⟩
      rw [h.1 d hd] at hcd
      cases hcd

/-! ## Glyphs -/

theorem spell_eq_or (c : Char) :
    spell c = [c] ∨ spell c = ['*'] ∨ spell c = ['/'] ∨ spell c = ['*', '*'] := by
  cases hc : isGlyph c with
  | false => exact .inl (spell_of_not_isGlyph hc)
  | true =>
    rcases isGlyph_iff.mp hc with rfl | rfl | rfl
    · exact .inr (.inl rfl)
    · exact .inr (.inr (.inl rfl))
    · exact .inr (.inr (.inr rfl))

theorem spell_ne_nil (c : Char) : spell c ≠ [] := by
  rcases spell_eq_or c with h | h | h | h <;> rw [h] <;> exact List.cons_ne_nil _ _

theorem isChain_spell {r : Char → Char → Prop} (h : r '*' '*') (c : Char) :
    (spell c).IsChain r := by
  rcases spell_eq_or c with hc | hc | hc | hc <;> rw [hc]
  · exact .singleton c
  · exact .singleton '*'
  · exact .singleton '/'
  · exact List.isChain_pair.mpr h

theorem eq_of_mem_spell {p : Char → Bool} (hstar : p '*' = false) (hslash : p '/' = false)
    (hd : d ∈ spell c) (h : p d = true) : d = c := by
  have hsigns : d ≠ '*' ∧ d ≠ '/' := by
    constructor <;> rintro rfl
    · rw [hstar] at h
      cases h
    · rw [hslash] at h
      cases h
  rcases spell_eq_or c with hc | hc | hc | hc <;> rw [hc] at hd <;> simp_all

theorem isGlyph_of_mem_spell (hd : d ∈ spell c) : isGlyph d = false := by
  cases hc : isGlyph c with
  | false =>
    rw [spell_of_not_isGlyph hc, List.mem_singleton] at hd
    rwa [hd]
  | true =>
    have hsigns : d = '*' ∨ d = '/' := by
      rcases isGlyph_iff.mp hc with rfl | rfl | rfl
      · exact .inl (List.mem_singleton.mp hd)
      · exact .inr (List.mem_singleton.mp hd)
      · exact .inl ((List.mem_cons.mp hd).elim id List.mem_singleton.mp)
    rcases hsigns with rfl | rfl <;> rfl

@[simp] theorem spellOut_spellOut (s : List Char) : spellOut (spellOut s) = spellOut s := by
  refine spellOut_eq_self fun d hd ↦ ?_
  obtain ⟨c, -, hd⟩ := List.mem_flatMap.mp hd
  exact isGlyph_of_mem_spell hd

/-- What holds of the characters of a line next to each other holds of its spelling. -/
theorem isChain_spellOut {r q : Char → Char → Prop} (hstars : q '*' '*')
    (h : ∀ c d, r c d → ∀ c' ∈ (spell c).getLast?, ∀ d' ∈ (spell d).head?, q c' d')
    (hs : s.IsChain r) : (spellOut s).IsChain q := by
  have hne : [] ∉ s.map spell := by
    rw [List.mem_map]
    rintro ⟨c, -, hc⟩
    exact spell_ne_nil c hc
  rw [spellOut, List.flatMap, List.isChain_flatten hne, List.forall_mem_map, List.isChain_map]
  exact ⟨fun c _ ↦ isChain_spell hstars c, hs.imp h⟩

theorem filter_spellOut (s : List Char) :
    (spellOut s).filter (!isBlank ·) = spellOut (s.filter (!isBlank ·)) := by
  induction s with
  | nil => rfl
  | cons c s ih =>
    rw [spellOut_cons, List.filter_append, ih]
    by_cases hc : isBlank c = true
    · simp [spell_of_not_isGlyph (isGlyph_of_isBlank hc), hc]
    · have hspell : (spell c).filter (!isBlank ·) = spell c := by
        refine List.filter_eq_self.mpr fun d hd ↦ ?_
        rw [Bool.not_eq_true', ← Bool.not_eq_true]
        intro hd'
        exact hc (eq_of_mem_spell (by decide) (by decide) hd hd' ▸ hd')
      simp [hspell, hc]

theorem IsSigned.signProducts (h : IsSigned line) : signProducts line = spellOut line := by
  rw [signProducts_eq_signBetween]
  refine signBetween_eq_self_of_isChain separates_meet ?_
  rw [filter_spellOut]
  refine isChain_spellOut (by decide) (fun c d hmeet c' hc' d' hd' ↦ ?_) h
  rw [← Bool.not_eq_true]
  intro hm
  obtain ⟨hc, hd⟩ := isFactorEnd_of_meet hm
  obtain rfl := eq_of_mem_spell (by decide) (by decide) (List.mem_of_getLast? hc') hc
  obtain rfl := eq_of_mem_spell (by decide) (by decide) (List.mem_of_head? hd') hd
  rw [hmeet] at hm
  cases hm

/-! ## A text in place of the variable -/

@[simp] theorem put_of_isVariable (hc : isVariable c = true) : put text c = text := if_pos hc

@[simp] theorem put_of_not_isVariable (hc : isVariable c = false) : put text c = [c] := by
  rw [put, hc, if_neg Bool.false_ne_true]

theorem flatMap_put_eq_self (h : ∀ c ∈ s, isVariable c = false) : s.flatMap (put text) = s := by
  induction s with
  | nil => rfl
  | cons c s ih =>
    rw [List.forall_mem_cons] at h
    simp [h.1, ih h.2]

theorem spellOut_flatMap_put (htext : ∀ c ∈ text, isGlyph c = false) (s : List Char) :
    spellOut (s.flatMap (put text)) = (spellOut s).flatMap (put text) := by
  induction s with
  | nil => rfl
  | cons c s ih =>
    have hone : spellOut (put text c) = (spell c).flatMap (put text) := by
      cases hc : isVariable c with
      | true =>
        have hglyph : isGlyph c = false := Typed.isGlyph_of_isLast (.inr (.inr hc))
        simp [hc, spellOut_eq_self htext, spell_of_not_isGlyph hglyph]
      | false =>
        have hspell : ∀ d ∈ spell c, isVariable d = false := by
          intro d hd
          rw [← Bool.not_eq_true]
          intro hd'
          rw [eq_of_mem_spell (by decide) (by decide) hd hd', hc] at hd'
          cases hd'
        simp [hc, flatMap_put_eq_self hspell]
    simp [hone, ih]

theorem dropEndWhile_flatMap_put {p : Char → Bool}
    (hvariable : ∀ c, isVariable c = true → p c = false)
    (htext : ∃ u d, text = u ++ [d] ∧ p d = false) (s : List Char) :
    dropEndWhile p (s.flatMap (put text)) = (dropEndWhile p s).flatMap (put text) := by
  obtain ⟨t, ht, hs⟩ := exists_dropEndWhile_append p s
  have hplain : ∀ c ∈ t, isVariable c = false := by
    intro c hc
    rw [← Bool.not_eq_true]
    intro hc'
    have hdropped := ht c hc
    rw [hvariable c hc'] at hdropped
    cases hdropped
  have happend : s.flatMap (put text) = (dropEndWhile p s).flatMap (put text) ++ t := by
    rw [← flatMap_put_eq_self hplain, ← List.flatMap_append, hs]
  rw [happend, dropEndWhile_append_of_pos ht]
  rcases dropEndWhile_eq_nil_or p s with hnil | ⟨w, c, hw, hc⟩
  · rw [hnil]
    rfl
  · rw [hw, List.flatMap_append, List.flatMap_singleton]
    cases hc' : isVariable c with
    | true =>
      obtain ⟨u, d, rfl, hd⟩ := htext
      rw [put_of_isVariable hc', ← List.append_assoc, dropEndWhile_append_singleton hd]
    | false => rw [put_of_not_isVariable hc', dropEndWhile_append_singleton hc]

theorem finished_flatMap_put (hglyph : ∀ c ∈ text, isGlyph c = false)
    (hend : ∃ u d, text = u ++ [d] ∧ isUnfinished d = false) (line : List Char) :
    finished (line.flatMap (put text)) = (finished line).flatMap (put text) := by
  have hvariable : ∀ c, isVariable c = true → isUnfinished c = false := fun c hc ↦
    Typed.isUnfinished_of_isLast (.inr (.inr hc))
  rw [finished, spellOut_flatMap_put hglyph, dropEndWhile_flatMap_put hvariable hend, finished]

/-! ## Leaving the parentheses out -/

/-- What the value may stand next to without its parentheses. -/
def Apart (c d : Char) : Prop :=
  (isVariable d = true → isDecimalDigit c = false ∧ c ≠ '.') ∧
    (isVariable c = true → isDecimalDigit d = false ∧ d ≠ '.' ∧ isVariable d = false)

theorem HasWholeVariables.isChain_finished (h : HasWholeVariables line) :
    (finished line).IsChain Apart := by
  have hopens : ∀ c ∈ "(+-*/%^×÷".toList, ∀ c' ∈ (spell c).getLast?,
      isDecimalDigit c' = false ∧ c' ≠ '.' := by
    have hall : "(+-*/%^×÷".toList.all (fun c ↦ !isDecimalDigit c && c != '.') = true := by decide
    intro c hc
    rcases spell_eq_or c with h | h | h | h <;> rw [h] <;> rintro c' ⟨⟩
    · simpa using List.all_eq_true.mp hall c hc
    all_goals decide
  have hcloses : ∀ d ∈ ")+-*/%^×÷".toList, ∀ d' ∈ (spell d).head?,
      isDecimalDigit d' = false ∧ d' ≠ '.' ∧ isVariable d' = false := by
    have hall : ")+-*/%^×÷".toList.all
        (fun d ↦ !isDecimalDigit d && (d != '.' && !isVariable d)) = true := by decide
    intro d hd
    rcases spell_eq_or d with h | h | h | h <;> rw [h] <;> rintro d' ⟨⟩
    · simpa using List.all_eq_true.mp hall d hd
    all_goals decide
  have hspelled : (spellOut line).IsChain Apart := by
    refine isChain_spellOut ?_ (fun c d hcd c' hc' d' hd' ↦ ⟨fun hv ↦ ?_, fun hv ↦ ?_⟩) h
    · exact ⟨fun h ↦ absurd h (by decide), fun h ↦ absurd h (by decide)⟩
    · obtain rfl := eq_of_mem_spell (by decide) (by decide) (List.mem_of_head? hd') hv
      exact hopens c (hcd.1 hv) c' hc'
    · obtain rfl := eq_of_mem_spell (by decide) (by decide) (List.mem_of_getLast? hc') hv
      exact hcloses d (hcd.2 hv) d' hd'
  obtain ⟨t, -, ht⟩ := exists_dropEndWhile_append isUnfinished (spellOut line)
  exact hspelled.prefix ⟨t, ht⟩

theorem head?_flatMap_put (h : ∀ d ∈ s.head?, isVariable d = false) :
    (s.flatMap (put text)).head? = s.head? := by
  cases s with
  | nil => rfl
  | cons c s => simp [h c rfl]

/-- The value may stand without its parentheses where nothing next to it is part of a number and no
percent sign follows. -/
theorem unwrapped_flatMap_put (l : Literal) (hs : s.IsChain Apart) (hplain : HasPlainVariables s) :
    Unwrapped l (s.flatMap (put ('(' :: l.text ++ [')']))) (s.flatMap (put l.text)) := by
  induction s with
  | nil => exact .refl []
  | cons c s ih =>
    rw [List.isChain_cons] at hs
    rw [HasPlainVariables, List.isChain_cons] at hplain
    have hrest := ih hs.2 hplain.2
    cases hc : isVariable c with
    | true =>
      have hplaces : ∀ d ∈ s.head?, isVariable d = false := fun d hd ↦ ((hs.1 d hd).2 hc).2.2
      have hclear : IsClear (s.flatMap (put l.text)) := by
        intro d hd
        rw [head?_flatMap_put hplaces] at hd
        obtain ⟨hdigit, hpoint, -⟩ := (hs.1 d hd).2 hc
        exact ⟨hdigit, hpoint, hplain.1 d hd hc⟩
      have hunwrap := Unwrapped.unwrap endsApart_nil hclear hrest
      rw [List.flatMap_cons, List.flatMap_cons, put_of_isVariable hc, put_of_isVariable hc,
        List.append_assoc, List.singleton_append]
      exact hunwrap
    | false =>
      rw [List.flatMap_cons, List.flatMap_cons, put_of_not_isVariable hc, put_of_not_isVariable hc]
      refine hrest.cons ?_
      by_cases hplaces : ∀ d ∈ s.head?, isVariable d = false
      · exact .inr (by rw [head?_flatMap_put hplaces, head?_flatMap_put hplaces])
      · push Not at hplaces
        obtain ⟨d, hd, hvariable⟩ := hplaces
        refine .inl ?_
        rintro e ⟨⟩
        exact (hs.1 d hd).1 (Bool.not_eq_false _ ▸ hvariable)

/-! ## The value of a line -/

section Value

variable {v : Float}

theorem isGlyph_of_mem_parens (htext : ∀ c ∈ text, isGlyph c = false) :
    ∀ c ∈ '(' :: text ++ [')'], isGlyph c = false := by
  rw [List.forall_mem_append, List.forall_mem_cons, List.forall_mem_singleton]
  exact ⟨⟨rfl, htext⟩, rfl⟩

/-- Around a literal the parentheses make no difference. -/
theorem toOption_evaluateLine_put (l : Literal) (hwhole : HasWholeVariables line)
    (hplain : HasPlainVariables (finished line)) :
    (evaluateLine (line.flatMap (put ('(' :: l.text ++ [')'])))).toOption =
      (evaluateLine (line.flatMap (put l.text))).toOption := by
  have hglyph := l.isGlyph_of_mem_text
  have hend : ∃ u d, l.text = u ++ [d] ∧ isUnfinished d = false := by
    obtain ⟨u, d, hu, hd⟩ := l.exists_text_eq_append
    exact ⟨u, d, hu, eq_of_isDigit isUnfinished (by decide) hd⟩
  have hend' : ∃ u d, '(' :: l.text ++ [')'] = u ++ [d] ∧ isUnfinished d = false :=
    ⟨'(' :: l.text, ')', rfl, by decide⟩
  have hunwrapped := unwrapped_flatMap_put l hwhole.isChain_finished hplain
  rw [← finished_flatMap_put (isGlyph_of_mem_parens hglyph) hend',
    ← finished_flatMap_put hglyph hend] at hunwrapped
  exact hunwrapped.toOption_evaluateLine_eq

theorem isGlyph_of_mem_text (hv : v.isFinite = true) :
    ∀ c ∈ Double.text v, isGlyph c = false := by
  have hsign : ∀ b, ∀ c ∈ Double.sign b, isGlyph c = false := by
    intro b c hc
    rw [Double.eq_of_mem_sign hc]
    rfl
  rw [Double.text_of_isFinite hv]
  exact List.forall_mem_append.mpr ⟨hsign _, (Double.literal v).isGlyph_of_mem_text⟩

theorem substitute_eq (hsigned : IsSigned line) (text : List Char) :
    substitute line text = (spellOut line).flatMap (put ('(' :: text ++ [')'])) := by
  rw [substitute, hsigned.signProducts]
  rfl

theorem toOption_evaluateAt_parens (hv : v.isFinite = true) (hsigned : IsSigned line) :
    (evaluateAt line v).toOption =
      (evaluateLine (line.flatMap (put ('(' :: Double.text v ++ [')'])))).toOption := by
  have htext := isGlyph_of_mem_parens (isGlyph_of_mem_text hv)
  rw [evaluateAt, if_pos hv, substitute_eq hsigned]
  refine toOption_evaluateLine_of_finished ?_
  simp only [finished, spellOut_flatMap_put htext, spellOut_spellOut]

/-- Giving the variable a value is typing the value in parentheses, and, unless a percent sign
follows, it is typing the value. -/
theorem toOption_evaluateAt (hv : v.isFinite = true) (hsigned : IsSigned line) :
    (evaluateAt line v).toOption =
      (evaluateLine (line.flatMap (put ('(' :: Double.text v ++ [')'])))).toOption ∧
    (Double.isNegative v = false → HasWholeVariables line → HasPlainVariables (finished line) →
      (evaluateAt line v).toOption =
        (evaluateLine (line.flatMap (put (Double.text v)))).toOption) := by
  refine ⟨toOption_evaluateAt_parens hv hsigned, fun hsign hwhole hplain ↦ ?_⟩
  have htext : Double.text v = (Double.literal v).text := by
    rw [Double.text_of_isFinite hv, hsign]
    exact List.nil_append _
  rw [toOption_evaluateAt_parens hv hsigned, htext]
  exact toOption_evaluateLine_put (Double.literal v) hwhole hplain

/-- A percent sign behind a parenthesis and one at the end of the line do no harm. Directly behind
the variable, with more of the line to follow, it is a remainder where the typed number makes a
percentage. -/
theorem toOption_evaluateAt_half :
    (IsSigned "8÷x-(x)%X+x%".toList ∧ HasWholeVariables "8÷x-(x)%X+x%".toList ∧
      HasPlainVariables (finished "8÷x-(x)%X+x%".toList) ∧
      (evaluateAt "8÷x-(x)%X+x%".toList 0.5).toOption =
        (evaluateLine "8÷0.5-(0.5)%0.5+0.5%".toList).toOption ∧
      (evaluateAt "8÷x-(x)%X+x%".toList 0.5).toOption = some 16.5) ∧
    ((evaluateAt "200*x%+0".toList 10.0).toOption = none ∧
      (evaluateLine "200*10%+0".toList).toOption = some 20.0) := by
  have hv : (0.5 : Float).isFinite = true := by decide +kernel
  have hsign : Double.isNegative 0.5 = false := by decide +kernel
  have hsigned : IsSigned "8÷x-(x)%X+x%".toList := by decide +kernel
  have hwhole : HasWholeVariables "8÷x-(x)%X+x%".toList := by decide +kernel
  have hplain : HasPlainVariables (finished "8÷x-(x)%X+x%".toList) := by decide +kernel
  have hput : "8÷x-(x)%X+x%".toList.flatMap (put (Double.text 0.5)) =
      "8÷0.5-(0.5)%0.5+0.5%".toList := by decide +kernel
  have htyped := (toOption_evaluateAt hv hsigned).2 hsign hwhole hplain
  rw [hput] at htyped
  exact ⟨⟨hsigned, hwhole, hplain, htyped, by decide +kernel⟩, by decide +kernel, by decide +kernel⟩

end Value

end DeskCalculator
