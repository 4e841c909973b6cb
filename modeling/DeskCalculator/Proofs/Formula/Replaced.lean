import DeskCalculator.Proofs.Formula.Evaluation
import DeskCalculator.Proofs.Formula.SignedProducts

/-!
# A formula in place of the variable

Putting a formula in place of the variable of another is an operation on formulas, and putting its
text into a line is an operation on lines. They agree on every legible formula: the products without
a sign get theirs exactly where the formula has them, and nowhere else does the signing or the
insertion touch the text.
-/

namespace DeskCalculator

namespace Typed

/-- The formula with another one in place of the variable, and with all signs plain. -/
@[simp] def replace (t : Typed true) (r : Typed false) : Typed false :=
  match t with
  | literal l => literal l
  | percentage l => percentage l
  | letter _ _ => r
  | grouped a => grouped (a.replace r)
  | negate a => negate (a.replace r)
  | binary s a b => binary s.plain (a.replace r) (b.replace r)
  | product _ _ a b => binary .star (a.replace r) (b.replace r)

variable {r : Typed false}

@[simp] theorem value_replace (t : Typed true) (x : Float) :
    (t.replace r).value x = t.value (r.value x) := by
  have hplain : ∀ s : Sign, s.plain.operator = s.operator := by rintro ⟨⟩ <;> rfl
  induction t with
  | literal l => rfl
  | percentage l => rfl
  | letter _ _ => rfl
  | grouped a ih => exact ih
  | negate a ih => simp [ih]
  | binary s a b iha ihb => simp [iha, ihb, hplain]
  | product _ _ a b iha ihb => simp [iha, ihb, Sign.operator, Operator.apply]

theorem isLiteral_replace (hr : r.isLiteral = false) (t : Typed true) :
    (t.replace r).isLiteral = t.isLiteral := by
  cases t with
  | letter _ _ => exact hr
  | _ => rfl

theorem isLegible_replace (hr : r.isLiteral = false) (hl : r.IsLegible) {t : Typed true}
    (ht : t.IsLegible) : (t.replace r).IsLegible := by
  have hplain : ∀ s : Sign, s.plain = .percent → s = .percent := by
    intro s h
    cases s <;> first | rfl | cases h
  induction t with
  | literal l => exact trivial
  | percentage l => exact trivial
  | letter _ _ => exact hl
  | grouped a ih => exact ih ht
  | negate a ih => exact ih ht
  | binary s a b iha ihb =>
    refine ⟨iha ht.1, ihb ht.2.1, fun hs ↦ ?_⟩
    rw [isLiteral_replace hr]
    exact ht.2.2 (hplain s hs)
  | product _ _ a b iha ihb =>
    refine ⟨iha ht.1, ihb ht.2.1, fun hs ↦ ?_⟩
    cases hs

/-! ## Signing the pieces

What a formula is signed to is found piece by piece: parentheses and signs pass, and a formula is
signed on its own unless a factor follows it. -/

variable {isOpen : Bool}

theorem isBlank_of_isLast {c : Char} (h : IsLast c) : isBlank c = false := by
  refine isBlank_of_isFactorEnd ?_
  rcases h with h | rfl | h
  · rw [isFactorEnd, isDecimalDigit_of_isDigit h]
    rfl
  · rfl
  · rw [isFactorEnd, h, Bool.or_true, Bool.true_or]

/-- Neither a digit nor the variable nor an opening parenthesis: no factor begins with it. -/
def BeginsNoFactor (rest : List Char) : Prop :=
  ∀ d ∈ (rest.dropWhile isBlank).head?, isDecimalDigit d = false ∧ isVariable d = false ∧ d ≠ '('

theorem beginsNoFactor_close (rest : List Char) : BeginsNoFactor (')' :: rest) := by
  rintro d ⟨⟩
  decide

theorem beginsNoFactor_sign (s : Sign) (rest : List Char) :
    BeginsNoFactor (s.plain.text ++ rest) := by
  cases s <;> rintro d ⟨⟩ <;> decide

theorem meet_of_beginsNoFactor {rest : List Char} (h : BeginsNoFactor rest) (c : Char) :
    (rest.dropWhile isBlank).head?.any (meet c) = false := by
  rw [BeginsNoFactor] at h
  cases hd : (rest.dropWhile isBlank).head? with
  | none => rfl
  | some d =>
    obtain ⟨hdigit, hvariable, hopen⟩ := h d hd
    rw [Option.any_some, meet, hdigit, hvariable, beq_false_of_ne hopen]
    simp

/-- A formula is signed on its own where no factor follows it. -/
theorem signBetween_text_append (t : Typed isOpen) {rest : List Char} (h : BeginsNoFactor rest) :
    signBetween meet (t.text ++ rest) = signBetween meet t.text ++ signBetween meet rest := by
  obtain ⟨s, c, hs, hc, -⟩ := t.exists_text_eq_append
  rw [hs]
  exact signBetween_append_of_not_any (isBlank_of_isLast hc) s (meet_of_beginsNoFactor h c)

theorem signBetween_meet_cons {c : Char} (h : isDecimalDigit c = false) (h' : c ≠ ')')
    (s : List Char) : signBetween meet (c :: s) = c :: signBetween meet s := by
  refine signBetween_cons_of_not (fun d ↦ ?_) s
  rw [meet, h, beq_false_of_ne h']
  rfl

@[simp] theorem signBetween_open (s : List Char) :
    signBetween meet ('(' :: s) = '(' :: signBetween meet s :=
  signBetween_meet_cons (by decide) (by decide) s

@[simp] theorem signBetween_close : signBetween meet [')'] = [')'] := by
  rw [signBetween_cons_of_not_any rfl, signBetween_nil]

@[simp] theorem signBetween_sign (s : Sign) (rest : List Char) :
    signBetween meet (s.plain.text ++ rest) = s.plain.text ++ signBetween meet rest := by
  have hone : ∀ c ∈ ['+', '-', '*', '/', '%'], ∀ s,
      signBetween meet (c :: s) = c :: signBetween meet s := by
    intro c hc s
    have hall : ['+', '-', '*', '/', '%'].all (fun c ↦ !isDecimalDigit c && c != ')') = true := by
      decide
    have hpass := List.all_eq_true.mp hall c hc
    rw [Bool.and_eq_true, Bool.not_eq_true', bne_iff_ne] at hpass
    exact signBetween_meet_cons hpass.1 hpass.2 s
  have htwo : signBetween meet ('*' :: '*' :: rest) = '*' :: '*' :: signBetween meet rest := by
    rw [hone _ (by decide), hone _ (by decide)]
  cases s with
  | caret => exact htwo
  | stars => exact htwo
  | _ => exact hone _ (by decide) rest

@[simp] theorem signBetween_literal (l : Literal) : signBetween meet l.text = l.text := by
  refine signBetween_eq_self fun c hc d hd ↦ ?_
  have hc' : (c == ')') = false := by
    rcases l.isDigit_or_eq_point c hc with h | rfl
    · exact eq_of_isDigit (· == ')') (by decide) h
    · rfl
  have hd' : isVariable d = false ∧ (d == '(') = false := by
    rcases l.isDigit_or_eq_point d hd with h | rfl
    · exact ⟨eq_of_isDigit isVariable (by decide) h, eq_of_isDigit (· == '(') (by decide) h⟩
    · decide
  simp only [meet, hc', hd'.1, hd'.2, Bool.or_false, Bool.and_false, Bool.false_and]

/-- Where a formula and what follows it meet, blanks aside, they are signed with a sign between. -/
theorem signBetween_product {a b : Typed isOpen} {blanks : List Char}
    (hblanks : blanks.all isBlank = true)
    (hmeet : a.text.getLast?.any (fun c ↦ b.text.head?.any (meet c)) = true) (rest : List Char) :
    signBetween meet (a.text ++ (blanks ++ (b.text ++ rest)))
      = signBetween meet a.text ++ '*' :: signBetween meet (b.text ++ rest) := by
  obtain ⟨s, c, hs, hc, -⟩ := a.exists_text_eq_append
  obtain ⟨c', hc', hany⟩ := (Option.any_eq_true _ _).mp hmeet
  obtain ⟨d, hd, h⟩ := (Option.any_eq_true _ _).mp hany
  obtain rfl : c = c' := by
    rw [hs, List.getLast?_concat] at hc'
    exact Option.some.inj hc'
  obtain ⟨u, hu⟩ : ∃ u, b.text = d :: u := List.head?_eq_some_iff.mp hd
  have hd' : isBlank d = false := isBlank_of_isFactorEnd (isFactorEnd_of_meet h).2
  have hdrop : (blanks ++ (b.text ++ rest)).dropWhile isBlank = b.text ++ rest := by
    refine dropWhile_stretch (List.all_eq_true.mp hblanks) ?_
    rw [hu]
    rintro e ⟨⟩
    exact hd'
  have hany : ((blanks ++ (b.text ++ rest)).dropWhile isBlank).head?.any (meet c) = true := by
    rw [hdrop, hu]
    exact h
  rw [hs, signBetween_append_of_any (isBlank_of_isLast hc) s hany, hdrop]

/-- Spelling out the glyphs leaves the ends of a formula, so factors meet as before. -/
theorem meet_plain {a b : Typed isOpen} (ha : a.IsLegible) (hb : b.IsLegible)
    (h : a.text.getLast?.any (fun c ↦ b.text.head?.any (meet c)) = true) :
    a.plain.text.getLast?.any (fun c ↦ b.plain.text.head?.any (meet c)) = true := by
  have hglyph : ∀ {c}, isFactorEnd c = true → spell c = [c] := fun hc ↦
    spell_of_not_isGlyph (isGlyph_eq_false_of (by decide) hc)
  obtain ⟨c, hc, hany⟩ := (Option.any_eq_true _ _).mp h
  obtain ⟨d, hd, hmeet⟩ := (Option.any_eq_true _ _).mp hany
  obtain ⟨hc', hd'⟩ := isFactorEnd_of_meet hmeet
  -- neither end is a glyph, and all else is spelled as it is
  refine (Option.any_eq_true _ _).mpr ⟨c, ?_, (Option.any_eq_true _ _).mpr ⟨d, ?_, hmeet⟩⟩
  · obtain ⟨s, hs⟩ := List.getLast?_eq_some_iff.mp hc
    rw [← a.spellOut_text ha, hs, spellOut_append, spellOut_cons, hglyph hc']
    exact List.getLast?_concat
  · obtain ⟨s, hs⟩ := List.head?_eq_some_iff.mp hd
    rw [← b.spellOut_text hb, hs, spellOut_cons, hglyph hd']
    rfl

/-! ## Inserting the formula -/

/-- What a character becomes when a value is inserted for the variable. -/
def inserted (value : List Char) (c : Char) : List Char :=
  if isVariable c then '(' :: value ++ [')'] else [c]

theorem inserted_of_not {c : Char} (h : isVariable c = false) (value : List Char) :
    inserted value c = [c] := by
  rw [inserted, h, if_neg Bool.false_ne_true]

theorem flatMap_inserted_eq_self {s : List Char} (h : ∀ c ∈ s, isVariable c = false)
    (value : List Char) : s.flatMap (inserted value) = s := by
  induction s with
  | nil => rfl
  | cons c s ih =>
    rw [List.flatMap_cons, inserted_of_not (h c List.mem_cons_self),
      ih fun d hd ↦ h d (List.mem_cons_of_mem c hd), List.singleton_append]

@[simp] theorem flatMap_inserted_literal (l : Literal) (value : List Char) :
    l.text.flatMap (inserted value) = l.text := by
  refine flatMap_inserted_eq_self (fun c hc ↦ ?_) value
  rcases l.isDigit_or_eq_point c hc with h | rfl
  · exact eq_of_isDigit isVariable (by decide) h
  · rfl

@[simp] theorem flatMap_inserted_sign (s : Sign) (value : List Char) :
    s.plain.text.flatMap (inserted value) = s.plain.text := by
  cases s <;> rfl

variable {r : Typed false} {value : List Char}

theorem flatMap_inserted_signBetween (hr : r.text = '(' :: value ++ [')']) (t : Typed true)
    (ht : t.IsLegible) :
    (signBetween meet t.plain.text).flatMap (inserted value) = (t.replace r).text := by
  induction t with
  | literal l => simp
  | percentage l =>
    -- the percent sign is not yet expanded, so it stands behind the number here
    have hpercent : BeginsNoFactor ['%', ')'] := by
      rintro d ⟨⟩
      decide
    have hend : signBetween meet ['%', ')'] = ['%', ')'] := by
      rw [signBetween_meet_cons (by decide) (by decide), signBetween_close]
    have hsplit := (literal l : Typed true).signBetween_text_append hpercent
    rw [text, signBetween_literal, hend] at hsplit
    simp [hsplit, inserted, isVariable]
  | letter _ isCapital =>
    have h : ∀ c, isVariable c = true → (signBetween meet [c]).flatMap (inserted value)
        = '(' :: value ++ [')'] := by
      intro c hc
      rw [signBetween_cons_of_not_any rfl, signBetween_nil, List.flatMap_singleton, inserted,
        if_pos hc]
    rw [replace, hr]
    cases isCapital
    · exact h 'x' (by decide)
    · exact h 'X' (by decide)
  | grouped a ih =>
    have hsplit := a.plain.signBetween_text_append (beginsNoFactor_close [])
    simp [hsplit, ih ht, inserted, isVariable]
  | negate a ih =>
    have hminus : ∀ s, signBetween meet ('-' :: s) = '-' :: signBetween meet s :=
      signBetween_meet_cons (by decide) (by decide)
    have hsplit := a.plain.signBetween_text_append (beginsNoFactor_close [])
    simp [hminus, hsplit, ih ht, inserted, isVariable]
  | binary s a b iha ihb =>
    have hleft := a.plain.signBetween_text_append (beginsNoFactor_sign s (b.plain.text ++ [')']))
    have hright := b.plain.signBetween_text_append (beginsNoFactor_close [])
    simp [hleft, hright, iha ht.1, ihb ht.2.1, inserted, isVariable]
  | product _ blanks a b iha ihb =>
    have hmeet := signBetween_product ht.2.2.1 (meet_plain ht.1 ht.2.1 ht.2.2.2) [')']
    have hright := b.plain.signBetween_text_append (beginsNoFactor_close [])
    simp [hmeet, hright, iha ht.1, ihb ht.2.1, inserted, isVariable, Sign.text]

/-- **Inserting a text in a line replaces the variable of the formula.** -/
theorem substitute_text (hr : r.text = '(' :: value ++ [')']) (t : Typed true)
    (ht : t.IsLegible) : substitute t.text value = (t.replace r).text := by
  rw [substitute, signProducts_eq_signBetween, t.spellOut_text ht]
  exact flatMap_inserted_signBetween hr t ht

end Typed

end DeskCalculator
