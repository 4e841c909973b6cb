import DeskCalculator.Formula.Value
import DeskCalculator.Proofs.Formula.Beginning
import DeskCalculator.Proofs.Formula.Percentage
import DeskCalculator.Proofs.Number.Written

/-!
# The value of a typed formula

A legible formula without the variable is read as it is meant: its line is cleaned to a line that
shows its structure, that line is cut into the tokens of the formula, the tokens are one value in
the grammar of expressions, and the value of their tree is the value of the formula.
-/

namespace DeskCalculator

/-! ## The cleaned line -/

/-- What a percentage is divided by. -/
def hundred : Literal := { whole := ['1', '0', '0'] }

theorem text_hundred : hundred.text = ['1', '0', '0'] := rfl

@[simp] theorem value_hundred : hundred.value = 100.0 := by decide +kernel

namespace Typed

/-- The cleaned line of a formula. -/
@[simp] def cleaned : Typed false → List Char
  | literal l => l.text
  | percentage l => '(' :: '(' :: l.text ++ '/' :: hundred.text ++ [')', ')']
  | grouped a => '(' :: a.cleaned ++ [')']
  | negate a => '(' :: '-' :: a.cleaned ++ [')']
  | binary s a b => '(' :: a.cleaned ++ (s.plain.text ++ (b.cleaned ++ [')']))

/-- The tokens of a formula. -/
@[simp] def tokens : Typed false → List Token
  | literal l => [.number l.value]
  | percentage l => [.openParen, .openParen, .number l.value, .operator .divide,
      .number hundred.value, .closeParen, .closeParen]
  | grouped a => .openParen :: a.tokens ++ [.closeParen]
  | negate a => .openParen :: .operator .minus :: a.tokens ++ [.closeParen]
  | binary s a b =>
    .openParen :: a.tokens ++ (.operator s.operator :: (b.tokens ++ [.closeParen]))

/-- The tree of a formula. -/
@[simp] def tree : Typed false → Tree
  | literal l => .number l.value
  | percentage l => .binary .divide (.number l.value) (.number hundred.value)
  | grouped a => a.tree
  | negate a => .negate a.tree
  | binary s a b => .binary s.operator a.tree b.tree

theorem value_tree (t : Typed false) (x : Float) : t.tree.value = t.value x := by
  induction t with
  | literal l => rfl
  | percentage l => simp [Operator.apply]
  | letter h => cases h
  | grouped a ih => exact ih
  | negate a ih => simp [ih]
  | binary s a b iha ihb => simp [iha, ihb]
  | product h => cases h

/-- What follows an operand is clear: a closing parenthesis, or a sign unless it is a percent sign
behind a number. -/
def FollowsClearly (t : Typed false) (rest : List Char) : Prop := t.isLiteral = true → IsClear rest

theorem isClear_close (rest : List Char) : IsClear (')' :: rest) := by
  rintro c ⟨⟩
  decide

theorem isClear_sign {s : Sign} (hs : s ≠ .percent) (rest : List Char) :
    IsClear (s.plain.text ++ rest) := by
  cases s with
  | percent => exact absurd rfl hs
  | _ =>
    rintro c ⟨⟩
    decide

theorem followsClearly_sign {t : Typed false} {s : Sign} (h : s = .percent → t.isLiteral = false)
    (rest : List Char) : FollowsClearly t (s.plain.text ++ rest) := by
  intro ht
  refine isClear_sign (fun hs ↦ ?_) rest
  rw [h hs] at ht
  cases ht

@[simp] theorem expandPercentages_sign (s : Sign) (rest : List Char) :
    expandPercentages (s.plain.text ++ rest) = s.plain.text ++ expandPercentages rest := by
  have hstars : expandPercentages ('*' :: '*' :: rest) = '*' :: '*' :: expandPercentages rest := by
    rw [expandPercentages_cons (by decide), expandPercentages_cons (by decide)]
  cases s with
  | caret => exact hstars
  | stars => exact hstars
  | _ => exact expandPercentages_cons (by decide) rest

/-- Expanding the percentages of a formula, whatever clearly follows it. -/
theorem expandPercentages_plain_append (t : Typed false) (ht : t.IsLegible) {rest : List Char}
    (hr : FollowsClearly t rest) :
    expandPercentages (t.plain.text ++ rest) = t.cleaned ++ expandPercentages rest := by
  induction t generalizing rest with
  | literal l => exact l.expandPercentages_text_append (hr rfl)
  | percentage l =>
    have hpercent := l.expandPercentages_percent (')' :: rest)
    simp [hpercent, text_hundred]
  | letter h => cases h
  | grouped a ih =>
    have ha := ih ht fun _ ↦ isClear_close rest
    simp [ha]
  | negate a ih =>
    have ha := ih ht fun _ ↦ isClear_close rest
    simp [ha]
  | binary s a b iha ihb =>
    have ha := iha ht.1 (followsClearly_sign ht.2.2 (b.plain.text ++ ')' :: rest))
    have hb := ihb ht.2.1 fun _ ↦ isClear_close rest
    simp [ha, hb]
  | product h => cases h

/-! ## Cleaning -/

theorem isUnfinished_of_isLast {c : Char} (h : IsLast c) : isUnfinished c = false := by
  rcases h with h | rfl | h
  · exact eq_of_isDigit isUnfinished (by decide) h
  · decide
  · simp only [isVariable, Bool.or_eq_true, beq_iff_eq] at h
    rcases h with rfl | rfl <;> decide

theorem isGlyph_of_isLast {c : Char} (h : IsLast c) : isGlyph c = false := by
  rcases h with h | rfl | h
  · exact eq_of_isDigit isGlyph (by decide) h
  · decide
  · exact isGlyph_eq_false_of (by decide) h

theorem exists_cleaned_eq_cons (t : Typed false) :
    ∃ c s, t.cleaned = c :: s ∧ (c.isDigit = true ∨ c = '(') := by
  cases t with
  | literal l =>
    obtain ⟨c, s, hs, hc⟩ := l.exists_text_eq_cons
    exact ⟨c, s, hs, .inl hc⟩
  | letter h => cases h
  | product h => cases h
  | _ => exact ⟨'(', _, rfl, .inr rfl⟩

theorem isCleanChar_of_mem_text {l : Literal} {c : Char} (hc : c ∈ l.text) :
    isCleanChar c = true := by
  rcases l.isDigit_or_eq_point c hc with h | rfl
  · exact eq_of_isDigit isCleanChar (by decide) h
  · decide

@[simp] theorem all_isCleanChar_cleaned (t : Typed false) : t.cleaned.all isCleanChar = true := by
  have hparen : isCleanChar '(' = true ∧ isCleanChar ')' = true ∧ isCleanChar '-' = true ∧
      isCleanChar '/' = true := by decide
  have htext : ∀ l : Literal, l.text.all isCleanChar = true :=
    fun l ↦ List.all_eq_true.mpr fun c hc ↦ isCleanChar_of_mem_text hc
  induction t with
  | literal l => exact htext l
  | percentage l => simp [hparen, htext]
  | letter h => cases h
  | grouped a ih => simp [hparen, ih]
  | negate a ih => simp [hparen, ih]
  | binary s a b iha ihb =>
    have hs : s.plain.text.all isCleanChar = true := by cases s <;> decide
    simp [hparen, iha, ihb, hs]
  | product h => cases h

theorem clean_text (t : Typed false) (ht : t.IsLegible) : clean t.text = .ok t.cleaned := by
  obtain ⟨s, c, hs, hc, -⟩ := t.exists_text_eq_append
  have hspell : spellOut t.text = spellOut s ++ [c] := by
    rw [hs, spellOut_append, spellOut_eq_self (s := [c])]
    simpa using isGlyph_of_isLast hc
  have hexpand : expandPercentages t.plain.text = t.cleaned := by
    have hnil : FollowsClearly t [] := fun _ ↦ by simp [IsClear]
    have h := t.expandPercentages_plain_append ht hnil
    simpa using h
  have hdrop : dropEndWhile isUnfinished (spellOut t.text) = t.plain.text := by
    rw [hspell, dropEndWhile_append_singleton (isUnfinished_of_isLast hc), ← hspell,
      t.spellOut_text ht]
  have hne : t.cleaned.isEmpty = false := by
    obtain ⟨c, s, hcons, -⟩ := t.exists_cleaned_eq_cons
    rw [hcons]
    rfl
  simp only [clean]
  rw [hdrop, hexpand, hne, if_neg Bool.false_ne_true, t.all_isCleanChar_cleaned, if_pos rfl]

end Typed

/-! ## The text of a number -/

section

open Numeral

variable {s : List Char} {c : Char}

@[simp] theorem numberText_append (s : List Char) : (numberText s).1 ++ (numberText s).2 = s := by
  rw [numberText]
  split
  · next rest hrest =>
    rw [List.append_assoc, List.cons_append, List.takeWhile_append_dropWhile, ← hrest,
      List.takeWhile_append_dropWhile]
  · exact List.takeWhile_append_dropWhile

theorem numberText_snd (s : List Char) : (numberText s).2 = (unsigned Char.isDigit s).2 := by
  rw [numberText, unsigned]
  cases s.dropWhile Char.isDigit with
  | nil => rfl
  | cons c rest => by_cases hpoint : c = '.' <;> simp [hpoint]

/-- A text that begins with a digit or a point is a point if it has no digits. -/
theorem numberText_eq_point_iff (hc : beginsNumber c = true) :
    (numberText (c :: s)).1 = ['.'] ↔ ((unsigned Char.isDigit (c :: s)).1.whole.isEmpty
      && (unsigned Char.isDigit (c :: s)).1.fraction.isEmpty) = true := by
  rcases Bool.or_eq_true_iff.mp hc with hdigit | hpoint
  · have htext := congrArg List.head? (numberText_append (c :: s))
    have hwhole : (unsigned Char.isDigit (c :: s)).1.whole = c :: s.takeWhile Char.isDigit := by
      rw [← List.takeWhile_cons_of_pos hdigit, unsigned]
      split <;> rfl
    rw [hwhole]
    refine iff_of_false (fun h ↦ ?_) Bool.false_ne_true
    rw [h] at htext
    cases htext
    exact absurd hdigit (by decide)
  · obtain rfl := beq_iff_eq.mp hpoint
    change '.' :: s.takeWhile Char.isDigit = ['.'] ↔ (s.takeWhile Char.isDigit).isEmpty = true
    rw [List.isEmpty_iff, List.cons_inj_right]

theorem isMantissa_numberText (h : ¬ ((unsigned Char.isDigit s).1.whole.isEmpty
      && (unsigned Char.isDigit s).1.fraction.isEmpty) = true) :
    IsMantissa Char.isDigit (numberText s).1 (unsigned Char.isDigit s).1.whole
      (unsigned Char.isDigit s).1.fraction := by
  obtain ⟨w, hw, hmantissa⟩ := exists_isMantissa h
  rw [← numberText_snd] at hw
  rwa [← List.append_cancel_right (hw.trans (numberText_append s).symm)]

/-- The text of a number is one numeral, unless it has no digits. -/
theorem leading?_numberText (h : ¬ ((unsigned Char.isDigit s).1.whole.isEmpty
      && (unsigned Char.isDigit s).1.fraction.isEmpty) = true) :
    leading? Char.isDigit (numberText s).1 = some ((unsigned Char.isDigit s).1, []) := by
  have hread := (IsNumber.intro .none (isMantissa_numberText h) .none).leading?_eq
    isDigitClass_isDigit
  rwa [List.nil_append, List.append_nil, ← unsigned_fst] at hread

end

/-! ## Tokens -/

namespace Token

/-- The characters are cut into the tokens, and what follows them is cut on its own. -/
def Scans (s : List Char) (ts : List Token) (rest : List Char) : Prop :=
  scan (s ++ rest) = (ts ++ ·) <$> scan rest

theorem Scans.append {s t rest : List Char} {ts us : List Token} (hs : Scans s ts (t ++ rest))
    (ht : Scans t us rest) : Scans (s ++ t) (ts ++ us) rest := by
  rw [Scans, List.append_assoc, hs, ht, Functor.map_map]
  congr 1
  funext vs
  rw [List.append_assoc]

theorem scans_symbol {c : Char} {t : Token} (hc : ofSymbol? c = some t) (hb : isBlank c = false)
    {rest : List Char} (hstar : ∀ d ∈ rest.head?, c = '*' → d ≠ '*') : Scans [c] [t] rest := by
  rw [Scans, List.singleton_append, scan]
  · simp [hb, hc]
  · rintro s rfl rfl
    exact hstar '*' rfl rfl rfl

theorem scans_stars (rest : List Char) : Scans ['*', '*'] [.operator .power] rest := by
  rw [Scans]
  change scan ('*' :: '*' :: rest) = _
  rw [scan]
  rfl

@[simp] theorem scan_nil : scan [] = .ok [] := by
  rw [scan]

theorem scans_open (rest : List Char) : Scans ['('] [.openParen] rest :=
  scans_symbol rfl (by decide) fun _ _ h ↦ absurd h (by decide)

theorem scans_close (rest : List Char) : Scans [')'] [.closeParen] rest :=
  scans_symbol rfl (by decide) fun _ _ h ↦ absurd h (by decide)

theorem scan_of_isBlank {c : Char} (hc : isBlank c = true) (s : List Char) :
    scan (c :: s) = scan s := by
  rw [scan, if_pos hc]
  rintro s' rfl -
  exact absurd hc (by decide)

/-- A character that is neither a blank nor a token begins a number or nothing. -/
theorem scan_of_not_symbol {c : Char} (hblank : ¬ isBlank c = true)
    (hsymbol : ∀ t, ofSymbol? c = some t → False) (s : List Char) :
    scan (c :: s) =
      if isVariable c then .error .unknownVariable
      else if beginsNumber c = true then
        let w := numberText (c :: s)
        if w.1 = ['.'] then .error .lonePoint
        else match Numeral.leading? Char.isDigit w.1 with
          | some (n, []) => (number n.value :: ·) <$> scan w.2
          | _ => .error (.invalidNumber w.1)
      else .error (.unexpected c) := by
  rw [scan, if_neg hblank, Option.eq_none_iff_forall_ne_some.mpr hsymbol]
  · rfl
  · rintro s' rfl -
    exact hsymbol _ rfl

theorem of_beginsNumber {c : Char} (hc : beginsNumber c = true) :
    isBlank c = false ∧ ofSymbol? c = none ∧ isVariable c = false := by
  rcases Bool.or_eq_true_iff.mp hc with h | h
  · refine ⟨eq_of_isDigit isBlank (by decide) h, ?_, eq_of_isDigit isVariable (by decide) h⟩
    exact Option.not_isSome_iff_eq_none.mp
      (Bool.eq_false_iff.mp (eq_of_isDigit (fun c ↦ (ofSymbol? c).isSome) (by decide) h))
  · rw [beq_iff_eq.mp h]
    exact ⟨by decide, rfl, by decide⟩

/-- A text that is cut off as a number is read, unless it is a point. -/
theorem scan_of_beginsNumber {c : Char} (hc : beginsNumber c = true) (s : List Char) :
    scan (c :: s) = if (Numeral.unsigned Char.isDigit (c :: s)).1.whole.isEmpty
        && (Numeral.unsigned Char.isDigit (c :: s)).1.fraction.isEmpty then .error .lonePoint
      else (number (Numeral.unsigned Char.isDigit (c :: s)).1.value :: ·)
        <$> scan (Numeral.unsigned Char.isDigit (c :: s)).2 := by
  obtain ⟨hblank, hsymbol, hvariable⟩ := of_beginsNumber hc
  rw [scan_of_not_symbol (by simp [hblank]) (by simp [hsymbol]), hvariable,
    if_neg Bool.false_ne_true, if_pos hc]
  by_cases hpoint : (numberText (c :: s)).1 = ['.']
  · rw [if_pos ((numberText_eq_point_iff hc).mp hpoint)]
    exact if_pos hpoint
  · have hdigits := mt (numberText_eq_point_iff hc).mpr hpoint
    simp only [if_neg hpoint, leading?_numberText hdigits, if_neg hdigits, numberText_snd]

@[simp] theorem scan_open (s : List Char) : scan ('(' :: s) = (.openParen :: ·) <$> scan s :=
  scans_open s

theorem scans_literal (l : Literal) {rest : List Char} (h : Literal.IsEnd rest) :
    Scans l.text [.number l.value] rest := by
  obtain ⟨c, s, hs, hc⟩ := l.exists_text_eq_cons
  have hread := l.unsigned_text_append h
  rw [hs, List.cons_append] at hread
  rw [Scans, hs, List.cons_append, scan_of_beginsNumber (eq_of_isDigit beginsNumber (by decide) hc),
    hread]
  simp [Literal.numeral, l.whole_ne_nil, Literal.value]

/-- A sign is cut off where no star follows it, which could turn a product into a power. -/
theorem scans_sign (s : Sign) {rest : List Char} (h : ∀ d ∈ rest.head?, d ≠ '*') :
    Scans s.plain.text [.operator s.operator] rest := by
  cases s with
  | caret => exact scans_stars rest
  | stars => exact scans_stars rest
  | _ => exact scans_symbol rfl (by decide) fun d hd _ ↦ h d hd

theorem scans_parens {s rest : List Char} {ts : List Token} (h : Scans s ts (')' :: rest)) :
    Scans ('(' :: s ++ [')']) (.openParen :: ts ++ [.closeParen]) rest :=
  ((scans_open _).append h).append (scans_close rest)

theorem scans_operation {s t rest : List Char} {ts us : List Token} (o : Sign)
    (hs : Scans s ts (o.plain.text ++ (t ++ ')' :: rest))) (ht : Scans t us (')' :: rest))
    (hstar : ∀ d ∈ (t ++ ')' :: rest).head?, d ≠ '*') :
    Scans ('(' :: s ++ (o.plain.text ++ (t ++ [')'])))
      (.openParen :: ts ++ (.operator o.operator :: (us ++ [.closeParen]))) rest := by
  have hright : Scans (t ++ [')']) (us ++ [.closeParen]) rest := ht.append (scans_close rest)
  have hsign : Scans o.plain.text [.operator o.operator] (t ++ [')'] ++ rest) := by
    rw [List.append_assoc]
    exact scans_sign o hstar
  refine ((scans_open _).append ?_).append (hsign.append hright)
  rw [List.append_assoc, List.append_assoc]
  exact hs

end Token

theorem parse_of_scans {s : List Char} {ts : List Token} {t : Tree} (hs : Token.Scans s ts [])
    (ht : Derives .sum ts t) : parse s = .ok t := by
  have hscan : Token.scan s = .ok ts := by
    rw [Token.Scans, List.append_nil, Token.scan_nil] at hs
    rw [hs]
    exact congrArg Except.ok (List.append_nil ts)
  have hlist : Postfix.ofTokens ts = .ok t.listing := Postfix.ofTokens_eq_ok_iff.mpr ⟨t, ht, rfl⟩
  rw [parse, hscan]
  change (Postfix.ofTokens ts >>= Tree.ofPostfix) = _
  rw [hlist]
  exact ofPostfix_listing t

namespace Typed

open Token

theorem isEnd_of_isClear {rest : List Char} (h : IsClear rest) : Literal.IsEnd rest := by
  intro c hc
  obtain ⟨hdigit, hpoint, -⟩ := h c hc
  refine ⟨?_, hpoint⟩
  rw [← Bool.not_eq_true]
  intro hc'
  rw [isDecimalDigit_of_isDigit hc'] at hdigit
  cases hdigit

theorem ne_star_of_cleaned (t : Typed false) (rest : List Char) :
    ∀ d ∈ (t.cleaned ++ rest).head?, d ≠ '*' := by
  obtain ⟨c, s, hs, hc⟩ := t.exists_cleaned_eq_cons
  rw [hs]
  rintro d ⟨⟩ rfl
  exact absurd hc (by decide)

/-- The tokens of a formula are cut from its cleaned line, whatever clearly follows it. -/
theorem scans_cleaned (t : Typed false) (ht : t.IsLegible) {rest : List Char}
    (hr : FollowsClearly t rest) : Scans t.cleaned t.tokens rest := by
  induction t generalizing rest with
  | literal l => exact scans_literal l (isEnd_of_isClear (hr rfl))
  | percentage l =>
    have hslash : IsClear ('/' :: (hundred.text ++ ')' :: ')' :: rest)) := by
      rintro c ⟨⟩
      decide
    have hclose : IsClear (')' :: ')' :: rest) := isClear_close _
    have h := scans_parens (scans_operation .slash (scans_literal l (isEnd_of_isClear hslash))
      (scans_literal hundred (isEnd_of_isClear hclose)) (by rintro d ⟨⟩; decide))
    simpa [Sign.plain, Sign.text, Sign.operator] using h
  | letter h => cases h
  | grouped a ih => exact scans_parens (ih ht fun _ ↦ isClear_close rest)
  | negate a ih =>
    have ha := ih ht fun _ ↦ isClear_close rest
    exact scans_parens ((scans_sign .minus (a.ne_star_of_cleaned _)).append ha)
  | binary s a b iha ihb =>
    exact scans_operation s (iha ht.1 (followsClearly_sign ht.2.2 _))
      (ihb ht.2.1 fun _ ↦ isClear_close rest) (b.ne_star_of_cleaned _)
  | product h => cases h

/-! ## The tree -/

theorem derives_sum_binary {ts us : List Token} {a b : Tree} (o : Operator)
    (ha : Derives .atom ts a) (hb : Derives .atom us b) :
    Derives .sum (ts ++ .operator o :: us) (.binary o a b) := by
  have hsum : Derives .product us b := .product_of_signed hb.signed_of_atom
  have hproduct : Derives .product ts a := .product_of_signed ha.signed_of_atom
  cases o with
  | plus => exact .sum (by decide) ha.sum_of_atom hsum
  | minus => exact .sum (by decide) ha.sum_of_atom hsum
  | times => exact .sum_of_product (.product (by decide) hproduct hb.signed_of_atom)
  | divide => exact .sum_of_product (.product (by decide) hproduct hb.signed_of_atom)
  | remainder => exact .sum_of_product (.product (by decide) hproduct hb.signed_of_atom)
  | power =>
    exact .sum_of_product (.product_of_signed (.signed_of_power (.power ha hb.signed_of_atom)))

theorem derives_tokens (t : Typed false) : Derives .atom t.tokens t.tree := by
  induction t with
  | literal l => exact .number l.value
  | percentage l =>
    have hquotient := derives_sum_binary .divide (.number l.value) (.number hundred.value)
    exact .parens (.sum_of_atom (.parens hquotient))
  | letter h => cases h
  | grouped a ih => exact .parens ih.sum_of_atom
  | negate a ih =>
    exact .parens (.sum_of_product (.product_of_signed (.minus ih.signed_of_atom)))
  | binary s a b iha ihb =>
    have h := Derives.parens (derives_sum_binary s.operator iha ihb)
    simpa using h
  | product h => cases h

/-! ## The value -/

theorem parse_cleaned (t : Typed false) (ht : t.IsLegible) : parse t.cleaned = .ok t.tree :=
  parse_of_scans (t.scans_cleaned ht fun _ ↦ by simp [IsClear]) t.derives_tokens.sum_of_atom

theorem evaluateLine_text (t : Typed false) (ht : t.IsLegible) (x : Float) :
    evaluateLine t.text = finite (t.value x) := by
  rw [evaluateLine, t.clean_text ht]
  change evaluate t.cleaned = _
  rw [evaluate, t.parse_cleaned ht]
  change finite t.tree.value = _
  rw [t.value_tree x]

/-- **The line of a legible formula evaluates to the value of the formula**, and is refused only if
that value is infinite or undefined. The formula has no variable, so the value of the variable does
not matter. -/
theorem evaluateLine_eq_value (t : Typed false) (ht : t.IsLegible) (x : Float) :
    evaluateLine t.text
      = if (t.value x).isFinite then .ok (t.value x) else .error .notFinite :=
  t.evaluateLine_text ht x

/-- Both meanings of a percent sign in one line. -/
theorem evaluateLine_remainder_times_percentage :
    evaluateLine "(((7.5)%2)×(50%))".toList = .ok 0.75 := by
  let t : Typed false := .binary .cross
    (.binary .percent (.grouped (.literal { whole := ['7'], fraction := ['5'] }))
      (.literal { whole := ['2'] }))
    (.percentage { whole := ['5', '0'] })
  have h := evaluateLine_eq_value t (by decide) 0.0
  have htext : t.text = "(((7.5)%2)×(50%))".toList := by decide
  have hvalue : t.value 0.0 = 0.75 := by decide +kernel
  have hfinite : (0.75 : Float).isFinite = true := by decide +kernel
  rwa [htext, hvalue, if_pos hfinite] at h

end Typed

end DeskCalculator
