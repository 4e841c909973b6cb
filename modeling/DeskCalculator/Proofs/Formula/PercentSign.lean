import DeskCalculator.Proofs.Formula.CleanLine
import DeskCalculator.Proofs.Formula.Lexeme

/-!
# When a percent sign is a percentage

The percentages are found before there are tokens, by a notion of number that is narrower than that
of the tokens: digits, or digits on both sides of a point, and the percent sign next to them. Behind
any other text of a number the percent sign is not a hundredth. If the text ends in a digit, the
digits behind its point are taken for the whole number, and the point is left without any;
otherwise the percent sign stays, and is the sign of a remainder.
-/

namespace DeskCalculator

variable {s t : List Char} {c : Char}

/-! ## Lines in two parts -/

/-- Nothing is dropped from the first part of a line if not all of the second part is. -/
theorem finished_append (hglyph : ∀ c ∈ s, isGlyph c = false) (ht : finished t ≠ []) :
    finished (s ++ t) = s ++ finished t := by
  obtain ⟨u, hu, happend⟩ := exists_dropEndWhile_append isUnfinished (spellOut t)
  have hlast : dropEndWhile isUnfinished (s ++ finished t) = s ++ finished t := by
    refine dropEndWhile_eq_self fun c hc ↦ getLast?_dropEndWhile isUnfinished (spellOut t) c ?_
    rwa [List.getLast?_append_of_ne_nil _ ht] at hc
  rw [finished, spellOut_append, spellOut_eq_self hglyph, ← happend, ← List.append_assoc,
    dropEndWhile_append_of_pos hu]
  exact hlast

theorem evaluateLine_append {u : List Char} (hs : ∀ c ∈ s, isCleanChar c = true)
    (hapart : EndsApart s) (ht : clean t = .ok u) :
    evaluateLine (s ++ t) = evaluate (expandPercentages s ++ u) := by
  have hglyph : ∀ c ∈ s, isGlyph c = false := fun c hc ↦ isGlyph_of_isCleanChar (hs c hc)
  rw [clean_eq_ite] at ht
  split at ht
  · cases ht
  · next hempty =>
    split at ht
    · next hall =>
      cases ht
      rw [List.isEmpty_iff] at hempty
      have hne : finished t ≠ [] := fun h ↦ hempty (expandPercentages_eq_nil_iff.mpr h)
      have hexpanded : expanded (s ++ t) = expandPercentages s ++ expanded t := by
        rw [expanded, finished_append hglyph hne, expandPercentages_append hapart, expanded]
      have hclean : (expanded (s ++ t)).all isCleanChar = true := by
        rw [all_isCleanChar_expanded] at hall ⊢
        rw [List.all_append, hall, Bool.and_true, List.all_eq_true]
        intro c hc
        rw [isLineChar, hs c hc, Bool.true_or]
      have hne' : (expanded (s ++ t)).isEmpty = false := by
        rw [hexpanded, List.isEmpty_eq_false_iff]
        exact List.append_ne_nil_of_right_ne_nil _ hempty
      rw [evaluateLine, clean_eq_ite, hne', if_neg Bool.false_ne_true, if_pos hclean, hexpanded]
      rfl
    · cases ht

theorem evaluate_of_scan_eq (h : Token.scan s = Token.scan t) : evaluate s = evaluate t := by
  rw [evaluate, evaluate, parse, parse, h]

/-! ## Texts of a number -/

/-- The number begins with a digit, not with its point. -/
def beginsInDigit (s : List Char) : Bool := (s.dropWhile isBlank).head?.any Char.isDigit

/-- The last character is a digit, not the point of the number or a blank behind it. -/
def endsInDigit (s : List Char) : Bool := s.getLast?.any Char.isDigit

/-- A character that cleaning admits and that is no percent sign. -/
def Passes (c : Char) : Prop := isCleanChar c = true ∧ c ≠ '%'

instance (c : Char) : Decidable (Passes c) := inferInstanceAs (Decidable (_ ∧ _))

theorem passes_of_all (h : s.all (fun c ↦ Passes c) = true) : ∀ c ∈ s, Passes c :=
  fun c hc ↦ of_decide_eq_true (List.all_eq_true.mp h c hc)

theorem passes_of_isBlank (h : isBlank c = true) : Passes c := by
  refine ⟨by rw [isCleanChar, h, Bool.or_true], ?_⟩
  rintro rfl
  exact absurd h (by decide)

theorem passes_of_isDigit_or (h : c.isDigit = true ∨ c = '.') : Passes c := by
  rcases h with h | rfl
  · refine ⟨by rw [isCleanChar, h, Bool.true_or, Bool.true_or], ?_⟩
    rintro rfl
    exact absurd h (by decide)
  · decide

namespace Token

theorem Cut.exists_blanks {w : List Char} (h : Cut s [w]) :
    ∃ b b' : List Char, s = b ++ w ++ b' ∧ (∀ c ∈ b, isBlank c = true) ∧
      ∀ c ∈ b', isBlank c = true := by
  generalize hws : [w] = ws at h
  induction h with
  | nil => cases hws
  | blank hc _ ih =>
    obtain ⟨b, b', rfl, hb, hb'⟩ := ih hws
    exact ⟨_ :: b, b', rfl, List.forall_mem_cons.mpr ⟨hc, hb⟩, hb'⟩
  | @lexeme w' s' t ws hw hl h _ =>
    obtain ⟨rfl, rfl⟩ := List.cons.inj hws
    have hfilter := h.flatten_eq.symm
    rw [List.flatten_nil, List.filter_eq_nil_iff] at hfilter
    exact ⟨[], s', rfl, fun _ hc ↦ absurd hc List.not_mem_nil, by simpa using hfilter⟩

/-- A line with a single token that is a number is that number, with blanks around it. -/
theorem exists_isWriting_of_scan {v : Float} (h : scan s = .ok [.number v]) :
    ∃ b w b' n, s = b ++ w ++ b' ∧ (∀ c ∈ b, isBlank c = true) ∧ (∀ c ∈ b', isBlank c = true) ∧
      Numeral.IsWriting w n := by
  obtain ⟨ws, hcut, hws⟩ := exists_cut_of_scan h
  obtain ⟨w, ws', hw, hws', rfl⟩ := List.forall₂_cons_right_iff.mp hws
  rw [List.forall₂_nil_right_iff.mp hws'] at hcut
  obtain ⟨b, b', hs, hb, hb'⟩ := hcut.exists_blanks
  generalize ht : number v = t at hw
  cases hw with
  | number hw => exact ⟨b, w, b', _, hs, hb, hb', hw⟩
  | _ => cases ht

variable {v : Float}

theorem isBlank_or_of_scan (h : scan s = .ok [.number v]) :
    ∀ c ∈ s, isBlank c = true ∨ c.isDigit = true ∨ c = '.' := by
  obtain ⟨b, w, b', n, rfl, hb, hb', hw⟩ := exists_isWriting_of_scan h
  rw [List.forall_mem_append, List.forall_mem_append]
  exact ⟨⟨fun c hc ↦ .inl (hb c hc), fun c hc ↦ .inr (hw.isDigit_or_eq_point c hc)⟩,
    fun c hc ↦ .inl (hb' c hc)⟩

theorem passes_of_scan (h : scan s = .ok [.number v]) : ∀ c ∈ s, Passes c :=
  fun c hc ↦ (isBlank_or_of_scan h c hc).elim passes_of_isBlank passes_of_isDigit_or

theorem scans_of_scan (h : scan s = .ok [.number v]) {rest : List Char}
    (hend : Literal.IsEnd rest) : Scans s [.number v] rest := by
  have hstar : s.getLast? = some '*' → ∀ d ∈ rest.head?, d ≠ '*' := fun hlast ↦
    absurd (isBlank_or_of_scan h '*' (List.mem_of_getLast? hlast)) (by decide)
  rw [Scans, scan_append ⟨.inr hend, hstar⟩, h]
  rfl

theorem endsInDigit_append (s : List Char) (hne : t ≠ []) :
    endsInDigit (s ++ t) = endsInDigit t := by
  rw [endsInDigit, List.getLast?_append_of_ne_nil _ hne, endsInDigit]

theorem beginsInDigit_blanks_append {b : List Char} (hb : ∀ c ∈ b, isBlank c = true)
    (hc : isBlank c = false) (s : List Char) : beginsInDigit (b ++ c :: s) = c.isDigit := by
  rw [beginsInDigit, dropWhile_stretch hb]
  · rfl
  · rintro d ⟨⟩
    exact hc

/-- A number that ends in a digit is a literal, or nothing but decimals. -/
theorem cases_of_endsInDigit (h : scan s = .ok [.number v]) (hend : endsInDigit s = true) :
    ∃ b, (∀ c ∈ b, isBlank c = true) ∧
      ((beginsInDigit s = true ∧ ∃ l : Literal, s = b ++ l.text) ∨
        beginsInDigit s = false ∧ ∃ l : Literal, s = b ++ '.' :: l.text) := by
  obtain ⟨b, w, b', n, rfl, hb, hb', hw⟩ := exists_isWriting_of_scan h
  have hnone : b' = [] := by
    by_contra hne
    rw [endsInDigit_append _ hne, endsInDigit, List.getLast?_eq_some_getLast hne] at hend
    have hblank := hb' _ (List.getLast_mem hne)
    rw [eq_of_isDigit isBlank (b := false) (by decide) hend] at hblank
    cases hblank
  subst hnone
  rw [List.append_nil] at hend ⊢
  have hdigit : ∀ {c : Char}, c.isDigit = true → ∀ s, beginsInDigit (b ++ c :: s) = true :=
    fun hc s ↦ (beginsInDigit_blanks_append hb (eq_of_isDigit isBlank (by decide) hc) s).trans hc
  refine ⟨b, hb, ?_⟩
  cases hw with
  | whole hne hw =>
    let l : Literal := ⟨w, [], hne, hw, isDigit_of_mem_nil⟩
    obtain ⟨c, u, rfl⟩ := List.exists_cons_of_ne_nil hne
    exact .inl ⟨hdigit (hw c List.mem_cons_self) u, l, rfl⟩
  | @pointed w f hne hw hf =>
    have hfne : f ≠ [] := by
      rintro rfl
      rw [← List.append_assoc, endsInDigit_append _ (List.cons_ne_nil _ _)] at hend
      exact absurd hend (by decide)
    cases w with
    | nil =>
      let l : Literal := ⟨f, [], hfne, hf, isDigit_of_mem_nil⟩
      exact .inr ⟨beginsInDigit_blanks_append hb (by decide) f, l, rfl⟩
    | cons c w =>
      let l : Literal := ⟨c :: w, f, List.cons_ne_nil c w, hw, hf⟩
      have htext : l.text = c :: w ++ '.' :: f := Literal.text_of_fraction_ne_nil hfne
      exact .inl ⟨hdigit (hw c List.mem_cons_self) _, l, by rw [htext]⟩

end Token

/-! ## Expansions -/

theorem expandPercentages_of_ne_percent (h : ∀ c ∈ s, c ≠ '%') : expandPercentages s = s :=
  expandPercentages_eq_self (isChain_of_ne_percent h)

theorem endsApart_append_singleton (hc : isDecimalDigit c = false) (hpoint : c ≠ '.')
    (s : List Char) : EndsApart (s ++ [c]) := by
  refine .append (fun h ↦ absurd h (List.cons_ne_nil c [])) ?_
  rintro d ⟨⟩
  exact ⟨hc, hpoint⟩

theorem endsApart_of_isBlank (h : ∀ c ∈ s, isBlank c = true) : EndsApart s := by
  intro c hc
  have hblank := h c (List.mem_of_getLast? hc)
  refine ⟨isDecimalDigit_of_isBlank hblank, ?_⟩
  rintro rfl
  exact absurd hblank (by decide)

theorem expandPercentages_blanks_append (h : ∀ c ∈ s, isBlank c = true) (t : List Char) :
    expandPercentages (s ++ t) = s ++ expandPercentages t := by
  rw [expandPercentages_append (endsApart_of_isBlank h),
    expandPercentages_of_ne_percent fun c hc ↦ (passes_of_isBlank (h c hc)).2]

theorem Literal.expandPercentages_text_percent (l : Literal) :
    expandPercentages (l.text ++ ['%']) = '(' :: l.text ++ "/100)".toList := by
  simp [l.expandPercentages_percent]

theorem expandPercentages_append_percent (h : ∀ c ∈ s, c ≠ '%')
    (hlast : ∀ c ∈ s.getLast?, isDecimalDigit c = false) :
    expandPercentages (s ++ ['%']) = s ++ ['%'] := by
  refine expandPercentages_eq_self (List.isChain_append.mpr
    ⟨isChain_of_ne_percent h, .singleton _, fun c hc d _ hdigit ↦ ?_⟩)
  rw [hlast c hc] at hdigit
  cases hdigit

/-! ## The three readings of a percent sign -/

section Values

variable {rest u : List Char} {v : Float}

theorem evaluateLine_append_percent (hs : ∀ c ∈ s, isCleanChar c = true)
    (hrest : clean rest = .ok u) :
    evaluateLine (s ++ '%' :: rest) = evaluate (expandPercentages (s ++ ['%']) ++ u) := by
  have hclean : ∀ c ∈ s ++ ['%'], isCleanChar c = true :=
    List.forall_mem_append.mpr ⟨hs, List.forall_mem_singleton.mpr (by decide)⟩
  rw [List.append_cons]
  exact evaluateLine_append hclean (endsApart_append_singleton (by decide) (by decide) s) hrest

theorem evaluateLine_quotient_append (hs : ∀ c ∈ s, Passes c)
    (hrest : clean rest = .ok u) :
    evaluateLine ('(' :: s ++ "/100)".toList ++ rest)
      = evaluate ('(' :: s ++ "/100)".toList ++ u) := by
  have hall : ∀ c ∈ '(' :: s ++ "/100)".toList, Passes c :=
    List.forall_mem_append.mpr ⟨List.forall_mem_cons.mpr ⟨by decide, hs⟩,
      passes_of_all (by decide)⟩
  have hapart : EndsApart ('(' :: s ++ "/100)".toList) := by
    refine .append (fun h ↦ absurd h (by decide)) ?_
    rintro c ⟨⟩
    decide
  rw [evaluateLine_append (fun c hc ↦ (hall c hc).1) hapart hrest,
    expandPercentages_of_ne_percent fun c hc ↦ (hall c hc).2]

theorem evaluateLine_parens_percent (hs : ∀ c ∈ s, Passes c)
    (hrest : clean rest = .ok u) :
    evaluateLine ('(' :: s ++ ")%".toList ++ rest) = evaluate ('(' :: s ++ [')'] ++ '%' :: u) := by
  have hall : ∀ c ∈ '(' :: s ++ [')'], Passes c :=
    List.forall_mem_append.mpr ⟨List.forall_mem_cons.mpr ⟨by decide, hs⟩,
      passes_of_all (by decide)⟩
  have hdigit : ∀ c ∈ ('(' :: s ++ [')']).getLast?, isDecimalDigit c = false := by
    rw [List.getLast?_concat]
    rintro c ⟨⟩
    decide
  have hline : '(' :: s ++ ")%".toList ++ rest = '(' :: s ++ [')'] ++ '%' :: rest := by simp
  rw [hline, evaluateLine_append_percent (fun c hc ↦ (hall c hc).1) hrest,
    expandPercentages_append_percent (fun c hc ↦ (hall c hc).2) hdigit,
    List.append_assoc _ ['%'], List.singleton_append]

theorem evaluateLine_literal_percent (l : Literal) (hb : ∀ c ∈ s, isBlank c = true)
    (hrest : clean rest = .ok u) :
    evaluateLine (s ++ l.text ++ '%' :: rest)
      = evaluateLine ('(' :: (s ++ l.text) ++ "/100)".toList ++ rest) := by
  have hall : ∀ c ∈ s ++ l.text, Passes c :=
    List.forall_mem_append.mpr ⟨fun c hc ↦ passes_of_isBlank (hb c hc),
      fun c hc ↦ passes_of_isDigit_or (l.isDigit_or_eq_point c hc)⟩
  rw [evaluateLine_append_percent (fun c hc ↦ (hall c hc).1) hrest, List.append_assoc s,
    expandPercentages_blanks_append hb, l.expandPercentages_text_percent,
    evaluateLine_quotient_append hall hrest]
  -- the parenthesis stands behind the blanks or before them
  refine evaluate_of_scan_eq ?_
  simp [Token.scan_blanks_append hb]

/-- Behind decimals without a whole number a percent sign takes the decimals for the number, and
leaves the point alone. -/
theorem evaluateLine_decimals_percent (l : Literal) (hb : ∀ c ∈ s, isBlank c = true)
    (hrest : clean rest = .ok u) :
    evaluateLine (s ++ '.' :: l.text ++ '%' :: rest) = .error (.malformed .lonePoint) := by
  have hclean : ∀ c ∈ s ++ '.' :: l.text, isCleanChar c = true :=
    List.forall_mem_append.mpr ⟨fun c hc ↦ (passes_of_isBlank (hb c hc)).1,
      List.forall_mem_cons.mpr ⟨by decide, fun c hc ↦ Typed.isCleanChar_of_mem_text hc⟩⟩
  have hexpand : expandPercentages (s ++ '.' :: l.text ++ ['%'])
      = s ++ '.' :: '(' :: (l.text ++ "/100)".toList) := by
    rw [List.append_assoc, expandPercentages_blanks_append hb, List.cons_append,
      expandPercentages_cons (by decide), l.expandPercentages_text_percent, List.cons_append]
  have hscan : Token.scan (s ++ '.' :: '(' :: (l.text ++ "/100)".toList) ++ u)
      = .error .lonePoint := by
    rw [List.append_assoc, Token.scan_blanks_append hb, List.cons_append,
      Token.scan_of_beginsNumber rfl]
    rfl
  rw [evaluateLine_append_percent hclean hrest, hexpand, evaluate, parse, hscan]
  rfl

theorem evaluate_of_parens (hs : Token.Scans s [.number v] rest)
    (ht : Token.Scans t [.openParen, .number v, .closeParen] rest) :
    evaluate (s ++ rest) = evaluate (t ++ rest) := by
  rw [evaluate, evaluate, parse, parse, hs, ht]
  cases Token.scan rest <;> rfl

/-- Behind any other text of a number a percent sign is the sign of a remainder, as it is behind
parentheses. -/
theorem evaluateLine_number_percent (hs : Token.scan s = .ok [.number v])
    (hlast : endsInDigit s = false) (hrest : clean rest = .ok u) :
    evaluateLine (s ++ '%' :: rest) = evaluateLine ('(' :: s ++ ")%".toList ++ rest) := by
  have hall := Token.passes_of_scan hs
  have hdigit : ∀ c ∈ s.getLast?, isDecimalDigit c = false := by
    intro c hc
    rw [endsInDigit, Option.mem_def.mp hc] at hlast
    rw [← Bool.not_eq_true]
    intro hdecimal
    exact Bool.false_ne_true (hlast.symm.trans
      (isDigit_of_isCleanChar (hall c (List.mem_of_getLast? hc)).1 hdecimal))
  rw [evaluateLine_append_percent (fun c hc ↦ (hall c hc).1) hrest,
    expandPercentages_append_percent (fun c hc ↦ (hall c hc).2) hdigit, List.append_assoc,
    List.singleton_append, evaluateLine_parens_percent hall hrest]
  exact evaluate_of_parens (Token.scans_of_scan hs (Literal.isEnd_cons rfl (by decide) _))
    (Token.scans_parens (Token.scans_of_scan hs (Literal.isEnd_cons rfl (by decide) _)))

theorem evaluateLine_scan_percent (hs : Token.scan s = .ok [.number v])
    (hrest : clean rest = .ok u) :
    evaluateLine (s ++ '%' :: rest) =
      if endsInDigit s then
        if beginsInDigit s then evaluateLine ('(' :: s ++ "/100)".toList ++ rest)
        else .error (.malformed .lonePoint)
      else evaluateLine ('(' :: s ++ ")%".toList ++ rest) := by
  cases hend : endsInDigit s with
  | false =>
    rw [if_neg Bool.false_ne_true]
    exact evaluateLine_number_percent hs hend hrest
  | true =>
    rw [if_pos rfl]
    obtain ⟨b, hb, ⟨hbegin, l, rfl⟩ | ⟨hbegin, l, rfl⟩⟩ := Token.cases_of_endsInDigit hs hend
    · rw [hbegin, if_pos rfl]
      exact evaluateLine_literal_percent l hb hrest
    · rw [hbegin, if_neg Bool.false_ne_true]
      exact evaluateLine_decimals_percent l hb hrest

/-! ## Where the difference shows -/

theorem Token.scan_open_number (hs : scan s = .ok [.number v]) {r : List Char}
    (hr : Literal.IsEnd r) :
    scan ('(' :: s ++ r) = ([.openParen, .number v] ++ ·) <$> scan r :=
  (scans_open _).append (scans_of_scan hs hr)

theorem evaluateLine_quotient_times (hs : Token.scan s = .ok [.number v]) :
    evaluateLine ('(' :: s ++ "/100)".toList ++ ['*', '1']) = finite (v / 100.0 * 1.0) := by
  have hclean : clean ['*', '1'] = .ok ['*', '1'] := eq_ok_of_toOption (by decide +kernel)
  have hbehind : Token.scan "/100)*1".toList = .ok [.operator .divide, .number 100.0, .closeParen,
      .operator .times, .number 1.0] := eq_ok_of_toOption (by decide +kernel)
  have hend : Literal.IsEnd "/100)*1".toList := Literal.isEnd_cons rfl (by decide) _
  have hscan := Token.scan_open_number hs hend
  have hjoin : "/100)".toList ++ ['*', '1'] = "/100)*1".toList := rfl
  rw [hbehind] at hscan
  rw [evaluateLine_quotient_append (Token.passes_of_scan hs) hclean, List.append_assoc,
    hjoin, evaluate, parse, hscan]
  rfl

/-- A remainder has no operand in front of the sign of a product. -/
theorem evaluateLine_remainder_times (hs : Token.scan s = .ok [.number v]) :
    evaluateLine ('(' :: s ++ ")%".toList ++ ['*', '1']) = .error (.malformed .missingOperand) := by
  have hclean : clean ['*', '1'] = .ok ['*', '1'] := eq_ok_of_toOption (by decide +kernel)
  have hbehind : Token.scan ")%*1".toList = .ok [.closeParen, .operator .remainder,
      .operator .times, .number 1.0] := eq_ok_of_toOption (by decide +kernel)
  have hend : Literal.IsEnd ")%*1".toList := Literal.isEnd_cons rfl (by decide) _
  have hscan := Token.scan_open_number hs hend
  have hjoin : [')'] ++ ['%', '*', '1'] = ")%*1".toList := rfl
  rw [hbehind] at hscan
  rw [evaluateLine_parens_percent (Token.passes_of_scan hs) hclean, List.append_assoc,
    hjoin, evaluate, parse, hscan]
  rfl

end Values

/-! ## All texts of a number -/

/-- **What a percent sign is behind a number.** Behind digits, and behind digits on both sides of a
point, it divides the number by one hundred, whatever comes next. A number that begins with its
point loses the point, and the line is refused. Behind a number that ends with its point or with a
blank the percent sign is the sign of a remainder. So a percentage is a division by one hundred in
front of every operation exactly if the text of the number begins and ends in a digit. -/
theorem evaluateLine_percent_sign {text : List Char} {v : Float}
    (h : Token.scan text = .ok [.number v]) :
    (∀ rest u, clean rest = .ok u → evaluateLine (text ++ '%' :: rest) =
      if endsInDigit text then
        if beginsInDigit text then evaluateLine ('(' :: text ++ "/100)".toList ++ rest)
        else .error (.malformed .lonePoint)
      else evaluateLine ('(' :: text ++ ")%".toList ++ rest)) ∧
    ((beginsInDigit text = true ∧ endsInDigit text = true) ↔
      ∀ c ∈ "+-*/^".toList, ∀ operand u, clean (c :: operand) = .ok u →
        evaluateLine (text ++ '%' :: c :: operand)
          = evaluateLine ('(' :: text ++ "/100)".toList ++ c :: operand)) := by
  have hrest := fun rest u (hu : clean rest = .ok u) ↦ evaluateLine_scan_percent h hu
  refine ⟨hrest, fun ⟨hbegin, hend⟩ c _ operand u hu ↦ ?_, fun hequal ↦ ?_⟩
  · rw [hrest _ u hu, hend, if_pos rfl, hbegin, if_pos rfl]
  · have hclean : clean ['*', '1'] = .ok ['*', '1'] := eq_ok_of_toOption (by decide +kernel)
    have hfinite : ∀ (x : Float) e, finite x ≠ .error (.malformed e) := by
      intro x e hx
      rw [finite] at hx
      split at hx <;> cases hx
    -- multiplied by one, what is no percentage is refused
    have htimes := hequal '*' (by decide) ['1'] _ hclean
    rw [hrest _ _ hclean, evaluateLine_quotient_times h, evaluateLine_remainder_times h] at htimes
    cases hend : endsInDigit text with
    | false =>
      rw [hend, if_neg Bool.false_ne_true] at htimes
      exact absurd htimes.symm (hfinite _ _)
    | true =>
      refine ⟨?_, rfl⟩
      cases hbegin : beginsInDigit text with
      | false =>
        rw [hend, if_pos rfl, hbegin, if_neg Bool.false_ne_true] at htimes
        exact absurd htimes.symm (hfinite _ _)
      | true => rfl

/-- The three meanings in front of a sum, and what the percentage would be. -/
theorem evaluateLine_percent_sign_plus :
    (Token.scan "12.5".toList = .ok [.number 12.5] ∧ Token.scan ".5".toList = .ok [.number 0.5] ∧
      Token.scan "5.".toList = .ok [.number 5.0]) ∧
    clean "+1".toList = .ok "+1".toList ∧
    evaluateLine "12.5%+1".toList = .ok 1.125 ∧
    evaluateLine ".5%+1".toList = .error (.malformed .lonePoint) ∧
    evaluateLine "(.5/100)+1".toList = .ok 1.005 ∧
    evaluateLine "5.%+1".toList = .ok 0.0 ∧
    evaluateLine "(5./100)+1".toList = .ok 1.05 ∧
    ¬ ∀ c ∈ "+-*/^".toList, ∀ operand u, clean (c :: operand) = .ok u →
      evaluateLine ('.' :: '5' :: '%' :: c :: operand)
        = evaluateLine ("(.5/100)".toList ++ c :: operand) := by
  have hpercentage : Token.scan "12.5".toList = .ok [.number 12.5] :=
    eq_ok_of_toOption (by decide +kernel)
  have hpoint : Token.scan ".5".toList = .ok [.number 0.5] := eq_ok_of_toOption (by decide +kernel)
  have hremainder : Token.scan "5.".toList = .ok [.number 5.0] :=
    eq_ok_of_toOption (by decide +kernel)
  have hclean : clean "+1".toList = .ok "+1".toList := eq_ok_of_toOption (by decide +kernel)
  refine ⟨⟨hpercentage, hpoint, hremainder⟩, hclean, ?_,
    (evaluateLine_percent_sign hpoint).1 _ _ hclean, eq_ok_of_toOption (by decide +kernel), ?_,
    eq_ok_of_toOption (by decide +kernel), ?_⟩
  · rw [show "12.5%+1".toList = "12.5".toList ++ '%' :: "+1".toList from rfl,
      (evaluateLine_percent_sign hpercentage).1 _ _ hclean]
    exact eq_ok_of_toOption (by decide +kernel)
  · rw [show "5.%+1".toList = "5.".toList ++ '%' :: "+1".toList from rfl,
      (evaluateLine_percent_sign hremainder).1 _ _ hclean]
    exact eq_ok_of_toOption (by decide +kernel)
  · exact fun hequal ↦ absurd ((evaluateLine_percent_sign hpoint).2.mpr hequal) (by decide)

end DeskCalculator
