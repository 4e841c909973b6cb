import DeskCalculator.Proofs.Formula.Unwrapped
import Mathlib.Data.List.Chain

/-!
# Which lines can be cleaned, and into what

Cleaning refuses a line for one of two reasons, and each is seen from the characters of the line
alone: nothing but operators, points and blanks, or a character that no expression has. Every other
line is cleaned, and a cleaned line is one that cleaning leaves alone. The steps do not undo each
other: the expansion of a percentage puts a parenthesis where the percent sign was, so no percent
sign comes to stand behind a digit, and what a line ends with is the same before and after.
-/

namespace DeskCalculator

/-- A line as cleaning leaves it: not empty, of the characters of an expression, finished, and
without a percentage. -/
structure IsCleaned (s : List Char) : Prop where
  ne_nil : s ≠ []
  isCleanChar : ∀ c ∈ s, isCleanChar c = true
  isFinished : ∀ c ∈ s.getLast?, isUnfinished c = false
  hasNoPercentage : s.IsChain fun c d ↦ c.isDigit = true → d ≠ '%'

variable {s : List Char} {c : Char}

/-! ## Classes of characters -/

theorem isGlyph_of_isCleanChar (h : isCleanChar c = true) : isGlyph c = false :=
  isGlyph_eq_false_of (by decide) h

theorem isDigit_of_isCleanChar (h : isCleanChar c = true) (hc : isDecimalDigit c = true) :
    c.isDigit = true := by
  have hsigns : "+-*/().%xX".toList.all (fun c ↦ !isDecimalDigit c) = true := by decide
  rcases Bool.or_eq_true_iff.mp h with h | h
  · rcases Bool.or_eq_true_iff.mp h with h | h
    · exact h
    · have hnot := List.all_eq_true.mp hsigns c (List.contains_iff_mem.mp h)
      rw [hc] at hnot
      cases hnot
  · rw [isDecimalDigit_of_isBlank h] at hc
    cases hc

/-- What a character is spelled with is in a class that has the star and the slash if the character
is in it or a glyph. -/
theorem all_spell {p : Char → Bool} (hstar : p '*' = true) (hslash : p '/' = true) (c : Char) :
    (spell c).all p = (p c || isGlyph c) := by
  cases hc : isGlyph c with
  | false => rw [spell_of_not_isGlyph hc, List.all_cons, List.all_nil, Bool.and_true, Bool.or_false]
  | true =>
    rw [Bool.or_true]
    rcases isGlyph_iff.mp hc with rfl | rfl | rfl <;> simp [spell, hstar, hslash]

theorem all_spellOut {p : Char → Bool} (hstar : p '*' = true) (hslash : p '/' = true)
    (line : List Char) : (spellOut line).all p = line.all fun c ↦ p c || isGlyph c := by
  rw [spellOut, List.all_flatMap]
  exact congrArg line.all (funext fun c ↦ all_spell hstar hslash c)

/-! ## Percentages -/

theorem exists_percentage?_eq_append {n : List Char × List Char} (hc : isDecimalDigit c = true)
    (h : percentage? (c :: s) = some n) : ∃ t d, n.1 = t ++ [d] ∧ isDecimalDigit d = true := by
  have hlast : ∀ t : List Char, t ≠ [] → (∀ d ∈ t, isDecimalDigit d = true) →
      ∃ u d, t = u ++ [d] ∧ isDecimalDigit d = true := fun t ht hall ↦
    ⟨t.dropLast, t.getLast ht, (List.dropLast_concat_getLast ht).symm, hall _ (List.getLast_mem ht)⟩
  have htake : ∀ t : List Char, ∀ d ∈ t.takeWhile isDecimalDigit, isDecimalDigit d = true :=
    fun t ↦ List.all_eq_true.mp List.all_takeWhile
  simp only [percentage?] at h
  split at h
  · cases h
    refine hlast _ ?_ (htake _)
    rw [List.takeWhile_cons, hc, if_pos rfl]
    exact List.cons_ne_nil _ _
  · next rest heq =>
    split at h
    · split at h
      · cases h
      · next hne =>
        cases h
        rw [List.isEmpty_iff] at hne
        obtain ⟨u, d, hu, hd⟩ := hlast _ hne (htake rest)
        exact ⟨(c :: s).takeWhile isDecimalDigit ++ '.' :: u, d,
          by rw [hu, List.append_assoc, List.cons_append], hd⟩
    · cases h
  · cases h

theorem ne_percent_of_percentage? {n : List Char × List Char} (h : percentage? s = some n) :
    ∀ c ∈ n.1, c ≠ '%' := by
  have htake : ∀ t : List Char, ∀ d ∈ t.takeWhile isDecimalDigit, d ≠ '%' := by
    rintro t d hd rfl
    exact absurd (List.all_eq_true.mp List.all_takeWhile _ hd) (by decide)
  simp only [percentage?] at h
  split at h
  · cases h
    exact htake s
  · next rest heq =>
    split at h
    · split at h
      · cases h
      · cases h
        refine List.forall_mem_append.mpr ⟨htake s, List.forall_mem_cons.mpr ⟨by decide, ?_⟩⟩
        exact htake rest
    · cases h
  · cases h

theorem ne_percent_of_percentage?_eq_none (h : percentage? s = none) :
    ∀ d ∈ (s.dropWhile isDecimalDigit).head?, d ≠ '%' := by
  rintro d hd rfl
  obtain ⟨rest, hrest⟩ := List.head?_eq_some_iff.mp hd
  rw [percentage?, hrest] at h
  cases h

theorem head?_expandPercentages (h : ∀ c ∈ s.head?, isDecimalDigit c = false) :
    (expandPercentages s).head? = s.head? := by
  cases s with
  | nil => simp
  | cons c s => simp [expandPercentages_cons (h c rfl)]

theorem isChain_of_ne_percent {p : Char → Bool} (h : ∀ c ∈ s, c ≠ '%') :
    s.IsChain fun c d ↦ p c = true → d ≠ '%' := by
  refine (List.pairwise_of_forall_mem_list fun c _ d hd ↦ ?_).isChain
  exact fun _ ↦ h d hd

/-- **No percent sign stands behind a digit once the percentages are expanded.** -/
theorem isChain_expandPercentages (s : List Char) :
    (expandPercentages s).IsChain fun c d ↦ isDecimalDigit c = true → d ≠ '%' := by
  fun_induction expandPercentages s with
  | case1 => exact .nil
  | case2 c s hc n hn ih =>
    have hvalue : ∀ c ∈ '(' :: n.1 ++ "/100)".toList, c ≠ '%' :=
      List.forall_mem_append.mpr ⟨List.forall_mem_cons.mpr
        ⟨by decide, ne_percent_of_percentage? hn⟩, by simp⟩
    refine List.isChain_append.mpr ⟨isChain_of_ne_percent hvalue, ih, ?_⟩
    -- the last character of the value is a parenthesis
    intro d hd e _ hdigit
    rw [List.getLast?_append] at hd
    cases hd
    exact absurd hdigit (by decide)
  | case3 c s hc hn ih =>
    have hdigits : ∀ d ∈ c :: s.takeWhile isDecimalDigit, d ≠ '%' := by
      rintro d hd rfl
      rcases List.mem_cons.mp hd with rfl | hd
      · exact absurd hc (by decide)
      · exact absurd (List.all_eq_true.mp List.all_takeWhile _ hd) (by decide)
    refine List.isChain_append.mpr ⟨isChain_of_ne_percent hdigits, ih, fun d _ e he _ ↦ ?_⟩
    rw [head?_expandPercentages (head?_dropWhile_eq_false isDecimalDigit s)] at he
    refine ne_percent_of_percentage?_eq_none hn e ?_
    rwa [List.dropWhile_cons, hc, if_pos rfl]
  | case4 c s hc ih => exact List.isChain_cons.mpr ⟨fun d _ hdigit ↦ absurd hdigit hc, ih⟩

theorem expandPercentages_eq_self
    (h : s.IsChain fun c d ↦ isDecimalDigit c = true → d ≠ '%') : expandPercentages s = s := by
  fun_induction expandPercentages s with
  | case1 => rfl
  | case2 c s hc n hn ih =>
    -- a percentage has a percent sign behind the last digit of its number
    obtain ⟨t, d, ht, hd⟩ := exists_percentage?_eq_append hc hn
    rw [← percentage?_append hn, ht, List.append_assoc] at h
    exact absurd rfl ((List.isChain_cons_cons.mp (List.isChain_append.mp h).2.1).1 hd)
  | case3 c s hc hn ih =>
    rw [ih (h.suffix ((List.dropWhile_suffix _).trans (List.suffix_cons c s))), List.cons_append,
      List.takeWhile_append_dropWhile]
  | case4 c s hc ih => rw [ih (h.suffix (List.suffix_cons c s))]

theorem getLast?_expandPercentages (h : ∀ c ∈ s.getLast?, c ≠ '%') :
    (expandPercentages s).getLast? = s.getLast? := by
  have hbehind : ∀ t u v : List Char, (expandPercentages v).getLast? = v.getLast? → v ≠ [] →
      (t ++ expandPercentages v).getLast? = (u ++ v).getLast? := by
    intro t u v hv hne
    rw [List.getLast?_append_of_ne_nil _ (expandPercentages_eq_nil_iff.not.mpr hne),
      List.getLast?_append_of_ne_nil _ hne, hv]
  fun_induction expandPercentages s with
  | case1 => rfl
  | case2 c s hc n hn ih =>
    have happend : (n.1 ++ ['%']) ++ n.2 = c :: s := by
      rw [List.append_assoc, List.singleton_append, percentage?_append hn]
    rw [← happend] at h ⊢
    have hne : n.2 ≠ [] := by
      intro hnil
      rw [hnil, List.append_nil, List.getLast?_append] at h
      exact h '%' rfl rfl
    rw [List.getLast?_append_of_ne_nil _ hne] at h
    exact hbehind _ _ _ (ih h) hne
  | case3 c s hc hn ih =>
    have happend : (c :: s.takeWhile isDecimalDigit) ++ s.dropWhile isDecimalDigit = c :: s := by
      rw [List.cons_append, List.takeWhile_append_dropWhile]
    rw [← happend] at h
    conv_rhs => rw [← happend]
    cases hrest : s.dropWhile isDecimalDigit with
    | nil => simp
    | cons d t =>
      rw [hrest] at h ih
      have hne : d :: t ≠ [] := List.cons_ne_nil d t
      rw [List.getLast?_append_of_ne_nil _ hne] at h
      exact hbehind _ _ _ (ih h) hne
  | case4 c s hc ih =>
    cases s with
    | nil => simp
    | cons d t =>
      have hne : d :: t ≠ [] := List.cons_ne_nil d t
      rw [List.getLast?_cons_of_ne_nil hne] at h
      exact hbehind [c] [c] _ (ih h) hne

theorem isCleanChar_of_mem_expandPercentages (h : c ∈ expandPercentages s) :
    c ∈ s ∨ isCleanChar c = true := by
  have hopen : isCleanChar '(' = true := by decide
  have hbehind : "/100)".toList.all isCleanChar = true := by decide
  fun_induction expandPercentages s with
  | case1 => exact .inl h
  | case2 d s hd n hn ih =>
    rw [← percentage?_append hn, List.mem_append, List.mem_cons]
    rw [List.mem_append, List.mem_append, List.mem_cons] at h
    rcases h with ((rfl | h) | h) | h
    · exact .inr hopen
    · exact .inl (.inl h)
    · exact .inr (List.all_eq_true.mp hbehind c h)
    · exact (ih h).imp_left fun h ↦ .inr (.inr h)
  | case3 d s hd hn ih =>
    rw [List.cons_append, List.mem_cons, List.mem_append] at h
    rcases h with rfl | h | h
    · exact .inl List.mem_cons_self
    · exact .inl (List.mem_cons_of_mem d ((List.takeWhile_sublist _).subset h))
    · exact (ih h).imp_left fun h ↦ List.mem_cons_of_mem d ((List.dropWhile_sublist _).subset h)
  | case4 d s hd ih =>
    rcases List.mem_cons.mp h with rfl | h
    · exact .inl List.mem_cons_self
    · exact (ih h).imp_left (List.mem_cons_of_mem d)

/-! ## Lines that are refused -/

/-- The line with its glyphs spelled out, finished and with its percentages expanded. -/
def expanded (line : List Char) : List Char := expandPercentages (finished line)

theorem clean_eq_ite (line : List Char) : clean line =
    if (expanded line).isEmpty then .error .nothingToEvaluate
    else if (expanded line).all isCleanChar then .ok (expanded line)
    else .error (.strayCharacter line) := rfl

theorem expanded_eq_nil_iff (line : List Char) :
    expanded line = [] ↔ ∀ c ∈ line, (isUnfinished c || isGlyph c) = true := by
  rw [expanded, expandPercentages_eq_nil_iff, finished, dropEndWhile_eq_nil_iff,
    ← List.all_eq_true, all_spellOut (by decide) (by decide), List.all_eq_true]

/-- The passes neither remove nor add a character that no expression has. -/
@[simp] theorem all_isCleanChar_expanded (line : List Char) :
    (expanded line).all isCleanChar = line.all isLineChar := by
  have hspell : (spellOut line).all isCleanChar = line.all isLineChar :=
    all_spellOut (by decide) (by decide) line
  rw [← hspell, Bool.eq_iff_iff, List.all_eq_true, List.all_eq_true]
  constructor
  · intro h c hc
    by_cases hend : isUnfinished c = true
    · exact isCleanChar_of_isUnfinished hend
    · have hpercent : c ≠ '%' := by
        rintro rfl
        exact hend (by decide)
      refine h c (mem_expandPercentages hpercent ?_)
      exact mem_dropEndWhile (Bool.not_eq_true _ ▸ hend) hc
  · intro h c hc
    refine (isCleanChar_of_mem_expandPercentages hc).elim (fun hc ↦ h c ?_) id
    exact (isPrefix_dropEndWhile isUnfinished (spellOut line)).subset hc

/-! ## Lines that are cleaned -/

/-- What is left of a line that is not refused. -/
theorem isCleaned_expanded {line : List Char} (hne : expanded line ≠ [])
    (hall : (expanded line).all isCleanChar = true) : IsCleaned (expanded line) where
  ne_nil := hne
  isCleanChar := List.all_eq_true.mp hall
  isFinished := by
    have hlast : ∀ c ∈ (finished line).getLast?, isUnfinished c = false :=
      getLast?_dropEndWhile isUnfinished (spellOut line)
    rw [expanded, getLast?_expandPercentages]
    · exact hlast
    · rintro c hc rfl
      exact absurd (hlast '%' hc) (by decide)
  hasNoPercentage :=
    (isChain_expandPercentages _).imp fun _ _ h hc ↦ h (isDecimalDigit_of_isDigit hc)

theorem IsCleaned.expanded_eq (h : IsCleaned s) : expanded s = s := by
  have hspell : spellOut s = s :=
    spellOut_eq_self fun c hc ↦ isGlyph_of_isCleanChar (h.isCleanChar c hc)
  have hchain : s.IsChain fun c d ↦ isDecimalDigit c = true → d ≠ '%' := by
    refine List.IsChain.imp_of_mem_imp ?_ h.hasNoPercentage
    exact fun c d hc _ hcd hdigit ↦ hcd (isDigit_of_isCleanChar (h.isCleanChar c hc) hdigit)
  rw [expanded, finished, hspell, dropEndWhile_eq_self h.isFinished,
    expandPercentages_eq_self hchain]

theorem IsCleaned.clean_eq (h : IsCleaned s) : clean s = .ok s := by
  have hempty : (expanded s).isEmpty = false := by
    rw [h.expanded_eq, List.isEmpty_eq_false_iff]
    exact h.ne_nil
  rw [clean_eq_ite, hempty, if_neg Bool.false_ne_true, h.expanded_eq,
    if_pos (List.all_eq_true.mpr h.isCleanChar)]

theorem isCleaned_of_clean {line : List Char} (h : clean line = .ok s) : IsCleaned s := by
  rw [clean_eq_ite] at h
  split at h
  · cases h
  · next hne =>
    rw [List.isEmpty_iff] at hne
    split at h
    · next hall =>
      cases h
      exact isCleaned_expanded hne hall
    · cases h

/-! ## All lines -/

theorem clean_eq_nothingToEvaluate_iff (line : List Char) :
    clean line = .error .nothingToEvaluate ↔
      ∀ c ∈ line, (isUnfinished c || isGlyph c) = true := by
  rw [← expanded_eq_nil_iff, ← List.isEmpty_iff, clean_eq_ite]
  split
  · next h => exact iff_of_true rfl h
  · next h =>
    refine iff_of_false ?_ h
    split <;> exact nofun

theorem clean_eq_strayCharacter_iff (line : List Char) :
    clean line = .error (.strayCharacter line) ↔ ∃ c ∈ line, isLineChar c = false := by
  have hstray : (∃ c ∈ line, isLineChar c = false) ↔ ¬ (expanded line).all isCleanChar = true := by
    rw [all_isCleanChar_expanded, Bool.not_eq_true, List.all_eq_false]
    simp only [Bool.not_eq_true]
  rw [hstray, clean_eq_ite]
  split
  · next h =>
    rw [List.isEmpty_iff] at h
    rw [h]
    exact iff_of_false nofun fun hnot ↦ hnot rfl
  · split
    · next hall => exact iff_of_false nofun fun hnot ↦ hnot hall
    · next hall => exact iff_of_true rfl hall

theorem exists_clean_eq_ok_iff (line : List Char) :
    (∃ s, clean line = .ok s ∧ IsCleaned s) ↔
      (∃ c ∈ line, (isUnfinished c || isGlyph c) = false) ∧ ∀ c ∈ line, isLineChar c = true := by
  have hunfinished : (∃ c ∈ line, (isUnfinished c || isGlyph c) = false) ↔
      ¬ (expanded line).isEmpty = true := by
    rw [List.isEmpty_iff, expanded_eq_nil_iff]
    simp only [not_forall, exists_prop, Bool.not_eq_true]
  rw [hunfinished, ← List.all_eq_true, ← all_isCleanChar_expanded, clean_eq_ite]
  constructor
  · rintro ⟨s, h, -⟩
    split at h
    · cases h
    · next hne =>
      split at h
      · next hall => exact ⟨hne, hall⟩
      · cases h
  · rintro ⟨hne, hall⟩
    rw [if_neg hne, if_pos hall]
    exact ⟨_, rfl, isCleaned_expanded (List.isEmpty_iff.not.mp hne) hall⟩

theorem clean_eq_self_iff : clean s = .ok s ↔ IsCleaned s :=
  ⟨isCleaned_of_clean, IsCleaned.clean_eq⟩

/-- Cleaning refuses a line that has nothing but operators, points and blanks, and one with a
character that no expression has; it turns any other line into a cleaned one. What it makes are the
lines that it leaves alone, so cleaning twice is cleaning once. -/
theorem clean_outcome (line : List Char) :
    (clean line = .error .nothingToEvaluate ↔
      ∀ c ∈ line, (isUnfinished c || isGlyph c) = true) ∧
    (clean line = .error (.strayCharacter line) ↔ ∃ c ∈ line, isLineChar c = false) ∧
    ((∃ s, clean line = .ok s ∧ IsCleaned s) ↔
      (∃ c ∈ line, (isUnfinished c || isGlyph c) = false) ∧ ∀ c ∈ line, isLineChar c = true) ∧
    (clean line = .ok line ↔ IsCleaned line) ∧
    ((∃ raw, clean raw = .ok line) ↔ clean line = .ok line) ∧
    (clean line >>= clean) = clean line := by
  have hfixed : (∃ raw, clean raw = .ok line) ↔ clean line = .ok line :=
    ⟨fun ⟨_, h⟩ ↦ (isCleaned_of_clean h).clean_eq, fun h ↦ ⟨line, h⟩⟩
  have hidempotent : (clean line >>= clean) = clean line := by
    cases h : clean line with
    | error e => rfl
    | ok s => exact (isCleaned_of_clean h).clean_eq
  exact ⟨clean_eq_nothingToEvaluate_iff line, clean_eq_strayCharacter_iff line,
    exists_clean_eq_ok_iff line, clean_eq_self_iff, hfixed, hidempotent⟩

/-- A percentage, and a percent sign that makes none behind a parenthesis. -/
theorem clean_percentages :
    (∃ c ∈ "12.5%×(x)%.5 +^".toList, (isUnfinished c || isGlyph c) = false) ∧
    (∀ c ∈ "12.5%×(x)%.5 +^".toList, isLineChar c = true) ∧
    clean "12.5%×(x)%.5 +^".toList = .ok "(12.5/100)*(x)%.5".toList ∧
    IsCleaned "(12.5/100)*(x)%.5".toList := by
  have hsome : ∃ c ∈ "12.5%×(x)%.5 +^".toList, (isUnfinished c || isGlyph c) = false :=
    ⟨'x', by decide, by decide⟩
  have hall : ∀ c ∈ "12.5%×(x)%.5 +^".toList, isLineChar c = true :=
    List.all_eq_true.mp (by decide)
  obtain ⟨s, hs, hcleaned⟩ := (clean_outcome "12.5%×(x)%.5 +^".toList).2.2.1.mpr ⟨hsome, hall⟩
  have hline : clean "12.5%×(x)%.5 +^".toList = .ok "(12.5/100)*(x)%.5".toList :=
    eq_ok_of_toOption (by decide +kernel)
  cases hs.symm.trans hline
  exact ⟨hsome, hall, hline, hcleaned⟩

end DeskCalculator
