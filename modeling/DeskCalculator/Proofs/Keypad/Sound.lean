import DeskCalculator.Proofs.Display.Characters
import DeskCalculator.Proofs.Keypad.Typing

/-!
# Sound lines

A line is *sound* if no parenthesis is closed that is not open, none is closed directly behind an
opening one or an operator, no two operators stand next to each other, and no number has two points.
Every line that can come to stand on the display is: a line at rest, a marker and a result are
sound, and whatever is typed or taken back keeps a line sound.

A key adds at most two characters, one after the other, so that one lemma about a single character
at the end of a line carries all keys. The backspace key leaves a beginning of the line, and a
beginning of a sound line is sound.
-/

namespace DeskCalculator

namespace Buffer

/-- Whether a sound line may have `d` directly behind `c`: a closing parenthesis neither behind an
opening one nor behind an operator, and an operator not behind an operator. -/
def admits (c d : Char) : Bool :=
  if d == ')' then c != '(' && !isOperatorKey c else !(isOperatorKey c && isOperatorKey d)

/-- A line that can come to stand on the display. -/
structure IsSound (s : List Char) : Prop where
  ne_nil : s ≠ []
  /-- No beginning of the line closes more parentheses than it opens. -/
  count_close_le : ∀ t, t <+: s → t.count ')' ≤ t.count '('
  isChain : s.IsChain fun c d ↦ admits c d = true
  /-- No stretch of digits and points has two points. -/
  count_point_le : ∀ t, t <:+: s → (∀ c ∈ t, c.isDigit = true ∨ c = '.') → t.count '.' ≤ 1

variable {s : List Char} {c d : Char}

/-! ## Parts of lines -/

/-- A beginning of a sound line is sound. -/
theorem IsSound.of_prefix {t : List Char} (h : IsSound s) (ht : t <+: s) (hne : t ≠ []) :
    IsSound t where
  ne_nil := hne
  count_close_le u hu := h.count_close_le u (hu.trans ht)
  isChain := h.isChain.prefix ht
  count_point_le u hu := h.count_point_le u (hu.trans ht.isInfix)

theorem currentNumber_append {t : List Char} (ht : ∀ c ∈ t, isOperatorKey c = false)
    (s : List Char) : currentNumber (s ++ t) = currentNumber s ++ t := by
  have ht' : ∀ c ∈ t.reverse, (!isOperatorKey c) = true := by
    intro c hc
    rw [ht c (List.mem_reverse.mp hc)]
    rfl
  rw [currentNumber, List.reverse_append, List.takeWhile_append_of_pos ht', List.reverse_append,
    List.reverse_reverse, ← currentNumber]

theorem isOperatorKey_of_isDigit (h : c.isDigit = true) : isOperatorKey c = false :=
  eq_of_isDigit isOperatorKey (by decide) h

/-- **One more character keeps a line sound** if it is admitted behind the last one, closes only
what is open, and is not the second point of a number. -/
theorem IsSound.concat (h : IsSound s) (hlast : ∀ d ∈ s.getLast?, admits d c = true)
    (hclose : c = ')' → s.count ')' < s.count '(') (hpoint : c = '.' → hasPoint s = false) :
    IsSound (s ++ [c]) where
  ne_nil := List.append_ne_nil_of_right_ne_nil s (List.cons_ne_nil c [])
  count_close_le t ht := by
    rcases List.prefix_concat_iff.mp ht with rfl | ht
    · have hs := h.count_close_le s (List.prefix_refl s)
      by_cases hc : c = ')'
      · have hopen := hclose hc
        simp [hc]
        omega
      · have hnone : [c].count ')' = 0 := List.count_eq_zero.mpr (by simpa using Ne.symm hc)
        rw [List.count_append, List.count_append, hnone]
        omega
    · exact h.count_close_le t ht
  isChain := List.isChain_append.mpr ⟨h.isChain, .singleton c, by simpa using hlast⟩
  count_point_le t ht hall := by
    rcases List.infix_concat_iff.mp ht with ht | ht
    · rcases List.suffix_concat_iff.mp ht with rfl | ⟨u, rfl, v, rfl⟩
      · exact Nat.zero_le 1
      · have hu : ∀ d ∈ u, d.isDigit = true ∨ d = '.' := fun d hd ↦
          hall d (List.mem_append_left [c] hd)
        rw [List.count_append]
        by_cases hc : c = '.'
        -- a point behind digits and points that already have one would have been refused
        · have hoperand : ∀ d ∈ u, isOperatorKey d = false := by
            intro d hd
            rcases hu d hd with hdigit | rfl
            · exact isOperatorKey_of_isDigit hdigit
            · rfl
          have hnone := hpoint hc
          rw [hasPoint, currentNumber_append hoperand, List.contains_append,
            Bool.or_eq_false_iff] at hnone
          have hcount : u.count '.' = 0 := by
            rw [List.count_eq_zero, ← List.contains_iff_mem, hnone.2]
            exact Bool.false_ne_true
          simp [hcount, hc]
        · have hcount : [c].count '.' = 0 := List.count_eq_zero.mpr (by simpa using Ne.symm hc)
          rw [hcount]
          exact h.count_point_le u (List.suffix_append v u).isInfix hu
    · exact h.count_point_le t ht hall

/-! ## Lines to begin with -/

theorem isSound_of_plain (hne : s ≠ []) (hclose : ')' ∉ s)
    (htail : s.tail.any isOperatorKey = false) (hpoint : s.count '.' ≤ 1) : IsSound s where
  ne_nil := hne
  count_close_le t ht := by
    rw [List.count_eq_zero.mpr fun h ↦ hclose (ht.subset h)]
    exact Nat.zero_le _
  isChain := by
    obtain ⟨c, s, rfl⟩ := List.exists_cons_of_ne_nil hne
    clear hne hpoint
    induction s generalizing c with
    | nil => exact .singleton c
    | cons d s ih =>
      have hd : d ≠ ')' := by
        rintro rfl
        exact hclose (List.mem_cons_of_mem c List.mem_cons_self)
      rw [List.tail_cons, List.any_cons, Bool.or_eq_false_iff] at htail
      refine .cons_cons (by simp [admits, hd, htail.1]) (ih d ?_ htail.2)
      exact fun h ↦ hclose (List.mem_cons_of_mem c h)
  count_point_le t ht _ := Nat.le_trans (ht.sublist.count_le '.') hpoint

theorem isSound_singleton (hc : c ≠ ')') : IsSound [c] := by
  refine isSound_of_plain (List.cons_ne_nil c []) ?_ rfl ?_
  · simpa using Ne.symm hc
  · exact List.count_le_length

theorem isSound_cleared : IsSound cleared := isSound_singleton (by decide)

theorem isSound_zero_append (hc : c ≠ ')') : IsSound ['0', c] := by
  refine isSound_cleared.concat ?_ (fun h ↦ absurd h hc) fun _ ↦ rfl
  rintro _ ⟨⟩
  simp [admits, hc, isOperatorKey]

theorem isSound_word (m : Marker) : IsSound m.word := by
  cases m <;> exact isSound_of_plain (by decide) (by decide) (by decide) (by decide)

theorem isSound_sign_append (b : Bool) (l : Literal) : IsSound (Double.sign b ++ l.text) := by
  have hclose : ')' ∉ l.text := by
    intro h
    rcases l.isDigit_or_eq_point _ h with h | h <;> cases h
  have hoperator : l.text.any isOperatorKey = false := by
    rw [List.any_eq_false]
    intro c hc
    rcases l.isDigit_or_eq_point c hc with h | rfl
    · rw [isOperatorKey_of_isDigit h]
      exact Bool.false_ne_true
    · decide
  have hne : l.text ≠ [] := by
    obtain ⟨c, t, ht, -⟩ := l.exists_text_eq_cons
    rw [ht]
    exact List.cons_ne_nil c t
  cases b with
  | false =>
    obtain ⟨c, t, ht, -⟩ := l.exists_text_eq_cons
    refine isSound_of_plain hne hclose ?_ l.count_point_le
    rw [ht, List.any_cons, Bool.or_eq_false_iff] at hoperator
    rw [Double.sign_false, List.nil_append, ht]
    exact hoperator.2
  | true =>
    refine isSound_of_plain (List.cons_ne_nil '-' _) ?_ hoperator l.count_point_le
    rintro (_ | ⟨_, h⟩)
    exact hclose h

/-- Every result is sound, also the words for what is not finite. -/
theorem isSound_resultText (x : Float) : IsSound (Double.resultText x) := by
  rw [Double.resultText]
  split
  · exact isSound_of_plain (by decide) (by decide) (by decide) (by decide)
  · split
    · rw [Double.magnitudeText, ← text_written]
      exact isSound_sign_append _ _
    · cases Double.isNegative x <;>
        exact isSound_of_plain (by decide) (by decide) (by decide) (by decide)

/-! ## Keys -/

theorem admits_of_operand (hclose : d ≠ ')') (hoperator : isOperatorKey d = false) (c : Char) :
    admits c d = true := by
  simp [admits, hclose, hoperator]

theorem IsSound.concat_operand (h : IsSound s) (hclose : c ≠ ')') (hpoint : c ≠ '.')
    (hoperator : isOperatorKey c = false) : IsSound (s ++ [c]) :=
  h.concat (fun d _ ↦ admits_of_operand hclose hoperator d) (fun hc ↦ absurd hc hclose)
    fun hc ↦ absurd hc hpoint

theorem IsSound.concat_operator (h : IsSound s) (hlast : ∀ d ∈ s.getLast?, isOperatorKey d = false)
    (hc : isOperatorKey c = true) : IsSound (s ++ [c]) := by
  have hne : c ≠ ')' ∧ c ≠ '.' := by
    constructor <;>
    · rintro rfl
      cases hc
  refine h.concat (fun d hd ↦ ?_) (fun hclose ↦ absurd hclose hne.1) fun hp ↦ absurd hp hne.2
  simp [admits, hne.1, hlast d hd]

theorem IsSound.appendOperator (h : IsSound s) (hc : isOperatorKey c = true) :
    IsSound (appendOperator s c) := by
  have hclose : c ≠ ')' := by
    rintro rfl
    cases hc
  fun_cases Buffer.appendOperator s c with
  | case1 => exact isSound_singleton (by decide)
  | case2 => exact isSound_zero_append hclose
  | case3 => exact isSound_singleton (by decide)
  | case4 => exact isSound_cleared
  | case5 hrest hne =>
    have hbase := h.of_prefix (isPrefix_dropEndWhile isOperatorKey s) hne
    exact hbase.concat_operator (getLast?_dropEndWhile isOperatorKey s) hc

/-- **A key keeps a line sound.** -/
theorem IsSound.append (h : IsSound s) (c : Char) : IsSound (append s c) := by
  fun_cases Buffer.append s c with
  | case1 hrest hdigit =>
    refine isSound_singleton ?_
    rintro rfl
    cases hdigit
  | case2 hrest hdigit =>
    refine h.concat_operand ?_ ?_ (isOperatorKey_of_isDigit hdigit) <;>
    · rintro rfl
      cases hdigit
  | case3 => exact h.appendOperator (by assumption)
  | case4 => exact isSound_zero_append (by decide)
  | case5 => exact h
  | case6 hrest hpoint =>
    exact h.concat (fun d _ ↦ admits_of_operand (by decide) rfl d)
      (fun hclose ↦ absurd hclose (by decide)) fun _ ↦ (Bool.not_eq_true _).mp hpoint
  | case7 => exact isSound_singleton (by decide)
  | case8 hrest hends =>
    -- the sign of the product goes behind a digit or a parenthesis, the new parenthesis behind it
    have hlast : ∀ d ∈ s.getLast?, isOperatorKey d = false := by
      intro d hd
      rw [endsWith, Option.mem_def.mp hd, Option.any_some, Bool.or_eq_true, beq_iff_eq] at hends
      rcases hends with hdigit | rfl
      · exact isOperatorKey_of_isDigit hdigit
      · rfl
    have hsign : IsSound (s ++ ['*']) := h.concat_operator hlast rfl
    have hopen : IsSound (s ++ ['*'] ++ ['(']) :=
      hsign.concat_operand (by decide) (by decide) rfl
    rwa [List.append_assoc] at hopen
  | case9 => exact h.concat_operand (by decide) (by decide) rfl
  | case10 hclosable =>
    simp only [isClosable, Bool.and_eq_true, decide_eq_true_eq, Bool.not_eq_true'] at hclosable
    refine h.concat (fun d hd ↦ ?_) (fun _ ↦ hclosable.1.2) fun hp ↦ absurd hp (by decide)
    have hlast := hclosable.2
    rw [endsWith, Option.mem_def.mp hd, Option.any_some, Bool.or_eq_false_iff] at hlast
    simpa [admits] using hlast
  | case11 => exact h
  | case12 => exact isSound_singleton (by decide)
  | case13 => exact h.concat_operand (by decide) (by decide) rfl
  | case14 => exact isSound_singleton (by decide)
  | case15 => exact h.concat_operand (by decide) (by decide) rfl
  | case16 => exact isSound_zero_append (by decide)
  | case17 => exact h.concat_operand (by decide) (by decide) rfl
  | case18 => exact isSound_zero_append (by decide)
  | case19 => exact h.concat_operand (by decide) (by decide) rfl
  | case20 => exact h

theorem IsSound.backspace (h : IsSound s) : IsSound (backspace s) := by
  rw [Buffer.backspace]
  split
  · exact isSound_cleared
  · next hshort =>
    split
    · exact isSound_cleared
    · refine h.of_prefix s.dropLast_prefix fun hempty ↦ hshort ?_
      have hlength := congrArg List.length hempty
      rw [List.length_dropLast, List.length_nil, Nat.sub_eq_zero_iff_le] at hlength
      rw [decide_eq_true hlength, Bool.or_true]

/-! ## Runs -/

/-- What is done to a line: a key is typed, one character is taken back, or all of them. -/
inductive Edit where
  | key (c : Char)
  | backspace
  | clear
  deriving DecidableEq, Repr

/-- The line after an edit. -/
def edit (s : List Char) : Edit → List Char
  | .key c => append s c
  | .backspace => backspace s
  | .clear => cleared

theorem IsSound.edit (h : IsSound s) (e : Edit) : IsSound (edit s e) := by
  cases e with
  | key c => exact h.append c
  | backspace => exact h.backspace
  | clear => exact isSound_cleared

theorem IsSound.foldl_edit (h : IsSound s) (edits : List Edit) :
    IsSound (edits.foldl Buffer.edit s) := by
  induction edits generalizing s with
  | nil => exact h
  | cons e edits ih => exact ih (h.edit e)

/-- **Every line that comes to stand on the display is sound**: what any run of edits makes of a
sound line, and the lines that are there without an edit, at rest, as a marker and as a result. -/
theorem isSound_edits :
    (∀ s, IsSound s → ∀ edits : List Edit, IsSound (edits.foldl edit s)) ∧ IsSound cleared ∧
      (∀ m : Marker, IsSound m.word) ∧ ∀ x : Float, IsSound (Double.resultText x) :=
  ⟨fun _ h ↦ h.foldl_edit, isSound_cleared, isSound_word, isSound_resultText⟩

/-- A product sign is added, an operator replaced, and a parenthesis and a point are refused. -/
theorem isSound_edits_product :
    IsSound "(1.5".toList ∧
    [.key '(', .key 'x', .key '+', .key '-', .key ')', .backspace, .key ')', .key '.', .key '.',
      .key ')'].foldl edit "(1.5".toList = "(1.5*(x).)".toList ∧
    IsSound "(1.5*(x).)".toList := by
  have hstart : IsSound "(1.5".toList :=
    isSound_of_plain (by decide) (by decide) (by decide) (by decide)
  have hrun : [.key '(', .key 'x', .key '+', .key '-', .key ')', .backspace, .key ')', .key '.',
      .key '.', .key ')'].foldl edit "(1.5".toList = "(1.5*(x).)".toList := by decide +kernel
  refine ⟨hstart, hrun, ?_⟩
  rw [← hrun]
  exact isSound_edits.1 _ hstart _

end Buffer

end DeskCalculator
