import DeskCalculator.Proofs.Keypad.Keyed

/-!
# Typing a keyed line

Typed key by key, a keyed line is taken as it is but for some of its points. A point is refused if
there is one already since the last operator, and of the signs only those of the four operations and
the percent sign count as operators here: the point of an exponent, or of the right side of an
equation, is refused for a point of the base, or of the left side. Such a key is dropped without a
trace, so `1.5^2.5` becomes `1.5^25`.

Exactly the lines with an operator between any two of their points are taken as they are.
-/

namespace DeskCalculator

namespace Buffer

variable {s w : List Char} {c d : Char}

/-! ## The points of a line -/

/-- Whether there is a point since the last operator. -/
def hasPoint (s : List Char) : Bool := (currentNumber s).contains '.'

/-- Whether there is a point since the last operator, behind one more character. -/
def pointed (b : Bool) (c : Char) : Bool := !isOperatorKey c && (b || c == '.')

/-- The keys without the points that are refused, where `b` says whether there is a point since the
last operator before them. -/
def keptKeys : Bool → List Char → List Char
  | _, [] => []
  | b, c :: s => if b && c == '.' then keptKeys b s else c :: keptKeys (pointed b c) s

/-- There is an operator between any two points. -/
def PointsAreSeparate (s : List Char) : Prop :=
  ∀ u v t, s = u ++ '.' :: (v ++ '.' :: t) → ∃ c ∈ v, isOperatorKey c = true

theorem hasPoint_append_singleton (s : List Char) (c : Char) :
    hasPoint (s ++ [c]) = pointed (hasPoint s) c := by
  rw [hasPoint, currentNumber, List.reverse_append, List.reverse_singleton, List.singleton_append,
    List.takeWhile_cons, pointed]
  cases isOperatorKey c with
  | true => rfl
  | false =>
    rw [Bool.not_false, if_pos rfl, List.reverse_cons, ← currentNumber, List.contains_append,
      ← hasPoint, Bool.true_and]
    rw [List.contains_cons, List.contains_nil, Bool.or_false, Bool.beq_comm]

theorem length_keptKeys_le (b : Bool) (s : List Char) : (keptKeys b s).length ≤ s.length := by
  fun_induction keptKeys b s with
  | case1 => exact Nat.le_refl _
  | case2 b c s _ ih => exact Nat.le_succ_of_le ih
  | case3 b c s _ ih => exact Nat.succ_le_succ ih

/-- All keys are kept if there is an operator between any two points, also if the first point comes
before the keys. -/
theorem keptKeys_eq_self_iff (b : Bool) (s : List Char) : keptKeys b s = s ↔
    PointsAreSeparate s ∧
      (b = true → ∀ v t, s = v ++ '.' :: t → ∃ c ∈ v, isOperatorKey c = true) := by
  fun_induction keptKeys b s with
  | case1 b =>
    refine iff_of_true rfl ⟨fun u v t h ↦ ?_, fun _ v t h ↦ ?_⟩
    · exact absurd h.symm (List.append_ne_nil_of_right_ne_nil _ (List.cons_ne_nil _ _))
    · exact absurd h.symm (List.append_ne_nil_of_right_ne_nil _ (List.cons_ne_nil _ _))
  | case2 b c s hrefused ih =>
    rw [Bool.and_eq_true, beq_iff_eq] at hrefused
    obtain ⟨hb, rfl⟩ := hrefused
    refine iff_of_false (fun h ↦ ?_) fun h ↦ ?_
    · have hlength := length_keptKeys_le b s
      rw [h, List.length_cons] at hlength
      exact absurd hlength (Nat.not_succ_le_self _)
    · obtain ⟨d, hd, -⟩ := h.2 hb [] s rfl
      exact absurd hd List.not_mem_nil
  | case3 b c s htaken ih =>
    rw [List.cons.injEq, and_iff_right rfl, ih]
    constructor
    · rintro ⟨hseparate, hpointed⟩
      constructor
      · intro u v t h
        rcases List.cons_eq_append_iff.mp h with ⟨-, hpoint⟩ | ⟨u', -, hs⟩
        · -- the first of the two points is the key that is taken
          rw [List.cons.injEq] at hpoint
          obtain ⟨rfl, rfl⟩ := hpoint
          exact hpointed (by simp [pointed, isOperatorKey]) v t rfl
        · exact hseparate u' v t hs
      · rintro rfl v t h
        rcases List.cons_eq_append_iff.mp h with ⟨-, hpoint⟩ | ⟨v', rfl, hs⟩
        · rw [List.cons.injEq] at hpoint
          exact absurd (by rw [← hpoint.1]; rfl) htaken
        · cases hoperator : isOperatorKey c with
          | true => exact ⟨c, List.mem_cons_self, hoperator⟩
          | false =>
            obtain ⟨d, hd, hd'⟩ := hpointed (by rw [pointed, hoperator]; rfl) v' t hs
            exact ⟨d, List.mem_cons_of_mem c hd, hd'⟩
    · rintro ⟨hseparate, hb⟩
      refine ⟨fun u v t h ↦ hseparate (c :: u) v t (congrArg (c :: ·) h), fun hpointed v t h ↦ ?_⟩
      rw [pointed, Bool.and_eq_true, Bool.not_eq_true', Bool.or_eq_true, beq_iff_eq] at hpointed
      rcases hpointed.2 with hbefore | rfl
      · obtain ⟨d, hd, hd'⟩ := hb hbefore (c :: v) t (congrArg (c :: ·) h)
        rcases List.mem_cons.mp hd with rfl | hd
        · rw [hpointed.1] at hd'
          cases hd'
        · exact ⟨d, hd, hd'⟩
      · exact hseparate [] v t (congrArg ('.' :: ·) h)

/-! ## One key -/

theorem isMarker_append_singleton (s : List Char) (hc : c ∉ ['r', 'e', 'n']) :
    isMarker (s ++ [c]) = false := by
  have hlast : ∀ m : Marker, ∀ d ∈ m.word.getLast?, d ∈ ['r', 'e', 'n'] := by
    rintro m _ hd
    cases m <;> cases hd <;> decide
  rw [← Bool.not_eq_true, isMarker, List.any_eq_true]
  rintro ⟨m, -, hm⟩
  refine hc (hlast m c ?_)
  rw [← beq_iff_eq.mp hm, List.getLast?_append, List.getLast?_singleton]
  rfl

theorem isAtRest_append_singleton (hs : s ≠ []) (hc : c ∉ ['r', 'e', 'n']) :
    isAtRest (s ++ [c]) = false := by
  have hcleared : (s ++ [c] == cleared) = false := by
    rw [beq_eq_false_iff_ne]
    intro h
    have hlength := congrArg List.length h
    rw [List.length_append, cleared, List.length_singleton, List.length_singleton] at hlength
    exact hs (List.length_eq_zero_iff.mp (Nat.succ.inj hlength))
  rw [isAtRest, isMarker_append_singleton s hc, hcleared, Bool.or_false, Bool.or_false,
    List.isEmpty_eq_false_iff]
  exact List.append_ne_nil_of_right_ne_nil s (List.cons_ne_nil c [])

theorem not_mem_of_takes (h : takes c d = true) : d ∉ ['r', 'e', 'n'] := by
  intro hd
  have hnone : (c != '.' && false) = true := by
    simp only [List.mem_cons, List.not_mem_nil, or_false] at hd
    rcases hd with rfl | rfl | rfl <;> exact h
  rw [Bool.and_false] at hnone
  cases hnone

theorem append_digit (hs : isAtRest s = false) (hd : d.isDigit = true) :
    append s d = s ++ [d] := by
  rw [append.eq_def, if_pos hd, hs, if_neg Bool.false_ne_true]

theorem append_operator (hs : isAtRest s = false) (hlast : s.getLast? = some c)
    (hc : isOperatorKey c = false) (hdigit : d.isDigit = false) (hd : isOperatorKey d = true) :
    append s d = s ++ [d] := by
  obtain ⟨t, rfl⟩ : ∃ t, s = t ++ [c] := List.getLast?_eq_some_iff.mp hlast
  have hne : t ++ [c] ≠ [] := List.append_ne_nil_of_right_ne_nil t (List.cons_ne_nil c [])
  rw [append.eq_def, hdigit, if_neg Bool.false_ne_true, if_pos hd, appendOperator.eq_def, hs,
    if_neg Bool.false_ne_true, dropEndWhile_append_singleton hc]
  split
  · next hnil => exact absurd hnil hne
  · rfl

/-- A key other than a point goes on the line as it is if it is taken, and if it closes an open
parenthesis where it closes one. -/
theorem append_of_takes (hs : isAtRest s = false) (hlast : s.getLast? = some c)
    (h : takes c d = true) (hpoint : d ≠ '.') (hclose : d = ')' → s.count ')' < s.count '(') :
    append s d = s ++ [d] := by
  have hends : ∀ p : Char → Bool, endsWith s p = p c := by
    intro p
    rw [endsWith, hlast]
    rfl
  have hmarker : isMarker s = false := by
    rw [isAtRest, Bool.or_eq_false_iff] at hs
    exact hs.2
  rw [takes] at h
  cases hdigit : d.isDigit with
  | true => exact append_digit hs hdigit
  | false =>
    rw [hdigit, Bool.false_or, Bool.and_eq_true] at h
    cases hoperator : isOperatorKey d with
    | true =>
      have hc : isOperatorKey c = false := by simpa [hoperator] using h.2
      exact append_operator hs hlast hc hdigit hoperator
    | false =>
      rw [hoperator, if_neg Bool.false_ne_true] at h
      rw [append.eq_def, hdigit, if_neg Bool.false_ne_true, hoperator, if_neg Bool.false_ne_true]
      -- the keys that are neither digits nor operators, one by one
      split
      · exact absurd rfl hpoint
      · have hc : (c.isDigit || c == ')') = false := by simpa using h.2
        rw [hs, if_neg Bool.false_ne_true, hends, hc, if_neg Bool.false_ne_true]
      · have hc : (c == '(' || isOperatorKey c) = false := by simpa using h.2
        rw [isClosable, hs, hends, hc, decide_eq_true (hclose rfl)]
        rfl
      · rw [hs, if_neg Bool.false_ne_true]
      · simp at h
      · rw [hmarker, if_neg Bool.false_ne_true]
      · rw [hmarker, if_neg Bool.false_ne_true]
      · simp_all

theorem append_point (hs : isAtRest s = false) :
    append s '.' = if hasPoint s then s else s ++ ['.'] := by
  change (if isAtRest s then ['0', '.'] else if hasPoint s then s else s ++ ['.']) = _
  rw [hs, if_neg Bool.false_ne_true]

/-! ## All keys -/

theorem keptKeys_cons_of_ne (hc : c ≠ '.') (b : Bool) (s : List Char) :
    keptKeys b (c :: s) = c :: keptKeys (pointed b c) s := by
  rw [keptKeys, beq_eq_false_iff_ne.mpr hc, Bool.and_false, if_neg Bool.false_ne_true]

/-- A key of a line whose parentheses stay open closes only an open one, and the rest of the line
finds as many open as are left. -/
theorem exists_open {n : Nat} (hcount : s.count ')' + n = s.count '(')
    (hopen : StaysOpen n (d :: w)) :
    (d = ')' → s.count ')' < s.count '(') ∧
      ∃ m, (s ++ [d]).count ')' + m = (s ++ [d]).count '(' ∧ StaysOpen m w := by
  rw [StaysOpen] at hopen
  rw [List.count_append, List.count_append]
  by_cases hd : d = '('
  · subst hd
    rw [if_pos rfl] at hopen
    refine ⟨fun h ↦ absurd h (by decide), n + 1, ?_, hopen⟩
    rw [List.count_singleton_self, List.count_singleton, if_neg (by decide)]
    omega
  · rw [if_neg hd] at hopen
    by_cases hd' : d = ')'
    · subst hd'
      rw [if_pos rfl] at hopen
      refine ⟨fun _ ↦ by omega, n - 1, ?_, hopen.2⟩
      rw [List.count_singleton_self, List.count_singleton, if_neg (by decide)]
      omega
    · rw [if_neg hd'] at hopen
      refine ⟨fun h ↦ absurd h hd', n, ?_, hopen⟩
      rw [List.count_singleton, List.count_singleton, if_neg (by simpa using hd'),
        if_neg (by simpa using hd)]
      exact hcount

theorem foldl_append (hs : isAtRest s = false) (hlast : s.getLast? = some c)
    (hfitting : Fitting (c :: w)) {n : Nat} (hcount : s.count ')' + n = s.count '(')
    (hopen : StaysOpen n w) : w.foldl append s = s ++ keptKeys (hasPoint s) w := by
  induction w generalizing s c n with
  | nil => rw [List.foldl_nil, keptKeys, List.append_nil]
  | cons d w ih =>
    obtain ⟨htakes, hrest⟩ := List.isChain_cons_cons.mp hfitting
    obtain ⟨hclose, m, hcount', hopen'⟩ := exists_open hcount hopen
    have hs' : s ≠ [] := by
      rintro rfl
      cases hlast
    have hnext : isAtRest (s ++ [d]) = false :=
      isAtRest_append_singleton hs' (not_mem_of_takes htakes)
    have hlast' : (s ++ [d]).getLast? = some d := by
      rw [List.getLast?_append, List.getLast?_singleton, Option.some_or]
    -- what is left once the key is on the line
    have htaken : w.foldl append (s ++ [d]) = s ++ d :: keptKeys (pointed (hasPoint s) d) w := by
      rw [ih hnext hlast' hrest hcount' hopen', hasPoint_append_singleton, List.append_assoc,
        List.singleton_append]
    rw [List.foldl_cons]
    by_cases hpoint : d = '.'
    · subst hpoint
      rw [append_point hs, keptKeys]
      cases hbefore : hasPoint s with
      | false =>
        rw [hbefore] at htaken
        rw [if_neg Bool.false_ne_true, htaken]
        rfl
      | true =>
        -- behind the refused point comes a digit, which fits behind every character
        have hfitting' : Fitting (c :: w) := by
          obtain ⟨hdigit, hw⟩ := List.isChain_cons.mp hrest
          refine List.isChain_cons.mpr ⟨fun e he ↦ takes_of_isDigit c ?_, hw⟩
          simpa [takes] using hdigit e he
        rw [StaysOpen, if_neg (by decide), if_neg (by decide)] at hopen
        rw [if_pos rfl, ih hs hlast hfitting' hcount hopen, hbefore]
        rfl
    · rw [append_of_takes hs hlast htakes hpoint hclose, htaken, keptKeys_cons_of_ne hpoint]

/-! ## Keyed lines -/

/-- The line after keys typed from rest. -/
def typed (keys : List Char) : List Char := keys.foldl append cleared

theorem append_cleared (hc : begins .sum c = true) (hzero : c ≠ '0') :
    append cleared c = [c] ∧ isAtRest [c] = false := by
  rw [begins, Bool.or_eq_true, Bool.or_eq_true, Bool.or_eq_true, beq_iff_eq, beq_iff_eq] at hc
  rcases hc with ((hdigit | rfl) | rfl) | hminus
  · refine ⟨?_, ?_⟩
    · rw [append.eq_def, hdigit]
      rfl
    · have hcleared : ([c] == cleared) = false := by simpa [cleared] using hzero
      have hmarker : isMarker ([] ++ [c]) = false :=
        isMarker_append_singleton [] (not_mem_of_takes (takes_of_isDigit c hdigit))
      rw [isAtRest, hcleared, ← List.nil_append [c], hmarker]
      rfl
  · decide
  · decide
  · rw [Bool.and_eq_true, beq_iff_eq] at hminus
    rw [hminus.1]
    decide

/-- A keyed line that does not begin with a zero, or only with the zero before a point, is taken but
for its refused points; and it is taken as it is exactly if there is an operator between any two of
its points. -/
theorem typed_keyedLine (h : IsKeyedLine w) (hzero : ∀ s, w = '0' :: s → ∃ t, s = '.' :: t) :
    typed w = keptKeys false w ∧ (typed w = w ↔ PointsAreSeparate w) := by
  have hfits := h.fits
  have hopen : StaysOpen 0 w := by
    rw [← List.append_nil w, hfits.staysOpen]
    exact trivial
  have htyped : typed w = keptKeys false w := by
    obtain ⟨c, s, rfl⟩ := List.exists_cons_of_ne_nil hfits.ne_nil
    rw [typed, List.foldl_cons]
    by_cases hc : c = '0'
    · subst hc
      obtain ⟨t, rfl⟩ := hzero s rfl
      have hrest : Fitting ('.' :: t) := (List.isChain_cons_cons.mp hfits.fitting).2
      exact foldl_append (s := ['0', '.']) (by decide) rfl hrest (n := 0) rfl hopen
    · obtain ⟨hfirst, hrest⟩ := append_cleared (hfits.begins c rfl) hc
      obtain ⟨-, m, hcount, hopen'⟩ := exists_open (s := []) (n := 0) rfl hopen
      have hpoint : c ≠ '.' := by
        rintro rfl
        exact absurd (hfits.begins '.' rfl) (by decide)
      rw [hfirst, foldl_append hrest rfl hfits.fitting hcount hopen', keptKeys_cons_of_ne hpoint,
        ← List.nil_append [c], hasPoint_append_singleton]
      rfl
  refine ⟨htyped, ?_⟩
  rw [htyped, keptKeys_eq_self_iff]
  exact and_iff_left nofun

/-- The point of an exponent is lost behind the point of the base, but not behind an operator. -/
theorem typed_power :
    (typed ['1', '.', '5', '^', '2', '.', '5'] = ['1', '.', '5', '^', '2', '5'] ∧
      ¬ PointsAreSeparate ['1', '.', '5', '^', '2', '.', '5']) ∧
    (typed ['1', '.', '5', '^', '-', '2', '.', '5'] = ['1', '.', '5', '^', '-', '2', '.', '5'] ∧
      PointsAreSeparate ['1', '.', '5', '^', '-', '2', '.', '5']) := by
  have hbase : Keyed .operand ['1', '.', '5'] :=
    .operand_of_closed (.number { whole := ['1'], fraction := ['5'] })
  have hexponent : Keyed .power ['2', '.', '5'] :=
    .power_of_operand (.operand_of_closed (.number { whole := ['2'], fraction := ['5'] }))
  have hline : IsKeyedLine ['1', '.', '5', '^', '2', '.', '5'] :=
    .expression (.sum_of_signed (.signed_of_power (.power hbase (.signed_of_power hexponent))))
  have hsigned : IsKeyedLine ['1', '.', '5', '^', '-', '2', '.', '5'] :=
    .expression (.sum_of_signed (.signed_of_power (.power hbase (.minus hexponent))))
  obtain ⟨hkept, hseparate⟩ := typed_keyedLine hline nofun
  obtain ⟨hkept', hseparate'⟩ := typed_keyedLine hsigned nofun
  refine ⟨⟨hkept, ?_⟩, hkept', ?_⟩
  · exact hseparate.not.mp (by rw [hkept]; decide)
  · exact hseparate'.mp hkept'

end Buffer

end DeskCalculator
