import DeskCalculator.Proofs.Formula.Typed

/-!
# One pass for all products

The sign of a product that is written without it goes between two characters, in place of the blanks
between them. Which two characters ask for a sign is a relation; every kind of product has its own,
and the passes for the kinds one after the other are the single pass for all of them, because no
kind asks for a sign next to a blank or next to a sign that an earlier pass has written.

A line that is cut behind a character other than a blank is signed piece by piece, with one sign
more if the pieces ask for it where they meet.
-/

namespace DeskCalculator

/-- A line with the sign written between every two characters that ask for it, in place of the
blanks between them. -/
def signBetween (r : Char → Char → Bool) : List Char → List Char
  | [] => []
  | c :: s =>
    if (s.dropWhile isBlank).head?.any (r c) then
      c :: '*' :: signBetween r (s.dropWhile isBlank)
    else c :: signBetween r s
termination_by s => s.length
decreasing_by
  · exact Nat.lt_succ_of_le (length_dropWhile_le _ s)
  · exact Nat.lt_succ_self _

/-- Neither a blank nor the sign itself asks for a sign. -/
def Separates (r : Char → Char → Bool) : Prop :=
  ∀ c d, r c d = true → isBlank c = false ∧ isBlank d = false ∧ c ≠ '*' ∧ d ≠ '*'

variable {r q : Char → Char → Bool}

/-! ## Single steps -/

@[simp] theorem signBetween_nil : signBetween r [] = [] := by
  rw [signBetween]

theorem signBetween_cons_of_any {c : Char} {s : List Char}
    (h : (s.dropWhile isBlank).head?.any (r c) = true) :
    signBetween r (c :: s) = c :: '*' :: signBetween r (s.dropWhile isBlank) := by
  rw [signBetween, if_pos h]

theorem signBetween_cons_of_not_any {c : Char} {s : List Char}
    (h : (s.dropWhile isBlank).head?.any (r c) = false) :
    signBetween r (c :: s) = c :: signBetween r s := by
  rw [signBetween, h, if_neg Bool.false_ne_true]

theorem signBetween_cons_of_not {c : Char} (h : ∀ d, r c d = false) (s : List Char) :
    signBetween r (c :: s) = c :: signBetween r s := by
  refine signBetween_cons_of_not_any ?_
  cases (s.dropWhile isBlank).head? with
  | none => rfl
  | some d => exact h d

theorem signBetween_eq_self {s : List Char} (h : ∀ c ∈ s, ∀ d ∈ s, r c d = false) :
    signBetween r s = s := by
  induction s with
  | nil => exact signBetween_nil
  | cons c s ih =>
    have hany : (s.dropWhile isBlank).head?.any (r c) = false := by
      rw [← Bool.not_eq_true, Option.any_eq_true]
      rintro ⟨d, hd, hcd⟩
      have hmem : d ∈ s := (List.dropWhile_sublist isBlank).subset (List.mem_of_mem_head? hd)
      rw [h c List.mem_cons_self d (List.mem_cons_of_mem c hmem)] at hcd
      cases hcd
    rw [signBetween_cons_of_not_any hany,
      ih fun c hc d hd ↦ h c (List.mem_cons_of_mem _ hc) d (List.mem_cons_of_mem _ hd)]

@[simp] theorem head?_signBetween (s : List Char) : (signBetween r s).head? = s.head? := by
  cases s with
  | nil => simp
  | cons c s =>
    rw [signBetween]
    split <;> rfl

theorem Separates.not_left {c d : Char} (hr : Separates r) (hc : isBlank c = true ∨ c = '*') :
    r c d = false := by
  rw [← Bool.not_eq_true]
  intro h
  obtain ⟨hblank, -, hstar, -⟩ := hr c d h
  rcases hc with hc | hc
  · rw [hc] at hblank
    cases hblank
  · exact hstar hc

theorem Separates.not_right_star {c : Char} (hr : Separates r) : r c '*' = false := by
  rw [← Bool.not_eq_true]
  exact fun h ↦ (hr c '*' h).2.2.2 rfl

theorem Separates.or (hq : Separates q) (hr : Separates r) :
    Separates fun c d ↦ q c d || r c d := by
  intro c d h
  rcases Bool.or_eq_true_iff.mp h with h | h
  · exact hq c d h
  · exact hr c d h

theorem dropWhile_signBetween (hr : Separates r) (s : List Char) :
    (signBetween r s).dropWhile isBlank = signBetween r (s.dropWhile isBlank) := by
  induction s with
  | nil => simp
  | cons c s ih =>
    by_cases hc : isBlank c = true
    · rw [signBetween_cons_of_not (fun d ↦ hr.not_left (.inl hc)), List.dropWhile_cons_of_pos hc,
        List.dropWhile_cons_of_pos hc, ih]
    · have hhead := head?_signBetween (r := r) (c :: s)
      rw [List.dropWhile_cons_of_neg hc]
      refine dropWhile_of_head fun d hd ↦ ?_
      rw [hhead] at hd
      cases hd
      exact Bool.not_eq_true _ ▸ hc

/-! ## Passes -/

/-- Two passes are one. -/
theorem signBetween_signBetween (hr : Separates r) (hq : Separates q) (s : List Char) :
    signBetween r (signBetween q s) = signBetween (fun c d ↦ q c d || r c d) s := by
  fun_induction signBetween q s with
  | case1 => simp
  | case2 c s h ih =>
    -- next to the sign of the earlier pass the later one writes none
    have hstar : (('*' :: signBetween q (s.dropWhile isBlank)).dropWhile isBlank).head?.any (r c)
        = false := hr.not_right_star
    rw [signBetween_cons_of_not_any hstar, signBetween_cons_of_not fun d ↦ hr.not_left (.inr rfl),
      ih, signBetween_cons_of_any]
    revert h
    cases (s.dropWhile isBlank).head? with
    | none => exact id
    | some d => exact fun h ↦ Bool.or_eq_true_iff.mpr (.inl h)
  | case3 c s h ih =>
    -- the earlier pass writes no sign here, so both see the same character behind the blanks
    have hdrop : signBetween r (signBetween q (s.dropWhile isBlank))
        = signBetween (fun c d ↦ q c d || r c d) (s.dropWhile isBlank) := by
      rw [← dropWhile_signBetween hq, ← dropWhile_signBetween hr, ih,
        dropWhile_signBetween (hq.or hr)]
    have hany : ((signBetween q s).dropWhile isBlank).head?.any (r c)
        = (s.dropWhile isBlank).head?.any fun d ↦ q c d || r c d := by
      rw [dropWhile_signBetween hq, head?_signBetween]
      revert h
      cases (s.dropWhile isBlank).head? with
      | none => exact fun _ ↦ rfl
      | some d =>
        intro h
        rw [Bool.not_eq_true] at h
        change q c d = false at h
        change r c d = (q c d || r c d)
        rw [h, Bool.false_or]
    by_cases hr' : ((signBetween q s).dropWhile isBlank).head?.any (r c) = true
    · rw [signBetween_cons_of_any hr', signBetween_cons_of_any (hany ▸ hr'),
        dropWhile_signBetween hq, hdrop]
    · rw [Bool.not_eq_true] at hr'
      rw [signBetween_cons_of_not_any hr', signBetween_cons_of_not_any (hany ▸ hr'), ih]

theorem ImplicitProduct.expand_eq_signBetween (p : ImplicitProduct) (s : List Char) :
    p.expand s = signBetween (fun c d ↦ p.left c && p.right d) s := by
  have hany : ∀ (c : Char) (o : Option Char),
      o.any (fun d ↦ p.left c && p.right d) = (p.left c && o.any p.right) := by
    intro c o
    cases o <;> simp
  fun_induction ImplicitProduct.expand p s with
  | case1 => simp
  | case2 c s h ih => rw [signBetween_cons_of_any ((hany c _).trans h), ih]
  | case3 c s h ih =>
    rw [signBetween_cons_of_not_any ((hany c _).trans (Bool.not_eq_true _ ▸ h)), ih]

/-! ## The single pass -/

theorem isDecimalDigit_of_isBlank {c : Char} (h : isBlank c = true) : isDecimalDigit c = false := by
  have hapart : ∀ r ∈ blankRanges, ∀ z ∈ decimalZeros, r.2 < z ∨ z + 10 ≤ r.1 := by decide
  obtain ⟨r, hr, hc⟩ := List.any_eq_true.mp h
  rw [Bool.and_eq_true, decide_eq_true_eq, decide_eq_true_eq] at hc
  refine List.any_eq_false.mpr fun z hz ↦ ?_
  rw [Bool.and_eq_true, decide_eq_true_eq, decide_eq_true_eq]
  rcases hapart r hr z hz with h | h <;> omega

/-- A digit, a parenthesis or the variable: what may stand next to a product without a sign. -/
def isFactorEnd (c : Char) : Bool :=
  isDecimalDigit c || c == ')' || isVariable c || c == '('

theorem isBlank_of_isFactorEnd {c : Char} (h : isFactorEnd c = true) : isBlank c = false := by
  rw [← Bool.not_eq_true]
  intro hblank
  simp only [isFactorEnd, isVariable, isDecimalDigit_of_isBlank hblank, Bool.or_eq_true,
    Bool.false_eq_true, beq_iff_eq, false_or] at h
  rcases h with ((rfl | rfl | rfl) | rfl) <;> exact absurd hblank (by decide)

theorem ne_star_of_isFactorEnd {c : Char} (h : isFactorEnd c = true) : c ≠ '*' := by
  rintro rfl
  exact absurd h (by decide)

theorem ImplicitProduct.separates {p : ImplicitProduct} (hp : p ∈ all) :
    Separates fun c d ↦ p.left c && p.right d := by
  have hleft : ∀ c, p.left c = true → isFactorEnd c = true := by
    intro c hc
    simp only [all, List.mem_cons, List.not_mem_nil, or_false] at hp
    rcases hp with rfl | rfl | rfl | rfl | rfl <;> simp_all [isFactorEnd]
  have hright : ∀ c, p.right c = true → isFactorEnd c = true := by
    intro c hc
    simp only [all, List.mem_cons, List.not_mem_nil, or_false] at hp
    rcases hp with rfl | rfl | rfl | rfl | rfl <;> simp_all [isFactorEnd]
  intro c d h
  rw [Bool.and_eq_true] at h
  have hc := hleft c h.1
  have hd := hright d h.2
  exact ⟨isBlank_of_isFactorEnd hc, isBlank_of_isFactorEnd hd, ne_star_of_isFactorEnd hc,
    ne_star_of_isFactorEnd hd⟩

theorem isFactorEnd_of_meet {c d : Char} (h : meet c d = true) :
    isFactorEnd c = true ∧ isFactorEnd d = true := by
  simp only [meet, Bool.or_eq_true, Bool.and_eq_true] at h
  simp only [isFactorEnd, Bool.or_eq_true]
  rcases h with ⟨hc, hd⟩ | ⟨hc, hd⟩
  · exact ⟨.inl (.inl hc), hd.elim (fun h ↦ .inl (.inr h)) .inr⟩
  · exact ⟨.inl (.inl (.inr hc)), .inl (.inl (.inl hd))⟩

theorem separates_meet : Separates meet := by
  intro c d h
  obtain ⟨hc, hd⟩ := isFactorEnd_of_meet h
  exact ⟨isBlank_of_isFactorEnd hc, isBlank_of_isFactorEnd hd, ne_star_of_isFactorEnd hc,
    ne_star_of_isFactorEnd hd⟩

/-- Passes for several kinds of products are the pass for a product of any of the kinds. -/
theorem foldl_expand_eq_signBetween {ps : List ImplicitProduct}
    (hps : ∀ p ∈ ps, p ∈ ImplicitProduct.all) (hr : Separates r) (s : List Char) :
    ps.foldl (fun s p ↦ p.expand s) (signBetween r s)
      = signBetween (fun c d ↦ r c d || ps.any fun p ↦ p.left c && p.right d) s := by
  induction ps generalizing r with
  | nil => simp
  | cons p ps ih =>
    have hp := ImplicitProduct.separates (hps p List.mem_cons_self)
    rw [List.foldl_cons, p.expand_eq_signBetween, signBetween_signBetween hp hr,
      ih (fun q hq ↦ hps q (List.mem_cons_of_mem p hq)) (hr.or hp)]
    congr 1
    funext c d
    rw [List.any_cons, Bool.or_assoc]

theorem foldl_expand {ps : List ImplicitProduct} (hps : ∀ p ∈ ps, p ∈ ImplicitProduct.all)
    (s : List Char) :
    ps.foldl (fun s p ↦ p.expand s) s
      = signBetween (fun c d ↦ ps.any fun p ↦ p.left c && p.right d) s := by
  have hnone : signBetween (fun _ _ ↦ false) s = s := signBetween_eq_self fun _ _ _ _ ↦ rfl
  have h := foldl_expand_eq_signBetween (r := fun _ _ ↦ false) hps
    (fun c d h ↦ absurd h Bool.false_ne_true) s
  simpa only [hnone, Bool.false_or] using h

/-- **The five passes are a single one**: a product gets its sign exactly where its factors meet. -/
theorem signProducts_eq_signBetween (line : List Char) :
    signProducts line = signBetween meet (spellOut line) := by
  have hmeet : (fun c d ↦ ImplicitProduct.all.any fun p ↦ p.left c && p.right d) = meet := by
    funext c d
    simp only [ImplicitProduct.all, List.any_cons, List.any_nil, meet]
    -- the relation and the five kinds depend on the classes of the two characters only
    cases isDecimalDigit c <;> cases c == ')' <;> cases isVariable d <;> cases d == '(' <;>
      cases isDecimalDigit d <;> rfl
  rw [signProducts, foldl_expand fun _ hp ↦ hp, hmeet]

/-! ## A line in two pieces -/

/-- What a line begins with is signed the same way whatever follows a character that is no blank. -/
theorem exists_signBetween_append {c : Char} (hc : isBlank c = false) (s : List Char) :
    ∃ p, ∀ t, signBetween r (s ++ c :: t) = p ++ signBetween r (c :: t) := by
  -- by the length, because a sign takes the blanks with it
  induction hn : s.length using Nat.strongRecOn generalizing s with
  | _ n ih =>
    cases s with
    | nil => exact ⟨[], fun t ↦ rfl⟩
    | cons d s =>
      have hdrop : ∀ t, (s ++ c :: t).dropWhile isBlank = s.dropWhile isBlank ++ c :: t := by
        intro t
        rw [List.dropWhile_append]
        split
        · next h => rw [List.dropWhile_cons, hc, List.isEmpty_iff.mp h]; rfl
        · rfl
      have hhead : ∀ t, ((s ++ c :: t).dropWhile isBlank).head?
          = (s.dropWhile isBlank ++ [c]).head? := by
        intro t
        rw [hdrop, List.head?_append, List.head?_append, List.head?_cons, List.head?_cons]
      by_cases hany : (s.dropWhile isBlank ++ [c]).head?.any (r d) = true
      · obtain ⟨p, hp⟩ := ih (s.dropWhile isBlank).length
          (hn ▸ Nat.lt_succ_of_le (length_dropWhile_le isBlank s)) _ rfl
        refine ⟨d :: '*' :: p, fun t ↦ ?_⟩
        rw [List.cons_append, signBetween_cons_of_any (hhead t ▸ hany), hdrop, hp]
        rfl
      · rw [Bool.not_eq_true] at hany
        obtain ⟨p, hp⟩ := ih s.length (hn ▸ Nat.lt_succ_self _) s rfl
        refine ⟨d :: p, fun t ↦ ?_⟩
        rw [List.cons_append, signBetween_cons_of_not_any (hhead t ▸ hany), hp]
        rfl

theorem signBetween_append_of_not_any {c : Char} (hc : isBlank c = false) (s : List Char)
    {t : List Char} (h : (t.dropWhile isBlank).head?.any (r c) = false) :
    signBetween r (s ++ [c] ++ t) = signBetween r (s ++ [c]) ++ signBetween r t := by
  obtain ⟨p, hp⟩ := exists_signBetween_append (r := r) hc s
  rw [List.append_assoc, List.singleton_append, hp, hp, signBetween_cons_of_not_any h,
    signBetween_cons_of_not_any rfl, signBetween_nil, List.append_assoc, List.singleton_append]

/-- Where two pieces meet in a product, they are signed on their own with a sign between. -/
theorem signBetween_append_of_any {c : Char} (hc : isBlank c = false) (s : List Char)
    {t : List Char} (h : (t.dropWhile isBlank).head?.any (r c) = true) :
    signBetween r (s ++ [c] ++ t)
      = signBetween r (s ++ [c]) ++ '*' :: signBetween r (t.dropWhile isBlank) := by
  obtain ⟨p, hp⟩ := exists_signBetween_append (r := r) hc s
  rw [List.append_assoc, List.singleton_append, hp, hp, signBetween_cons_of_any h,
    signBetween_cons_of_not_any rfl, signBetween_nil, List.append_assoc, List.singleton_append]

end DeskCalculator
