import DeskCalculator.Proofs.Formula.Replaced

/-!
# All places of a line at once

What a line becomes when a value takes the place of the variable is settled place by place: the
character there, and the nearest characters on its two sides that are no blanks, decide what is
written for it. All places are taken from the line with its glyphs spelled out, so none of them sees
what is written for another, and the value is not looked into.

The single pass reads from the left and drops the blanks behind a factor at once. Place by place
they are dropped one at a time, each because of the two factors around the stretch; the pass is
followed with the part of the line that is already read, and behind a blank that was kept the two
sides of the next blank are the same.
-/

namespace DeskCalculator

/-! ## What is written for one character -/

/-- The nearest character that is no blank. -/
def nearest (s : List Char) : Option Char := (s.dropWhile isBlank).head?

/-- The nearest characters on the two sides of a place ask for a sign between them. The left side
is read backwards. -/
def meetsAcross (before after : List Char) : Bool :=
  (nearest before).any fun c ↦ (nearest after).any (meet c)

/-- What is written for a character between the two sides of its place: nothing for a blank between
two factors, and behind a factor that another one follows the sign of their product. -/
def placed (value before : List Char) (c : Char) (after : List Char) : List Char :=
  if isBlank c then if meetsAcross before after then [] else [c]
  else
    (if isVariable c then '(' :: value ++ [')'] else [c])
      ++ if (nearest after).any (meet c) then ['*'] else []

/-- What is written for the characters of a line, all at once. What stands before the line is read
backwards. -/
def atOnce (value before : List Char) : List Char → List Char
  | [] => []
  | c :: after => placed value before c after ++ atOnce value (c :: before) after

variable {value before s : List Char} {c : Char}

theorem nearest_cons_of_pos (h : isBlank c = true) (s : List Char) :
    nearest (c :: s) = nearest s := by
  rw [nearest, List.dropWhile_cons_of_pos h, nearest]

theorem nearest_cons_of_neg (h : isBlank c = false) (s : List Char) :
    nearest (c :: s) = some c := by
  rw [nearest, List.dropWhile_cons, h, if_neg Bool.false_ne_true, List.head?_cons]

theorem meetsAcross_cons_left (h : isBlank c = true) :
    meetsAcross (c :: before) s = meetsAcross before s := by
  rw [meetsAcross, nearest_cons_of_pos h, meetsAcross]

theorem meetsAcross_cons_right (h : isBlank c = true) :
    meetsAcross before (c :: s) = meetsAcross before s := by
  rw [meetsAcross, nearest_cons_of_pos h, meetsAcross]

theorem meetsAcross_cons_left_of_neg (h : isBlank c = false) :
    meetsAcross (c :: before) s = (nearest s).any (meet c) := by
  rw [meetsAcross, nearest_cons_of_neg h, Option.any_some]

theorem placed_of_isBlank (h : isBlank c = true) :
    placed value before c s = if meetsAcross before s then [] else [c] := by
  rw [placed, if_pos h]

theorem placed_of_not_isBlank (h : isBlank c = false) :
    placed value before c s
      = Typed.inserted value c ++ if (nearest s).any (meet c) then ['*'] else [] := by
  rw [placed, h, if_neg Bool.false_ne_true, Typed.inserted]

theorem inserted_of_isBlank (h : isBlank c = true) : Typed.inserted value c = [c] := by
  refine Typed.inserted_of_not ?_ value
  rw [← Bool.not_eq_true]
  intro hvariable
  rw [Typed.isBlank_of_isLast (.inr (.inr hvariable))] at h
  cases h

theorem isBlank_of_nearest_any (h : (nearest s).any (meet c) = true) : isBlank c = false := by
  obtain ⟨d, -, hmeet⟩ := (Option.any_eq_true _ _).mp h
  exact (separates_meet c d hmeet).1

/-! ## The pass, place by place -/

theorem atOnce_of_meetsAcross (value : List Char) (h : meetsAcross before s = true) :
    ∃ before', atOnce value before s = atOnce value before' (s.dropWhile isBlank) := by
  induction s generalizing before with
  | nil => exact ⟨before, rfl⟩
  | cons c s ih =>
    by_cases hc : isBlank c = true
    · rw [meetsAcross_cons_right hc] at h
      obtain ⟨before', hbefore⟩ := ih ((meetsAcross_cons_left hc).trans h)
      refine ⟨before', ?_⟩
      rw [atOnce, placed_of_isBlank hc, if_pos h, List.nil_append, hbefore,
        List.dropWhile_cons_of_pos hc]
    · exact ⟨before, by rw [List.dropWhile_cons_of_neg hc]⟩

/-- The single pass writes for every character what its place asks for. A blank that it comes upon,
and not upon the factor in front of it, is one it keeps. -/
theorem flatMap_inserted_signBetween_meet (value before s : List Char)
    (h : ∀ c ∈ s.head?, isBlank c = true → meetsAcross before s = false) :
    (signBetween meet s).flatMap (Typed.inserted value) = atOnce value before s := by
  fun_induction signBetween meet s generalizing before with
  | case1 => rfl
  | case2 c s hany ih =>
    -- behind the sign the pass stands at a factor
    have hc : isBlank c = false := isBlank_of_nearest_any hany
    have hmeets : meetsAcross (c :: before) s = true :=
      (meetsAcross_cons_left_of_neg hc).trans hany
    obtain ⟨before', hbefore⟩ := atOnce_of_meetsAcross value hmeets
    have hrest := ih before' fun d hd hblank ↦ by
      rw [head?_dropWhile_eq_false isBlank s d hd] at hblank
      cases hblank
    rw [List.flatMap_cons, List.flatMap_cons, hrest, atOnce, hbefore, placed_of_not_isBlank hc,
      nearest, if_pos hany, List.append_assoc]
    rfl
  | case3 c s hany ih =>
    rw [Bool.not_eq_true] at hany
    cases hc : isBlank c with
    | true =>
      have hkept : meetsAcross before s = false :=
        (meetsAcross_cons_right hc).symm.trans (h c rfl hc)
      have hrest := ih (c :: before) fun _ _ _ ↦ (meetsAcross_cons_left hc).trans hkept
      rw [List.flatMap_cons, hrest, atOnce, placed_of_isBlank hc, hkept, if_neg Bool.false_ne_true,
        inserted_of_isBlank hc]
    | false =>
      have hrest := ih (c :: before) fun _ _ _ ↦
        (meetsAcross_cons_left_of_neg hc).trans hany
      rw [List.flatMap_cons, hrest, atOnce, placed_of_not_isBlank hc, nearest, hany,
        if_neg Bool.false_ne_true, List.append_nil]

/-! ## The kinds of products in any order -/

/-- Passes for all the kinds, in whatever order and however often, sign the same products. -/
theorem foldl_expand_eq_signProducts {ps : List ImplicitProduct}
    (h : ∀ p, p ∈ ps ↔ p ∈ ImplicitProduct.all) (line : List Char) :
    ps.foldl (fun s p ↦ p.expand s) (spellOut line) = signProducts line := by
  have hany : ∀ c d, (ps.any fun p ↦ p.left c && p.right d)
      = ImplicitProduct.all.any fun p ↦ p.left c && p.right d := by
    intro c d
    rw [Bool.eq_iff_iff, List.any_eq_true, List.any_eq_true]
    simp only [h]
  rw [signProducts, foldl_expand fun p ↦ (h p).mp, foldl_expand fun _ hp ↦ hp]
  simp only [hany]

theorem expand_signProducts {p : ImplicitProduct} (hp : p ∈ ImplicitProduct.all)
    (line : List Char) : p.expand (signProducts line) = signProducts line := by
  have hagain : ∀ q, q ∈ ImplicitProduct.all ++ [p] ↔ q ∈ ImplicitProduct.all := by
    intro q
    rw [List.mem_append, List.mem_singleton]
    exact ⟨fun hq ↦ hq.elim id fun hq ↦ hq ▸ hp, .inl⟩
  have h := foldl_expand_eq_signProducts hagain line
  rwa [List.foldl_append, List.foldl_cons, List.foldl_nil, ← signProducts] at h

/-! ## The line with the value in it -/

/-- **A value takes the place of the variable in all places at once.** The kinds of products may be
signed in any order, and none of them leaves a product of another kind unsigned. -/
theorem substitute_eq_atOnce (line value : List Char) :
    substitute line value = atOnce value [] (spellOut line) ∧
    (∀ ps : List ImplicitProduct, (∀ p, p ∈ ps ↔ p ∈ ImplicitProduct.all) →
      ps.foldl (fun s p ↦ p.expand s) (spellOut line) = signProducts line) ∧
    ∀ p ∈ ImplicitProduct.all, p.expand (signProducts line) = signProducts line := by
  refine ⟨?_, fun ps h ↦ foldl_expand_eq_signProducts h line,
    fun p hp ↦ expand_signProducts hp line⟩
  have hnothing : meetsAcross [] (spellOut line) = false := rfl
  have h := flatMap_inserted_signBetween_meet value [] (spellOut line) fun _ _ _ ↦ hnothing
  rw [← h, substitute, signProducts_eq_signBetween]
  rfl

/-- Factors one behind the other, a value that has the variable in it, and the kinds backwards. -/
theorem substitute_eq_atOnce_packed :
    substitute "2 x)\u00a03(X×x )x".toList "-x".toList
      = "2*(-x))*3*((-x)*(-x) )*(-x)".toList ∧
    ImplicitProduct.all.reverse.foldl (fun s p ↦ p.expand s)
        (spellOut "2 x)\u00a03(X×x )x".toList)
      = signProducts "2 x)\u00a03(X×x )x".toList ∧
    ImplicitProduct.expand ⟨isDecimalDigit, isVariable⟩ (signProducts "2 x)\u00a03(X×x )x".toList)
      = signProducts "2 x)\u00a03(X×x )x".toList := by
  obtain ⟨hplaces, horder, hpass⟩ :=
    substitute_eq_atOnce "2 x)\u00a03(X×x )x".toList "-x".toList
  refine ⟨hplaces.trans (by decide +kernel), ?_, hpass _ List.mem_cons_self⟩
  exact horder ImplicitProduct.all.reverse fun _ ↦ List.mem_reverse

end DeskCalculator
