import DeskCalculator.Proofs.Formula.Grammar
import DeskCalculator.Proofs.Text.Stretch
import Mathlib.Data.List.TakeWhile

/-!
# Reading a phrase

A phrase that begins where a value is due is read to its end, whatever was read before. It leaves
operations waiting that bind at least as tightly as its category, and with them listed the tree of
the phrase is behind what was listed before. What was waiting before the phrase stays untouched,
provided that it binds less tightly than the operators of the phrase: a sum begins only where
nothing waits, and a product where nothing tighter than a sum does.
-/

namespace DeskCalculator

/-- The tightest that an operation may bind that waits where a phrase of the category begins. -/
def Category.roof : Category → Nat
  | .sum => 0
  | .product => 1
  | _ => 4

/-- The least that an operation binds that a phrase of the category leaves waiting. Nothing binds
as tightly as an atom would ask for, so an atom leaves nothing. -/
def Category.floor : Category → Nat
  | .sum => 1
  | .product => 2
  | .signed | .power => 3
  | .atom => 5

namespace Postfix

/-! ## Listing what waits -/

@[simp] theorem Waiting.item_negate : negate.item = .negate := rfl

@[simp] theorem Waiting.item_binary (o : Operator) : (binary o).item = .token (.operator o) := rfl

namespace Reading

@[simp] theorem list_eq (r : Reading) (ws : List Waiting) :
    r.list ws = (ws.map Waiting.item).reverse ++ r.listed := by
  rw [list]
  induction ws generalizing r with
  | nil => rfl
  | cons w ws ih =>
    rw [List.foldl_cons, List.map_cons, List.reverse_cons, List.append_assoc]
    exact ih { r with listed := w.item :: r.listed }

/-- Behind a value an operator completes what waits and binds tightly enough. -/
theorem next_operator (l : List Item) (ws : List Waiting) (out : List (List Waiting))
    (o : Operator) :
    next ⟨l, ws, out, true⟩ (.operator o)
      = .ok ⟨((ws.takeWhile (·.isCompletedBy o)).map Waiting.item).reverse ++ l,
          .binary o :: ws.dropWhile (·.isCompletedBy o), out, false⟩ := by
  cases o <;> simp [next]

end Reading

namespace Waiting

/-- The operations that a multiplication completes. -/
def isTight (w : Waiting) : Bool := 2 ≤ w.precedence

theorem one_le_precedence (w : Waiting) : 1 ≤ w.precedence := by
  cases w with
  | negate => decide
  | binary o => cases o <;> decide

theorem precedence_le_four (w : Waiting) : w.precedence ≤ 4 := by
  cases w with
  | negate => decide
  | binary o => cases o <;> decide

theorem isCompletedBy_of_mem_sum {o : Operator} (ho : o ∈ [Operator.plus, .minus]) (w : Waiting) :
    w.isCompletedBy o = true := by
  have hw := one_le_precedence w
  simp only [List.mem_cons, List.not_mem_nil, or_false] at ho
  rcases ho with rfl | rfl <;> exact decide_eq_true hw

theorem isCompletedBy_of_mem_product {o : Operator}
    (ho : o ∈ [Operator.times, .divide, .remainder]) (w : Waiting) :
    w.isCompletedBy o = w.isTight := by
  simp only [List.mem_cons, List.not_mem_nil, or_false] at ho
  rcases ho with rfl | rfl | rfl <;> rfl

@[simp] theorem isCompletedBy_power (w : Waiting) : w.isCompletedBy .power = false :=
  decide_eq_false (Nat.not_lt.mpr (precedence_le_four w))

end Waiting

/-! ## Phrases -/

theorem precedence_of_mem_sum {o : Operator} (ho : o ∈ [Operator.plus, .minus]) :
    precedence o = 1 := by
  simp only [List.mem_cons, List.not_mem_nil, or_false] at ho
  rcases ho with rfl | rfl <;> rfl

theorem precedence_of_mem_product {o : Operator} (ho : o ∈ [Operator.times, .divide, .remainder]) :
    precedence o = 2 := by
  simp only [List.mem_cons, List.not_mem_nil, or_false] at ho
  rcases ho with rfl | rfl | rfl <;> rfl

/-- What waits where a phrase of the category may begin. -/
def Admits (c : Category) (ws : List Waiting) : Prop := ∀ w ∈ ws.head?, w.precedence ≤ c.roof

theorem admits_of_roof_eq_four {c : Category} (hc : c.roof = 4) (ws : List Waiting) :
    Admits c ws := by
  intro w _
  rw [hc]
  exact Waiting.precedence_le_four w

theorem admits_binary {c : Category} {o : Operator} {ws : List Waiting}
    (h : precedence o ≤ c.roof) : Admits c (.binary o :: ws) := by
  rintro w ⟨⟩
  exact h

/-- Where a phrase of a looser category may begin, one of a tighter category may. -/
theorem Admits.mono {c d : Category} {ws : List Waiting} (h : Admits c ws) (hcd : c.roof ≤ d.roof) :
    Admits d ws :=
  fun w hw ↦ (h w hw).trans hcd

/-- From `r` the tokens are read to the end of a value: they list `items`, with what they leave
waiting listed at last, and what they leave waiting binds at least as tightly as `floor`. -/
def ReadsTo (r : Reading) (ts : List Token) (floor : Nat) (items : List Item) : Prop :=
  ∃ ws l, ts.foldlM Reading.next r = .ok ⟨l, ws ++ r.waiting, r.outside, true⟩ ∧
    (∀ w ∈ ws, floor ≤ w.precedence) ∧
    (ws.map Waiting.item).reverse ++ l = items.reverse ++ r.listed

theorem ReadsTo.mono {r : Reading} {ts : List Token} {m n : Nat} {items : List Item}
    (h : ReadsTo r ts n items) (hmn : m ≤ n) : ReadsTo r ts m items := by
  obtain ⟨ws, l, hrun, hws, hl⟩ := h
  exact ⟨ws, l, hrun, fun w hw ↦ hmn.trans (hws w hw), hl⟩

theorem foldlM_next_append_cons {r r' r'' : Reading} {ts : List Token} {tok : Token}
    (us : List Token) (h : ts.foldlM Reading.next r = .ok r') (h' : r'.next tok = .ok r'') :
    (ts ++ tok :: us).foldlM Reading.next r = us.foldlM Reading.next r'' := by
  rw [List.foldlM_append, h]
  change (r'.next tok >>= _) = _
  rw [h']
  rfl

/-- A binary operation is read if its left operand is, and its right operand behind the sign, and
if the sign completes just what the left operand has left waiting. -/
theorem ReadsTo.binary {r : Reading} {ts us : List Token} {m n k : Nat} {xs ys : List Item}
    {o : Operator} (hl : ReadsTo r ts m xs)
    (hm : ∀ w : Waiting, m ≤ w.precedence → w.isCompletedBy o = true)
    (hw : ∀ w ∈ r.waiting.head?, w.isCompletedBy o = false)
    (hr : ∀ l, ReadsTo ⟨l, .binary o :: r.waiting, r.outside, false⟩ us n ys)
    (hkn : k ≤ n) (hko : k ≤ precedence o) :
    ReadsTo r (ts ++ .operator o :: us) k (xs ++ ys ++ [.token (.operator o)]) := by
  obtain ⟨ws, l, hrun, hws, hlist⟩ := hl
  -- the sign completes what the left operand has left, and stops at what was waiting before
  have hnext : (Reading.mk l (ws ++ r.waiting) r.outside true).next (.operator o)
      = .ok ⟨xs.reverse ++ r.listed, .binary o :: r.waiting, r.outside, false⟩ := by
    rw [Reading.next_operator, takeWhile_stretch (fun w h ↦ hm w (hws w h)) hw,
      dropWhile_stretch (fun w h ↦ hm w (hws w h)) hw, hlist]
  obtain ⟨vs, l', hrun', hvs, hlist'⟩ := hr (xs.reverse ++ r.listed)
  refine ⟨vs ++ [.binary o], l', ?_, ?_, ?_⟩
  · rw [foldlM_next_append_cons us hrun hnext, hrun', List.append_assoc]
    rfl
  · intro w hw
    rcases List.mem_append.mp hw with hw | hw
    · exact hkn.trans (hvs w hw)
    · rw [List.mem_singleton.mp hw]
      exact hko
  · rw [List.map_append, List.reverse_append, List.append_assoc, hlist']
    simp

theorem ReadsTo.number (r : Reading) (hr : r.afterValue = false) (v : Float) :
    ReadsTo r [.number v] Category.atom.floor [.token (.number v)] := by
  have hnext : r.next (.number v)
      = .ok ⟨.token (.number v) :: r.listed, r.waiting, r.outside, true⟩ := by
    simp [Reading.next, hr]
  refine ⟨[], .token (.number v) :: r.listed, ?_, by simp, rfl⟩
  rw [List.foldlM_cons, hnext]
  rfl

theorem ReadsTo.parens {r : Reading} {ts : List Token} {n : Nat} {items : List Item}
    (hr : r.afterValue = false)
    (h : ReadsTo ⟨r.listed, [], r.waiting :: r.outside, false⟩ ts n items) :
    ReadsTo r (.openParen :: ts ++ [.closeParen]) Category.atom.floor items := by
  obtain ⟨ws, l, hrun, -, hlist⟩ := h
  have hopen : r.next .openParen = .ok ⟨r.listed, [], r.waiting :: r.outside, false⟩ := by
    simp [Reading.next, hr]
  refine ⟨[], items.reverse ++ r.listed, ?_, by simp, rfl⟩
  rw [List.append_nil] at hrun
  have hclose : (Reading.mk l ws (r.waiting :: r.outside) true).next .closeParen
      = .ok ⟨items.reverse ++ r.listed, r.waiting, r.outside, true⟩ := by
    simp [Reading.next, hlist]
  have hrun' : (.openParen :: ts).foldlM Reading.next r
      = .ok ⟨l, ws, r.waiting :: r.outside, true⟩ := by
    rw [List.foldlM_cons, hopen]
    exact hrun
  exact foldlM_next_append_cons [] hrun' hclose

/-- **A phrase is read to its end.** -/
theorem readsTo_of_derives {c : Category} {ts : List Token} {t : Tree} (h : Derives c ts t)
    (r : Reading) (hr : r.afterValue = false) (hw : Admits c r.waiting) :
    ReadsTo r ts c.floor t.listing := by
  induction h generalizing r with
  | sum_of_product _ ih => exact (ih r hr (hw.mono (by decide))).mono (by decide)
  | product_of_signed _ ih => exact (ih r hr (hw.mono (by decide))).mono (by decide)
  | signed_of_power _ ih => exact ih r hr (hw.mono (by decide))
  | power_of_atom _ ih => exact (ih r hr (hw.mono (by decide))).mono (by decide)
  | number v => exact .number r hr v
  | parens _ ih => exact .parens hr (ih _ rfl (by simp [Admits]))
  | sum ho _ _ iha ihb =>
    refine (iha r hr hw).binary (fun w _ ↦ Waiting.isCompletedBy_of_mem_sum ho w) ?_
      (fun l ↦ ihb _ rfl ?_) (by decide) (Waiting.one_le_precedence (.binary _))
    -- nothing waits where a sum begins
    · intro w hmem
      exact absurd (hw w hmem) (Nat.not_le.mpr (Waiting.one_le_precedence w))
    · exact admits_binary (precedence_of_mem_sum ho).le
  | product ho _ _ iha ihb =>
    refine (iha r hr hw).binary (fun w h ↦ ?_) (fun w hmem ↦ ?_)
      (fun l ↦ ihb _ rfl (admits_of_roof_eq_four rfl _)) (by decide)
      (precedence_of_mem_product ho).ge
    · rw [Waiting.isCompletedBy_of_mem_product ho]
      exact decide_eq_true h
    · rw [Waiting.isCompletedBy_of_mem_product ho]
      exact decide_eq_false (Nat.not_le.mpr (Nat.lt_succ_of_le (hw w hmem)))
  | power _ _ iha ihb =>
    refine (iha r hr (admits_of_roof_eq_four rfl _)).binary (fun w h ↦ ?_)
      (fun w _ ↦ Waiting.isCompletedBy_power w)
      (fun l ↦ ihb _ rfl (admits_of_roof_eq_four rfl _)) (by decide) (by decide)
    -- an atom leaves nothing waiting, so there is nothing to complete
    exact absurd (Waiting.precedence_le_four w) (Nat.not_le.mpr h)
  | plus _ ih =>
    have hnext : r.next (.operator .plus) = .ok r := by simp [Reading.next, hr]
    obtain ⟨ws, l, hrun, hws, hlist⟩ := ih r hr hw
    refine ⟨ws, l, ?_, hws, hlist⟩
    rw [List.foldlM_cons, hnext]
    exact hrun
  | minus _ ih =>
    have hnext : r.next (.operator .minus)
        = .ok ⟨r.listed, .negate :: r.waiting, r.outside, false⟩ := by
      simp [Reading.next, hr]
    obtain ⟨ws, l, hrun, hws, hlist⟩ :=
      ih ⟨r.listed, .negate :: r.waiting, r.outside, false⟩ rfl (admits_of_roof_eq_four rfl _)
    -- the negation waits below what its operand leaves, and is listed behind it
    refine ⟨ws ++ [.negate], l, ?_, ?_, ?_⟩
    · rw [List.foldlM_cons, hnext, List.append_assoc]
      exact hrun
    · intro w hmem
      rcases List.mem_append.mp hmem with hmem | hmem
      · exact hws w hmem
      · rw [List.mem_singleton.mp hmem]
        decide
    · rw [List.map_append, List.reverse_append, List.append_assoc, hlist]
      simp

end Postfix
end DeskCalculator
