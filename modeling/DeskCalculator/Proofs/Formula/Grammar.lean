import DeskCalculator.Formula.Postfix

/-!
# The grammar of expressions

The expressions by their phrases, from the loosest binding to the tightest:

```text
sum     ::= product | sum (+ | -) product
product ::= signed | product (* | / | %) signed
signed  ::= + signed | - signed | power
power   ::= atom | atom ** signed
atom    ::= number | ( sum )
```

The grammar fixes the tree of a phrase. Sums and products lean to the left because their left
operand is of the same category; a power leans to the right because a whole signed phrase may stand
behind its sign, and this is also why an exponent may be negative. A negation stands outside a power
to its right, since a power begins with an atom. A plus sign in front leaves nothing in the tree,
and neither do parentheses.

The listing of a tree puts every operation behind its operands. Read back on a stack it gives the
tree again, on top of whatever was on the stack before.
-/

namespace DeskCalculator

/-! ## Phrases -/

/-- The categories of phrases. -/
inductive Category where
  | sum
  | product
  | signed
  | power
  | atom
  deriving DecidableEq, Repr

/-- The tokens are a phrase of the category, and this is the tree of the phrase. -/
inductive Derives : Category → List Token → Tree → Prop where
  | sum_of_product {ts : List Token} {t : Tree} : Derives .product ts t → Derives .sum ts t
  | sum {ts us : List Token} {a b : Tree} {o : Operator} (ho : o ∈ [Operator.plus, .minus]) :
      Derives .sum ts a → Derives .product us b →
      Derives .sum (ts ++ .operator o :: us) (.binary o a b)
  | product_of_signed {ts : List Token} {t : Tree} : Derives .signed ts t → Derives .product ts t
  | product {ts us : List Token} {a b : Tree} {o : Operator}
      (ho : o ∈ [Operator.times, .divide, .remainder]) :
      Derives .product ts a → Derives .signed us b →
      Derives .product (ts ++ .operator o :: us) (.binary o a b)
  | plus {ts : List Token} {t : Tree} :
      Derives .signed ts t → Derives .signed (.operator .plus :: ts) t
  | minus {ts : List Token} {t : Tree} :
      Derives .signed ts t → Derives .signed (.operator .minus :: ts) (.negate t)
  | signed_of_power {ts : List Token} {t : Tree} : Derives .power ts t → Derives .signed ts t
  | power_of_atom {ts : List Token} {t : Tree} : Derives .atom ts t → Derives .power ts t
  | power {ts us : List Token} {a b : Tree} :
      Derives .atom ts a → Derives .signed us b →
      Derives .power (ts ++ .operator .power :: us) (.binary .power a b)
  | number (v : Float) : Derives .atom [.number v] (.number v)
  | parens {ts : List Token} {t : Tree} :
      Derives .sum ts t → Derives .atom (.openParen :: ts ++ [.closeParen]) t

theorem Derives.sum_of_atom {ts : List Token} {t : Tree} (h : Derives .atom ts t) :
    Derives .sum ts t :=
  .sum_of_product (.product_of_signed (.signed_of_power (.power_of_atom h)))

theorem Derives.signed_of_atom {ts : List Token} {t : Tree} (h : Derives .atom ts t) :
    Derives .signed ts t :=
  .signed_of_power (.power_of_atom h)

/-! ## Listings -/

/-- The postfix listing of a tree: every operation behind its operands. -/
@[simp] def Tree.listing : Tree → List Postfix.Item
  | number v => [.token (.number v)]
  | negate a => a.listing ++ [.negate]
  | binary o a b => a.listing ++ b.listing ++ [.token (.operator o)]

/-- A listing leaves its tree on the stack and touches nothing below it. -/
@[simp] theorem foldlM_push_listing (t : Tree) (stack : List Tree) :
    t.listing.foldlM Postfix.push stack = .ok (t :: stack) := by
  induction t generalizing stack with
  | number v => rfl
  | negate a ih =>
    rw [Tree.listing, List.foldlM_append, ih]
    rfl
  | binary o a b iha ihb =>
    rw [Tree.listing, List.foldlM_append, List.foldlM_append, iha]
    change (b.listing.foldlM Postfix.push (a :: stack) >>= _) = _
    rw [ihb]
    rfl

@[simp] theorem ofPostfix_listing (t : Tree) : Tree.ofPostfix t.listing = .ok t := by
  rw [Tree.ofPostfix, foldlM_push_listing]
  rfl

end DeskCalculator
