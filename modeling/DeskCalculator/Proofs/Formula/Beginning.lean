import DeskCalculator.Proofs.Formula.Reading
import DeskCalculator.Proofs.Refusal

/-!
# Beginnings of an expression

The tokens that have been read are cut at the open parentheses. Behind the innermost one they are
the beginning of a sum, and what waits is what this beginning has promised: each waiting operation
goes with a left operand, already complete, and with its sign. `ProductDue` describes the beginnings
behind which a product is due, `SignedDue` those behind which a signed phrase is. An operator that
comes completes the waiting operations that bind tightly enough, and so turns a beginning of the
second kind into one of the first, with a longer operand behind it.

With the converse from the reading of phrases, the tokens that have a postfix listing are exactly
the sums of the grammar, and the listing is that of the sum's tree.
-/

namespace DeskCalculator

namespace Postfix

/-! ## What is due -/

/-- The tokens since a parenthesis are the beginning of a sum behind which a product is due; with
what waits, and what is listed of it. -/
inductive ProductDue : List Token → List Waiting → List Item → Prop where
  | start : ProductDue [] [] []
  | sum {ts : List Token} {a : Tree} {o : Operator} (ho : o ∈ [Operator.plus, .minus]) :
      Derives .sum ts a → ProductDue (ts ++ [.operator o]) [.binary o] a.listing

/-- The tokens since a parenthesis are the beginning of a sum behind which a signed phrase is
due. -/
inductive SignedDue : List Token → List Waiting → List Item → Prop where
  | first {ts : List Token} {ws : List Waiting} {l : List Item} :
      ProductDue ts ws l → SignedDue ts ws l
  | product {ts us : List Token} {ws : List Waiting} {l : List Item} {a : Tree} {o : Operator}
      (ho : o ∈ [Operator.times, .divide, .remainder]) :
      ProductDue ts ws l → Derives .product us a →
      SignedDue (ts ++ us ++ [.operator o]) (.binary o :: ws) (l ++ a.listing)
  | plus {ts : List Token} {ws : List Waiting} {l : List Item} :
      SignedDue ts ws l → SignedDue (ts ++ [.operator .plus]) ws l
  | minus {ts : List Token} {ws : List Waiting} {l : List Item} :
      SignedDue ts ws l → SignedDue (ts ++ [.operator .minus]) (.negate :: ws) l
  | power {ts us : List Token} {ws : List Waiting} {l : List Item} {a : Tree} :
      SignedDue ts ws l → Derives .atom us a →
      SignedDue (ts ++ us ++ [.operator .power]) (.binary .power :: ws) (l ++ a.listing)

theorem ProductDue.not_isTight {ts : List Token} {ws : List Waiting} {l : List Item}
    (h : ProductDue ts ws l) : ∀ w ∈ ws.head?, w.isTight = false := by
  cases h with
  | start => simp
  | sum ho _ =>
    rintro w ⟨⟩
    rw [Waiting.isTight, Waiting.precedence, precedence_of_mem_sum ho]
    rfl

theorem ProductDue.derives_sum {ts us : List Token} {ws : List Waiting} {l : List Item} {a : Tree}
    (h : ProductDue ts ws l) (ha : Derives .product us a) :
    ∃ t, Derives .sum (ts ++ us) t ∧ t.listing = l ++ a.listing ++ ws.map Waiting.item := by
  cases h with
  | start => exact ⟨a, .sum_of_product ha, by simp⟩
  | @sum ts b o ho hb =>
    refine ⟨.binary o b a, ?_, by simp⟩
    rw [List.append_assoc]
    exact .sum ho hb ha

/-- A multiplication behind a signed phrase completes the tight operations: they become part of a
product, behind a beginning where a product was due. -/
theorem SignedDue.exists_productDue {ts us : List Token} {ws : List Waiting} {l : List Item}
    {a : Tree} (h : SignedDue ts ws l) (ha : Derives .signed us a) :
    ∃ ts' us' l' b, ProductDue ts' (ws.dropWhile Waiting.isTight) l' ∧ Derives .product us' b ∧
      ts' ++ us' = ts ++ us ∧
      l' ++ b.listing = l ++ a.listing ++ (ws.takeWhile Waiting.isTight).map Waiting.item := by
  induction h generalizing us a with
  | @first ts ws l hp =>
    rw [dropWhile_of_head hp.not_isTight, takeWhile_of_head hp.not_isTight]
    exact ⟨ts, us, l, a, hp, .product_of_signed ha, rfl, by simp⟩
  | @product ts us₀ ws l a₀ o ho hp h₀ =>
    have ho' : (Waiting.binary o).isTight = true := decide_eq_true (precedence_of_mem_product ho).ge
    rw [List.dropWhile_cons, ho', if_pos rfl, List.takeWhile_cons, ho', if_pos rfl,
      dropWhile_of_head hp.not_isTight, takeWhile_of_head hp.not_isTight]
    refine ⟨ts, us₀ ++ .operator o :: us, l, .binary o a₀ a, hp, .product ho h₀ ha, ?_, ?_⟩
    · simp
    · simp
  | plus _ ih =>
    obtain ⟨ts', us', l', b, hp, hb, hts, hl⟩ := ih (.plus ha)
    exact ⟨ts', us', l', b, hp, hb, by simp [hts], hl⟩
  | minus _ ih =>
    obtain ⟨ts', us', l', b, hp, hb, hts, hl⟩ := ih (.minus ha)
    refine ⟨ts', us', l', b, hp, hb, by simp [hts], ?_⟩
    rw [hl]
    simp [Waiting.isTight, Waiting.precedence]
  | @power ts us₀ ws l a₀ _ h₀ ih =>
    obtain ⟨ts', us', l', b, hp, hb, hts, hl⟩ := ih (.signed_of_power (.power h₀ ha))
    refine ⟨ts', us', l', b, hp, hb, by simp [hts], ?_⟩
    rw [hl]
    simp [Waiting.isTight, Waiting.precedence, precedence]

theorem SignedDue.derives_sum {ts us : List Token} {ws : List Waiting} {l : List Item} {a : Tree}
    (h : SignedDue ts ws l) (ha : Derives .signed us a) :
    ∃ t, Derives .sum (ts ++ us) t ∧ t.listing = l ++ a.listing ++ ws.map Waiting.item := by
  obtain ⟨ts', us', l', b, hp, hb, hts, hl⟩ := h.exists_productDue ha
  obtain ⟨t, ht, hlist⟩ := hp.derives_sum hb
  refine ⟨t, hts ▸ ht, ?_⟩
  rw [hlist, hl, List.append_assoc, ← List.map_append, List.takeWhile_append_dropWhile]

/-! ## The invariant -/

/-- The tokens up to the innermost open parenthesis are beginnings of sums, one for each open
parenthesis, behind each of which a signed phrase is due. -/
inductive Enclosing : List Token → List (List Waiting) → List Item → Prop where
  | none : Enclosing [] [] []
  | openParen {ps ts : List Token} {ws : List Waiting} {out : List (List Waiting)}
      {k l : List Item} :
      Enclosing ps out k → SignedDue ts ws l →
      Enclosing (ps ++ ts ++ [.openParen]) (ws :: out) (k ++ l)

/-- What a reading says about the tokens that have been read: they end where a signed phrase is
due, or with an atom behind such a place. -/
inductive Reading.Reads : Reading → List Token → Prop where
  | due {ps ts : List Token} {ws : List Waiting} {out : List (List Waiting)} {k l : List Item} :
      Enclosing ps out k → SignedDue ts ws l →
      Reads ⟨(k ++ l).reverse, ws, out, false⟩ (ps ++ ts)
  | value {ps ts us : List Token} {ws : List Waiting} {out : List (List Waiting)}
      {k l : List Item} {a : Tree} :
      Enclosing ps out k → SignedDue ts ws l → Derives .atom us a →
      Reads ⟨(k ++ l ++ a.listing).reverse, ws, out, true⟩ (ps ++ ts ++ us)

namespace Reading

theorem Reads.of_due {ps ts read : List Token} {ws : List Waiting} {out : List (List Waiting)}
    {k l listed : List Item} (he : Enclosing ps out k) (hd : SignedDue ts ws l)
    (hl : listed = (k ++ l).reverse) (hr : read = ps ++ ts) :
    Reads ⟨listed, ws, out, false⟩ read := by
  rw [hl, hr]
  exact .due he hd

theorem Reads.of_value {ps ts us read : List Token} {ws : List Waiting}
    {out : List (List Waiting)} {k l listed : List Item} {a : Tree} (he : Enclosing ps out k)
    (hd : SignedDue ts ws l) (ha : Derives .atom us a)
    (hl : listed = (k ++ l ++ a.listing).reverse) (hr : read = ps ++ ts ++ us) :
    Reads ⟨listed, ws, out, true⟩ read := by
  rw [hl, hr]
  exact .value he hd ha

theorem reads_start : Reads {} [] := .of_due .none (.first .start) rfl rfl

theorem reads_operator {ps ts us : List Token} {ws : List Waiting} {out : List (List Waiting)}
    {k l : List Item} {a : Tree} (he : Enclosing ps out k) (hd : SignedDue ts ws l)
    (ha : Derives .atom us a) (o : Operator) :
    Reads ⟨((ws.takeWhile (·.isCompletedBy o)).map Waiting.item).reverse
      ++ (k ++ l ++ a.listing).reverse, .binary o :: ws.dropWhile (·.isCompletedBy o), out, false⟩
      (ps ++ ts ++ us ++ [.operator o]) := by
  have hsum : ∀ o, o ∈ [Operator.plus, .minus] →
      Reads ⟨((ws.takeWhile (·.isCompletedBy o)).map Waiting.item).reverse
        ++ (k ++ l ++ a.listing).reverse, .binary o :: ws.dropWhile (·.isCompletedBy o), out,
        false⟩ (ps ++ ts ++ us ++ [.operator o]) := by
    intro o ho
    obtain ⟨t, ht, hlist⟩ := hd.derives_sum (.signed_of_atom ha)
    have hall : ∀ w ∈ ws, w.isCompletedBy o = true :=
      fun w _ ↦ Waiting.isCompletedBy_of_mem_sum ho w
    -- all that waits is completed, and the operand is the whole beginning
    rw [List.takeWhile_eq_self_iff.mpr hall, List.dropWhile_eq_nil_iff.mpr hall]
    exact .of_due he (.first (.sum ho ht)) (by simp [hlist]) (by simp)
  have hproduct : ∀ o, o ∈ [Operator.times, .divide, .remainder] →
      Reads ⟨((ws.takeWhile (·.isCompletedBy o)).map Waiting.item).reverse
        ++ (k ++ l ++ a.listing).reverse, .binary o :: ws.dropWhile (·.isCompletedBy o), out,
        false⟩ (ps ++ ts ++ us ++ [.operator o]) := by
    intro o ho
    obtain ⟨ts', us', l', b, hp, hb, hts, hl⟩ := hd.exists_productDue (.signed_of_atom ha)
    have htight : (fun w : Waiting ↦ w.isCompletedBy o) = Waiting.isTight :=
      funext (Waiting.isCompletedBy_of_mem_product ho)
    -- a sum that is waiting goes on waiting
    rw [htight]
    refine .of_due he (.product ho hp hb) ?_ ?_
    · rw [hl]
      simp
    · rw [hts]
      simp
  cases o with
  | plus => exact hsum _ (by decide)
  | minus => exact hsum _ (by decide)
  | times => exact hproduct _ (by decide)
  | divide => exact hproduct _ (by decide)
  | remainder => exact hproduct _ (by decide)
  | power =>
    have hnone : ∀ w ∈ ws.head?, w.isCompletedBy .power = false :=
      fun w _ ↦ Waiting.isCompletedBy_power w
    rw [takeWhile_of_head hnone, dropWhile_of_head hnone]
    exact .of_due he (.power hd ha) (by simp) (by simp)

/-- **One token.** -/
theorem Reads.next {r r' : Reading} {read : List Token} {tok : Token} (h : Reads r read)
    (hn : r.next tok = .ok r') : Reads r' (read ++ [tok]) := by
  cases h with
  | due he hd =>
    cases tok with
    | number v =>
      cases hn
      exact .of_value he hd (.number v) (by simp) rfl
    | openParen =>
      cases hn
      exact .of_due (he.openParen hd) (.first .start) (by simp) (by simp)
    | closeParen => cases hn
    | operator o =>
      cases o with
      | plus =>
        cases hn
        exact .of_due he hd.plus rfl (by simp)
      | minus =>
        cases hn
        exact .of_due he hd.minus rfl (by simp)
      | _ => cases hn
  | value he hd ha =>
    cases tok with
    | number v => cases hn
    | openParen => cases hn
    | operator o =>
      rw [next_operator] at hn
      cases hn
      exact reads_operator he hd ha o
    | closeParen =>
      -- the sum since the parenthesis is an atom of what encloses it
      obtain ⟨t, ht, hlist⟩ := hd.derives_sum (.signed_of_atom ha)
      cases he with
      | none => cases hn
      | openParen he' hd' =>
        simp only [Reading.next, list_eq, Bool.not_true, Bool.false_eq_true, if_false] at hn
        cases hn
        exact .of_value he' hd' (.parens ht) (by simp [hlist]) (by simp)

/-- **All tokens.** -/
theorem Reads.foldlM_next {r r' : Reading} {read : List Token} (h : Reads r read)
    {ts : List Token} (hrun : ts.foldlM Reading.next r = .ok r') : Reads r' (read ++ ts) := by
  induction ts generalizing r read with
  | nil =>
    cases hrun
    rwa [List.append_nil]
  | cons tok ts ih =>
    rw [List.foldlM_cons] at hrun
    obtain ⟨r₁, hn, hrest⟩ := exists_of_bind_eq_ok hrun
    rw [List.append_cons]
    exact ih (h.next hn) hrest

theorem Reads.derives_sum {r : Reading} {read : List Token} {items : List Item} (h : Reads r read)
    (hf : r.finish = .ok items) : ∃ t, Derives .sum read t ∧ items = t.listing := by
  cases h with
  | due => cases hf
  | value he hd ha =>
    cases he with
    | openParen => cases hf
    | none =>
      obtain ⟨t, ht, hlist⟩ := hd.derives_sum (.signed_of_atom ha)
      simp only [finish, list_eq, Bool.not_true, Bool.false_eq_true, if_false, List.isEmpty_nil,
        if_true] at hf
      cases hf
      exact ⟨t, ht, by simp [hlist]⟩

end Reading

/-! ## Expressions -/

/-- **The listings of expressions.** -/
theorem ofTokens_eq_ok_iff {ts : List Token} {items : List Item} :
    ofTokens ts = .ok items ↔ ∃ t, Derives .sum ts t ∧ items = t.listing := by
  constructor
  · intro h
    rw [ofTokens] at h
    obtain ⟨r, hrun, hf⟩ := exists_of_bind_eq_ok h
    exact (Reading.reads_start.foldlM_next hrun).derives_sum hf
  · rintro ⟨t, ht, rfl⟩
    obtain ⟨ws, l, hrun, -, hlist⟩ := readsTo_of_derives ht {} rfl (by simp [Admits])
    rw [ofTokens, hrun]
    change Reading.finish ⟨l, ws ++ [], [], true⟩ = _
    simp [Reading.finish, hlist]

/-- **Expressions are the sums of the grammar.** Tokens have a tree, by way of their listing,
exactly when they are a sum, and it is the tree of the sum. A listing that tokens have is always the
listing of one tree, so building the tree never fails. -/
theorem ofTokens_bind_ofPostfix_iff (ts : List Token) :
    (∀ t, (ofTokens ts >>= Tree.ofPostfix) = .ok t ↔ Derives .sum ts t) ∧
      ∀ items, ofTokens ts = .ok items ↔
        ∃ t, Derives .sum ts t ∧ items = t.listing ∧ Tree.ofPostfix items = .ok t := by
  refine ⟨fun t ↦ ⟨fun h ↦ ?_, fun h ↦ ?_⟩, fun items ↦ ⟨fun h ↦ ?_, ?_⟩⟩
  · obtain ⟨items, hitems, htree⟩ := exists_of_bind_eq_ok h
    obtain ⟨t', ht', rfl⟩ := ofTokens_eq_ok_iff.mp hitems
    rw [ofPostfix_listing] at htree
    cases htree
    exact ht'
  · rw [ofTokens_eq_ok_iff.mpr ⟨t, h, rfl⟩]
    exact ofPostfix_listing t
  · obtain ⟨t, ht, rfl⟩ := ofTokens_eq_ok_iff.mp h
    exact ⟨t, ht, rfl, ofPostfix_listing t⟩
  · rintro ⟨t, ht, rfl, -⟩
    exact ofTokens_eq_ok_iff.mpr ⟨t, ht, rfl⟩

/-- In `x ** -y ** z` the sign stands inside the first power and outside the second. -/
example (x y z : Float) :
    (ofTokens [.number x, .operator .power, .operator .minus, .number y, .operator .power,
      .number z] >>= Tree.ofPostfix)
      = .ok (.binary .power (.number x) (.negate (.binary .power (.number y) (.number z)))) :=
  rfl

end Postfix
end DeskCalculator
