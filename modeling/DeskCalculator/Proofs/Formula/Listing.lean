import DeskCalculator.Proofs.Formula.Grammar
import DeskCalculator.Proofs.Refusal

/-!
# Reading a listing back

A listing is read back on a stack of trees. What has been read so far is the listings of the trees
on the stack, the deepest first: a number is a listing of its own, and an operation stands behind
the listings of the trees that it takes off. So the stack forgets nothing, and a single tree that is
left at the end has exactly the listing that was read.

A list that no tree is listed as is therefore refused, whatever is wrong with it: an operand that is
missing or left over at any depth, or a parenthesis.
-/

namespace DeskCalculator

namespace Postfix

/-- What the trees on a stack are listed as. The deepest tree was read first. -/
@[simp] def listed : List Tree → List Item
  | [] => []
  | t :: stack => listed stack ++ t.listing

/-- The element is a parenthesis. -/
def Item.isParenthesis : Item → Bool
  | .token .openParen | .token .closeParen => true
  | _ => false

variable {stack stack' : List Tree} {item : Item}

/-- **One element more is listed.** -/
theorem listed_of_push (h : push stack item = .ok stack') :
    listed stack' = listed stack ++ [item] := by
  rcases item with t | _
  · cases t with
    | number v =>
      cases h
      rfl
    | operator o =>
      rcases stack with _ | ⟨b, _ | ⟨a, stack⟩⟩
      · cases h
      · cases h
      · cases h
        simp
    | openParen | closeParen =>
      rcases stack with _ | ⟨b, _ | ⟨a, stack⟩⟩ <;> cases h
  · rcases stack with _ | ⟨a, stack⟩
    · cases h
    · cases h
      simp

theorem listed_of_foldlM_push {items : List Item} (h : items.foldlM push stack = .ok stack') :
    listed stack' = listed stack ++ items := by
  induction items generalizing stack with
  | nil =>
    obtain rfl := Except.ok.inj h
    rw [List.append_nil]
  | cons item items ih =>
    rw [List.foldlM_cons] at h
    obtain ⟨next, hpush, hrest⟩ := exists_of_bind_eq_ok h
    rw [ih hrest, listed_of_push hpush, List.append_assoc, List.singleton_append]

end Postfix

open Postfix

variable {items : List Item} {t : Tree}

theorem eq_listing_of_ofPostfix (h : Tree.ofPostfix items = .ok t) : items = t.listing := by
  rw [Tree.ofPostfix] at h
  obtain ⟨stack, hstack, ht⟩ := exists_of_bind_eq_ok h
  have hlisted := listed_of_foldlM_push hstack
  rcases stack with _ | ⟨a, _ | ⟨b, stack⟩⟩
  · cases ht
  · obtain rfl := Except.ok.inj ht
    exact hlisted.symm
  · cases ht

theorem isParenthesis_of_mem_listing {item : Item} (h : item ∈ t.listing) :
    item.isParenthesis = false := by
  induction t with
  | number v =>
    obtain rfl : item = .token (.number v) := by simpa using h
    rfl
  | negate a ih =>
    have hmem : item ∈ a.listing ∨ item = .negate := by simpa using h
    rcases hmem with h | rfl
    · exact ih h
    · rfl
  | binary o a b iha ihb =>
    have hmem : item ∈ a.listing ∨ item ∈ b.listing ∨ item = .token (.operator o) := by
      simpa using h
    rcases hmem with h | h | rfl
    · exact iha h
    · exact ihb h
    · rfl

/-- **Reading back inverts listing.** A list is read back as a tree if and only if it is the listing
of that tree, and it is refused if and only if it is the listing of none; a list with a parenthesis
is the listing of none. -/
theorem ofPostfix_eq_ok_iff (items : List Item) :
    (∀ t, Tree.ofPostfix items = .ok t ↔ items = t.listing) ∧
    ((∃ cause, Tree.ofPostfix items = .error cause) ↔ ∀ t : Tree, items ≠ t.listing) ∧
    (items.any Item.isParenthesis = true → ∃ cause, Tree.ofPostfix items = .error cause) := by
  have hread : ∀ t, Tree.ofPostfix items = .ok t ↔ items = t.listing := by
    refine fun t ↦ ⟨eq_listing_of_ofPostfix, ?_⟩
    rintro rfl
    exact ofPostfix_listing t
  have hrefused : (∃ cause, Tree.ofPostfix items = .error cause) ↔
      ∀ t : Tree, items ≠ t.listing := by
    simp only [ne_eq, ← hread]
    cases Tree.ofPostfix items with
    | error cause => exact iff_of_true ⟨cause, rfl⟩ nofun
    | ok t => exact iff_of_false nofun fun h ↦ h t rfl
  refine ⟨hread, hrefused, fun h ↦ hrefused.mpr ?_⟩
  rintro t rfl
  obtain ⟨item, hmem, hparen⟩ := List.any_eq_true.mp h
  rw [isParenthesis_of_mem_listing hmem] at hparen
  cases hparen

/-- The operands of a difference are not exchanged, and a parenthesis is refused. -/
theorem ofPostfix_eq_ok_iff_difference :
    Tree.ofPostfix [.token (.number 5.0), .token (.number 2.0), .negate, .token (.operator .minus)]
      = .ok (.binary .minus (.number 5.0) (.negate (.number 2.0))) ∧
    ∃ cause, Tree.ofPostfix [.token .openParen, .token (.number 5.0)] = .error cause :=
  ⟨((ofPostfix_eq_ok_iff _).1 _).mpr rfl, (ofPostfix_eq_ok_iff _).2.2 rfl⟩

end DeskCalculator
