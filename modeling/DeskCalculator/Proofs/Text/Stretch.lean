import DeskCalculator.Text.Ends

/-!
# Stretches

A *stretch* of a class is a list all of whose elements are in the class, in front of a rest that
does not continue it. Taking and dropping while the class lasts cut a list exactly there, and so
does dropping at the end, where the stretch is the last one.
-/

namespace DeskCalculator

variable {α : Type} {p : α → Bool} {s rest : List α}

theorem takeWhile_of_head (h : ∀ a ∈ rest.head?, p a = false) : rest.takeWhile p = [] := by
  cases rest with
  | nil => rfl
  | cons a rest => rw [List.takeWhile_cons, h a rfl, if_neg Bool.false_ne_true]

theorem dropWhile_of_head (h : ∀ a ∈ rest.head?, p a = false) : rest.dropWhile p = rest := by
  cases rest with
  | nil => rfl
  | cons a rest => rw [List.dropWhile_cons, h a rfl, if_neg Bool.false_ne_true]

theorem mem_of_mem_head?_append {a : α} (hne : s ≠ []) (ha : a ∈ (s ++ rest).head?) : a ∈ s := by
  cases s with
  | nil => exact absurd rfl hne
  | cons b s =>
    cases ha
    exact List.mem_cons_self

theorem takeWhile_stretch (hs : ∀ a ∈ s, p a = true) (hr : ∀ a ∈ rest.head?, p a = false) :
    (s ++ rest).takeWhile p = s := by
  rw [List.takeWhile_append_of_pos hs, takeWhile_of_head hr, List.append_nil]

theorem dropWhile_stretch (hs : ∀ a ∈ s, p a = true) (hr : ∀ a ∈ rest.head?, p a = false) :
    (s ++ rest).dropWhile p = rest := by
  rw [List.dropWhile_append_of_pos hs, dropWhile_of_head hr]

/-- A second list that begins outside the class is left whole by both. -/
theorem takeWhile_append_of_head (hr : ∀ a ∈ rest.head?, p a = false) (s : List α) :
    (s ++ rest).takeWhile p = s.takeWhile p := by
  rw [List.takeWhile_append]
  split
  · next h => rw [takeWhile_of_head hr, List.append_nil, (List.takeWhile_sublist p).eq_of_length h]
  · rfl

theorem dropWhile_append_of_head (hr : ∀ a ∈ rest.head?, p a = false) (s : List α) :
    (s ++ rest).dropWhile p = s.dropWhile p ++ rest := by
  rw [List.dropWhile_append]
  split
  · next h => rw [List.isEmpty_iff.mp h, dropWhile_of_head hr, List.nil_append]
  · rfl

theorem head?_dropWhile_eq_false (p : α → Bool) (s : List α) :
    ∀ a ∈ (s.dropWhile p).head?, p a = false := by
  intro a ha
  have h := List.head?_dropWhile_not p s
  rwa [Option.mem_def.mp ha] at h

theorem mem_dropWhile {a : α} (h : p a = false) (ha : a ∈ s) : a ∈ s.dropWhile p := by
  rw [← List.takeWhile_append_dropWhile (p := p) (l := s), List.mem_append] at ha
  refine ha.resolve_left fun ha ↦ ?_
  rw [List.all_eq_true.mp List.all_takeWhile a ha] at h
  cases h

/-- A stretch that ends inside a list is the same whatever follows the list. -/
theorem takeWhile_append_of_mem {a : α} (ha : a ∈ s) (h : p a = false) (rest : List α) :
    (s ++ rest).takeWhile p = s.takeWhile p := by
  rw [List.takeWhile_append, if_neg]
  intro hall
  rw [← (List.takeWhile_sublist p).eq_of_length hall] at ha
  rw [List.all_eq_true.mp List.all_takeWhile a ha] at h
  cases h

theorem dropWhile_append_of_mem {a : α} (ha : a ∈ s) (h : p a = false) (rest : List α) :
    (s ++ rest).dropWhile p = s.dropWhile p ++ rest := by
  rw [List.dropWhile_append, if_neg]
  rw [List.isEmpty_iff]
  exact List.ne_nil_of_mem (mem_dropWhile h ha)

@[simp] theorem dropEndWhile_nil : dropEndWhile p [] = [] := rfl

theorem dropEndWhile_append_singleton {c : α} (hc : p c = false) (s : List α) :
    dropEndWhile p (s ++ [c]) = s ++ [c] := by
  rw [dropEndWhile, List.reverse_append, List.reverse_singleton, List.singleton_append,
    List.dropWhile_cons, hc, if_neg Bool.false_ne_true, List.reverse_cons, List.reverse_reverse]

theorem dropEndWhile_append_of_pos {t : List α} (ht : ∀ a ∈ t, p a = true) (s : List α) :
    dropEndWhile p (s ++ t) = dropEndWhile p s := by
  have ht' : ∀ a ∈ t.reverse, p a = true := fun a ha ↦ ht a (List.mem_reverse.mp ha)
  rw [dropEndWhile, List.reverse_append, List.dropWhile_append_of_pos ht', dropEndWhile]

theorem dropEndWhile_eq_nil_or (p : α → Bool) (s : List α) :
    dropEndWhile p s = [] ∨ ∃ t a, dropEndWhile p s = t ++ [a] ∧ p a = false := by
  rw [dropEndWhile]
  have hhead := List.head?_dropWhile_not p s.reverse
  cases hs : s.reverse.dropWhile p with
  | nil => exact .inl rfl
  | cons a t =>
    rw [hs] at hhead
    exact .inr ⟨t.reverse, a, List.reverse_cons, hhead⟩

theorem dropEndWhile_eq_self (h : ∀ a ∈ s.getLast?, p a = false) : dropEndWhile p s = s := by
  rw [dropEndWhile, @dropWhile_of_head α p s.reverse, List.reverse_reverse]
  rwa [List.head?_reverse]

theorem getLast?_dropEndWhile (p : α → Bool) (s : List α) :
    ∀ a ∈ (dropEndWhile p s).getLast?, p a = false := by
  rw [dropEndWhile, List.getLast?_reverse]
  exact head?_dropWhile_eq_false p s.reverse

theorem exists_dropEndWhile_append (p : α → Bool) (s : List α) :
    ∃ t, (∀ c ∈ t, p c = true) ∧ dropEndWhile p s ++ t = s := by
  refine ⟨(s.reverse.takeWhile p).reverse, fun c hc ↦ ?_, ?_⟩
  · exact List.all_eq_true.mp List.all_takeWhile c (List.mem_reverse.mp hc)
  · rw [dropEndWhile, ← List.reverse_append, List.takeWhile_append_dropWhile, List.reverse_reverse]

theorem dropEndWhile_eq_nil_iff : dropEndWhile p s = [] ↔ ∀ a ∈ s, p a = true := by
  constructor
  · intro h
    obtain ⟨t, ht, happend⟩ := exists_dropEndWhile_append p s
    rw [h, List.nil_append] at happend
    rwa [← happend]
  · intro h
    rw [← List.nil_append s, dropEndWhile_append_of_pos h]
    rfl

theorem isPrefix_dropEndWhile (p : α → Bool) (s : List α) : dropEndWhile p s <+: s := by
  obtain ⟨t, -, ht⟩ := exists_dropEndWhile_append p s
  exact ⟨t, ht⟩

end DeskCalculator
