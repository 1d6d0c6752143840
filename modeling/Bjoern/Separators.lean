import Mathlib.Data.List.Infix

namespace Separators

variable {α : Type} {x y : α}

/-- No `x` has a `y` after it. -/
def Free (x y : α) (s : List α) : Prop := ¬ [x, y] <:+: s

theorem free_nil : Free x y [] := by simp [Free]

theorem free_singleton (c : α) : Free x y [c] := by
  intro h
  have long := h.length_le
  simp at long

theorem free_cons {c d : α} {rest : List α} : Free x y (c :: d :: rest) ↔ ¬ (c = x ∧ d = y) ∧ Free x y (d :: rest) := by
  unfold Free
  rw [List.infix_cons_iff, not_or, List.cons_prefix_cons, List.cons_prefix_cons]
  simp [eq_comm]

theorem Free.part {s part : List α} (h : Free x y s) (inside : part <:+: s) : Free x y part :=
  fun occurs => h (occurs.trans inside)

/-- A separator across the seam of two lists begins with the last element of the first. -/
theorem Free.append {a b : List α} (left : Free x y a) (right : Free x y b)
    (seam : a.getLast? = some x → b.head? ≠ some y) : Free x y (a ++ b) := by
  induction a with
  | nil => exact right
  | cons c a ih =>
    cases a with
    | nil =>
      cases b with
      | nil => exact left
      | cons d b =>
        refine free_cons.mpr ⟨?_, right⟩
        rintro ⟨rfl, rfl⟩
        exact seam rfl rfl
    | cons d a =>
      obtain ⟨here, rest⟩ := free_cons.mp left
      exact free_cons.mpr ⟨here, ih rest (by simpa using seam)⟩

variable [DecidableEq α]

/-- The parts of a list before and behind the first `x` with a `y` after it. -/
def cut (x y : α) : List α → Option (List α × List α)
  | c :: d :: rest =>
    if c = x ∧ d = y then some ([], rest) else (cut x y (d :: rest)).map fun parts => (c :: parts.1, parts.2)
  | _ => none

/-- The parts of a list between all the places with an `x` and a `y` after it. -/
def pieces (x y : α) : List α → List (List α)
  | c :: d :: rest =>
    if c = x ∧ d = y then [] :: pieces x y rest
    else match pieces x y (d :: rest) with
      | first :: more => (c :: first) :: more
      | [] => [[c]]
  | s => [s]

theorem cut_append (different : x ≠ y) {a : List α} (free : Free x y a) (b : List α) :
    cut x y (a ++ x :: y :: b) = some (a, b) := by
  induction a with
  | nil => simp [cut]
  | cons c a ih =>
    cases a with
    | nil =>
      have other : ¬ (c = x ∧ x = y) := fun h => different h.2
      simp [cut, other]
    | cons d a =>
      obtain ⟨here, rest⟩ := free_cons.mp free
      have more := ih rest
      simp only [List.cons_append] at more ⊢
      rw [cut, if_neg here, more]
      rfl

theorem cut_eq_some {s a b : List α} (h : cut x y s = some (a, b)) : s = a ++ x :: y :: b ∧ Free x y a := by
  induction s generalizing a with
  | nil => cases h
  | cons c s ih =>
    cases s with
    | nil => cases h
    | cons d s =>
      rw [cut] at h
      split at h
      next here =>
        cases h
        obtain ⟨rfl, rfl⟩ := here
        exact ⟨rfl, free_nil⟩
      next here =>
        obtain ⟨⟨first, second⟩, hs, eq⟩ := Option.map_eq_some_iff.mp h
        cases eq
        obtain ⟨split, free⟩ := ih hs
        refine ⟨by rw [split]; rfl, ?_⟩
        cases first with
        | nil => exact free_singleton c
        | cons e first =>
          cases split
          exact free_cons.mpr ⟨here, free⟩

theorem pieces_ne_nil (s : List α) : pieces x y s ≠ [] := by
  unfold pieces
  split
  next =>
    split
    next => simp
    next =>
      split
      next => simp
      next => simp
  next => simp

theorem pieces_cons {c d : α} (rest : List α) (here : ¬ (c = x ∧ d = y)) : ∃ first more,
    pieces x y (d :: rest) = first :: more ∧ pieces x y (c :: d :: rest) = (c :: first) :: more := by
  obtain ⟨first, more, eq⟩ := List.exists_cons_of_ne_nil (pieces_ne_nil (x := x) (y := y) (d :: rest))
  refine ⟨first, more, eq, ?_⟩
  rw [pieces, if_neg here, eq]

theorem pieces_append (different : x ≠ y) {a : List α} (free : Free x y a) (b : List α) :
    pieces x y (a ++ x :: y :: b) = a :: pieces x y b := by
  induction a with
  | nil => simp [pieces]
  | cons c a ih =>
    cases a with
    | nil =>
      obtain ⟨first, more, rest, whole⟩ := pieces_cons (y :: b) (fun h : c = x ∧ x = y => different h.2)
      have parts : pieces x y (x :: y :: b) = [] :: pieces x y b := by simp [pieces]
      obtain ⟨rfl, rfl⟩ := List.cons.inj (parts.symm.trans rest)
      exact whole
    | cons d a =>
      obtain ⟨here, free⟩ := free_cons.mp free
      obtain ⟨first, more, rest, whole⟩ := pieces_cons (a ++ x :: y :: b) here
      obtain ⟨rfl, rfl⟩ := List.cons.inj ((ih free).symm.trans rest)
      exact whole

theorem pieces_first_of {s first : List α} {more : List (List α)} (h : pieces x y s = first :: more) : first <+: s := by
  induction s using pieces.induct x y generalizing first more with
  | case1 c d rest here =>
    rw [pieces, if_pos here] at h
    cases h
    exact List.nil_prefix
  | case2 c d rest here first' more' tail ih =>
    rw [pieces, if_neg here, tail] at h
    cases h
    exact List.cons_prefix_cons.mpr ⟨rfl, ih tail⟩
  | case3 c d rest here none => exact absurd none (pieces_ne_nil _)
  | case4 s short =>
    rw [pieces.eq_2 x y s short] at h
    cases h
    exact List.prefix_rfl

/-- Between the places there is none. -/
theorem pieces_free {s piece : List α} (member : piece ∈ pieces x y s) : Free x y piece := by
  induction s using pieces.induct x y generalizing piece with
  | case1 c d rest here ih =>
    rw [pieces, if_pos here] at member
    rcases List.mem_cons.mp member with rfl | later
    · exact free_nil
    · exact ih later
  | case2 c d rest here first more tail ih =>
    rw [pieces, if_neg here, tail] at member
    rcases List.mem_cons.mp member with rfl | later
    · have free : Free x y first := ih (by rw [tail]; exact List.mem_cons_self)
      cases first with
      | nil => exact free_singleton c
      | cons e first =>
        obtain ⟨rfl, _⟩ := List.cons_prefix_cons.mp (pieces_first_of tail)
        exact free_cons.mpr ⟨here, free⟩
    · exact ih (by rw [tail]; exact List.mem_cons_of_mem _ later)
  | case3 c d rest here none => exact absurd none (pieces_ne_nil _)
  | case4 s short =>
    rw [pieces.eq_2 x y s short] at member
    obtain rfl := List.mem_singleton.mp member
    cases piece with
    | nil => exact free_nil
    | cons c piece =>
      cases piece with
      | nil => exact free_singleton c
      | cons d piece => exact absurd rfl (short c d piece)

/-- The lines of a text that ends in an empty one. -/
theorem pieces_lines (different : x ≠ y) {first : List α} {lines : List (List α)} (free : Free x y first)
    (frees : ∀ line ∈ lines, Free x y line) :
    pieces x y (first ++ (lines.flatMap (fun line => x :: y :: line) ++ [x, y, x, y])) =
      first :: (lines ++ [[], []]) := by
  induction lines generalizing first with
  | nil =>
    rw [List.flatMap_nil, List.nil_append, pieces_append different free]
    simp [pieces]
  | cons line rest ih =>
    have more := ih (frees line List.mem_cons_self) (fun line member => frees line (List.mem_cons_of_mem _ member))
    have shape : first ++ ((line :: rest).flatMap (fun line => x :: y :: line) ++ [x, y, x, y]) =
        first ++ x :: y :: (line ++ (rest.flatMap (fun line => x :: y :: line) ++ [x, y, x, y])) := by simp
    rw [shape, pieces_append different free, more]
    rfl

end Separators
