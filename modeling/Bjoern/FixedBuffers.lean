import Mathlib.Data.List.Basic

namespace FixedBuffers

variable {α : Type}

/-- Memory in which `none` has not been written yet. -/
abbrev Cells (α : Type) := List (Option α)

/-- A block of memory and the pointer at which it is filled. -/
structure Buffer (α : Type) where
  cells : Cells α
  next : Nat
  inside : next ≤ cells.length

def alloc (size : Nat) : Buffer α := ⟨List.replicate size none, 0, Nat.zero_le _⟩

/-- `*p++ = x`, with `none` for a write past the end. -/
def Buffer.put (b : Buffer α) (x : α) : Option (Buffer α) :=
  if room : b.next < b.cells.length then
    some ⟨b.cells.set b.next (some x), b.next + 1, by rw [List.length_set]; exact room⟩
  else none

/-- The elements of a source, one `put` after the other. -/
def Buffer.write (b : Buffer α) : List α → Option (Buffer α)
  | [] => some b
  | x :: xs => (b.put x).bind (·.write xs)

/-- `realloc`: what does not fit is cut off, what is new has not been written. -/
def resize (cells : Cells α) (size : Nat) : Cells α :=
  cells.take size ++ List.replicate (size - cells.length) none

/-- `memcpy` to an offset, with `none` for a copy past the end. -/
def copyAt (cells : Cells α) (offset : Nat) (src : List α) : Option (Cells α) :=
  if offset + src.length ≤ cells.length then
    some (cells.take offset ++ src.map some ++ cells.drop (offset + src.length))
  else none

/-- The contents of memory that has been written throughout. -/
def contents (cells : Cells α) : Option (List α) := cells.mapM id

/-- The buffer has been filled with `xs`, and `room` elements more fit in. -/
structure Holds (b : Buffer α) (xs : List α) (room : Nat) : Prop where
  cells : b.cells = xs.map some ++ List.replicate room none
  next : b.next = xs.length

theorem holds_alloc (size : Nat) : Holds (alloc size : Buffer α) [] size := ⟨rfl, rfl⟩

theorem Buffer.write_append (b : Buffer α) (xs ys : List α) :
    b.write (xs ++ ys) = (b.write xs).bind (·.write ys) := by
  induction xs generalizing b with
  | nil => rfl
  | cons x xs ih =>
    simp only [List.cons_append, Buffer.write]
    cases b.put x with
    | none => rfl
    | some b' => exact ih b'

theorem Holds.put {b : Buffer α} {xs : List α} {room : Nat} (h : Holds b xs (room + 1)) (x : α) :
    ∃ b', b.put x = some b' ∧ Holds b' (xs ++ [x]) room := by
  have size : b.cells.length = xs.length + (room + 1) := by simp [h.cells]
  have fits : b.next < b.cells.length := by rw [h.next, size]; omega
  refine ⟨_, dif_pos fits, ?_, ?_⟩
  · show b.cells.set b.next (some x) = _
    rw [h.cells, h.next, List.set_append, if_neg (by simp), List.replicate_succ]
    simp
  · show b.next + 1 = _
    rw [h.next, List.length_append, List.length_singleton]

theorem Holds.write {b : Buffer α} {xs ys : List α} {room : Nat} (h : Holds b xs (ys.length + room)) :
    ∃ b', b.write ys = some b' ∧ Holds b' (xs ++ ys) room := by
  induction ys generalizing b xs with
  | nil =>
    refine ⟨b, rfl, ?_⟩
    simpa using h
  | cons y ys ih =>
    have room' : Holds b xs (ys.length + room + 1) := by
      have same : (y :: ys).length + room = ys.length + room + 1 := by rw [List.length_cons]; omega
      rw [← same]
      exact h
    obtain ⟨mid, put, holds⟩ := room'.put y
    obtain ⟨b', write, holds⟩ := ih holds
    refine ⟨b', ?_, ?_⟩
    · rw [Buffer.write, put]
      exact write
    · simpa using holds

theorem Holds.next_le {b : Buffer α} {xs : List α} {room : Nat} (h : Holds b xs room) : b.next ≤ xs.length + room := by
  rw [h.next]
  omega

theorem Holds.take {b : Buffer α} {xs : List α} {room : Nat} (h : Holds b xs room) :
    b.cells.take b.next = xs.map some := by
  rw [h.cells, h.next, List.take_left' (by simp)]

theorem Holds.resize {b : Buffer α} {xs : List α} {room : Nat} (h : Holds b xs room) :
    resize b.cells b.next = xs.map some := by
  have enough : b.next - b.cells.length = 0 := by
    have inside := b.inside
    omega
  rw [FixedBuffers.resize, h.take, enough, List.replicate_zero, List.append_nil]

/-- The memory behind what has been written, resized for `ys`, takes exactly `ys`. -/
theorem Holds.copy {b : Buffer α} {xs : List α} {room : Nat} (h : Holds b xs room) (ys : List α) :
    copyAt (FixedBuffers.resize b.cells (b.next + ys.length)) b.next ys = some ((xs ++ ys).map some) := by
  have inside := b.inside
  have size : (FixedBuffers.resize b.cells (b.next + ys.length)).length = b.next + ys.length := by
    simp only [FixedBuffers.resize, List.length_append, List.length_take, List.length_replicate]
    omega
  have front : (FixedBuffers.resize b.cells (b.next + ys.length)).take b.next = xs.map some := by
    have short : b.next ≤ (b.cells.take (b.next + ys.length)).length := by rw [List.length_take]; omega
    rw [FixedBuffers.resize, List.take_append_of_le_length short, List.take_take, Nat.min_eq_left (by omega), h.take]
  have back : (FixedBuffers.resize b.cells (b.next + ys.length)).drop (b.next + ys.length) = [] :=
    List.drop_eq_nil_of_le (Nat.le_of_eq size)
  rw [copyAt, if_pos (by omega), front, back, List.append_nil, List.map_append]

theorem contents_map_some (xs : List α) : contents (xs.map some) = some xs := by
  induction xs with
  | nil => rfl
  | cons x xs ih =>
    unfold contents at ih ⊢
    simp [ih]

end FixedBuffers
