import Bjoern.HttpReading

namespace StatsdReading

open HttpReading

section

variable {α : Type} [DecidableEq α]

/-- The parts of a list before and behind the first `sep`. -/
def cutAt (sep : α) : List α → Option (List α × List α)
  | [] => none
  | c :: rest => if c = sep then some ([], rest) else (cutAt sep rest).map fun parts => (c :: parts.1, parts.2)

theorem cutAt_first {sep : α} {s a rest : List α} (h : cutAt sep s = some (a, rest)) : sep ∉ a := by
  induction s generalizing a with
  | nil => cases h
  | cons c s ih =>
    rw [cutAt] at h
    split at h
    next =>
      cases h
      exact List.not_mem_nil
    next other =>
      obtain ⟨parts, later, eq⟩ := Option.map_eq_some_iff.mp h
      cases eq
      exact List.not_mem_cons_of_ne_of_not_mem (Ne.symm other) (ih later)

/-- The separator behind `a` is found in the first `n` elements if it is among them. -/
theorem cutAt_take {sep : α} {a : List α} (plain : sep ∉ a) (rest : List α) (n : Nat) :
    cutAt sep ((a ++ sep :: rest).take n) =
      if a.length < n then some (a, rest.take (n - (a.length + 1))) else none := by
  induction a generalizing n with
  | nil =>
    cases n with
    | zero => rfl
    | succ n => simp [cutAt]
  | cons c a ih =>
    have other : c ≠ sep := fun same => plain (same ▸ List.mem_cons_self)
    have plain : sep ∉ a := fun member => plain (List.mem_cons_of_mem c member)
    cases n with
    | zero => rfl
    | succ n =>
      rw [List.cons_append, List.take_succ_cons, cutAt, if_neg other, ih plain]
      simp only [List.length_cons, Nat.add_lt_add_iff_right, Nat.add_sub_add_right]
      split <;> rfl

end

/-- One sample `name:value|type`, in front of further fields. -/
structure Sample where
  name : List UInt8
  value : List UInt8
  type : List UInt8
  deriving DecidableEq

def colon : UInt8 := 58

def bar : UInt8 := 124

/-- The type `c` of an increment. -/
def counted : List UInt8 := [99]

def readSample (datagram : List UInt8) : Option Sample :=
  (cutAt colon datagram).bind fun named => (cutAt bar named.2).map fun valued =>
    ⟨named.1, valued.1, valued.2.takeWhile (· ≠ bar)⟩

theorem readSample_name {datagram : List UInt8} {sample : Sample} (h : readSample datagram = some sample) :
    colon ∉ sample.name := by
  obtain ⟨named, found, h⟩ := Option.bind_eq_some_iff.mp h
  obtain ⟨valued, _, rfl⟩ := Option.map_eq_some_iff.mp h
  exact cutAt_first found

/-- What a datagram adds to the counter `name`. -/
def increment (name datagram : List UInt8) : Nat :=
  match readSample datagram with
  | none => 0
  | some sample => if sample.name = name ∧ sample.type = counted then (decimal sample.value).getD 0 else 0

/-- What the counter `name` has come to. -/
def counter (name : List UInt8) : List (List UInt8) → Nat
  | [] => 0
  | datagram :: rest => increment name datagram + counter name rest

/-- A name with a colon is no name of a sample. -/
theorem increment_colon {name : List UInt8} (inside : colon ∈ name) (datagram : List UInt8) :
    increment name datagram = 0 := by
  unfold increment
  split
  next => rfl
  next sample read =>
    have other : sample.name ≠ name := fun same => readSample_name read (same ▸ inside)
    exact if_neg fun h => other h.1

/-- The text of an increment by one, with what follows its type. -/
def written (name fields : List UInt8) : List UInt8 := name ++ colon :: ([49] ++ bar :: (counted ++ bar :: fields))

/-- What is read of the first `n` bytes of the text. -/
theorem readSample_written {own : List UInt8} (plain : colon ∉ own) (fields : List UInt8) (n : Nat) :
    readSample ((written own fields).take n) =
      if own.length + 3 ≤ n then some ⟨own, [49], if own.length + 4 ≤ n then counted else []⟩ else none := by
  have one : bar ∉ [(49 : UInt8)] := by decide
  rw [readSample, written, cutAt_take plain]
  by_cases named : own.length < n
  · rw [if_pos named, Option.bind_some, cutAt_take one]
    by_cases valued : own.length + 3 ≤ n
    · obtain ⟨k, rfl⟩ := Nat.exists_eq_add_of_le valued
      have rest : own.length + 3 + k - (own.length + 1) - ([(49 : UInt8)].length + 1) = k := by simp; omega
      rw [if_pos valued, if_pos (by simp; omega), rest]
      cases k with
      | zero => simp
      | succ k =>
        rw [if_pos (by omega)]
        cases k <;> simp [counted, bar]
    · rw [if_neg valued, if_neg (by simp; omega)]
      rfl
  · rw [if_neg named, if_neg (by omega)]
    rfl

/-- An increment counts if at least its type is left of the text. -/
theorem increment_written {name own : List UInt8} (plain : colon ∉ own) (fields : List UInt8) (n : Nat) :
    increment name ((written own fields).take n) = if own = name ∧ own.length + 4 ≤ n then 1 else 0 := by
  have one : (decimal [49]).getD 0 = 1 := by decide
  rw [increment, readSample_written plain]
  by_cases typed : own.length + 4 ≤ n
  · have valued : own.length + 3 ≤ n := by omega
    simp [typed, valued, one]
  · by_cases valued : own.length + 3 ≤ n
    · simp [typed, valued, counted]
    · simp [typed, valued]

end StatsdReading
