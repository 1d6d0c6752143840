import Mathlib.Data.List.Basic

namespace PercentCoding

/-- The value of a hexadecimal digit, in either case. -/
def hexValue (c : UInt8) : Option Nat :=
  if 48 ≤ c.toNat ∧ c.toNat ≤ 57 then some (c.toNat - 48)
  else if 97 ≤ c.toNat ∧ c.toNat ≤ 102 then some (c.toNat - 87)
  else if 65 ≤ c.toNat ∧ c.toNat ≤ 70 then some (c.toNat - 55)
  else none

def percent : UInt8 := 37

/-- The percent-decoding of a string, if all its escapes are whole. -/
def decode : List UInt8 → Option (List UInt8)
  | [] => some []
  | c :: rest =>
    if c = percent then
      match rest with
      | a :: b :: rest =>
        match hexValue a, hexValue b with
        | some m, some n => (decode rest).map (UInt8.ofNat (16 * m + n) :: ·)
        | _, _ => none
      | _ => none
    else (decode rest).map (c :: ·)

/-- `Encodes e s`: `e` writes every byte of `s` as itself or as an escape, and the percent sign as an escape. -/
inductive Encodes : List UInt8 → List UInt8 → Prop
  | nil : Encodes [] []
  | literal {c e s} : c ≠ percent → Encodes e s → Encodes (c :: e) (c :: s)
  | escape {a b m n e s} : hexValue a = some m → hexValue b = some n → Encodes e s →
      Encodes (percent :: a :: b :: e) (UInt8.ofNat (16 * m + n) :: s)

/-- Two hexadecimal digits come first. -/
def BeginsEscape (rest : List UInt8) : Prop :=
  ∃ a b more, rest = a :: b :: more ∧ (hexValue a).isSome ∧ (hexValue b).isSome

/-- Every percent sign is followed by two hexadecimal digits. -/
def WellFormed (e : List UInt8) : Prop := ∀ before rest, e = before ++ percent :: rest → BeginsEscape rest

/-- A percent sign that is met from the left is not followed by two hexadecimal digits. -/
def Malformed (e : List UInt8) : Prop :=
  ∃ before decoded rest, e = before ++ percent :: rest ∧ Encodes before decoded ∧ ¬ BeginsEscape rest

theorem decode_literal {c : UInt8} (literal : c ≠ percent) (rest : List UInt8) :
    decode (c :: rest) = (decode rest).map (c :: ·) := by
  rw [decode.eq_def]
  exact if_neg literal

theorem decode_escape {a b : UInt8} {m n : Nat} (ha : hexValue a = some m) (hb : hexValue b = some n)
    (rest : List UInt8) :
    decode (percent :: a :: b :: rest) = (decode rest).map (UInt8.ofNat (16 * m + n) :: ·) := by
  rw [decode.eq_def]
  simp only [if_true, ha, hb]

theorem decode_stuck {rest : List UInt8} (stuck : ¬ BeginsEscape rest) : decode (percent :: rest) = none := by
  rw [decode.eq_def]
  simp only [if_true]
  split
  next a b more =>
    split
    next m n ha hb => exact absurd ⟨a, b, more, rfl, by simp [ha], by simp [hb]⟩ stuck
    next => rfl
  next => rfl

/-- A string is read from the left: literals, whole escapes, and at last a percent sign that begins no escape. -/
theorem reading_induction {motive : List UInt8 → Prop} (nil : motive [])
    (literal : ∀ c rest, c ≠ percent → motive rest → motive (c :: rest))
    (escape : ∀ a b m n rest, hexValue a = some m → hexValue b = some n → motive rest →
      motive (percent :: a :: b :: rest))
    (stuck : ∀ rest, ¬ BeginsEscape rest → motive (percent :: rest)) : ∀ e, motive e
  | [] => nil
  | c :: rest => by
    by_cases plain : c = percent
    · subst plain
      by_cases begins : BeginsEscape rest
      · obtain ⟨a, b, more, rfl, ha, hb⟩ := begins
        obtain ⟨m, hm⟩ := Option.isSome_iff_exists.mp ha
        obtain ⟨n, hn⟩ := Option.isSome_iff_exists.mp hb
        exact escape a b m n more hm hn (reading_induction nil literal escape stuck more)
      · exact stuck rest begins
    · exact literal c rest plain (reading_induction nil literal escape stuck rest)

theorem Encodes.decode_append {e s : List UInt8} (h : Encodes e s) (rest : List UInt8) :
    decode (e ++ rest) = (decode rest).map (s ++ ·) := by
  induction h with
  | nil => simp
  | literal literal _ ih =>
    rw [List.cons_append, decode_literal literal, ih, Option.map_map]
    rfl
  | escape ha hb _ ih =>
    rw [List.cons_append, List.cons_append, List.cons_append, decode_escape ha hb, ih, Option.map_map]
    rfl

theorem Encodes.decode_eq {e s : List UInt8} (h : Encodes e s) : decode e = some s := by
  have whole := h.decode_append []
  rwa [List.append_nil, decode, Option.map_some, List.append_nil] at whole

theorem encodes_of_decode {e s : List UInt8} (h : decode e = some s) : Encodes e s := by
  induction e using reading_induction generalizing s with
  | nil =>
    cases h
    exact .nil
  | literal c rest literal ih =>
    rw [decode_literal literal] at h
    obtain ⟨t, ht, rfl⟩ := Option.map_eq_some_iff.mp h
    exact .literal literal (ih ht)
  | escape a b m n rest ha hb ih =>
    rw [decode_escape ha hb] at h
    obtain ⟨t, ht, rfl⟩ := Option.map_eq_some_iff.mp h
    exact .escape ha hb (ih ht)
  | stuck rest stuck =>
    rw [decode_stuck stuck] at h
    cases h

theorem Encodes.append {e s f t : List UInt8} (first : Encodes e s) (second : Encodes f t) :
    Encodes (e ++ f) (s ++ t) :=
  encodes_of_decode (by rw [first.decode_append, second.decode_eq, Option.map_some])

theorem decode_eq_none_iff {e : List UInt8} : decode e = none ↔ Malformed e := by
  constructor
  · intro h
    induction e using reading_induction with
    | nil => cases h
    | literal c rest literal ih =>
      rw [decode_literal literal, Option.map_eq_none_iff] at h
      obtain ⟨before, decoded, after, rfl, done, stuck⟩ := ih h
      exact ⟨c :: before, c :: decoded, after, rfl, .literal literal done, stuck⟩
    | escape a b m n rest ha hb ih =>
      rw [decode_escape ha hb, Option.map_eq_none_iff] at h
      obtain ⟨before, decoded, after, rfl, done, stuck⟩ := ih h
      exact ⟨percent :: a :: b :: before, _, after, rfl, .escape ha hb done, stuck⟩
    | stuck rest stuck => exact ⟨[], [], rest, rfl, .nil, stuck⟩
  · rintro ⟨before, decoded, rest, rfl, done, stuck⟩
    rw [done.decode_append, decode_stuck stuck]
    rfl

theorem hexValue_percent : hexValue percent = none := by decide

theorem Encodes.wellFormed {e s : List UInt8} (h : Encodes e s) : WellFormed e := by
  induction h with
  | nil =>
    intro before rest eq
    simp at eq
  | literal literal _ ih =>
    intro before rest eq
    cases before with
    | nil =>
      cases eq
      exact absurd rfl literal
    | cons c before => exact ih before rest (List.cons.inj eq).2
  | @escape a b m n e s ha hb _ ih =>
    intro before rest eq
    have digit : ∀ {c : UInt8} {k : Nat}, hexValue c = some k → c ≠ percent := by
      rintro c k value rfl
      cases hexValue_percent.symm.trans value
    match before with
    | [] =>
      cases eq
      exact ⟨a, b, e, rfl, by simp [ha], by simp [hb]⟩
    | [_] =>
      cases eq
      exact absurd rfl (digit ha)
    | [_, _] =>
      cases eq
      exact absurd rfl (digit hb)
    | _ :: _ :: _ :: before =>
      cases eq
      exact ih before rest rfl

theorem wellFormed_iff {e : List UInt8} : WellFormed e ↔ ∃ s, Encodes e s := by
  refine ⟨fun whole => ?_, fun ⟨s, h⟩ => h.wellFormed⟩
  cases h : decode e with
  | some s => exact ⟨s, encodes_of_decode h⟩
  | none =>
    obtain ⟨before, decoded, rest, eq, _, stuck⟩ := decode_eq_none_iff.mp h
    exact absurd (whole before rest eq) stuck

/-- None of the last two bytes is a percent sign: the string does not end in the middle of an escape. -/
def EndsWhole (e : List UInt8) : Prop := percent ∉ e.drop (e.length - 2)

theorem endsWhole_iff {e : List UInt8} :
    EndsWhole e ↔ ∀ before rest, e = before ++ percent :: rest → 2 ≤ rest.length := by
  constructor
  · rintro ends before rest rfl
    by_contra short
    refine ends ?_
    have inside : (before ++ percent :: rest).length - 2 ≤ before.length := by simp; omega
    rw [List.drop_append_of_le_length inside]
    simp
  · intro long member
    obtain ⟨before, rest, eq⟩ := List.append_of_mem member
    have whole := long (e.take (e.length - 2) ++ before) rest (by rw [List.append_assoc, ← eq, List.take_append_drop])
    have length := congrArg List.length eq
    simp at length
    omega

theorem WellFormed.endsWhole {e : List UInt8} (h : WellFormed e) : EndsWhole e := by
  refine endsWhole_iff.mpr fun before rest eq => ?_
  obtain ⟨a, b, more, rfl, _⟩ := h before rest eq
  simp

/-- A part of a well-formed string that does not end in the middle of an escape is well-formed. -/
theorem WellFormed.part {before part after : List UInt8} (h : WellFormed (before ++ part ++ after))
    (ends : EndsWhole (before ++ part)) : WellFormed part := by
  rintro first rest rfl
  have long := endsWhole_iff.mp ends (before ++ first) rest (by simp)
  obtain ⟨a, b, more, eq, ha, hb⟩ := h (before ++ first) (rest ++ after) (by simp)
  match rest, long with
  | _ :: _ :: rest, _ =>
    cases eq
    exact ⟨_, _, rest, rfl, ha, hb⟩

/-- No cut between two pieces falls inside an escape. -/
def CutsWhole (pieces : List (List UInt8)) : Prop :=
  ∀ before after, pieces = before ++ after → EndsWhole before.flatten

theorem encodes_flatten {pieces : List (List UInt8)} (whole : ∀ piece ∈ pieces, WellFormed piece) :
    ∃ s, Encodes pieces.flatten s := by
  induction pieces with
  | nil => exact ⟨[], .nil⟩
  | cons piece rest ih =>
    obtain ⟨s, hs⟩ := wellFormed_iff.mp (whole piece (by simp))
    obtain ⟨t, ht⟩ := ih fun piece member => whole piece (List.mem_cons_of_mem _ member)
    exact ⟨s ++ t, hs.append ht⟩

/-- The pieces of a well-formed string are well-formed if no cut falls inside an escape, and only then. -/
theorem wellFormed_pieces_iff {pieces : List (List UInt8)} (h : WellFormed pieces.flatten) :
    (∀ piece ∈ pieces, WellFormed piece) ↔ CutsWhole pieces := by
  constructor
  · rintro whole before after rfl
    obtain ⟨s, hs⟩ := encodes_flatten fun piece member => whole piece (List.mem_append_left after member)
    exact hs.wellFormed.endsWhole
  · intro cuts piece member
    obtain ⟨before, after, rfl⟩ := List.append_of_mem member
    have ends := cuts (before ++ [piece]) after (by simp)
    rw [List.flatten_append, List.flatten_singleton] at ends
    have split : WellFormed (before.flatten ++ piece ++ after.flatten) := by simpa using h
    exact split.part ends

end PercentCoding
