import Bjoern.Python

namespace Bjoern

/-- `enum http_status` -/
inductive HttpStatus
  | badRequest
  | lengthRequired
  | expectationFailed
  | serverError
  deriving DecidableEq

def charByte (c : Char) : UInt8 := c.toNat.toUInt8

/-- `UNHEX`, with `none` for `NOHEX`. -/
def unhex (c : UInt8) : Option UInt8 :=
  if charByte '0' ≤ c ∧ c ≤ charByte '9' then some (c - charByte '0')
  else if charByte 'a' ≤ c ∧ c ≤ charByte 'f' then some (c - charByte 'a' + 10)
  else if charByte 'A' ≤ c ∧ c ≤ charByte 'F' then some (c - charByte 'A' + 10)
  else none

/-- The loop of `unquote_url_inplace`: `url` and `p` are the offsets of the two pointers into the one
buffer, `stop` that of `end`. The result is the buffer and the returned length. -/
def unquoteLoop : Nat → Bytes → Nat → Nat → Nat → Nat → Option (Bytes × Nat)
  | 0, _, _, _, _, _ => none
  | fuel + 1, buf, url, p, stop, len =>
    if url = stop then some (buf, len)
    else if buf.getD url 0 = charByte '%' then
      if stop ≤ url + 2 then some (buf, 0)
      else
        match unhex (buf.getD (url + 1) 0), unhex (buf.getD (url + 2) 0) with
        | some a, some b => unquoteLoop fuel (buf.set p (a * 16 + b)) (url + 3) (p + 1) stop (len - 2)
        | _, _ => some (buf, 0)
    else unquoteLoop fuel (buf.set p (buf.getD url 0)) (url + 1) (p + 1) stop len

def unquoteUrlInplace (url : Bytes) (len : Nat) : Option (Bytes × Nat) :=
  unquoteLoop (len + 1) url 0 0 len len

/-- `strncmp(a, b, n) == 0` up to `fold`; past its last byte a C string has its terminating NUL. -/
def strnEq (fold : UInt8 → UInt8) : Bytes → Bytes → Nat → Bool
  | _, _, 0 => true
  | a, b, n + 1 =>
    fold (a.headD 0) == fold (b.headD 0) &&
      (fold (a.headD 0) == 0 || strnEq fold a.tail b.tail n)

def asciiLower (c : UInt8) : UInt8 :=
  if charByte 'A' ≤ c ∧ c ≤ charByte 'Z' then c + 32 else c

/-- Equal up to the case of ASCII letters. -/
def SameName (a b : Bytes) : Prop := a.map asciiLower = b.map asciiLower

instance (a b : Bytes) : Decidable (SameName a b) := inferInstanceAs (Decidable (_ = _))

/-- `!strncmp(a, b, n)` -/
def strncmpEq : Bytes → Bytes → Nat → Bool := strnEq id

/-- `!strncasecmp(a, b, n)` -/
def strncasecmpEq : Bytes → Bytes → Nat → Bool := strnEq asciiLower

/-- `strncmp` over the length of its first argument takes every prefix of the second, and whatever follows a NUL
that stands where the second ends. -/
theorem strnEq_length_iff {fold : UInt8 → UInt8} (zero : ∀ c, fold c = 0 ↔ c = 0) : ∀ {a b : Bytes}, 0 ∉ b →
    (strnEq fold a b a.length = true ↔ a.map fold <+: b.map fold ∨ b.map fold ++ [0] <+: a.map fold)
  | [], b, _ => by simp [strnEq]
  | x :: a, [], _ => by
    have step : strnEq fold (x :: a) [] (x :: a).length = true ↔ fold x = 0 := by
      simp only [strnEq, List.length_cons, List.headD_cons, List.headD_nil, (zero 0).mpr rfl, Bool.and_eq_true,
        beq_iff_eq, Bool.or_eq_true]
      exact ⟨And.left, fun h => ⟨h, Or.inl h⟩⟩
    rw [step]
    simp only [List.map_cons, List.map_nil, List.nil_append, List.cons_prefix_cons, List.prefix_nil, reduceCtorEq,
      false_or, List.nil_prefix, and_true]
    exact eq_comm
  | x :: a, y :: b, noNul => by
    have first : fold y ≠ 0 := fun h => noNul (by simp [(zero y).mp h])
    have rest := strnEq_length_iff zero (a := a) (b := b) (fun h => noNul (List.mem_cons_of_mem y h))
    have step : strnEq fold (x :: a) (y :: b) (x :: a).length = true ↔
        fold x = fold y ∧ strnEq fold a b a.length = true := by
      simp only [strnEq, List.length_cons, List.headD_cons, List.tail_cons, Bool.and_eq_true, beq_iff_eq,
        Bool.or_eq_true]
      refine and_congr_right fun same => ⟨fun h => h.resolve_left (same ▸ first), Or.inr⟩
    rw [step, rest]
    simp only [List.map_cons, List.cons_append, List.cons_prefix_cons, ← and_or_left, eq_comm]

theorem asciiLower_zero (c : UInt8) : asciiLower c = 0 ↔ c = 0 := by
  unfold asciiLower
  split
  next letter =>
    have bounds : (charByte 'A').toNat = 65 ∧ (charByte 'Z').toNat = 90 := by decide
    simp only [UInt8.le_iff_toNat_le, bounds.1, bounds.2] at letter
    constructor
    · intro h
      have wrapped := congrArg UInt8.toNat h
      rw [UInt8.toNat_add] at wrapped
      simp at wrapped
      omega
    · rintro rfl
      simp at letter
  next => rfl

end Bjoern
