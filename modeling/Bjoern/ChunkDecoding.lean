import Bjoern.ChunkedCoding
import Bjoern.PercentCoding

namespace ChunkedCoding

open PercentCoding

/-- Read a size line: the digits go behind those read so far, which have the value `n`. -/
def readSize : Nat → List UInt8 → Option (Nat × List UInt8)
  | _, [] => none
  | n, c :: rest =>
    match hexValue c with
    | some d => readSize (16 * n + d) rest
    | none => if crlf <+: c :: rest then some (n, rest.tail) else none

/-- The data of the first chunk of a body, and what follows the chunk. -/
def decodeChunk (body : List UInt8) : Option (List UInt8 × List UInt8) :=
  if (body.head?.bind hexValue).isSome then
    match readSize 0 body with
    | some (n, rest) => if n ≤ rest.length ∧ crlf <+: rest.drop n then some (rest.take n, rest.drop (n + 2)) else none
    | none => none
  else none

/-- One digit of `hex`. -/
def digit (d : Nat) : UInt8 := d.digitChar.toNat.toUInt8

theorem hexValue_digit : ∀ d < 16, hexValue (digit d) = some d := by decide

theorem hex_eq (n : Nat) : hex n = if n < 16 then [digit n] else hex (n / 16) ++ [digit (n % 16)] := by
  unfold hex
  rw [Nat.toDigits_eq_if (by decide)]
  split
  next => rfl
  next => rw [List.map_append]; rfl

theorem readSize_digit {d : Nat} (small : d < 16) (n : Nat) (rest : List UInt8) :
    readSize n (digit d :: rest) = readSize (16 * n + d) rest := by
  rw [readSize, hexValue_digit d small]

theorem readSize_hex (n : Nat) : ∀ rest, readSize 0 (hex n ++ rest) = readSize n rest := by
  induction n using Nat.strongRecOn with
  | _ n ih =>
    intro rest
    rw [hex_eq]
    split
    next small => rw [List.singleton_append, readSize_digit small, Nat.mul_zero, Nat.zero_add]
    next large =>
      have split : 16 * (n / 16) + n % 16 = n := Nat.div_add_mod n 16
      rw [List.append_assoc, ih (n / 16) (by omega), List.singleton_append,
        readSize_digit (Nat.mod_lt n (by decide)), split]

theorem readSize_crlf (n : Nat) (rest : List UInt8) : readSize n (crlf ++ rest) = some (n, rest) := by
  rw [crlf, List.cons_append, readSize, show hexValue 13 = none by decide]
  exact if_pos (List.prefix_append crlf rest)

/-- The first byte of a size line is a digit. -/
theorem hex_head (n : Nat) : ∀ rest, ((hex n ++ rest).head?.bind hexValue).isSome := by
  induction n using Nat.strongRecOn with
  | _ n ih =>
    intro rest
    rw [hex_eq]
    split
    next small => simp [hexValue_digit n small]
    next large =>
      rw [List.append_assoc]
      exact ih (n / 16) (by omega) _

/-- A decoder gets the data of a chunk back. -/
theorem decodeChunk_chunk (data rest : List UInt8) : decodeChunk (chunk data ++ rest) = some (data, rest) := by
  have shape : chunk data ++ rest = hex data.length ++ (crlf ++ (data ++ (crlf ++ rest))) := by simp [chunk]
  have framed : data.length ≤ (data ++ (crlf ++ rest)).length ∧ crlf <+: (data ++ (crlf ++ rest)).drop data.length := by
    simp
  have behind : (data ++ (crlf ++ rest)).drop (data.length + 2) = rest := by
    rw [← List.drop_drop, List.drop_left]
    rfl
  rw [shape, decodeChunk, if_pos (hex_head _ _), readSize_hex, readSize_crlf]
  dsimp only
  rw [if_pos framed, List.take_left, behind]

/-- The size line of a number has at most `k` digits if and only if the number is below `16 ^ k`. -/
theorem hex_length_le_iff {n k : Nat} (positive : 0 < k) : (hex n).length ≤ k ↔ n < 16 ^ k := by
  rw [hex, List.length_map]
  exact Nat.length_toDigits_le_iff (by decide) positive

/-- Different numbers have different digits. -/
theorem hex_injective {n m : Nat} (h : hex n = hex m) : n = m := by
  have left := readSize_hex n (crlf ++ [])
  rw [h, readSize_hex, readSize_crlf, readSize_crlf] at left
  cases left
  rfl

end ChunkedCoding
