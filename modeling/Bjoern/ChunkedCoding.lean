import Mathlib.Algebra.Group.Nat.Defs
import Mathlib.Data.List.Basic

namespace ChunkedCoding

/-- The lower-case hexadecimal digits of a number, as ASCII bytes. -/
def hex (n : Nat) : List UInt8 := (Nat.toDigits 16 n).map (fun c => c.toNat.toUInt8)

def crlf : List UInt8 := [13, 10]

/-- One chunk of the chunked transfer coding: its size line, its data, the closing CRLF. -/
def chunk (data : List UInt8) : List UInt8 := hex data.length ++ crlf ++ data ++ crlf

/-- The last chunk, which has size zero and an empty trailer. -/
def terminator : List UInt8 := 48 :: (crlf ++ crlf)

def chunks (items : List (List UInt8)) : List UInt8 := items.flatMap chunk

@[simp] theorem chunks_nil : chunks [] = [] := rfl

@[simp] theorem chunks_cons (item : List UInt8) (items : List (List UInt8)) :
    chunks (item :: items) = chunk item ++ chunks items := rfl

@[simp] theorem chunks_append (items more : List (List UInt8)) :
    chunks (items ++ more) = chunks items ++ chunks more := List.flatMap_append

theorem hex_length_le {n k : Nat} (positive : 0 < k) (bound : n < 16 ^ k) : (hex n).length ≤ k := by
  simpa [hex] using (Nat.length_toDigits_le_iff (by decide) positive).mpr bound

end ChunkedCoding
