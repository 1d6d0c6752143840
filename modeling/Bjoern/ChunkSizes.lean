import Bjoern.ChunkDelivery
import Bjoern.ChunkDecoding

namespace Bjoern

/-- What `sprintf(buf, "%x\r\n", (unsigned int)chunklen)` prints, less the terminating NUL. -/
def chunkSizeLine (chunklen : Nat) : Bytes := ChunkedCoding.hex (chunklen % 2 ^ 32) ++ ascii "\r\n"

/-- The size of `buf` in `wrap_http_chunk_cruft_around`. -/
def chunkLineBuffer : Nat := (ascii "ffffffff").length + 2

theorem wrapHttpChunkCruftAround_eq (chunk : Bytes) : wrapHttpChunkCruftAround chunk =
    if (chunkSizeLine chunk.length).length + 1 ≤ chunkLineBuffer then
      some (chunkSizeLine chunk.length ++ chunk ++ ascii "\r\n")
    else none := rfl

/-- The size line fits, is that of the chunk, and a decoder gets the chunk back. -/
structure WrapsExactly (chunk : Bytes) : Prop where
  fits : (chunkSizeLine chunk.length).length + 1 ≤ chunkLineBuffer
  line : chunkSizeLine chunk.length = ChunkedCoding.hex chunk.length ++ ChunkedCoding.crlf
  wraps : wrapHttpChunkCruftAround chunk = some (chunkSizeLine chunk.length ++ chunk ++ ChunkedCoding.crlf)
  decodes : ∀ rest, ChunkedCoding.decodeChunk (chunkSizeLine chunk.length ++ chunk ++ ChunkedCoding.crlf ++ rest) =
    some (chunk, rest)

theorem chunkSizeLine_length (n : Nat) : (chunkSizeLine n).length = (ChunkedCoding.hex (n % 2 ^ 32)).length + 2 := by
  rw [chunkSizeLine, List.length_append, show (ascii "\r\n").length = 2 from by decide]

/-- The digits of a size that is printed in full leave room for the NUL only below `2 ^ 28`. -/
theorem WrapsExactly.small {chunk : Bytes} (h : WrapsExactly chunk) : chunk.length < 2 ^ 28 := by
  have printed : chunk.length % 2 ^ 32 = chunk.length := by
    have line := h.line
    rw [chunkSizeLine, ascii_crlf] at line
    exact ChunkedCoding.hex_injective (List.append_cancel_right line)
  have fits := h.fits
  rw [chunkSizeLine_length, printed, chunkLineBuffer, show (ascii "ffffffff").length = 8 from by decide] at fits
  have digits : (ChunkedCoding.hex chunk.length).length ≤ 7 := by omega
  exact (ChunkedCoding.hex_length_le_iff (by decide)).mp digits

theorem wrapsExactly_small {chunk : Bytes} (small : chunk.length < 2 ^ 28) : WrapsExactly chunk := by
  have printed : chunk.length % 2 ^ 32 = chunk.length := Nat.mod_eq_of_lt (by omega)
  have line : chunkSizeLine chunk.length = ChunkedCoding.hex chunk.length ++ ChunkedCoding.crlf := by
    rw [chunkSizeLine, printed, ascii_crlf]
  have digits : (ChunkedCoding.hex chunk.length).length ≤ 7 := (ChunkedCoding.hex_length_le_iff (by decide)).mpr small
  have fits : (chunkSizeLine chunk.length).length + 1 ≤ chunkLineBuffer := by
    rw [chunkSizeLine_length, printed, chunkLineBuffer, show (ascii "ffffffff").length = 8 from by decide]
    omega
  refine ⟨fits, line, ?_, ?_⟩
  · rw [wrapHttpChunkCruftAround_eq, if_pos fits, ascii_crlf]
  · intro rest
    rw [line]
    exact ChunkedCoding.decodeChunk_chunk chunk rest

/-- `wrap_http_chunk_cruft_around` wraps a chunk as it should if and only if its size has at most seven
hexadecimal digits. -/
theorem chunk_wrapped_exactly (chunk : Bytes) : WrapsExactly chunk ↔ chunk.length < 2 ^ 28 :=
  ⟨WrapsExactly.small, wrapsExactly_small⟩

/-- The NUL behind the eight digits of this size goes past the end of `buf`. -/
theorem large_chunk_overruns : ¬ WrapsExactly (List.replicate (2 ^ 28) (charByte 'a')) := by
  intro wraps
  have small := wraps.small
  rw [List.length_replicate] at small
  exact absurd small (Nat.lt_irrefl _)

end Bjoern
