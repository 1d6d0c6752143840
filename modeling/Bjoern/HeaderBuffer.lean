import Bjoern.FixedBuffers
import Bjoern.WsgiAnswer

namespace Bjoern

open FixedBuffers

/-- `length_upperbound` of `wsgi_getheaders`: the sum of its declaration and then that of its first loop. The sizes
are those of objects that lie in memory together, so a `Py_ssize_t` holds their sum. -/
def lengthUpperbound (r : Request) : Nat :=
  r.headers.responseFields.foldl
    (fun n h => n + ((ascii "\r\n").length + h.1.length + (ascii ": ").length + h.2.length))
    ((ascii "HTTP/1.1 ").length + (r.status.getD []).length + (ascii "\r\nConnection: Keep-Alive").length +
      (ascii "\r\nTransfer-Encoding: chunked").length + (ascii "\r\n\r\n").length)

/-- The second loop of `wsgi_getheaders`. -/
def writeFields (buf : Buffer UInt8) : List (Bytes × Bytes) → Option (Buffer UInt8)
  | [] => some buf
  | (field, value) :: rest => do
    let buf ← buf.write (ascii "\r\n")
    let buf ← buf.write field
    let buf ← buf.write (ascii ": ")
    let buf ← buf.write value
    writeFields buf rest

/-- `wsgi_getheaders` on its buffer, one `buf_write` after the other; `*length` is the offset of `bufp` in the
result, and `none` stands for a byte written past the end. -/
def wsgiGetheadersBuffer (r : Request) : Option (Buffer UInt8) := do
  let buf : Buffer UInt8 := alloc (lengthUpperbound r)
  let buf ← buf.write (ascii "HTTP/1.1 ")
  let buf ← buf.write (r.status.getD [])
  let buf ← writeFields buf r.headers.responseFields
  let buf ←
    if r.state.keepAlive then do
      let buf ← buf.write (ascii "\r\nConnection: Keep-Alive")
      if r.state.chunkedResponse then buf.write (ascii "\r\nTransfer-Encoding: chunked") else pure buf
    else buf.write (ascii "\r\nConnection: close")
  buf.write (ascii "\r\n\r\n")

/-- The memory of `current_chunk`: the buffer resized, with the first chunk copied behind the header block. -/
def currentChunkCells (r : Request) (firstChunk : Option Bytes) : Option (Cells UInt8) := do
  let buf ← wsgiGetheadersBuffer r
  match firstChunk with
  | none => pure (resize buf.cells buf.next)
  | some chunk => copyAt (resize buf.cells (buf.next + chunk.length)) buf.next chunk

/-- `first_chunk` when it is copied: chunk-encoded where the response is chunked. -/
def framedFirstChunk (chunkedResponse : Bool) : Option Bytes → Option (Option Bytes)
  | none => some none
  | some chunk => if chunkedResponse then (wrapHttpChunkCruftAround chunk).map some else some (some chunk)

/-- The end of `wsgi_call_application` on the memory of its buffer. -/
def installBuffer (c : Conn) (firstChunk : Option Bytes) : Except Halted Conn :=
  let c := { c with toRequest := chooseFraming c.toRequest }
  let framed := framedFirstChunk c.state.chunkedResponse firstChunk
  match (framed.bind (currentChunkCells c.toRequest)).bind contents with
  | some data => .ok { c with currentChunk := .owned data, currentChunkP := 0, state.wsgiCallDone := true }
  | none => .error (.undefinedBehaviour, c)

/-- A header block: status line, the headers in order, the lines for the two flags and the empty line. -/
def headerBlock (status : Bytes) (headers : List (Bytes × Bytes)) (keepAlive chunkedResponse : Bool) : Bytes :=
  ascii "HTTP/1.1 " ++ status ++ headers.flatMap (fun h => ascii "\r\n" ++ h.1 ++ ascii ": " ++ h.2) ++
    (if keepAlive then ascii "\r\nConnection: Keep-Alive" else ascii "\r\nConnection: close") ++
    (if keepAlive ∧ chunkedResponse then ascii "\r\nTransfer-Encoding: chunked" else []) ++ ascii "\r\n\r\n"

def Request.headerBlock (r : Request) : Bytes :=
  Bjoern.headerBlock (r.status.getD []) r.headers.responseFields r.state.keepAlive r.state.chunkedResponse

theorem wsgiGetheaders_headerBlock (r : Request) : wsgiGetheaders r = r.headerBlock := by
  unfold wsgiGetheaders Request.headerBlock headerBlock
  cases r.state.keepAlive with
  | false => simp
  | true => cases r.state.chunkedResponse <;> simp

theorem writeFields_eq (buf : Buffer UInt8) (headers : List (Bytes × Bytes)) : writeFields buf headers =
    buf.write (headers.flatMap fun h => ascii "\r\n" ++ h.1 ++ ascii ": " ++ h.2) := by
  induction headers generalizing buf with
  | nil => rfl
  | cons h rest ih =>
    obtain ⟨field, value⟩ := h
    simp only [writeFields, ih, List.flatMap_cons, Buffer.write_append, Option.bind_eq_bind, Option.bind_assoc]

theorem wsgiGetheadersBuffer_eq (r : Request) :
    wsgiGetheadersBuffer r = (alloc (lengthUpperbound r) : Buffer UInt8).write r.headerBlock := by
  unfold wsgiGetheadersBuffer Request.headerBlock headerBlock
  cases r.state.keepAlive with
  | false => simp [writeFields_eq, Buffer.write_append]
  | true => cases r.state.chunkedResponse <;> simp [writeFields_eq, Buffer.write_append]

theorem lengthUpperbound_eq (r : Request) : lengthUpperbound r =
    (ascii "HTTP/1.1 ").length + (r.status.getD []).length + (ascii "\r\nConnection: Keep-Alive").length +
      (ascii "\r\nTransfer-Encoding: chunked").length + (ascii "\r\n\r\n").length +
      (r.headers.responseFields.flatMap fun h => ascii "\r\n" ++ h.1 ++ ascii ": " ++ h.2).length := by
  have loop : ∀ (headers : List (Bytes × Bytes)) (n : Nat),
      headers.foldl (fun n h => n + ((ascii "\r\n").length + h.1.length + (ascii ": ").length + h.2.length)) n =
        n + (headers.flatMap fun h => ascii "\r\n" ++ h.1 ++ ascii ": " ++ h.2).length := by
    intro headers
    induction headers with
    | nil => intro n; rfl
    | cons h rest ih =>
      intro n
      rw [List.foldl_cons, ih, List.flatMap_cons]
      simp only [List.length_append]
      omega
  exact loop _ _

/-- The first pass leaves room for every ending of the second. -/
theorem headerBlock_fits (r : Request) : r.headerBlock.length ≤ lengthUpperbound r := by
  have close : (ascii "\r\nConnection: close").length = 19 := by decide
  have keep : (ascii "\r\nConnection: Keep-Alive").length = 24 := by decide
  rw [lengthUpperbound_eq, Request.headerBlock, headerBlock]
  simp only [List.length_append]
  cases r.state.keepAlive with
  | false =>
    simp only [Bool.false_eq_true, false_and, if_false, List.length_nil]
    omega
  | true =>
    cases r.state.chunkedResponse with
    | false =>
      simp only [Bool.false_eq_true, and_false, if_true, if_false, List.length_nil]
      omega
    | true =>
      simp only [and_self, if_true]
      omega

theorem wsgiGetheadersBuffer_holds (r : Request) : ∃ buf, wsgiGetheadersBuffer r = some buf ∧
    Holds buf r.headerBlock (lengthUpperbound r - r.headerBlock.length) := by
  have fits := headerBlock_fits r
  have room : lengthUpperbound r = r.headerBlock.length + (lengthUpperbound r - r.headerBlock.length) := by omega
  have empty : Holds (alloc (lengthUpperbound r) : Buffer UInt8) []
      (r.headerBlock.length + (lengthUpperbound r - r.headerBlock.length)) := by
    rw [← room]
    exact holds_alloc _
  rw [wsgiGetheadersBuffer_eq]
  exact empty.write

theorem currentChunkCells_eq (r : Request) (firstChunk : Option Bytes) :
    currentChunkCells r firstChunk = some ((r.headerBlock ++ firstChunk.getD []).map some) := by
  obtain ⟨buf, written, holds⟩ := wsgiGetheadersBuffer_holds r
  rw [currentChunkCells, written]
  cases firstChunk with
  | none =>
    show some (resize buf.cells buf.next) = _
    rw [holds.resize, Option.getD_none, List.append_nil]
  | some chunk => exact holds.copy chunk

theorem framedFirstChunk_eq (r : Request) (firstChunk : Option Bytes) :
    ((framedFirstChunk r.state.chunkedResponse firstChunk).bind (currentChunkCells r)).bind contents =
      (encodeFirst r.state.chunkedResponse firstChunk).map (r.headerBlock ++ ·) := by
  have copied : ∀ first, (currentChunkCells r first).bind contents = some (r.headerBlock ++ first.getD []) := by
    intro first
    rw [currentChunkCells_eq, Option.bind_some, contents_map_some]
  cases firstChunk with
  | none => exact copied none
  | some chunk =>
    simp only [framedFirstChunk, encodeFirst]
    split
    next =>
      cases wrapHttpChunkCruftAround chunk with
      | none => rfl
      | some wrapped => exact copied (some wrapped)
    next => exact copied (some chunk)

/-- The memory of the buffer refines the bytes that the model of `wsgi_call_application` installs. -/
theorem installBuffer_eq (c : Conn) (firstChunk : Option Bytes) :
    installBuffer c firstChunk = installResponse c firstChunk := by
  rw [installResponse_def, installBuffer]
  dsimp only
  rw [framedFirstChunk_eq (chooseFraming c.toRequest)]
  cases encodeFirst (chooseFraming c.toRequest).state.chunkedResponse firstChunk with
  | none => rfl
  | some data =>
    rw [Option.map_some, ← wsgiGetheaders_headerBlock]
    rfl

/-- `wsgi_getheaders` stays within its buffer and fills the front of it with the header block of `r`, behind
which the first chunk then goes, whatever it is: no byte is left over or out. -/
structure WritesHeaderBlock (r : Request) (buf : Buffer UInt8) : Prop where
  returns : wsgiGetheadersBuffer r = some buf
  within : buf.next ≤ lengthUpperbound r
  length : buf.next = (headerBlock (r.status.getD []) r.headers.responseFields r.state.keepAlive
    r.state.chunkedResponse).length
  bytes : buf.cells.take buf.next = (headerBlock (r.status.getD []) r.headers.responseFields r.state.keepAlive
    r.state.chunkedResponse).map some
  currentChunk : ∀ firstChunk, currentChunkCells r firstChunk = some ((headerBlock (r.status.getD [])
    r.headers.responseFields r.state.keepAlive r.state.chunkedResponse ++ firstChunk.getD []).map some)

/-- For every status, header list and pair of flags the header serialiser does its work in the buffer that it
computed, and with it `wsgi_call_application` installs what the model says. -/
theorem header_block_written : (∀ r : Request, ∃ buf, WritesHeaderBlock r buf) ∧
    ∀ (c : Conn) (firstChunk : Option Bytes), installBuffer c firstChunk = installResponse c firstChunk := by
  refine ⟨fun r => ?_, installBuffer_eq⟩
  obtain ⟨buf, written, holds⟩ := wsgiGetheadersBuffer_holds r
  have fits := headerBlock_fits r
  have within := holds.next_le
  exact ⟨buf, written, by omega, holds.next, holds.take, currentChunkCells_eq r⟩

end Bjoern
