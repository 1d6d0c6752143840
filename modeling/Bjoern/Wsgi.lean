import Bjoern.RequestParse
import Bjoern.StartResponse
import Bjoern.ChunkedCoding

namespace Bjoern

/-- The names handed to `STATSD_INCREMENT`. -/
inductive Metric
  | connAcceptError
  | connAcceptSuccess
  | reqErrorClientDisconnected
  | reqErrorRead
  | reqErrorParse
  | reqSuccessRead
  | reqErrorInternal
  | reqActive
  | reqDone
  | reqAborted
  | respActive
  | respDone
  | respDoneKeepalive
  | respConnClose
  | respAborted
  deriving DecidableEq

/-- A call made on the response iterable or its iterator. -/
inductive IterEvent
  | next
  | close
  deriving DecidableEq

/-- A connection: its `Request`, the pending Python exception, and a record of what was done: the bytes
accepted by `write()` and `sendfile()`, the first arguments of the application's calls, the calls on
response iterables and the counted metrics. -/
structure Conn extends Request where
  pyErr : Option PyExc
  sent : Bytes
  environs : List Headers
  iterLog : List IterEvent
  metrics : List Metric

abbrev Halted := Halt × Conn

def Conn.count (c : Conn) (metric : Metric) : Conn := { c with metrics := c.metrics ++ [metric] }

/-- `PyErr_Print` -/
def pyErrPrint (c : Conn) : Except Halted Conn :=
  if c.pyErr = some .systemExit then .error (.exit, c) else .ok { c with pyErr := none }

def callStartResponses (c : Conn) (calls : List (List PyArg)) : Except Halted Conn :=
  match runStartResponses c.toRequest calls with
  | .ok r => .ok { c with toRequest := r }
  | .error halt => .error (halt, c)

/-- The loop of `wsgi_iterable_get_next_chunk` over the `__next__` calls that are left. -/
def nextChunkLoop (c : Conn) : PyIter → Except Halted (Conn × Option Bytes)
  | [] => .ok ({ c with iterator := some [], iterLog := c.iterLog ++ [.next] }, none)
  | step :: rest => do
    let c ← callStartResponses { c with iterator := some rest, iterLog := c.iterLog ++ [.next] }
      step.startResponses
    match step.result with
    | .error exc => pure ({ c with pyErr := some exc }, none)
    | .ok .stop => pure (c, none)
    | .ok .other => pure ({ c with pyErr := some .other }, none)
    | .ok (.bytes data) => if data = [] then nextChunkLoop c rest else pure (c, some data)

def wsgiIterableGetNextChunk (c : Conn) : Except Halted (Conn × Option Bytes) :=
  nextChunkLoop c (c.iterator.getD [])

/-- `wrap_http_chunk_cruft_around`, with `none` where `sprintf` writes past the end of `buf`. -/
def wrapHttpChunkCruftAround (chunk : Bytes) : Option Bytes :=
  let line := ChunkedCoding.hex (chunk.length % 2 ^ 32) ++ ascii "\r\n"
  if line.length + 1 ≤ (ascii "ffffffff").length + 2 then some (line ++ chunk ++ ascii "\r\n") else none

def Headers.responseFields : Headers → List (Bytes × Bytes)
  | .response fields => fields
  | _ => []

/-- The bytes that `wsgi_getheaders` writes into its buffer, in the order of its `buf_write`s. -/
def wsgiGetheaders (r : Request) : Bytes :=
  ascii "HTTP/1.1 " ++ r.status.getD [] ++
    r.headers.responseFields.flatMap (fun h => ascii "\r\n" ++ h.1 ++ ascii ": " ++ h.2) ++
    (if r.state.keepAlive then
      ascii "\r\nConnection: Keep-Alive" ++
        (if r.state.chunkedResponse then ascii "\r\nTransfer-Encoding: chunked" else [])
    else ascii "\r\nConnection: close") ++
    ascii "\r\n\r\n"

/-- The branches of `wsgi_call_application` on the application's return value. -/
inductive RetvalBranch
  | bytestring (data : Bytes)
  | file
  | generic

def retvalBranch (r : Request) : PyValue → RetvalBranch
  | .list [some data] _ _ => .bytestring data
  | .bytes data => .bytestring data
  | retval => if !r.state.responseLengthUnknown && retval.hasDescriptor then .file else .generic

/-- Install the return value and read a first chunk. `none` stands for a `return false`. -/
def takeRetval (c : Conn) (retval : PyValue) : Except Halted (Conn × Option (Option Bytes)) :=
  match retvalBranch c.toRequest retval with
  | .bytestring data =>
    .ok ({ c with iterable := none, iterator := none }, some (if data = [] then none else some data))
  | .file => .ok ({ c with iterable := some retval, iterator := none }, some none)
  | .generic => do
    let c ← callStartResponses { c with iterable := some retval } retval.getIter.startResponses
    match retval.getIter.result with
    | .error exc => pure ({ c with iterator := none, pyErr := some exc }, none)
    | .ok iterator =>
      let (c, firstChunk) ← wsgiIterableGetNextChunk { c with iterator := some iterator }
      if firstChunk.isNone && c.pyErr.isSome then pure (c, none) else pure (c, some firstChunk)

/-- "Special-case HTTP 204 and 304" -/
def specialCaseStatus (r : Request) : Request :=
  if (r.status.getD []).take 3 = ascii "204" ∨ (r.status.getD []).take 3 = ascii "304" then
    { r with state.responseLengthUnknown := false }
  else r

/-- "keep-alive cruft" -/
def decideKeepAlive (r : Request) : Request :=
  if r.parser.parser.keepAlive then
    if r.state.responseLengthUnknown then
      if r.parser.parser.httpMajor > 0 ∧ r.parser.parser.httpMinor > 0 then
        { r with state.chunkedResponse := true, state.keepAlive := true }
      else { r with state.keepAlive := false }
    else { r with state.keepAlive := true }
  else { r with state.keepAlive := false }

def chooseFraming (r : Request) : Request := decideKeepAlive (specialCaseStatus r)

/-- The end of `wsgi_call_application`: the header block with the first chunk becomes `current_chunk`. -/
def installResponse (c : Conn) (firstChunk : Option Bytes) : Except Halted Conn :=
  let c := { c with toRequest := chooseFraming c.toRequest }
  let install (data : Bytes) : Conn :=
    { c with currentChunk := .owned data, currentChunkP := 0, state.wsgiCallDone := true }
  match firstChunk with
  | none => .ok (install (wsgiGetheaders c.toRequest))
  | some chunk =>
    if c.state.chunkedResponse then
      match wrapHttpChunkCruftAround chunk with
      | some newChunk => .ok (install (wsgiGetheaders c.toRequest ++ newChunk))
      | none => .error (.undefinedBehaviour, c)
    else .ok (install (wsgiGetheaders c.toRequest ++ chunk))

def Headers.isNull : Headers → Bool
  | .null => true
  | _ => false

/-- `wsgi_call_application`, where `app` is what the call of the application does. -/
def wsgiCallApplication (c : Conn) (app : PyCall PyValue) : Except Halted (Conn × Bool) := do
  let c ← callStartResponses { c with headers := .null, environs := c.environs ++ [c.headers] }
    app.startResponses
  match app.result with
  | .error exc => pure ({ c with pyErr := some exc }, false)
  | .ok retval =>
    let (c, firstChunk) ← takeRetval c retval
    match firstChunk with
    | none => pure (c, false)
    | some firstChunk =>
      if c.headers.isNull then pure ({ c with pyErr := some .other }, false)
      else do
        let c ← installResponse c firstChunk
        pure (c, true)

end Bjoern
