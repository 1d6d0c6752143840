import Bjoern.Common

namespace Bjoern

/-- `enum http_method`, as far as it is looked at: `other` carries its `http_method_str`. -/
inductive HttpMethod
  | get
  | other (str : Bytes)
  deriving DecidableEq

/-- What the code reads of `http_parser`; `keepAlive` is the answer of `http_should_keep_alive`. -/
structure HttpParser where
  httpMajor : Nat
  httpMinor : Nat
  method : HttpMethod
  contentLength : Nat
  keepAlive : Bool
  deriving DecidableEq

/-- `bj_parser` -/
structure BjParser where
  parser : HttpParser
  field : Option Bytes
  lastCallWasHeaderValue : Bool
  invalidHeader : Bool

/-- `request_state` -/
structure RequestState where
  errorCode : Option HttpStatus
  parseFinished : Bool
  startResponseCalled : Bool
  wsgiCallDone : Bool
  keepAlive : Bool
  responseLengthUnknown : Bool
  chunkedResponse : Bool
  expectContinue : Bool
  deriving DecidableEq

/-- `request->headers` holds the environ while the request is read and the header list of
`start_response` from the call of the application on. -/
inductive Headers
  | null
  | environ (d : Environ)
  | response (fields : List (Bytes × Bytes))

/-- `request->current_chunk`. After `Py_XDECREF` without clearing, the pointer is `released`. -/
inductive ChunkRef
  | null
  | owned (data : Bytes)
  | released
  deriving DecidableEq

/-- Which callback `ev_watcher` is started with; `closed` once the socket is closed. -/
inductive Watcher
  | reading
  | writing
  | closed
  deriving DecidableEq

structure Request where
  parser : BjParser
  evWatcher : Watcher
  clientAddr : Bytes
  state : RequestState
  status : Option Bytes
  headers : Headers
  currentChunk : ChunkRef
  currentChunkP : Int
  iterable : Option PyValue
  iterator : Option PyIter

/-- `Request_reset` -/
def requestReset (r : Request) : Request :=
  { r with
    state := ⟨none, false, false, false, false, true, false, false⟩
    status := none
    headers := .null
    currentChunk := .null
    currentChunkP := 0
    iterable := none
    iterator := none
    parser := { r.parser with lastCallWasHeaderValue := true, invalidHeader := false, field := none } }

/-- `Request_new`, with the parser as `http_parser_init` leaves it. -/
def requestNew (clientAddr : Bytes) (parser : HttpParser) : Request :=
  requestReset
    { parser := ⟨parser, none, false, false⟩
      evWatcher := .reading
      clientAddr := clientAddr
      state := ⟨none, false, false, false, false, false, false, false⟩
      status := none
      headers := .null
      currentChunk := .null
      currentChunkP := 0
      iterable := none
      iterator := none }

end Bjoern
