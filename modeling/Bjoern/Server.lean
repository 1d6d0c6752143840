import Bjoern.Wsgi
import Bjoern.Runs

namespace Bjoern

/-- `http_error_messages` -/
def httpErrorMessages : HttpStatus → Bytes
  | .badRequest => ascii "HTTP/1.1 400 Bad Request\r\n\r\n"
  | .lengthRequired => ascii "HTTP/1.1 406 Length Required\r\n\r\n"
  | .expectationFailed => ascii "HTTP/1.1 417 Expectation Failed\r\n\r\n"
  | .serverError => ascii "HTTP/1.1 500 Internal Server Error\r\n\r\n"

/-- `CONTINUE` -/
def continueMessage : Bytes := ascii "HTTP/1.1 100 Continue\r\n\r\n"

/-- `enum _rw_state` -/
inductive RwState
  | notYetDone
  | done
  | aborted
  | expectContinue
  deriving DecidableEq

inductive Errno
  | eagain
  | ewouldblock
  | other
  deriving DecidableEq

/-- What a `write()` or `sendfile()` meets: room for `n` bytes, of which it takes at most those it is
offered, or an error. -/
inductive IoResult
  | room (n : Nat)
  | errno (e : Errno)
  deriving DecidableEq

/-- One `EV_WRITE` event: the result of its system call, what `lseek(fd, 0, SEEK_CUR)` would return,
and the memory that follows the chunk, which a `write()` past its end would send. -/
structure WriteEvent where
  result : IoResult
  lseek : Int
  stray : Bytes
  deriving DecidableEq

inductive ReadResult
  | bytes (data : ReadData)
  | eof
  | errno (e : Errno)

/-- One `EV_READ` event: the result of `read()`, and what the application does if it gets called. -/
structure ReadEvent where
  result : ReadResult
  app : PyCall PyValue

inductive Event
  | read (e : ReadEvent)
  | write (e : WriteEvent)

def startReading (c : Conn) : Conn := { c with evWatcher := .reading }

def startWriting (c : Conn) : Conn := { c with evWatcher := .writing }

/-- `Request_clean`. The references it gives up are not used again before `Request_reset`. -/
def requestClean (c : Conn) : Except Halted Conn :=
  match c.iterable.map PyValue.closeMethod with
  | none => .ok c
  | some .absent => .ok { c with pyErr := none }
  | some (.lookupRaises exc) => pyErrPrint { c with pyErr := some exc }
  | some .returns =>
    let c := { c with iterLog := c.iterLog ++ [.close] }
    if c.pyErr.isSome then pyErrPrint c else .ok c
  | some (.raises exc) => pyErrPrint { c with iterLog := c.iterLog ++ [.close], pyErr := some exc }

/-- `close_connection`: the watcher is stopped and the socket closed before `Request_free`. -/
def closeConnection (c : Conn) : Except Halted Conn :=
  requestClean { c with evWatcher := .closed }

def Errno.tryAgain : Errno → Bool
  | .other => false
  | _ => true

/-- `Py_XDECREF` of a pointer that keeps its value. -/
def ChunkRef.release : ChunkRef → ChunkRef
  | .null => .null
  | _ => .released

def handleNonzeroErrno (c : Conn) (e : Errno) : Conn × Bool :=
  if e.tryAgain then (c, true)
  else ({ c with currentChunk := c.currentChunk.release, iterator := none, state.keepAlive := false }, false)

/-- The third argument of `write()`, which becomes a `size_t`. -/
def offered (data : Bytes) (p : Int) : Nat :=
  if p ≤ data.length then (data.length - p).toNat else (2 ^ 64 - (p - data.length)).toNat

/-- The bytes that `write()` finds at its second argument. -/
def bytesAt (data : Bytes) (p : Int) (stray : Bytes) : Bytes :=
  if 0 ≤ p ∧ p ≤ data.length then data.drop p.toNat else stray

def doSendChunk (c : Conn) (w : WriteEvent) : Except Halted (Conn × Bool) :=
  match c.currentChunk with
  | .owned data =>
    match w.result with
    | .errno e => .ok (handleNonzeroErrno c e)
    | .room n =>
      let bytesSent := min n (offered data c.currentChunkP)
      let c := { c with
        sent := c.sent ++ (bytesAt data c.currentChunkP w.stray).take bytesSent
        currentChunkP := c.currentChunkP + bytesSent }
      if c.currentChunkP = (data.length : Int) then
        .ok ({ c with currentChunk := .null, currentChunkP := 0 }, false)
      else .ok (c, true)
  | _ => .error (.undefinedBehaviour, c)

def sendfileChunkSize : Nat := 16 * 1024

/-- `do_sendfile` from the file `content`; `portable_sendfile` returns 0 at the end of the file. -/
def doSendfile (c : Conn) (content : Bytes) (w : WriteEvent) : Conn × Bool :=
  match w.result with
  | .errno e => handleNonzeroErrno c e
  | .room n =>
    let bytesSent := min n (min sendfileChunkSize (content.length - c.currentChunkP.toNat))
    if bytesSent = 0 then (c, false)
    else ({ c with
      sent := c.sent ++ (content.drop c.currentChunkP.toNat).take bytesSent
      currentChunkP := c.currentChunkP + bytesSent }, true)

def onWriteSendfile (c : Conn) (content : Bytes) (w : WriteEvent) : Except Halted (Conn × RwState) :=
  if c.currentChunk ≠ .null then do
    let (c, left) ← doSendChunk c w
    if left then pure (c, .notYetDone)
    else
      let c := { c with currentChunkP := w.lseek }
      if c.currentChunkP = -1 then pure (c, .aborted) else pure (c, .notYetDone)
  else
    let (c, left) := doSendfile c content w
    .ok (c, if left then .notYetDone else .done)

/-- The label `send_terminator_chunk`. -/
def sendTerminatorChunk (c : Conn) : Conn × RwState :=
  if c.state.chunkedResponse then
    ({ c with currentChunk := .owned (ascii "0\r\n\r\n"), state.chunkedResponse := false }, .notYetDone)
  else (c, .done)

def onWriteChunk (c : Conn) (w : WriteEvent) : Except Halted (Conn × RwState) := do
  let (c, left) ← doSendChunk c w
  if left then pure (c, .notYetDone)
  else if c.iterator.isSome then do
    let (c, nextChunk) ← wsgiIterableGetNextChunk c
    match nextChunk with
    | some chunk =>
      if c.state.chunkedResponse then
        match wrapHttpChunkCruftAround chunk with
        | some wrapped => pure ({ c with currentChunk := .owned wrapped }, .notYetDone)
        | none => .error (.undefinedBehaviour, c)
      else pure ({ c with currentChunk := .owned chunk }, .notYetDone)
    | none =>
      if c.pyErr.isSome then do
        let c ← pyErrPrint c
        pure (c, .aborted)
      else pure (sendTerminatorChunk { c with iterator := none })
  else pure (sendTerminatorChunk c)

/-- The dispatch at the top of `ev_io_on_write`. -/
def writeResponse (c : Conn) (w : WriteEvent) : Except Halted (Conn × RwState) :=
  match c.iterable with
  | some (.fileWrapper wrapper) =>
    if wrapper.fd ≠ -1 then onWriteSendfile c wrapper.content w else onWriteChunk c w
  | _ => onWriteChunk c w

def finishWrite (c : Conn) : RwState → Except Halted Conn
  | .notYetDone => .ok (c.count .respActive)
  | .done =>
    let c := c.count .respDone
    if c.state.keepAlive then do
      let c ← requestClean (c.count .respDoneKeepalive)
      pure (startReading { c with toRequest := requestReset c.toRequest })
    else closeConnection (c.count .respConnClose)
  | .expectContinue => .ok (startReading { c with state.expectContinue := false })
  | .aborted => do
    let c ← closeConnection c
    pure (c.count .respAborted)

def evIoOnWrite (c : Conn) (w : WriteEvent) : Except Halted Conn := do
  let (c, writeState) ← writeResponse c w
  finishWrite c (if c.state.expectContinue then .expectContinue else writeState)

def Headers.isEnviron : Headers → Bool
  | .environ _ => true
  | _ => false

/-- How a callback ends whose `headers` need not be a dictionary. -/
inductive CallbackEnd
  | returns
  | crashes
  | noBuffer
  | systemError

/-- `PyDict_GetItem` of `NULL` crashes. Of the list of a response it returns `NULL`, and `PyDict_SetItem` leaves a
`SystemError` pending. A call of Python code with an exception pending returns `NULL`. -/
def Conn.callbackEnd (c : Conn) (callback : Callback) (completed : Bool) : CallbackEnd :=
  if !callback.usesHeaders c.toRequest then .returns
  else
    match c.headers, callback with
    | .null, _ => .crashes
    | headers, .body _ =>
      if !completed || headers.isEnviron && c.pyErr.isNone then .returns
      -- `BytesIO()` fails
      else if c.pyErr.isSome && (headers.getItem (ascii "wsgi.input")).isNone then .noBuffer
      -- `write()` fails, or the `BytesIO` is freed because the list does not take it
      else .crashes
    | headers, .messageComplete =>
      -- `seek()` or `BytesIO()` fails, and its result is released
      if headers.isEnviron && c.pyErr.isNone then .returns else .crashes
    | .environ _, _ => .returns
    | .response _, _ => .systemError

/-- A callback on a connection. -/
def Conn.runCallback (base : Environ) (c : Conn) (parser : HttpParser) (callback : Callback) :
    Except Halted (Conn × Bool) :=
  let (r, completed) := Bjoern.runCallback base c.toRequest parser callback
  match c.callbackEnd callback completed with
  | .returns => .ok ({ c with toRequest := r }, completed)
  | .crashes => .error (.undefinedBehaviour, c)
  | .noBuffer => .ok ({ c with state.expectContinue := false }, false)
  | .systemError => .ok ({ c with toRequest := r, pyErr := some .other }, completed)

def Conn.runCallbacks (base : Environ) (c : Conn) : List (HttpParser × Callback) → Except Halted (Conn × Bool)
  | [] => .ok (c, true)
  | (parser, callback) :: rest => do
    let (c, completed) ← c.runCallback base parser callback
    if completed then c.runCallbacks base rest else pure (c, false)

/-- `Request_parse` on a connection. -/
def Conn.requestParse (base : Environ) (c : Conn) (data : ReadData) : Except Halted Conn := do
  let (c, completed) ← c.runCallbacks base data.fired
  let c := { c with parser.parser := data.parser }
  if completed && data.consumed then pure c
  else pure { c with state.errorCode := some .badRequest }

/-- The branch of `ev_io_on_read` for a request that was read and parsed completely. Where there is no environ,
`wsgi_call_application` calls the application without arguments and releases `NULL`. -/
def respond (c : Conn) (app : PyCall PyValue) : Except Halted Conn :=
  if c.headers.isNull then .error (.undefinedBehaviour, c)
  else do
    let (c, answered) ← wsgiCallApplication (c.count .reqSuccessRead) app
    if answered then pure c
    else do
      let c ← pyErrPrint c
      pure ({ c with iterator := none
                     currentChunk := .owned (httpErrorMessages .serverError) }.count .reqErrorInternal)

/-- The branch of `ev_io_on_read` after a successful `read()`. -/
def parseBytes (base : Environ) (c : Conn) (data : ReadData) (app : PyCall PyValue) :
    Except Halted (Conn × RwState) := do
  let c ← c.requestParse base data
  match c.state.errorCode with
  | some code =>
    pure ({ c.count .reqErrorParse with currentChunk := .owned (httpErrorMessages code) }, .done)
  | none =>
    if c.state.parseFinished then do
      let c ← respond c app
      pure (c, .done)
    else if c.state.expectContinue then pure (c, .expectContinue)
    else pure (c, .notYetDone)

def readRequest (base : Environ) (c : Conn) (e : ReadEvent) : Except Halted (Conn × RwState) :=
  match e.result with
  | .eof => .ok (c.count .reqErrorClientDisconnected, .aborted)
  | .errno errno =>
    if errno.tryAgain then .ok (c, .notYetDone) else .ok (c.count .reqErrorRead, .aborted)
  | .bytes data => parseBytes base c data e.app

def finishRead (c : Conn) : RwState → Except Halted Conn
  | .notYetDone => .ok (c.count .reqActive)
  | .expectContinue => .ok (startWriting { c with currentChunk := .owned continueMessage })
  | .done => .ok ((startWriting c).count .reqDone)
  | .aborted => do
    let c ← closeConnection c
    pure (c.count .reqAborted)

def evIoOnRead (base : Environ) (c : Conn) (e : ReadEvent) : Except Halted Conn := do
  let (c, readState) ← readRequest base c e
  finishRead c readState

/-- The callback that libev invokes for an event on this connection. -/
def handle (base : Environ) (c : Conn) : Event → Except Halted Conn
  | .read e => evIoOnRead base c e
  | .write e => evIoOnWrite c e

/-- Events come only to the watcher that is started. -/
def enabled (c : Conn) : Event → Prop
  | .read _ => c.evWatcher = .reading
  | .write _ => c.evWatcher = .writing

def Step (base : Environ) (c : Conn) (e : Event) (c' : Conn) : Prop :=
  enabled c e ∧ handle base c e = .ok c'

/-- The connection as `ev_io_on_request` leaves it. -/
def evIoOnRequest (clientAddr : Bytes) (parser : HttpParser) : Conn :=
  { toRequest := requestNew clientAddr parser
    pyErr := none
    sent := []
    environs := []
    iterLog := []
    metrics := [.connAcceptSuccess] }

end Bjoern
