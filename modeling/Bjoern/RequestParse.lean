import Bjoern.Request

namespace Bjoern

/-- The callbacks of `parser_settings`, with the data they are handed. -/
inductive Callback
  | messageBegin
  | path (data : Bytes)
  | queryString (data : Bytes)
  | headerField (data : Bytes)
  | headerValue (data : Bytes)
  | body (data : Bytes)
  | messageComplete
  deriving DecidableEq

/-- What one `http_parser_execute` does with a buffer: the callbacks it fires in order, each with the
parser as the callback finds it, the parser afterwards, and whether all bytes were accepted. -/
structure ReadData where
  fired : List (HttpParser × Callback)
  parser : HttpParser
  consumed : Bool

/-- A change of the dictionary. What the callbacks do where there is none is added in `Conn.runCallback`. -/
def Headers.modify (f : Environ → Environ) : Headers → Headers
  | .environ d => .environ (f d)
  | headers => headers

/-- `PyDict_GetItem`, which finds nothing in a list. -/
def Headers.getItem (k : Bytes) : Headers → Option EnvVal
  | .environ d => d k
  | _ => none

/-- `_set_or_append_header` -/
def setOrAppendHeader (k val : Bytes) (d : Environ) : Environ :=
  match d k with
  | some (.str old) => d.setItem k (.str (old ++ val))
  | _ => d.setItem k (.str val)

/-- `PyDict_ReplaceKey` -/
def replaceKey (oldKey newKey : Bytes) (d : Environ) : Environ :=
  match d oldKey with
  | some value => (d.delItem oldKey).setItem newKey value
  | none => d

/-- The callbacks return whether they returned 0. -/
def onMessageBegin (r : Request) : Request × Bool :=
  ({ r with headers := .environ .empty }, true)

def onPath (r : Request) (path : Bytes) : Request × Bool :=
  match unquoteUrlInplace path path.length with
  | some (buf, len) =>
    if len = 0 then (r, false)
    else ({ r with headers := r.headers.modify (setOrAppendHeader (ascii "PATH_INFO") (buf.take len)) }, true)
  | none => (r, false)

def onQueryString (r : Request) (query : Bytes) : Request × Bool :=
  ({ r with headers := r.headers.modify (setOrAppendHeader (ascii "QUERY_STRING") query) }, true)

/-- One byte of the loop of `on_header_field`, for a byte other than `_`. -/
def processFieldByte (c : UInt8) : UInt8 :=
  if c = charByte '-' then charByte '_'
  else if charByte 'a' ≤ c ∧ c ≤ charByte 'z' then c - (charByte 'a' - charByte 'A')
  else c

def startHeader (p : BjParser) : BjParser :=
  if p.lastCallWasHeaderValue then
    { p with field := some (ascii "HTTP_"), lastCallWasHeaderValue := false, invalidHeader := false }
  else p

def onHeaderField (r : Request) (field : Bytes) : Request × Bool :=
  let p := startHeader r.parser
  if p.invalidHeader then ({ r with parser := p }, true)
  else if charByte '_' ∈ field then ({ r with parser := { p with invalidHeader := true } }, true)
  else ({ r with parser := { p with field := p.field.map (· ++ field.map processFieldByte) } }, true)

/-- Whether the value of an `Expect` header is looked at in this call of `on_header_value`. -/
def checksExpectation (r : Request) (parser : HttpParser) : Bool :=
  !r.parser.invalidHeader && !(r.state.expectContinue || r.state.errorCode.isSome) &&
    decide (parser.httpMajor > 0 ∧ parser.httpMinor > 0) &&
    r.parser.field == some (ascii "HTTP_EXPECT")

def meetsExpectation (value : Bytes) : Bool :=
  strncmpEq value (ascii "100-continue") value.length

def onHeaderValue (r : Request) (parser : HttpParser) (value : Bytes) : Request × Bool :=
  let set : Request :=
    { r with
      parser := { r.parser with lastCallWasHeaderValue := true }
      headers :=
        match r.parser.invalidHeader, r.parser.field with
        | false, some field => r.headers.modify (setOrAppendHeader field value)
        | _, _ => r.headers }
  if checksExpectation r parser then
    if meetsExpectation value then ({ set with state.expectContinue := true }, true)
    else ({ set with state.errorCode := some .expectationFailed }, true)
  else (set, true)

def bodyWrite (data : Bytes) (d : Environ) : Environ :=
  match d (ascii "wsgi.input") with
  | some (.bytesIo content position) =>
    d.setItem (ascii "wsgi.input") (bytesIoWrite content position data)
  | _ => d.setItem (ascii "wsgi.input") (bytesIoWrite [] 0 data)

def onBody (r : Request) (parser : HttpParser) (data : Bytes) : Request × Bool :=
  let r := { r with state.expectContinue := false }
  if (r.headers.getItem (ascii "wsgi.input")).isNone && parser.contentLength == 0 then
    ({ r with state.errorCode := some .lengthRequired }, false)
  else ({ r with headers := r.headers.modify (bodyWrite data) }, true)

def HttpMethod.str : HttpMethod → Bytes
  | .get => ascii "GET"
  | .other str => str

/-- `seek(0)` on a body that was received, an empty `BytesIO` for a request without one. -/
def rewindInput (d : Environ) : Environ :=
  match d (ascii "wsgi.input") with
  | some (.bytesIo content _) => d.setItem (ascii "wsgi.input") (.bytesIo content 0)
  | _ => d.setItem (ascii "wsgi.input") (.bytesIo [] 0)

/-- `wsgi_base_dict`. Without a host, both server entries are empty. -/
def wsgiBaseDict (host port : Option Bytes) : Environ :=
  Environ.empty
    |>.setItem (ascii "wsgi.file_wrapper") .fileWrapperType
    |>.setItem (ascii "SCRIPT_NAME") (.str [])
    |>.setItem (ascii "wsgi.version") (.version 1 0)
    |>.setItem (ascii "wsgi.input_terminated") (.bool true)
    |>.setItem (ascii "wsgi.url_scheme") (.str (ascii "http"))
    |>.setItem (ascii "wsgi.errors") .stderr
    |>.setItem (ascii "wsgi.multithread") (.bool false)
    |>.setItem (ascii "wsgi.multiprocess") (.bool true)
    |>.setItem (ascii "wsgi.run_once") (.bool false)
    |>.setItem (ascii "SERVER_NAME") (.str (host.getD []))
    |>.setItem (ascii "SERVER_PORT") (.str (if host.isSome then port.getD [] else []))

/-- The dictionary that `on_message_complete` makes of the one the other callbacks built. -/
def finishEnviron (base : Environ) (clientAddr : Bytes) (parser : HttpParser) (d : Environ) : Environ :=
  let d := replaceKey (ascii "HTTP_CONTENT_LENGTH") (ascii "CONTENT_LENGTH") d
  let d := replaceKey (ascii "HTTP_CONTENT_TYPE") (ascii "CONTENT_TYPE") d
  let d := d.setItem (ascii "SERVER_PROTOCOL")
    (.str (if parser.httpMinor = 1 then ascii "HTTP/1.1" else ascii "HTTP/1.0"))
  let d := d.setItem (ascii "REQUEST_METHOD") (.str parser.method.str)
  let d := d.setItem (ascii "REMOTE_ADDR") (.str clientAddr)
  (rewindInput d).merge base

def onMessageComplete (base : Environ) (r : Request) (parser : HttpParser) : Request × Bool :=
  ({ r with
     headers := r.headers.modify (finishEnviron base r.clientAddr parser)
     state.parseFinished := true }, true)

def runCallback (base : Environ) (r : Request) (parser : HttpParser) : Callback → Request × Bool
  | .messageBegin => onMessageBegin r
  | .path data => onPath r data
  | .queryString data => onQueryString r data
  | .headerField data => onHeaderField r data
  | .headerValue data => onHeaderValue r parser data
  | .body data => onBody r parser data
  | .messageComplete => onMessageComplete base r parser

/-- The callbacks in order; one that does not return 0 stops the parser. -/
def runCallbacks (base : Environ) (r : Request) : List (HttpParser × Callback) → Request × Bool
  | [] => (r, true)
  | (parser, callback) :: rest =>
    match runCallback base r parser callback with
    | (r, true) => runCallbacks base r rest
    | (r, false) => (r, false)

/-- Whether a callback takes `request->headers` for a dictionary. -/
def Callback.usesHeaders (r : Request) : Callback → Bool
  | .messageBegin => false
  | .path data => (onPath r data).2
  | .headerField _ => false
  | .headerValue _ => !r.parser.invalidHeader
  | _ => true

/-- `Request_parse`: `nparsed != data_len` exactly if the input or a callback stopped the parser. -/
def requestParse (base : Environ) (r : Request) (data : ReadData) : Request :=
  let (r, completed) := runCallbacks base r data.fired
  let r := { r with parser.parser := data.parser }
  if completed && data.consumed then r
  else { r with state.errorCode := some .badRequest }

end Bjoern
