import Bjoern.Request

namespace Bjoern

/-- Why control does not come back from a call: `PyErr_Print` of a `SystemExit` ends the process, and
a `NULL` or released object or an overrun array leaves the program without meaning. -/
inductive Halt
  | exit
  | undefinedBehaviour
  deriving DecidableEq

/-- `PyTuple_Check(tuple) && PyTuple_GET_SIZE(tuple) == 2` -/
def isPair : PyArg → Bool
  | .tuple [_, _] => true
  | _ => false

def cleanPair : PyArg → Option (Bytes × Bytes)
  | .tuple [field, value] => do
    let bytesField ← asLatin1String field
    let bytesValue ← asLatin1String value
    pure (bytesField, bytesValue)
  | _ => none

def isContentLength (field : Bytes) : Bool :=
  strncasecmpEq field (ascii "Content-Length") field.length

/-- `clean_headers`: the copied list and `*found_content_length`. -/
def cleanHeaders : PyArg → Option (List (Bytes × Bytes) × Bool)
  | .list items =>
    if items.all isPair then do
      let fields ← items.mapM cleanPair
      pure (fields, fields.any (isContentLength ·.1))
    else none
  | _ => none

/-- A call after a successful one throws the previous status and headers away. -/
def clearResponse (r : Request) : Request :=
  if r.state.startResponseCalled then
    { r with status := none, headers := .null, state.responseLengthUnknown := true }
  else r

/-- The end of `start_response`, after the checks on `exc_info`. -/
def setResponse (r : Request) (status headers : PyArg) : Request × Bool :=
  match asLatin1String status with
  | none => ({ r with status := none }, false)
  | some bytes =>
    if bytes.length < 3 then ({ r with status := none }, false)
    else
      match cleanHeaders headers with
      | none => ({ r with status := some bytes, headers := .null }, false)
      | some (fields, foundContentLength) =>
        ({ r with
           status := some bytes
           headers := .response fields
           state.responseLengthUnknown := !foundContentLength
           state.startResponseCalled := true }, true)

/-- `start_response`; the result tells whether it returned `None` rather than `NULL`. -/
def startResponse (r : Request) (args : List PyArg) : Except Halt (Request × Bool) :=
  let r := clearResponse r
  let withoutExcInfo (status headers : PyArg) : Request × Bool :=
    if r.state.startResponseCalled then (r, false) else setResponse r status headers
  match args with
  | [status, headers] => .ok (withoutExcInfo status headers)
  | [status, headers, .none] => .ok (withoutExcInfo status headers)
  | [status, headers, .tuple [type, _, _]] =>
    if r.state.wsgiCallDone then .ok (r, false)
    else
      -- `PyErr_Print` takes the first item for an exception class
      match type with
      | .excType .other => .ok (setResponse r status headers)
      | .excType .systemExit => .error .exit
      | _ => .error .undefinedBehaviour
  | _ => .ok (r, false)

/-- The `start_response` calls of a piece of Python code, which may catch what they raise. -/
def runStartResponses (r : Request) : List (List PyArg) → Except Halt Request
  | [] => .ok r
  | args :: rest => do
    let (r, _) ← startResponse r args
    runStartResponses r rest

end Bjoern
