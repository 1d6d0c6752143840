import Mathlib.Algebra.Group.Int.Defs
import Mathlib.Algebra.Group.Nat.Defs
import Mathlib.Logic.Function.Basic

namespace Bjoern

abbrev Bytes := List UInt8

def ascii (s : String) : Bytes := s.toList.map (fun c => c.toNat.toUInt8)

/-- An exception as `PyErr_Print` sees it: printing `SystemExit` ends the process. -/
inductive PyExc
  | systemExit
  | other
  deriving DecidableEq

/-- The Python objects that reach `start_response`. A `str` is its code points. -/
inductive PyArg
  | none
  | str (codePoints : List Nat)
  | tuple (items : List PyArg)
  | list (items : List PyArg)
  | excType (exc : PyExc)
  | other

/-- `PyUnicode_AsLatin1String` -/
def asLatin1String : PyArg → Option Bytes
  | .str codePoints =>
    if codePoints.all (· < 256) then some (codePoints.map Nat.toUInt8) else none
  | _ => none

/-- One call of Python code: the `start_response` calls it makes, then its result. -/
structure PyCall (α : Type) where
  startResponses : List (List PyArg)
  result : Except PyExc α

/-- What one `__next__` gives; `stop` is `StopIteration`, `other` any object but `bytes`. -/
inductive IterItem
  | bytes (data : Bytes)
  | other
  | stop
  deriving DecidableEq

/-- The `__next__` calls an iterator has left; past the list it is exhausted. -/
abbrev PyIter := List (PyCall IterItem)

/-- The `close` attribute of an object, and what looking it up and calling it does. -/
inductive CloseMethod
  | absent
  | lookupRaises (exc : PyExc)
  | returns
  | raises (exc : PyExc)
  deriving DecidableEq

def CloseMethod.callable : CloseMethod → Bool
  | .returns => true
  | .raises _ => true
  | _ => false

/-- The result of a `read()` of a wrapped file. -/
inductive FileData
  | bytes (data : Bytes)
  | other (truthy : Bool)

/-- The `FileWrapper` object: `reads` are the results of the successive `file.read(blocksize)`,
`content` is what the open file behind `fd` holds. -/
structure FileWrapper where
  fd : Int
  content : Bytes
  reads : List (PyCall FileData)
  fileClose : CloseMethod

/-- A file object that can seek: the descriptor that `PyObject_AsFileDescriptor` finds, if any, what the file holds, the
position at which `read()` goes on, and how many bytes a buffer has taken from the descriptor beyond it. -/
structure PyFile where
  fileno : Option Nat
  content : Bytes
  position : Nat
  ahead : Nat
  close : CloseMethod

/-- The offset of the descriptor, which `lseek(fd, 0, SEEK_CUR)` returns. -/
def PyFile.descriptor (file : PyFile) : Nat := file.position + file.ahead

def PyFile.rest (file : PyFile) : Bytes := file.content.drop file.position

/-- A file without a buffer of which `n` more bytes have been read. -/
def PyFile.skip (file : PyFile) (n : Nat) : PyFile := { file with position := file.position + n }

/-- `file.read(blocksize)` where `rest` is behind the position: what it returns, and what is behind the position
afterwards. Without a block size, or with a negative one, it reads everything. -/
def fileRead (blocksize : Option Int) (rest : Bytes) : Bytes × Bytes :=
  match blocksize with
  | some n => if 0 ≤ n then rest.splitAt n.toNat else (rest, [])
  | none => (rest, [])

/-- The `read()` calls of an iteration, up to the first that returns nothing or to the bound on their number. -/
def fileReads (blocksize : Option Int) : Nat → Bytes → List (PyCall FileData)
  | 0, _ => []
  | bound + 1, rest =>
    if (fileRead blocksize rest).1 = [] then [⟨[], .ok (.bytes [])⟩]
    else ⟨[], .ok (.bytes (fileRead blocksize rest).1)⟩ :: fileReads blocksize bound (fileRead blocksize rest).2

/-- `FileWrapper_New` -/
def fileWrapperNew (file : PyFile) (blocksize : Option Int) : FileWrapper where
  fd := match file.fileno with
    | some fd => fd
    | none => -1
  content := file.content
  reads := fileReads blocksize (file.rest.length + 1) file.rest
  fileClose := file.close

/-- `FileWrapper_IterNext`: a falsy object ends the iteration. -/
def fileWrapperIterNext : FileData → IterItem
  | .bytes data => if data = [] then .stop else .bytes data
  | .other truthy => if truthy then .other else .stop

/-- `FileWrapper_close`: `PyObject_HasAttr` swallows every exception of the lookup. -/
def fileWrapperClose : CloseMethod → CloseMethod
  | .returns => .returns
  | .raises exc => .raises exc
  | _ => .returns

/-- The return value of an application. A list carries what `PyList_GET_ITEM` reads (`none` for an
item that is not `bytes`) beside its iteration, which a subclass may override. -/
inductive PyValue
  | bytes (data : Bytes)
  | list (items : List (Option Bytes)) (iter : PyCall PyIter) (close : CloseMethod)
  | fileWrapper (wrapper : FileWrapper)
  | other (iter : PyCall PyIter) (close : CloseMethod)

/-- `PyObject_GetIter`; iterating a `bytes` object gives integers. -/
def PyValue.getIter : PyValue → PyCall PyIter
  | .bytes data => ⟨[], .ok (data.map fun _ => ⟨[], .ok .other⟩)⟩
  | .list _ iter _ => iter
  | .fileWrapper wrapper =>
    ⟨[], .ok (wrapper.reads.map fun read =>
      ⟨read.startResponses, read.result.map fileWrapperIterNext⟩)⟩
  | .other iter _ => iter

def PyValue.closeMethod : PyValue → CloseMethod
  | .bytes _ => .absent
  | .list _ _ close => close
  | .fileWrapper wrapper => fileWrapperClose wrapper.fileClose
  | .other _ close => close

/-- `FileWrapper_CheckExact(x) && FileWrapper_GetFd(x) != -1` -/
def PyValue.hasDescriptor : PyValue → Bool
  | .fileWrapper wrapper => wrapper.fd != -1
  | _ => false

/-- The values of the environ. `bytesIo` is an `io.BytesIO` with its position. -/
inductive EnvVal
  | str (latin1 : Bytes)
  | bytesIo (content : Bytes) (position : Nat)
  | bool (value : Bool)
  | version (major minor : Nat)
  | fileWrapperType
  | stderr

/-- A Python dictionary with `str` keys. -/
abbrev Environ := Bytes → Option EnvVal

def Environ.empty : Environ := fun _ => none

/-- `PyDict_SetItem` -/
def Environ.setItem (d : Environ) (k : Bytes) (v : EnvVal) : Environ := Function.update d k (some v)

/-- `PyDict_DelItem` -/
def Environ.delItem (d : Environ) (k : Bytes) : Environ := Function.update d k none

/-- `PyDict_Update`: the entries of `other` win. -/
def Environ.merge (d other : Environ) : Environ := fun k => (other k).or (d k)

/-- `BytesIO.write` at the current position, which zero bytes fill up to where it lies past the end. -/
def bytesIoWrite (content : Bytes) (position : Nat) (data : Bytes) : EnvVal :=
  .bytesIo (content.take position ++ List.replicate (position - content.length) 0 ++ data ++
    content.drop (position + data.length)) (position + data.length)

end Bjoern
