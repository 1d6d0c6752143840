import Bjoern.ServerLoop

namespace Bjoern

open Runs

/-- The result of `getsockname()`: an exact tuple of two, of which the port is `str(port)`, or `none` for `None`,
or any other object. -/
inductive SockName
  | pair (host : Bytes) (port : Option Bytes)
  | other
  deriving DecidableEq

/-- The attribute `getsockname` of a socket, and what calling it does. -/
inductive GetSockName
  | absent
  | raises
  | returns (name : SockName)
  deriving DecidableEq

/-- The first argument of `server_run`; `fileno` is what `PyObject_AsFileDescriptor` makes of it. -/
structure Socket where
  fileno : Int
  getsockname : GetSockName
  deriving DecidableEq

/-- `ServerInfo`; without a host, `port` is not set and not read. -/
structure ServerInfo where
  sockfd : Int
  host : Option Bytes
  port : Option Bytes

/-- The first half of `run`; `none` stands for a `return NULL`. -/
def serverInfo (socket : Socket) : Option ServerInfo :=
  if socket.fileno < 0 then none
  else
    match socket.getsockname with
    | .absent => some ⟨socket.fileno, none, none⟩
    | .raises => none
    | .returns (.pair host port) => some ⟨socket.fileno, some host, port⟩
    | .returns .other => some ⟨socket.fileno, none, none⟩

/-- `_initialize_request_module`, from the `wsgi_base_dict` before the call, `none` for `NULL`. -/
def initializeRequestModule (before : Option Environ) (info : ServerInfo) : Environ :=
  match before with
  | none => wsgiBaseDict info.host info.port
  | some dict => dict

/-- The state of the process between calls of `server_run`: `wsgi_base_dict`, and a record of the sockets that
were served, each with the loop that served it. -/
structure Process where
  wsgiBaseDict : Option Environ
  served : List (Socket × ServerLoop)

def Process.start : Process := ⟨none, []⟩

/-- One call of `server_run` with the events that its loop takes, where `step` is what a callback does to its own
connection under a `wsgi_base_dict`. -/
inductive ServerRun (step : Environ → Conn → Event → Conn → Prop) (p : Process) :
    Socket × List LoopEvent → Process → Prop
  | refused {socket} : serverInfo socket = none → ServerRun step p (socket, []) p
  | served {socket info events loop} : serverInfo socket = some info →
      Run (LoopStep (step (initializeRequestModule p.wsgiBaseDict info))) .start events loop →
      ServerRun step p (socket, events)
        ⟨some (initializeRequestModule p.wsgiBaseDict info), p.served ++ [(socket, loop)]⟩

end Bjoern
