import Bjoern.Server
import Bjoern.Interleaving

namespace Bjoern

open Runs

/-- What `ev_io_on_request` meets: a client, a client whose socket cannot be set to non-blocking, or an
`accept()` that fails. -/
inductive AcceptResult
  | client (clientAddr : Bytes) (parser : HttpParser)
  | blocking
  | failed

/-- The state of the event loop of one `server_run`: its connections in the order of their `accept()`, and the
metrics that are counted without one. -/
structure ServerLoop where
  conns : List Conn
  metrics : List Metric

def ServerLoop.start : ServerLoop := ⟨[], []⟩

/-- `ev_io_on_request` -/
def ServerLoop.evIoOnRequest (l : ServerLoop) : AcceptResult → ServerLoop
  | .client clientAddr parser => { l with conns := l.conns ++ [Bjoern.evIoOnRequest clientAddr parser] }
  | .blocking => { l with metrics := l.metrics ++ [.connAcceptError] }
  | .failed => { l with metrics := l.metrics ++ [.connAcceptError] }

/-- An accept watcher fires, or the watcher of the connection at an index. -/
abbrev LoopEvent := PoolEvent AcceptResult Event

/-- One callback of the loop, where `step` is what a callback does to its own connection. -/
inductive LoopStep (step : Conn → Event → Conn → Prop) (l : ServerLoop) : LoopEvent → ServerLoop → Prop
  | accept {result} : LoopStep step l (.start result) (l.evIoOnRequest result)
  | io {i c event c'} : l.conns[i]? = some c → step c event c' →
      LoopStep step l (.input i event) { l with conns := l.conns.set i c' }

def accepted : AcceptResult → Option Conn
  | .client clientAddr parser => some (evIoOnRequest clientAddr parser)
  | .blocking => none
  | .failed => none

theorem LoopStep.pool {step : Conn → Event → Conn → Prop} {l l' : ServerLoop} {event : LoopEvent}
    (h : LoopStep step l event l') : PoolStep accepted step l.conns event l'.conns := by
  cases h with
  | @accept result =>
    have added : (l.evIoOnRequest result).conns = l.conns ++ (accepted result).toList := by
      cases result with
      | client => rfl
      | blocking => simp [ServerLoop.evIoOnRequest, accepted]
      | failed => simp [ServerLoop.evIoOnRequest, accepted]
    rw [added]
    exact .start
  | io found step => exact .input found step

/-- Whatever happens on the other connections, each one has come to its state by its own events. -/
theorem ownRun_of_loop {step : Conn → Event → Conn → Prop} {l : ServerLoop} {events : List LoopEvent}
    (run : Run (LoopStep step) .start events l) {c : Conn} (member : c ∈ l.conns) :
    ∃ clientAddr parser own, Run step (evIoOnRequest clientAddr parser) own c := by
  have start : ServerLoop.start.conns = [] := rfl
  obtain ⟨_, pool, rfl⟩ := run.simulate (PoolStep accepted step) (fun l pool => l.conns = pool)
    (fun l pool event l' same h => ⟨l'.conns, same ▸ h.pool, rfl⟩) start
  obtain ⟨result, first, own, started, run⟩ := ownRun_of_pool pool c member
  cases result with
  | client clientAddr parser =>
    cases started
    exact ⟨clientAddr, parser, own, run⟩
  | blocking => cases started
  | failed => cases started

end Bjoern
