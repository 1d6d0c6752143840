import Bjoern.ErrorIndicator

namespace Bjoern

open Runs

/-- What `ev_io_on_request` counts without a connection. -/
def AcceptResult.metrics : AcceptResult → List Metric
  | .client _ _ => []
  | .blocking => [.connAcceptError]
  | .failed => [.connAcceptError]

theorem ServerLoop.evIoOnRequest_eq (l : ServerLoop) (result : AcceptResult) :
    l.evIoOnRequest result = ⟨l.conns ++ (accepted result).toList, l.metrics ++ result.metrics⟩ := by
  cases result with
  | client => simp [ServerLoop.evIoOnRequest, accepted, AcceptResult.metrics]
  | blocking => simp [ServerLoop.evIoOnRequest, accepted, AcceptResult.metrics]
  | failed => simp [ServerLoop.evIoOnRequest, accepted, AcceptResult.metrics]

theorem loop_run_iff {step : Conn → Event → Conn → Prop} {l l' : ServerLoop} {events : List LoopEvent} :
    Run (LoopStep step) l events l' ↔ Run (PoolStep accepted step) l.conns events l'.conns ∧
      l'.metrics = l.metrics ++ (starts events).flatMap AcceptResult.metrics := by
  induction events generalizing l with
  | nil =>
    constructor
    · intro run
      cases run
      exact ⟨.nil, by simp [starts]⟩
    · rintro ⟨run, metrics⟩
      have same : l' = l := by
        cases l
        cases l'
        cases run
        simpa [starts] using metrics
      exact same ▸ .nil
  | cons event events ih =>
    cases event with
    | start result =>
      have later := ih (l := l.evIoOnRequest result)
      rw [l.evIoOnRequest_eq result, List.append_assoc, ← List.flatMap_cons] at later
      constructor
      · intro run
        cases run with
        | cons first rest =>
          cases first
          rw [l.evIoOnRequest_eq result] at rest
          obtain ⟨pool, metrics⟩ := later.mp rest
          exact ⟨.cons .start pool, metrics⟩
      · rintro ⟨pool, metrics⟩
        cases pool with
        | cons first rest =>
          cases first
          have run := later.mpr ⟨rest, metrics⟩
          rw [← l.evIoOnRequest_eq result] at run
          exact .cons .accept run
    | input i event =>
      constructor
      · intro run
        cases run with
        | cons first rest =>
          cases first with
          | io found step =>
            obtain ⟨pool, metrics⟩ := ih.mp rest
            exact ⟨.cons (.input found step) pool, metrics⟩
      · rintro ⟨pool, metrics⟩
        cases pool with
        | cons first rest =>
          cases first with
          | @input _ c _ c' found step =>
            have run := (ih (l := { l with conns := l.conns.set i c' })).mpr ⟨rest, metrics⟩
            exact .cons (.io found step) run

/-- A run of the loop is a run of every connection by its own events, whatever the others do. -/
theorem thread_run_iff {base : Environ} {events : List LoopEvent} {l : ServerLoop} {exc : Option PyExc} :
    Run (ThreadStep (Guarded Unawaited (Step base))) .start events ⟨l, exc⟩ ↔
      exc = none ∧ Addressed accepted 0 events ∧
        SideBySide (Guarded Unawaited (Step base)) ((starts events).filterMap accepted) events l.conns ∧
        l.metrics = (starts events).flatMap AcceptResult.metrics := by
  have alone : Run (ThreadStep (Guarded Unawaited (Step base))) .start events ⟨l, exc⟩ ↔
      exc = none ∧ Run (LoopStep (Guarded Unawaited (Step base))) .start events l :=
    ⟨loop_of_thread, fun ⟨idle, run⟩ => idle ▸ thread_of_loop run⟩
  rw [alone, loop_run_iff, pool_run_iff, and_assoc]
  rfl

/-- While no expectation stands where a request is answered, the order in which the loop serves its connections changes
nothing: with the same results of `accept()`, and the same events for each connection, it comes to the same connections
and metrics. -/
theorem served_in_any_order {base : Environ} {events events' : List LoopEvent} {l : ServerLoop} {exc : Option PyExc}
    (addressed : Addressed accepted 0 events') (accepts : starts events = starts events')
    (own : ∀ i, inputsTo i events = inputsTo i events')
    (run : Run (ThreadStep (Guarded Unawaited (Step base))) .start events ⟨l, exc⟩) :
    Run (ThreadStep (Guarded Unawaited (Step base))) .start events' ⟨l, exc⟩ := by
  obtain ⟨idle, _, side, metrics⟩ := thread_run_iff.mp run
  rw [accepts] at side metrics
  exact thread_run_iff.mpr ⟨idle, addressed, side.same_inputs own, metrics⟩

/-- One client that asks, beside one that goes away. -/
def askFirst : List LoopEvent :=
  [.start (.client [49] http11Get), .start (.client [50] http11Get),
    .input 0 (.read ⟨.bytes getRequest, returning oneItem⟩), .input 1 (.read ⟨.eof, returning oneItem⟩)]

def leaveFirst : List LoopEvent :=
  [.start (.client [49] http11Get), .start (.client [50] http11Get),
    .input 1 (.read ⟨.eof, returning oneItem⟩), .input 0 (.read ⟨.bytes getRequest, returning oneItem⟩)]

theorem served_in_any_order_two : ∃ l,
    Run (ThreadStep (Guarded Unawaited (Step .empty))) .start askFirst ⟨l, none⟩ ∧
      Run (ThreadStep (Guarded Unawaited (Step .empty))) .start leaveFirst ⟨l, none⟩ := by
  have asks : Guarded Unawaited (Step .empty) (evIoOnRequest [49] http11Get)
      (.read ⟨.bytes getRequest, returning oneItem⟩) _ :=
    ⟨getRequest_unawaited rfl _, rfl, rfl⟩
  have leaves : Guarded Unawaited (Step .empty) (evIoOnRequest [50] http11Get) (.read ⟨.eof, returning oneItem⟩) _ :=
    ⟨fun data bytes => (by cases bytes), rfl, rfl⟩
  have asked : ∃ l, Run (ThreadStep (Guarded Unawaited (Step .empty))) .start askFirst ⟨l, none⟩ :=
    ⟨_, thread_of_loop (.cons .accept (.cons .accept (.cons (.io rfl asks) (.single (.io rfl leaves)))))⟩
  have own : ∀ i, inputsTo i askFirst = inputsTo i leaveFirst := by
    intro i
    simp only [inputsTo, askFirst, leaveFirst]
    split <;> split <;> first | rfl | omega
  have accepts : starts askFirst = starts leaveFirst := rfl
  obtain ⟨l, asked⟩ := asked
  exact ⟨l, asked, served_in_any_order (by simp [Addressed, leaveFirst, accepted]) accepts own asked⟩

end Bjoern
