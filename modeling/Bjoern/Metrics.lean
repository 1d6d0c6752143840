import Bjoern.FatalErrors
import Bjoern.ServerLoop

namespace Bjoern

open Runs

/-- What one callback counts, with the watcher that it finds and the one that it leaves. -/
inductive Lifecycle : Watcher → List Metric → Watcher → Prop
  | waits : Lifecycle .reading [.reqActive] .reading
  | interim : Lifecycle .reading [] .writing
  | refused : Lifecycle .reading [.reqErrorParse, .reqDone] .writing
  | answered : Lifecycle .reading [.reqSuccessRead, .reqDone] .writing
  | failed : Lifecycle .reading [.reqSuccessRead, .reqErrorInternal, .reqDone] .writing
  | disconnected : Lifecycle .reading [.reqErrorClientDisconnected, .reqAborted] .closed
  | unreadable : Lifecycle .reading [.reqErrorRead, .reqAborted] .closed
  | sends : Lifecycle .writing [.respActive] .writing
  | kept : Lifecycle .writing [.respDone, .respDoneKeepalive] .reading
  | closed : Lifecycle .writing [.respDone, .respConnClose] .closed
  | resumed : Lifecycle .writing [] .reading
  | gaveUp : Lifecycle .writing [.respAborted] .closed

theorem closeConnection_counts {c c' : Conn} (h : closeConnection c = .ok c') :
    c'.metrics = c.metrics ∧ c'.evWatcher = .closed := by
  obtain ⟨_, _, rfl⟩ := requestClean_ok h
  exact ⟨rfl, rfl⟩

/-- Both callbacks close an aborted connection and count that. -/
theorem aborted_counts {c c' : Conn} {metric : Metric} (h : (do
    let c ← closeConnection c
    pure (c.count metric)) = .ok c') : c'.metrics = c.metrics ++ [metric] ∧ c'.evWatcher = .closed := by
  obtain ⟨last, closing, h⟩ := bind_ok h
  obtain ⟨same, closed⟩ := closeConnection_counts closing
  cases h
  exact ⟨congrArg (· ++ [metric]) same, closed⟩

theorem wsgiCallApplication_counts {c c' : Conn} {app : PyCall PyValue} {answered : Bool}
    (h : wsgiCallApplication c app = .ok (c', answered)) : c'.metrics = c.metrics := by
  obtain ⟨_, calls, outcome⟩ := wsgiCallApplication_outcome h
  exact (outcome.frame calls).metrics

theorem evIoOnRead_ends {base : Environ} {c c' : Conn} {e : ReadEvent}
    (failed : e.result = .eof ∨ ∃ errno, e.result = .errno errno ∧ errno.tryAgain = false)
    (h : evIoOnRead base c e = .ok c') :
    ∃ log, c'.metrics = c.metrics ++ log ∧ Lifecycle .reading log c'.evWatcher := by
  rcases failed with eof | ⟨errno, fails, fatal⟩
  · have aborts : evIoOnRead base c e = finishRead (c.count .reqErrorClientDisconnected) .aborted := by
      simp [evIoOnRead, readRequest, eof]
    obtain ⟨counted, ended⟩ := aborted_counts (aborts.symm.trans h)
    rw [ended]
    exact ⟨[.reqErrorClientDisconnected, .reqAborted], by simp [counted, Conn.count], .disconnected⟩
  · have aborts : evIoOnRead base c e = finishRead (c.count .reqErrorRead) .aborted := by
      simp [evIoOnRead, readRequest, fails, fatal]
    obtain ⟨counted, ended⟩ := aborted_counts (aborts.symm.trans h)
    rw [ended]
    exact ⟨[.reqErrorRead, .reqAborted], by simp [counted, Conn.count], .unreadable⟩

theorem evIoOnRead_lifecycle {base : Environ} {c c' : Conn} {e : ReadEvent} (reading : c.evWatcher = .reading)
    (h : evIoOnRead base c e = .ok c') :
    ∃ log, c'.metrics = c.metrics ++ log ∧ Lifecycle .reading log c'.evWatcher := by
  cases evIoOnRead_outcome h with
  | again =>
    have still : (c.count .reqActive).evWatcher = .reading := reading
    rw [still]
    exact ⟨[.reqActive], rfl, .waits⟩
  | closed failed => exact evIoOnRead_ends failed h
  | @waiting data =>
    have still : ((c.parsed base data).count .reqActive).evWatcher = .reading :=
      (c.parsed_frame base data).request.evWatcher.trans reading
    rw [still]
    exact ⟨[.reqActive], by simp [Conn.count], .waits⟩
  | @interim data => exact ⟨[], by simp [startWriting], .interim⟩
  | rejected => exact ⟨[.reqErrorParse, .reqDone], by simp [startWriting, Conn.count], .refused⟩
  | @answered data called _ _ _ call =>
    have counted := wsgiCallApplication_counts call
    exact ⟨[.reqSuccessRead, .reqDone], by simp [Conn.startedResponse, Conn.count, startWriting, counted], .answered⟩
  | @failed data called _ _ _ call =>
    have counted := wsgiCallApplication_counts call
    exact ⟨[.reqSuccessRead, .reqErrorInternal, .reqDone],
      by simp [Conn.failedResponse, Conn.count, startWriting, counted], .failed⟩

theorem handleNonzeroErrno_metrics (c : Conn) (e : Errno) : (handleNonzeroErrno c e).1.metrics = c.metrics := by
  unfold handleNonzeroErrno
  split <;> rfl

theorem doSendChunk_metrics {c c' : Conn} {w : WriteEvent} {left : Bool} (h : doSendChunk c w = .ok (c', left)) :
    c'.metrics = c.metrics := by
  unfold doSendChunk at h
  split at h
  next =>
    split at h
    next e _ =>
      have same := handleNonzeroErrno_metrics c e
      rw [Except.ok.inj h] at same
      exact same
    next =>
      dsimp only at h
      split at h <;> cases h <;> rfl
  next => cases h

theorem doSendfile_metrics (c : Conn) (content : Bytes) (w : WriteEvent) :
    (doSendfile c content w).1.metrics = c.metrics := by
  unfold doSendfile
  split
  next e _ => exact handleNonzeroErrno_metrics c e
  next =>
    dsimp only
    split <;> rfl

theorem onWriteSendfile_metrics {c c' : Conn} {content : Bytes} {w : WriteEvent} {state : RwState}
    (h : onWriteSendfile c content w = .ok (c', state)) : c'.metrics = c.metrics := by
  unfold onWriteSendfile at h
  split at h
  next =>
    obtain ⟨⟨mid, left⟩, hm, h⟩ := bind_ok h
    have same := doSendChunk_metrics hm
    dsimp only at h
    split at h
    next =>
      cases h
      exact same
    next => split at h <;> cases h <;> exact same
  next =>
    have same := doSendfile_metrics c content w
    cases h
    exact same

theorem sendTerminatorChunk_metrics {c c' : Conn} {state : RwState} (h : sendTerminatorChunk c = (c', state)) :
    c'.metrics = c.metrics := by
  unfold sendTerminatorChunk at h
  split at h <;> cases h <;> rfl

theorem NextOutcome.metrics {c c' : Conn} {steps : PyIter} {chunk : Option Bytes} (h : NextOutcome c steps c' chunk) :
    c'.metrics = c.metrics := by
  cases h <;> rfl

theorem onWriteChunk_metrics {c c' : Conn} {w : WriteEvent} {state : RwState}
    (h : onWriteChunk c w = .ok (c', state)) : c'.metrics = c.metrics := by
  cases onWriteChunk_outcome h with
  | part sent => exact doSendChunk_metrics sent
  | chunk sent _ pulled => exact pulled.metrics.trans (doSendChunk_metrics sent)
  | failed sent _ pulled => exact pulled.metrics.trans (doSendChunk_metrics sent)
  | stopped sent _ pulled _ terminated =>
    exact (sendTerminatorChunk_metrics terminated).trans (pulled.metrics.trans (doSendChunk_metrics sent))
  | concluded sent _ terminated => exact (sendTerminatorChunk_metrics terminated).trans (doSendChunk_metrics sent)

theorem writeResponse_metrics {c c' : Conn} {w : WriteEvent} {state : RwState}
    (h : writeResponse c w = .ok (c', state)) : c'.metrics = c.metrics := by
  unfold writeResponse at h
  split at h
  next =>
    split at h
    next => exact onWriteSendfile_metrics h
    next => exact onWriteChunk_metrics h
  next => exact onWriteChunk_metrics h

theorem finishWrite_lifecycle {c c' : Conn} {state : RwState} (writing : c.evWatcher = .writing)
    (h : finishWrite c state = .ok c') :
    ∃ log, c'.metrics = c.metrics ++ log ∧ Lifecycle .writing log c'.evWatcher := by
  cases state with
  | notYetDone =>
    cases h
    have still : (c.count .respActive).evWatcher = .writing := writing
    rw [still]
    exact ⟨[.respActive], rfl, .sends⟩
  | done =>
    unfold finishWrite at h
    dsimp only at h
    split at h
    next =>
      obtain ⟨last, hl, h⟩ := bind_ok h
      obtain ⟨_, _, rfl⟩ := requestClean_ok hl
      cases h
      exact ⟨[.respDone, .respDoneKeepalive], List.append_assoc _ _ _, .kept⟩
    next =>
      obtain ⟨same, closed⟩ := closeConnection_counts h
      rw [closed]
      exact ⟨[.respDone, .respConnClose], by simp [same, Conn.count], .closed⟩
  | expectContinue =>
    cases h
    exact ⟨[], by simp [startReading], .resumed⟩
  | aborted =>
    obtain ⟨counted, ended⟩ := aborted_counts h
    rw [ended]
    exact ⟨[.respAborted], counted, .gaveUp⟩

theorem Step.lifecycle {base : Environ} {c c' : Conn} {event : Event} (step : Step base c event c') :
    ∃ log, c'.metrics = c.metrics ++ log ∧ Lifecycle c.evWatcher log c'.evWatcher := by
  obtain ⟨on, h⟩ := step
  cases event with
  | read e =>
    have reading : c.evWatcher = .reading := on
    rw [reading]
    exact evIoOnRead_lifecycle reading h
  | write w =>
    have writing : c.evWatcher = .writing := on
    obtain ⟨⟨mid, state⟩, hm, h⟩ := bind_ok h
    have same := writeResponse_metrics hm
    have watcher := (writeResponse_frame hm).1.evWatcher
    obtain ⟨log, counted, way⟩ := finishWrite_lifecycle (watcher.trans writing) h
    rw [writing]
    exact ⟨log, counted.trans (congrArg (· ++ log) same), way⟩

/-- A log whose counts balance, with `starts` connections accepted and `ends` of them ended. -/
structure Tally (log : List Metric) (starts ends : Nat) : Prop where
  starts : log.count .connAcceptSuccess = starts
  ends : log.count .reqAborted + log.count .respConnClose + log.count .respAborted = ends
  read : log.count .reqDone = log.count .reqSuccessRead + log.count .reqErrorParse
  written : log.count .respDone = log.count .respDoneKeepalive + log.count .respConnClose
  aborted : log.count .reqAborted = log.count .reqErrorClientDisconnected + log.count .reqErrorRead

instance (log : List Metric) (starts ends : Nat) : Decidable (Tally log starts ends) :=
  decidable_of_iff (log.count .connAcceptSuccess = starts ∧
      log.count .reqAborted + log.count .respConnClose + log.count .respAborted = ends ∧
      log.count .reqDone = log.count .reqSuccessRead + log.count .reqErrorParse ∧
      log.count .respDone = log.count .respDoneKeepalive + log.count .respConnClose ∧
      log.count .reqAborted = log.count .reqErrorClientDisconnected + log.count .reqErrorRead)
    ⟨fun ⟨starts, ends, read, written, aborted⟩ => ⟨starts, ends, read, written, aborted⟩,
      fun h => ⟨h.starts, h.ends, h.read, h.written, h.aborted⟩⟩

theorem Tally.append {first second : List Metric} {starts ends starts' ends' : Nat} (h : Tally first starts ends)
    (h' : Tally second starts' ends') : Tally (first ++ second) (starts + starts') (ends + ends') := by
  obtain ⟨s, e, r, w, a⟩ := h
  obtain ⟨s', e', r', w', a'⟩ := h'
  refine ⟨?_, ?_, ?_, ?_, ?_⟩
  all_goals simp only [List.count_append]
  all_goals omega

/-- How often a connection with this watcher has ended. -/
def Watcher.ends : Watcher → Nat
  | .closed => 1
  | _ => 0

/-- Each callback counts the end of its connection once if it brings it, and no callback comes after it. -/
theorem Lifecycle.tally {watcher watcher' : Watcher} {log : List Metric} (h : Lifecycle watcher log watcher') :
    watcher.ends = 0 ∧ Tally log 0 watcher'.ends := by
  cases h <;> exact ⟨rfl, by decide⟩

theorem Step.tally {base : Environ} {c c' : Conn} {event : Event} (step : Step base c event c')
    (h : Tally c.metrics 1 c.evWatcher.ends) : Tally c'.metrics 1 c'.evWatcher.ends := by
  obtain ⟨log, counted, way⟩ := step.lifecycle
  obtain ⟨alive, block⟩ := way.tally
  have joined := h.append block
  rw [alive, Nat.zero_add, ← counted] at joined
  exact joined

theorem tally_of_run {base : Environ} {clientAddr : Bytes} {parser : HttpParser} {events : List Event} {c : Conn}
    (run : Run (Step base) (evIoOnRequest clientAddr parser) events c) : Tally c.metrics 1 c.evWatcher.ends := by
  apply run.invariant (fun c => Tally c.metrics 1 c.evWatcher.ends)
  · intro c event c' h step
    exact step.tally h
  · show Tally [.connAcceptSuccess] 1 0
    decide

/-- Everything the loop has counted, on whichever connection. -/
def ServerLoop.log (l : ServerLoop) : List Metric := l.metrics ++ l.conns.flatMap (·.metrics)

def ServerLoop.counter (l : ServerLoop) (metric : Metric) : Nat := l.log.count metric

/-- The connections that still have a `Request` with a watcher. -/
def ServerLoop.live (l : ServerLoop) : Nat := l.conns.countP fun c => c.evWatcher ≠ .closed

theorem tally_conns {conns : List Conn} (each : ∀ c ∈ conns, Tally c.metrics 1 c.evWatcher.ends) :
    Tally (conns.flatMap (·.metrics)) conns.length (conns.countP fun c => c.evWatcher = .closed) := by
  induction conns with
  | nil => decide
  | cons c rest ih =>
    have first := each c (by simp)
    have joined := first.append (ih fun c' member => each c' (List.mem_cons_of_mem c member))
    have counted : (c :: rest).countP (fun c => c.evWatcher = .closed) =
        c.evWatcher.ends + rest.countP fun c => c.evWatcher = .closed := by
      rw [List.countP_cons, Nat.add_comm]
      cases c.evWatcher <;> rfl
    rw [List.flatMap_cons, List.length_cons, counted, Nat.add_comm rest.length]
    exact joined

/-- Without a connection only failed calls of `accept()` are counted. -/
theorem LoopStep.errors {step : Conn → Event → Conn → Prop} {l l' : ServerLoop} {event : LoopEvent}
    (h : LoopStep step l event l') (errors : Tally l.metrics 0 0) : Tally l'.metrics 0 0 := by
  have failure : Tally [.connAcceptError] 0 0 := by decide
  cases h with
  | @accept result =>
    cases result with
    | client => exact errors
    | blocking => exact errors.append failure
    | failed => exact errors.append failure
  | io => exact errors

structure Balanced (l : ServerLoop) : Prop where
  live : (l.counter .connAcceptSuccess : Int) -
    (l.counter .reqAborted + l.counter .respConnClose + l.counter .respAborted) = l.live
  read : l.counter .reqDone = l.counter .reqSuccessRead + l.counter .reqErrorParse
  written : l.counter .respDone = l.counter .respDoneKeepalive + l.counter .respConnClose
  aborted : l.counter .reqAborted = l.counter .reqErrorClientDisconnected + l.counter .reqErrorRead

/-- After every interleaving of the callbacks of a loop on any number of connections, its metrics balance. -/
theorem metrics_balance {base : Environ} {events : List LoopEvent} {l : ServerLoop}
    (run : Run (LoopStep (Step base)) .start events l) : Balanced l := by
  have errors : Tally l.metrics 0 0 := by
    apply run.invariant (fun l => Tally l.metrics 0 0)
    · intro l event l' errors h
      exact h.errors errors
    · decide
  have each : ∀ c ∈ l.conns, Tally c.metrics 1 c.evWatcher.ends := by
    intro c member
    obtain ⟨clientAddr, parser, own, run⟩ := ownRun_of_loop run member
    exact tally_of_run run
  obtain ⟨starts, ends, read, written, aborted⟩ := errors.append (tally_conns each)
  refine ⟨?_, read, written, aborted⟩
  have split : l.conns.length = l.conns.countP (fun c => c.evWatcher = .closed) + l.live := by
    rw [List.length_eq_countP_add_countP (fun c => decide (c.evWatcher = .closed)), ServerLoop.live]
    simp
  unfold ServerLoop.counter ServerLoop.log
  omega

/-- One client is served and another one leaves. -/
theorem metrics_balance_two : ∃ l, Run (LoopStep (Step .empty)) .start
    [.start (.client [] http11Get), .start (.client [] http11Get),
      .input 0 (.read ⟨.bytes getRequest, ⟨[lengthArgs], .ok oneItem⟩⟩),
      .input 1 (.read ⟨.eof, ⟨[], .ok oneItem⟩⟩)] l ∧ l.live = 1 ∧ Balanced l := by
  have run : Run (LoopStep (Step .empty)) .start
      [.start (.client [] http11Get), .start (.client [] http11Get),
        .input 0 (.read ⟨.bytes getRequest, ⟨[lengthArgs], .ok oneItem⟩⟩),
        .input 1 (.read ⟨.eof, ⟨[], .ok oneItem⟩⟩)] _ :=
    .cons .accept (.cons .accept (.cons (.io rfl ⟨rfl, rfl⟩) (.cons (.io rfl ⟨rfl, rfl⟩) .nil)))
  exact ⟨_, run, rfl, metrics_balance run⟩

end Bjoern
