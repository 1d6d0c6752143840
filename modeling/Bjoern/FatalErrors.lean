import Bjoern.SendfileDelivery
import Bjoern.WriteStep
import Bjoern.ReadStep

namespace Bjoern

open Runs

theorem doSendChunk_left {c c' : Conn} {w : WriteEvent} (h : doSendChunk c w = .ok (c', true)) :
    ∃ data, c'.currentChunk = .owned data := by
  unfold doSendChunk at h
  split at h
  next data owned =>
    split at h
    next e _ =>
      unfold handleNonzeroErrno at h
      split at h
      next =>
        cases h
        exact ⟨data, owned⟩
      next => cases h
    next =>
      dsimp only at h
      split at h
      next => cases h
      next =>
        cases h
        exact ⟨data, owned⟩
  next => cases h

theorem sendTerminatorChunk_more {c c' : Conn} (h : sendTerminatorChunk c = (c', .notYetDone)) :
    ∃ data, c'.currentChunk = .owned data := by
  unfold sendTerminatorChunk at h
  split at h
  next =>
    cases h
    exact ⟨_, rfl⟩
  next => cases h

theorem onWriteChunk_more {c c' : Conn} {w : WriteEvent} (h : onWriteChunk c w = .ok (c', .notYetDone)) :
    ∃ data, c'.currentChunk = .owned data := by
  cases onWriteChunk_outcome h with
  | part unsent => exact doSendChunk_left unsent
  | chunk => exact ⟨_, rfl⟩
  | stopped _ _ _ _ terminated => exact sendTerminatorChunk_more terminated
  | concluded _ _ terminated => exact sendTerminatorChunk_more terminated

/-- The callback ran into `close_connection`, from which `SystemExit` in `close()` may not come back. -/
def EndsClosed : Except Halted Conn → Prop
  | .ok c => c.evWatcher = .closed
  | .error (halt, c) => halt = .exit ∧ c.evWatcher = .closed

theorem closeConnection_endsClosed (c : Conn) : EndsClosed (closeConnection c) := by
  obtain ⟨_, _, h | h⟩ := requestClean_only { c with evWatcher := .closed }
  · rw [closeConnection, h]
    rfl
  · rw [closeConnection, h]
    exact ⟨rfl, rfl⟩

theorem EndsClosed.bind_count {result : Except Halted Conn} (h : EndsClosed result) (metric : Metric) :
    EndsClosed (do
      let c ← result
      pure (c.count metric)) := by
  cases result with
  | ok c => exact h
  | error halted => exact h

/-- Only the result `not_yet_done` leaves the connection writing. -/
theorem finishWrite_writing {c c' : Conn} {state : RwState} (h : finishWrite c state = .ok c')
    (writing : c'.evWatcher = .writing) : state = .notYetDone ∧ c' = c.count .respActive := by
  unfold finishWrite at h
  split at h
  next => exact ⟨rfl, (Except.ok.inj h).symm⟩
  next =>
    dsimp only at h
    split at h
    next =>
      obtain ⟨mid, _, h⟩ := bind_ok h
      cases h
      cases writing
    next =>
      have closed := closeConnection_endsClosed ((c.count .respDone).count .respConnClose)
      rw [h] at closed
      exact absurd (writing.symm.trans closed) (by decide)
  next =>
    cases h
    cases writing
  next =>
    have closed := (closeConnection_endsClosed c).bind_count .respAborted
    rw [h] at closed
    exact absurd (writing.symm.trans closed) (by decide)

/-- `on_write_chunk` never finds a connection without a chunk that it can send. -/
def ChunkReady (c : Conn) : Prop :=
  c.evWatcher = .writing → c.routesSendfile = false → ∃ data, c.currentChunk = .owned data

theorem evIoOnRead_chunkReady {base : Environ} {c c' : Conn} {e : ReadEvent} (reading : c.evWatcher = .reading)
    (h : evIoOnRead base c e = .ok c') : ChunkReady c' := by
  intro writing _
  have outcome := evIoOnRead_outcome h
  cases outcome with
  | again => exact absurd (reading.symm.trans writing) (by decide)
  | @closed metric last _ closing =>
    have closed := closeConnection_endsClosed (c.count metric)
    rw [closing] at closed
    exact absurd (closed.symm.trans writing) (by decide)
  | @waiting data =>
    have same := (c.parsed_frame base data).request.evWatcher
    exact absurd ((same.trans reading).symm.trans writing) (by decide)
  | interim => exact ⟨_, rfl⟩
  | rejected => exact ⟨_, rfl⟩
  | answered _ _ _ call =>
    obtain ⟨_, _, outcome⟩ := wsgiCallApplication_outcome call
    cases outcome with
    | answered => exact ⟨_, rfl⟩
  | failed => exact ⟨_, rfl⟩

theorem evIoOnWrite_chunkReady {c c' : Conn} {w : WriteEvent} (h : evIoOnWrite c w = .ok c') : ChunkReady c' := by
  intro writing route
  obtain ⟨⟨mid, state⟩, hm, h⟩ := bind_ok h
  obtain ⟨more, rfl⟩ := finishWrite_writing h writing
  have more : state = .notYetDone := by
    split at more
    next => cases more
    next => exact more
  subst more
  cases direct : c.routesSendfile with
  | true =>
    obtain ⟨wrapper, _, _, eq⟩ := writeResponse_sendfile direct
    rw [eq] at hm
    have same : mid.routesSendfile = c.routesSendfile := by
      rw [Conn.routesSendfile, (onWriteSendfile_frame hm).1.iterable]
      rfl
    exact absurd (direct.symm.trans (same.symm.trans route)) (by decide)
  | false =>
    rw [writeResponse_chunk direct] at hm
    have owned := onWriteChunk_more hm
    exact owned

theorem Step.chunkReady {base : Environ} {c c' : Conn} {event : Event} (step : Step base c event c') :
    ChunkReady c' := by
  obtain ⟨on, h⟩ := step
  cases event with
  | read e => exact evIoOnRead_chunkReady on h
  | write w => exact evIoOnWrite_chunkReady h

theorem chunkReady_of_run {base : Environ} {clientAddr : Bytes} {parser : HttpParser} {events : List Event}
    {c : Conn} (run : Run (Step base) (evIoOnRequest clientAddr parser) events c) : ChunkReady c :=
  run.invariant ChunkReady (fun _ _ _ _ step => step.chunkReady) (fun writing => by cases writing)

/-- The states and events for which the hang-up of `handle_nonzero_errno` reaches `close_connection`. -/
def HangsUp (c : Conn) (w : WriteEvent) : Prop :=
  c.state.expectContinue = false ∧
    if c.routesSendfile then
      c.currentChunk = .null ∨ (∃ data, c.currentChunk = .owned data) ∧ w.lseek = -1
    else c.state.chunkedResponse = false

/-- The callback ends in `close_connection`, and nothing more happens on the connection. -/
def ClosesForGood (base : Environ) (c : Conn) (w : WriteEvent) : Prop :=
  EndsClosed (evIoOnWrite c w) ∧
    ∀ c' events last, evIoOnWrite c w = .ok c' → Run (Step base) c' events last → events = []

theorem closesForGood_iff {base : Environ} {c : Conn} {w : WriteEvent} :
    ClosesForGood base c w ↔ EndsClosed (evIoOnWrite c w) := by
  refine ⟨fun h => h.1, fun h => ⟨h, ?_⟩⟩
  intro c' events last step run
  rw [step] at h
  have closed : c'.evWatcher = .closed := h
  refine (run.of_stuck ?_).1
  rintro event next ⟨on, _⟩
  cases event with
  | read => exact absurd (closed.symm.trans on) (by decide)
  | write => exact absurd (closed.symm.trans on) (by decide)

theorem finishWrite_closes {c : Conn} {state : RwState} (close : c.state.keepAlive = false) :
    EndsClosed (finishWrite c state) ↔ state = .done ∨ state = .aborted ∨
      c.evWatcher = .closed ∧ state = .notYetDone := by
  cases state with
  | notYetDone => simp [finishWrite, EndsClosed, Conn.count]
  | done =>
    have concluded : ¬ (c.count .respDone).state.keepAlive = true := by simp [Conn.count, close]
    have closed := closeConnection_endsClosed ((c.count .respDone).count .respConnClose)
    simpa [finishWrite, concluded] using closed
  | aborted => simpa [finishWrite] using (closeConnection_endsClosed c).bind_count .respAborted
  | expectContinue => simp [finishWrite, EndsClosed, startReading]

theorem evIoOnWrite_fatal {c c' : Conn} {w : WriteEvent} {state : RwState}
    (h : writeResponse c w = .ok (c', state)) (writing : c'.evWatcher = .writing)
    (close : c'.state.keepAlive = false) :
    EndsClosed (evIoOnWrite c w) ↔ c'.state.expectContinue = false ∧ (state = .done ∨ state = .aborted) := by
  simp only [evIoOnWrite, h, ok_bind, finishWrite_closes close]
  cases c'.state.expectContinue <;> simp [writing]

theorem onWriteChunk_fatal {c : Conn} {w : WriteEvent} {data : Bytes} (chunk : c.currentChunk = .owned data)
    (fatal : Fatal w) : onWriteChunk c w = .ok (sendTerminatorChunk c.hungUp) := by
  simp [onWriteChunk, doSendChunk_fatal chunk fatal, Conn.hungUp]

theorem doSendfile_fatal {c : Conn} {content : Bytes} {w : WriteEvent} (fatal : Fatal w) :
    doSendfile c content w = (c.hungUp, false) := by
  have result : w.result = .errno .other := fatal
  simp [doSendfile, result, handleNonzeroErrno, Errno.tryAgain, Conn.hungUp]

/-- A fatal error of `write()` or `sendfile()` closes the connection exactly if the interim flag is clear
and the caller of `handle_nonzero_errno` falls through: a response that is not chunked (or whose last chunk
is under way), the second phase of a file response, or a first phase whose `lseek` fails as well. -/
theorem fatal_error_closes {base : Environ} {clientAddr : Bytes} {parser : HttpParser} {events : List Event}
    {c : Conn} {w : WriteEvent} (run : Run (Step base) (evIoOnRequest clientAddr parser) events c)
    (writing : c.evWatcher = .writing) (fatal : Fatal w) : ClosesForGood base c w ↔ HangsUp c w := by
  rw [closesForGood_iff, HangsUp]
  cases route : c.routesSendfile with
  | false =>
    obtain ⟨data, chunk⟩ := chunkReady_of_run run writing route
    have response := (writeResponse_chunk route w).trans (onWriteChunk_fatal chunk fatal)
    cases chunked : c.state.chunkedResponse with
    | true =>
      have more : sendTerminatorChunk c.hungUp = ({ c.hungUp with
          currentChunk := .owned (ascii "0\r\n\r\n"), state.chunkedResponse := false }, .notYetDone) := by
        simp [sendTerminatorChunk, Conn.hungUp, chunked]
      rw [more] at response
      simpa using evIoOnWrite_fatal response writing rfl
    | false =>
      have concluded : sendTerminatorChunk c.hungUp = (c.hungUp, .done) := by
        simp [sendTerminatorChunk, Conn.hungUp, chunked]
      rw [concluded] at response
      simpa using evIoOnWrite_fatal response writing rfl
  | true =>
    obtain ⟨wrapper, _, _, eq⟩ := writeResponse_sendfile route
    cases chunk : c.currentChunk with
    | null =>
      have response : writeResponse c w = .ok (c.hungUp, .done) := by
        simp [eq, onWriteSendfile, chunk, doSendfile_fatal fatal]
      simpa using evIoOnWrite_fatal response writing rfl
    | owned data =>
      have sending : onWriteSendfile c wrapper.content w =
          .ok ({ c.hungUp with currentChunkP := w.lseek }, if w.lseek = -1 then .aborted else .notYetDone) := by
        have started : c.currentChunk ≠ .null := by simp [chunk]
        simp only [onWriteSendfile, if_pos started, doSendChunk_fatal chunk fatal, ok_bind, Bool.false_eq_true,
          if_false]
        split <;> rfl
      have response := (eq w).trans sending
      have closes := evIoOnWrite_fatal response writing rfl
      by_cases found : w.lseek = -1
      · simpa [found] using closes
      · simpa [found] using closes
    | released =>
      have broken : evIoOnWrite c w = .error (.undefinedBehaviour, c) := by
        simp [evIoOnWrite, eq, onWriteSendfile, chunk, doSendChunk]
      rw [broken]
      simp [EndsClosed]

def http11Get : HttpParser := ⟨1, 1, .get, 0, true⟩

/-- `GET /` in one read. -/
def getRequest : ReadData :=
  ⟨[(http11Get, .messageBegin), (http11Get, .path (ascii "/")), (http11Get, .messageComplete)], http11Get, true⟩

def reset : WriteEvent := ⟨.errno .other, 0, []⟩

/-- A response with a known length is given up at once. -/
theorem fatal_error_closes_known_length : ∃ c,
    Step .empty freshConn (.read ⟨.bytes getRequest, ⟨[lengthArgs], .ok oneItem⟩⟩) c ∧
      ClosesForGood .empty c reset := by
  have step : Step .empty freshConn (.read ⟨.bytes getRequest, ⟨[lengthArgs], .ok oneItem⟩⟩) _ := ⟨rfl, rfl⟩
  exact ⟨_, step, (fatal_error_closes (.single step) rfl (by decide)).mpr ⟨rfl, rfl⟩⟩

/-- The `write()` of a chunked response fails fatally, the connection stays open, and the next `write()`
sends the last chunk after a body that was never sent. -/
theorem terminator_after_fatal_error : ∃ c c' c'',
    Step .empty freshConn (.read ⟨.bytes getRequest, returning oneItem⟩) c ∧ c.evWatcher = .writing ∧
      Fatal reset ∧ ¬ ClosesForGood .empty c reset ∧ Step .empty c (.write reset) c' ∧
      Step .empty c' (.write (accepts 5)) c'' ∧ c''.sent = ascii "0\r\n\r\n" := by
  have step : Step .empty freshConn (.read ⟨.bytes getRequest, returning oneItem⟩) _ := ⟨rfl, rfl⟩
  refine ⟨_, _, _, step, rfl, by decide, ?_, ⟨rfl, rfl⟩, ⟨rfl, rfl⟩, by decide⟩
  rintro ⟨closed, _⟩
  cases closed

end Bjoern
