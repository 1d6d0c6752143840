import Bjoern.ErrorIndicator
import Bjoern.ReadingPhase

namespace Bjoern

open Runs

/-- What a connection has on record. -/
structure Past where
  sent : Bytes
  environs : List Headers
  iterLog : List IterEvent
  metrics : List Metric

/-- `c` with an earlier record before its own. -/
def Conn.after (c : Conn) (p : Past) : Conn :=
  { c with
    sent := p.sent ++ c.sent
    environs := p.environs ++ c.environs
    iterLog := p.iterLog ++ c.iterLog
    metrics := p.metrics ++ c.metrics }

/-- What a computation comes to when it starts with an earlier record, which `g` puts into its result. -/
def later (p : Past) {α β : Type} (g : α → β) : Except Halted α → Except Halted β
  | .ok a => .ok (g a)
  | .error (halt, c) => .error (halt, c.after p)

section
variable {p : Past} {α β γ δ : Type}

theorem later_bind {g : α → β} {k : γ → δ} {x : Except Halted α} {x' : Except Halted β} {f : α → Except Halted γ}
    {f' : β → Except Halted δ} (first : x' = later p g x) (next : ∀ a, f' (g a) = later p k (f a)) :
    x' >>= f' = later p k (x >>= f) := by
  subst first
  cases x with
  | ok a => exact next a
  | error halted => rfl

theorem later_ite {P P' : Prop} [Decidable P] [Decidable P'] {g : α → β} {x y : Except Halted α}
    {x' y' : Except Halted β} (same : P' ↔ P) (first : x' = later p g x) (second : y' = later p g y) :
    (if P' then x' else y') = later p g (if P then x else y) := by
  by_cases holds : P
  · rw [if_pos holds, if_pos (same.mpr holds), first]
  · rw [if_neg holds, if_neg (fun h => holds (same.mp h)), second]

theorem later_eq_ok {g : α → β} {x : Except Halted α} {b : β} :
    later p g x = .ok b ↔ ∃ a, x = .ok a ∧ g a = b := by
  cases x with
  | ok a => simp [later]
  | error halted => simp [later]

end

theorem Conn.after_injective {p : Past} {c d : Conn} (same : c.after p = d.after p) : c = d := by
  cases c
  cases d
  simpa [Conn.after] using same

/-- The record is put before the one of the connection in a pair. -/
def Past.beside (p : Past) {α : Type} (s : Conn × α) : Conn × α := (s.1.after p, s.2)

variable (p : Past) (c : Conn)

theorem Conn.count_after (metric : Metric) : (c.after p).count metric = (c.count metric).after p := by
  simp [Conn.count, Conn.after]

theorem pyErrPrint_after : pyErrPrint (c.after p) = later p (Conn.after · p) (pyErrPrint c) := by
  by_cases exits : c.pyErr = some .systemExit
  · simp [pyErrPrint, later, exits, Conn.after]
  · simp [pyErrPrint, later, exits, Conn.after]

theorem callStartResponses_after (calls : List (List PyArg)) :
    callStartResponses (c.after p) calls = later p (Conn.after · p) (callStartResponses c calls) := by
  have same : (c.after p).toRequest = c.toRequest := rfl
  unfold callStartResponses
  rw [same]
  cases runStartResponses c.toRequest calls with
  | ok r => rfl
  | error halt => rfl

theorem nextChunkLoop_after (steps : PyIter) :
    nextChunkLoop (c.after p) steps = later p p.beside (nextChunkLoop c steps) := by
  induction steps generalizing c with
  | nil => simp [nextChunkLoop, later, Past.beside, Conn.after]
  | cons step rest ih =>
    have pulled : { c.after p with iterator := some rest, iterLog := (c.after p).iterLog ++ [.next] } =
        ({ c with iterator := some rest, iterLog := c.iterLog ++ [.next] } : Conn).after p := by
      simp [Conn.after]
    rw [nextChunkLoop, nextChunkLoop, pulled]
    refine later_bind (callStartResponses_after p _ step.startResponses) fun called => ?_
    cases step.result with
    | error exc => rfl
    | ok item =>
      cases item with
      | bytes data =>
        exact later_ite Iff.rfl (ih called) rfl
      | other => rfl
      | stop => rfl

theorem wsgiIterableGetNextChunk_after :
    wsgiIterableGetNextChunk (c.after p) = later p p.beside (wsgiIterableGetNextChunk c) :=
  nextChunkLoop_after p c (c.iterator.getD [])

theorem takeRetval_after (retval : PyValue) :
    takeRetval (c.after p) retval = later p p.beside (takeRetval c retval) := by
  have same : (c.after p).toRequest = c.toRequest := rfl
  unfold takeRetval
  rw [same]
  cases retvalBranch c.toRequest retval with
  | bytestring data => rfl
  | file => rfl
  | generic =>
    refine later_bind (callStartResponses_after p { c with iterable := some retval } _) fun called => ?_
    cases retval.getIter.result with
    | error exc => rfl
    | ok iterator =>
      refine later_bind (wsgiIterableGetNextChunk_after p { called with iterator := some iterator }) fun pulled => ?_
      exact later_ite Iff.rfl rfl rfl

theorem installResponse_after (firstChunk : Option Bytes) :
    installResponse (c.after p) firstChunk = later p (Conn.after · p) (installResponse c firstChunk) := by
  cases firstChunk with
  | none => rfl
  | some chunk =>
    have same : (c.after p).toRequest = c.toRequest := rfl
    unfold installResponse
    dsimp only
    rw [same]
    refine later_ite Iff.rfl ?_ rfl
    cases wrapHttpChunkCruftAround chunk with
    | none => rfl
    | some wrapped => rfl

theorem wsgiCallApplication_after (app : PyCall PyValue) :
    wsgiCallApplication (c.after p) app = later p p.beside (wsgiCallApplication c app) := by
  have entered : { c.after p with headers := .null, environs := (c.after p).environs ++ [(c.after p).headers] } =
      ({ c with headers := .null, environs := c.environs ++ [c.headers] } : Conn).after p := by
    simp [Conn.after]
  unfold wsgiCallApplication
  rw [entered]
  refine later_bind (callStartResponses_after p _ app.startResponses) fun called => ?_
  cases app.result with
  | error exc => rfl
  | ok retval =>
    refine later_bind (takeRetval_after p called retval) fun ⟨taken, firstChunk⟩ => ?_
    cases firstChunk with
    | none => rfl
    | some firstChunk =>
      exact later_ite Iff.rfl rfl (later_bind (installResponse_after p taken firstChunk) fun installed => rfl)

theorem requestClean_after : requestClean (c.after p) = later p (Conn.after · p) (requestClean c) := by
  have same : (c.after p).iterable = c.iterable := rfl
  unfold requestClean
  rw [same]
  cases c.iterable.map PyValue.closeMethod with
  | none => rfl
  | some close =>
    cases close with
    | absent => rfl
    | lookupRaises exc => exact pyErrPrint_after p { c with pyErr := some exc }
    | returns =>
      have printed := pyErrPrint_after p { c with iterLog := c.iterLog ++ [.close] }
      cases pending : c.pyErr with
      | none => simp [later, Conn.after, pending]
      | some exc => simpa [Conn.after, pending] using printed
    | raises exc =>
      have cleaned : { c.after p with iterLog := (c.after p).iterLog ++ [.close], pyErr := some exc } =
          ({ c with iterLog := c.iterLog ++ [.close], pyErr := some exc } : Conn).after p := by
        simp [Conn.after]
      dsimp only
      rw [cleaned]
      exact pyErrPrint_after p _

theorem closeConnection_after : closeConnection (c.after p) = later p (Conn.after · p) (closeConnection c) :=
  requestClean_after p { c with evWatcher := .closed }

theorem handleNonzeroErrno_after (e : Errno) :
    handleNonzeroErrno (c.after p) e = p.beside (handleNonzeroErrno c e) := by
  by_cases again : e.tryAgain = true
  · simp [handleNonzeroErrno, again, Past.beside]
  · simp [handleNonzeroErrno, again, Past.beside, Conn.after]

theorem doSendChunk_after (w : WriteEvent) : doSendChunk (c.after p) w = later p p.beside (doSendChunk c w) := by
  have chunk : (c.after p).currentChunk = c.currentChunk := rfl
  have position : (c.after p).currentChunkP = c.currentChunkP := rfl
  unfold doSendChunk
  rw [chunk, position]
  cases c.currentChunk with
  | null => rfl
  | released => rfl
  | owned data =>
    cases w.result with
    | errno e => exact congrArg Except.ok (handleNonzeroErrno_after p c e)
    | room n =>
      dsimp only
      split
      · simp [later, Past.beside, Conn.after]
      · simp [later, Past.beside, Conn.after]

theorem doSendfile_after (content : Bytes) (w : WriteEvent) :
    doSendfile (c.after p) content w = p.beside (doSendfile c content w) := by
  have position : (c.after p).currentChunkP = c.currentChunkP := rfl
  unfold doSendfile
  rw [position]
  cases w.result with
  | errno e => exact handleNonzeroErrno_after p c e
  | room n =>
    dsimp only
    split
    · rfl
    · simp [Past.beside, Conn.after]

theorem onWriteSendfile_after (content : Bytes) (w : WriteEvent) :
    onWriteSendfile (c.after p) content w = later p p.beside (onWriteSendfile c content w) := by
  have chunk : (c.after p).currentChunk = c.currentChunk := rfl
  unfold onWriteSendfile
  rw [chunk]
  split
  next =>
    exact later_bind (doSendChunk_after p c w) fun ⟨sent, left⟩ => later_ite Iff.rfl rfl (later_ite Iff.rfl rfl rfl)
  next =>
    rw [doSendfile_after]
    rfl

theorem sendTerminatorChunk_after : sendTerminatorChunk (c.after p) = p.beside (sendTerminatorChunk c) := by
  have chunked : (c.after p).state.chunkedResponse = c.state.chunkedResponse := rfl
  unfold sendTerminatorChunk
  rw [chunked]
  split
  next => rfl
  next => rfl

theorem onWriteChunk_after (w : WriteEvent) : onWriteChunk (c.after p) w = later p p.beside (onWriteChunk c w) := by
  unfold onWriteChunk
  refine later_bind (doSendChunk_after p c w) fun ⟨sent, left⟩ => later_ite Iff.rfl rfl (later_ite Iff.rfl ?_ ?_)
  · refine later_bind (wsgiIterableGetNextChunk_after p sent) fun ⟨pulled, nextChunk⟩ => ?_
    cases nextChunk with
    | some chunk =>
      refine later_ite Iff.rfl ?_ rfl
      cases wrapHttpChunkCruftAround chunk with
      | none => rfl
      | some wrapped => rfl
    | none =>
      exact later_ite Iff.rfl (later_bind (pyErrPrint_after p pulled) fun printed => rfl)
        (congrArg Except.ok (sendTerminatorChunk_after p { pulled with iterator := none }))
  · exact congrArg Except.ok (sendTerminatorChunk_after p sent)

theorem writeResponse_after (w : WriteEvent) :
    writeResponse (c.after p) w = later p p.beside (writeResponse c w) := by
  have same : (c.after p).iterable = c.iterable := rfl
  unfold writeResponse
  rw [same]
  split
  next wrapper _ =>
    exact later_ite Iff.rfl (onWriteSendfile_after p c wrapper.content w) (onWriteChunk_after p c w)
  next => exact onWriteChunk_after p c w

theorem finishWrite_after (state : RwState) :
    finishWrite (c.after p) state = later p (Conn.after · p) (finishWrite c state) := by
  cases state with
  | notYetDone => exact congrArg Except.ok (c.count_after p .respActive)
  | expectContinue => rfl
  | done =>
    unfold finishWrite
    dsimp only
    rw [Conn.count_after, Conn.count_after, Conn.count_after]
    exact later_ite Iff.rfl (later_bind (requestClean_after p _) fun cleaned => rfl) (closeConnection_after p _)
  | aborted =>
    exact later_bind (closeConnection_after p c) fun closed => congrArg Except.ok (closed.count_after p .respAborted)

theorem evIoOnWrite_after (w : WriteEvent) :
    evIoOnWrite (c.after p) w = later p (Conn.after · p) (evIoOnWrite c w) :=
  later_bind (writeResponse_after p c w) fun ⟨written, _⟩ => finishWrite_after p written _

theorem runCallback_after (base : Environ) (parser : HttpParser) (callback : Callback) :
    (c.after p).runCallback base parser callback = later p p.beside (c.runCallback base parser callback) := by
  have request : (c.after p).toRequest = c.toRequest := rfl
  have ends : ∀ completed, (c.after p).callbackEnd callback completed = c.callbackEnd callback completed := fun _ => rfl
  unfold Conn.runCallback
  dsimp only
  rw [request, ends]
  cases c.callbackEnd callback (runCallback base c.toRequest parser callback).2 <;> rfl

theorem runCallbacks_after (base : Environ) (fired : List (HttpParser × Callback)) :
    (c.after p).runCallbacks base fired = later p p.beside (c.runCallbacks base fired) := by
  induction fired generalizing c with
  | nil => rfl
  | cons head rest ih =>
    exact later_bind (runCallback_after p c base head.1 head.2) fun ⟨called, completed⟩ =>
      later_ite Iff.rfl (ih called) rfl

theorem requestParse_after (base : Environ) (data : ReadData) :
    (c.after p).requestParse base data = later p (Conn.after · p) (c.requestParse base data) :=
  later_bind (runCallbacks_after p c base data.fired) fun ⟨_, _⟩ => later_ite Iff.rfl rfl rfl

theorem respond_after (app : PyCall PyValue) :
    respond (c.after p) app = later p (Conn.after · p) (respond c app) := by
  unfold respond
  rw [Conn.count_after]
  refine later_ite Iff.rfl rfl (later_bind (wsgiCallApplication_after p _ app) fun ⟨called, answered⟩ => ?_)
  refine later_ite Iff.rfl rfl (later_bind (pyErrPrint_after p called) fun printed => ?_)
  exact congrArg Except.ok (Conn.count_after p
    { printed with iterator := none, currentChunk := .owned (httpErrorMessages .serverError) } .reqErrorInternal)

theorem parseBytes_after (base : Environ) (data : ReadData) (app : PyCall PyValue) :
    parseBytes base (c.after p) data app = later p p.beside (parseBytes base c data app) := by
  unfold parseBytes
  refine later_bind (requestParse_after p c base data) fun parsed => ?_
  have same : (parsed.after p).state = parsed.state := rfl
  rw [same]
  cases parsed.state.errorCode with
  | some code => simp [later, Past.beside, Conn.after, Conn.count]
  | none => exact later_ite Iff.rfl (later_bind (respond_after p parsed app) fun c => rfl) (later_ite Iff.rfl rfl rfl)

theorem readRequest_after (base : Environ) (e : ReadEvent) :
    readRequest base (c.after p) e = later p p.beside (readRequest base c e) := by
  unfold readRequest
  cases e.result with
  | eof => exact congrArg (fun c => Except.ok (c, RwState.aborted)) (c.count_after p .reqErrorClientDisconnected)
  | errno errno =>
    refine later_ite Iff.rfl rfl ?_
    exact congrArg (fun c => Except.ok (c, RwState.aborted)) (c.count_after p .reqErrorRead)
  | bytes data => exact parseBytes_after p c base data e.app

theorem finishRead_after (state : RwState) :
    finishRead (c.after p) state = later p (Conn.after · p) (finishRead c state) := by
  cases state with
  | notYetDone => exact congrArg Except.ok (c.count_after p .reqActive)
  | expectContinue => rfl
  | done => exact congrArg Except.ok (Conn.count_after p (startWriting c) .reqDone)
  | aborted =>
    exact later_bind (closeConnection_after p c) fun closed => congrArg Except.ok (closed.count_after p .reqAborted)

/-- No callback looks at what is on record. -/
theorem handle_after (base : Environ) (event : Event) :
    handle base (c.after p) event = later p (Conn.after · p) (handle base c event) := by
  cases event with
  | read e => exact later_bind (readRequest_after p c base e) fun ⟨read, state⟩ => finishRead_after p read state
  | write w => exact evIoOnWrite_after p c w

theorem step_after {base : Environ} {event : Event} {d : Conn} :
    Step base (c.after p) event d ↔ ∃ c', Step base c event c' ∧ c'.after p = d := by
  have same : enabled (c.after p) event = enabled c event := by
    cases event <;> rfl
  rw [Step, handle_after, later_eq_ok, same]
  constructor
  · rintro ⟨on, c', step, eq⟩
    exact ⟨c', ⟨on, step⟩, eq⟩
  · rintro ⟨c', ⟨on, step⟩, eq⟩
    exact ⟨on, c', step, eq⟩

theorem run_after {base : Environ} {events : List Event} {d : Conn} :
    Run (Step base) (c.after p) events d ↔ ∃ c', Run (Step base) c events c' ∧ c'.after p = d := by
  constructor
  · intro run
    obtain ⟨c', own, eq⟩ := run.simulate (Step base) (fun d c => c.after p = d)
      (fun d c event d' related step => by
        subst related
        obtain ⟨c', own, eq⟩ := (step_after p c).mp step
        exact ⟨c', own, eq⟩) rfl
    exact ⟨c', own, eq⟩
  · rintro ⟨c', own, rfl⟩
    obtain ⟨d, run, rfl⟩ := own.simulate (Step base) (fun c d => c.after p = d)
      (fun c d event c' related step => by
        subst related
        exact ⟨c'.after p, (step_after p c).mpr ⟨c', step, rfl⟩, rfl⟩) rfl
    exact run

def Conn.past (c : Conn) : Past := ⟨c.sent, c.environs, c.iterLog, c.metrics⟩

/-- A connection with nothing on record, not even its own `accept()`, while the exception `exc` is pending. -/
def blankConn (clientAddr : Bytes) (parser : HttpParser) (exc : Option PyExc) : Conn :=
  { evIoOnRequest clientAddr parser with metrics := [], pyErr := exc }

/-- What is on record when `ev_io_on_request` returns. -/
def acceptPast : Past := ⟨[], [], [], [.connAcceptSuccess]⟩

variable {c}

/-- A write that keeps the connection has reset it. -/
theorem reset_of_kept {c' : Conn} {w : WriteEvent} (answering : c.state.expectContinue = false)
    (writing : c.evWatcher = .writing) (step : evIoOnWrite c w = .ok c') (kept : c'.evWatcher = .reading) :
    requestReset c'.toRequest = c'.toRequest := by
  obtain ⟨⟨mid, state⟩, hm, step⟩ := bind_ok step
  obtain ⟨frame, plain⟩ := writeResponse_frame hm
  have same : mid.state.expectContinue = false := frame.expectContinue.trans answering
  have step : finishWrite mid state = .ok c' := by simpa [same] using step
  cases state with
  | notYetDone =>
    cases step
    cases kept.symm.trans (frame.evWatcher.trans writing)
  | done =>
    unfold finishWrite at step
    dsimp only at step
    split at step
    next =>
      obtain ⟨cleaned, _, step⟩ := bind_ok step
      cases step
      rfl
    next =>
      obtain ⟨_, _, rfl⟩ := requestClean_ok step
      cases kept
  | aborted =>
    obtain ⟨closed, closing, step⟩ := bind_ok step
    obtain ⟨_, _, rfl⟩ := requestClean_ok closing
    cases step
    cases kept
  | expectContinue => exact absurd rfl plain

/-- `Request_reset` leaves nothing of the requests before but the record. -/
theorem blank_after (reading : c.evWatcher = .reading) (reset : requestReset c.toRequest = c.toRequest) :
    (blankConn c.clientAddr c.parser.parser c.pyErr).after c.past = c := by
  have request : (blankConn c.clientAddr c.parser.parser c.pyErr).toRequest = c.toRequest := by
    rw [← reset]
    simp [blankConn, evIoOnRequest, requestNew, requestReset, reading]
  have record : (blankConn c.clientAddr c.parser.parser c.pyErr).after c.past =
      { c with toRequest := (blankConn c.clientAddr c.parser.parser c.pyErr).toRequest } := by
    simp [blankConn, evIoOnRequest, Conn.after, Conn.past]
  rw [record, request]

/-- On a connection that was kept after a response, everything goes on as on a new connection with the parser that
is left, whatever exception is pending in the thread: the requests before have no influence on which events it takes,
what it sends and calls, and how it ends. No exception is pending while no expectation stands where a request is
answered. -/
theorem kept_serves_as_new {base : Environ} {c c' : Conn} {w : WriteEvent} (answering : c.state.expectContinue = false)
    (step : Step base c (.write w) c') (kept : c'.evWatcher = .reading) :
    (∀ later d, Run (Step base) c' later d ↔ ∃ own,
      Run (Step base) { evIoOnRequest c'.clientAddr c'.parser.parser with pyErr := c'.pyErr } later
        (Conn.after own acceptPast) ∧ Conn.after own c'.past = d) ∧
    ∀ clientAddr parser events, Run (Guarded Unawaited (Step base)) (evIoOnRequest clientAddr parser) events c →
      c'.pyErr = none := by
  constructor
  · intro later d
    have same := blank_after kept (reset_of_kept answering step.1 step.2 kept)
    have accepted : ({ evIoOnRequest c'.clientAddr c'.parser.parser with pyErr := c'.pyErr } : Conn) =
        (blankConn c'.clientAddr c'.parser.parser c'.pyErr).after acceptPast := rfl
    have runs : Run (Step base) (Conn.after (blankConn c'.clientAddr c'.parser.parser c'.pyErr) c'.past) later d ↔ _ :=
      run_after c'.past (blankConn c'.clientAddr c'.parser.parser c'.pyErr)
    rw [same] at runs
    rw [accepted, runs]
    constructor
    · rintro ⟨own, run, rfl⟩
      exact ⟨own, (run_after _ _).mpr ⟨own, run, rfl⟩, rfl⟩
    · rintro ⟨own, run, rfl⟩
      obtain ⟨own', run, same⟩ := (run_after _ _).mp run
      exact ⟨own', run, by rw [Conn.after_injective same]⟩
  · intro clientAddr parser events run
    have undisturbed := run.invariant Undisturbed (fun _ _ _ inv step => inv.unawaited step)
      (evIoOnRequest_undisturbed clientAddr parser)
    have unawaited : Unawaited c (.write w) := trivial
    exact (undisturbed.unawaited ⟨unawaited, step⟩).idle

/-- Whatever comes after one chunked response. -/
theorem kept_serves_as_new_hello : ∃ c c', Run (Guarded Unawaited (Step .empty)) freshConn
      [.read ⟨.bytes getRequest, returning oneItem⟩, .write (accepts 1000)] c ∧
    Step .empty c (.write (accepts 1000)) c' ∧ c'.sent ≠ [] ∧ ∀ later d, Run (Step .empty) c' later d ↔
      ∃ own, Run (Step .empty) freshConn later (Conn.after own acceptPast) ∧ Conn.after own c'.past = d := by
  have start : ∃ c, Run (Guarded Unawaited (Step .empty)) freshConn
      [.read ⟨.bytes getRequest, returning oneItem⟩, .write (accepts 1000)] c ∧ c.state.expectContinue = false ∧
      ∃ c', Step .empty c (.write (accepts 1000)) c' ∧ c'.sent ≠ [] ∧ c'.evWatcher = .reading ∧
        evIoOnRequest c'.clientAddr c'.parser.parser = freshConn :=
    ⟨_, .cons ⟨getRequest_unawaited rfl _, rfl, rfl⟩ (.single ⟨trivial, rfl, rfl⟩), rfl, _, ⟨rfl, rfl⟩, by decide, rfl,
      rfl⟩
  obtain ⟨c, run, answering, c', step, sent, reading, new⟩ := start
  obtain ⟨serves, idle⟩ := kept_serves_as_new answering step reading
  have nothing : ({ evIoOnRequest c'.clientAddr c'.parser.parser with pyErr := c'.pyErr } : Conn) = freshConn := by
    rw [idle [] http11Get _ run, new]
    rfl
  rw [nothing] at serves
  exact ⟨c, c', run, step, sent, serves⟩

end Bjoern
