import Bjoern.ErrorResponses
import Bjoern.InterimResponse

namespace Bjoern

open Runs

/-- The pointer owns an object, which is lost when the pointer is overwritten. -/
def ChunkRef.Owns (chunk : ChunkRef) : Prop := ∃ data, chunk = .owned data

/-- `on_message_begin` assigns `headers` while the dictionary of the message before is there. -/
def BeginsOver (base : Environ) (r : Request) : List (HttpParser × Callback) → Prop
  | [] => False
  | x :: rest => x.2 = .messageBegin ∧ r.headers ≠ .null ∨
      ∃ mid, runCallback base r x.1 x.2 = (mid, true) ∧ BeginsOver base mid rest

/-- `start_response` gets to the assignment of `status`. -/
def SetsStatus (r : Request) : List PyArg → Prop
  | [_, _] => r.state.startResponseCalled = false
  | [_, _, .none] => r.state.startResponseCalled = false
  | [_, _, .tuple [type, _, _]] => r.state.wsgiCallDone = false ∧ type = .excType .other
  | _ => False

/-- The assignments of `start_response`: `status`, and after a good one `headers`. -/
def startResponseLoses (r : Request) (args : List PyArg) : Prop :=
  SetsStatus r args ∧ ((clearResponse r).status ≠ none ∨
    (clearResponse r).headers ≠ .null ∧ ∃ bytes, asLatin1String (args.headD .none) = some bytes ∧ 3 ≤ bytes.length)

/-- Python code that makes `calls` one after the other calls `start_response` with `args` when the request is `r`. -/
def Calls (before : Request) (calls : List (List PyArg)) (r : Request) (args : List PyArg) : Prop :=
  ∃ past later, calls = past ++ args :: later ∧ runStartResponses before past = .ok r

/-- The calls of `start_response` in `wsgi_iterable_get_next_chunk`. -/
inductive NextCalls : Conn → PyIter → Request → List PyArg → Prop
  | here {c step rest r args} : Calls { c.toRequest with iterator := some rest } step.startResponses r args →
      NextCalls c (step :: rest) r args
  | later {c mid step rest r args} :
      callStartResponses { c with iterator := some rest, iterLog := c.iterLog ++ [.next] } step.startResponses =
        .ok mid →
      step.result = .ok (.bytes []) → NextCalls mid rest r args → NextCalls c (step :: rest) r args

/-- The calls of `start_response` in `wsgi_call_application`: by the application, by `__iter__` of what it returns,
and while the first chunk is read. -/
inductive AppCalls (c : Conn) (app : PyCall PyValue) (r : Request) (args : List PyArg) : Prop
  | application : Calls { c.toRequest with headers := .null } app.startResponses r args → AppCalls c app r args
  | iter {start retval} : CallsMade c app start → app.result = .ok retval → retvalBranch start retval = .generic →
      Calls { start with iterable := some retval } retval.getIter.startResponses r args → AppCalls c app r args
  | next {start retval mid steps} : CallsMade c app start → app.result = .ok retval →
      retvalBranch start retval = .generic →
      callStartResponses { c.entered start with iterable := some retval } retval.getIter.startResponses = .ok mid →
      retval.getIter.result = .ok steps → NextCalls { mid with iterator := some steps } steps r args →
      AppCalls c app r args

/-- The assignments of `wsgi_call_application`: those of `start_response`, `iterable` and `iterator` when the
application has returned, and `current_chunk` at the end. -/
def wsgiCallApplicationLoses (c : Conn) (app : PyCall PyValue) : Prop :=
  (∃ r args, AppCalls c app r args ∧ startResponseLoses r args) ∨
    (∃ start retval, CallsMade c app start ∧ app.result = .ok retval ∧
      (start.iterable ≠ none ∨ start.iterator ≠ none)) ∨
    ∃ answered, wsgiCallApplication c app = .ok (answered, true) ∧ c.currentChunk.Owns

/-- The assignments of `ev_io_on_read`, and `Request_free`, which does not give up `current_chunk`. -/
def evIoOnReadLoses (base : Environ) (c : Conn) (e : ReadEvent) : Prop :=
  match e.result with
  | .eof => c.currentChunk.Owns
  | .errno errno => errno.tryAgain = false ∧ c.currentChunk.Owns
  | .bytes data => BeginsOver base c.toRequest data.fired ∨
      if (c.parsed base data).state.errorCode.isSome then (c.parsed base data).currentChunk.Owns
      else if (c.parsed base data).state.parseFinished then
        wsgiCallApplicationLoses ((c.parsed base data).count .reqSuccessRead) e.app ∨
          ∃ called, wsgiCallApplication ((c.parsed base data).count .reqSuccessRead) e.app = .ok (called, false) ∧
            called.currentChunk.Owns
      else (c.parsed base data).state.expectContinue = true ∧ (c.parsed base data).currentChunk.Owns

/-- The assignments of `on_write_chunk`, once the chunk before is sent. -/
def onWriteChunkLoses (c : Conn) (w : WriteEvent) : Prop :=
  ∃ mid, doSendChunk c w = .ok (mid, false) ∧
    match mid.iterator with
    | some steps => (∃ r args, NextCalls mid steps r args ∧ startResponseLoses r args) ∨
        ∃ last nextChunk, wsgiIterableGetNextChunk mid = .ok (last, nextChunk) ∧ last.currentChunk.Owns ∧
          (nextChunk = none → last.pyErr = none ∧ last.state.chunkedResponse = true)
    | none => mid.state.chunkedResponse = true ∧ mid.currentChunk.Owns

/-- `Request_clean` gives up all pointers but `current_chunk`, before `Request_reset` and before the request is
freed. -/
def finishWriteLoses (c : Conn) : RwState → Prop
  | .done => c.currentChunk.Owns
  | .aborted => c.currentChunk.Owns
  | _ => False

def evIoOnWriteLoses (c : Conn) (w : WriteEvent) : Prop :=
  (c.routesSendfile = false ∧ onWriteChunkLoses c w) ∨
    ∃ mid state, writeResponse c w = .ok (mid, state) ∧
      finishWriteLoses mid (if mid.state.expectContinue then .expectContinue else state)

/-- The callback for an event overwrites a pointer of the request, or frees it, while it owns an object. -/
def Loses (base : Environ) (c : Conn) : Event → Prop
  | .read e => evIoOnReadLoses base c e
  | .write w => evIoOnWriteLoses c w

/-- `start_response` is called again after a call that took its status and then failed. -/
def Retries (c : Conn) (app : PyCall PyValue) : Prop :=
  ∃ r args, AppCalls c app r args ∧ SetsStatus r args ∧ r.state.startResponseCalled = false ∧ r.status ≠ none

theorem startResponseLoses_iff {r : Request} {args : List PyArg} (framed : Framed r) :
    startResponseLoses r args ↔ SetsStatus r args ∧ r.state.startResponseCalled = false ∧ r.status ≠ none := by
  unfold startResponseLoses clearResponse
  refine and_congr_right fun _ => ?_
  cases called : r.state.startResponseCalled with
  | true => simp
  | false =>
    have null : r.headers = .null := by
      rcases framed with null | ⟨started, _⟩
      · exact null
      · cases called.symm.trans started
    simp [null]

/-- Once the header block is made, `start_response` does not get to its assignments. -/
theorem startResponse_late {r : Request} (called : r.state.startResponseCalled = true)
    (done : r.state.wsgiCallDone = true) (args : List PyArg) : ¬ startResponseLoses r args := by
  rintro ⟨sets, _⟩
  unfold SetsStatus at sets
  split at sets
  next => cases called.symm.trans sets
  next => cases called.symm.trans sets
  next => cases done.symm.trans sets.1
  next => exact sets

theorem startResponse_started : KeptByStart fun _ state =>
    state.startResponseCalled = true ∧ state.wsgiCallDone = true := by
  intro r args r' succeeded started h
  have cleared : (clearResponse r).state.startResponseCalled = true ∧ (clearResponse r).state.wsgiCallDone = true := by
    rw [clearResponse, if_pos started.1]
    exact started
  cases startResponse_outcome h with
  | success => exact ⟨rfl, cleared.2⟩
  | failure _ failed =>
    rw [failed.state]
    exact cleared

theorem NextCalls.keeps {P : Headers → RequestState → Prop} {c : Conn} {steps : PyIter} {r : Request}
    {args : List PyArg} (keeps : KeptByStart P) (h : NextCalls c steps r args) (own : P c.headers c.state) :
    P r.headers r.state := by
  induction h with
  | here made =>
    obtain ⟨_, _, _, past⟩ := made
    exact keeps.run (by exact own) past
  | later called _ _ ih => exact ih (keeps.call (by exact own) called)

theorem AppCalls.framed {c : Conn} {app : PyCall PyValue} {r : Request} {args : List PyArg}
    (h : AppCalls c app r args) : Framed r := by
  cases h with
  | application called =>
    obtain ⟨_, _, _, past⟩ := called
    exact framed_kept.run (Or.inl rfl) past
  | @iter start retval calls _ _ called =>
    obtain ⟨_, _, _, past⟩ := called
    have own : Framed start := framed_kept.run (Or.inl rfl) calls
    exact framed_kept.run (by exact own) past
  | @next start retval mid steps calls _ _ called _ next =>
    have own : Framed start := framed_kept.run (Or.inl rfl) calls
    have own' : Framed mid.toRequest := framed_kept.call (by exact own) called
    exact next.keeps framed_kept (by exact own')

theorem doSendChunk_gone {c c' : Conn} {w : WriteEvent} (h : doSendChunk c w = .ok (c', false)) :
    ¬ c'.currentChunk.Owns := by
  rintro ⟨data, owned⟩
  unfold doSendChunk at h
  split at h
  next chunk =>
    split at h
    next e _ =>
      unfold handleNonzeroErrno at h
      split at h
      next => cases h
      next =>
        cases h
        simp [chunk, ChunkRef.release] at owned
    next =>
      dsimp only at h
      split at h
      next =>
        cases h
        cases owned
      next => cases h
  next => cases h

theorem doSendChunk_more {c c' : Conn} {w : WriteEvent} (h : doSendChunk c w = .ok (c', true)) :
    c'.currentChunk = c.currentChunk := by
  unfold doSendChunk at h
  split at h
  next =>
    split at h
    next e _ =>
      unfold handleNonzeroErrno at h
      split at h
      next =>
        cases h
        rfl
      next => cases h
    next =>
      dsimp only at h
      split at h
      next => cases h
      next =>
        cases h
        rfl
  next => cases h

theorem NextOutcome.currentChunk {c c' : Conn} {steps : PyIter} {chunk : Option Bytes}
    (h : NextOutcome c steps c' chunk) : c'.currentChunk = c.currentChunk := by
  cases h with
  | chunk => rfl
  | stopped => rfl
  | failed => rfl

theorem sendTerminatorChunk_done {c c' : Conn} {state : RwState} (h : sendTerminatorChunk c = (c', state))
    (ended : state ≠ .notYetDone) : c' = c := by
  unfold sendTerminatorChunk at h
  split at h
  next =>
    cases h
    exact absurd rfl ended
  next =>
    cases h
    rfl

/-- A write that ends a response leaves no chunk behind. -/
theorem writeResponse_ended {c c' : Conn} {w : WriteEvent} {state : RwState}
    (h : writeResponse c w = .ok (c', state)) (ended : state ≠ .notYetDone) : ¬ c'.currentChunk.Owns := by
  cases route : c.routesSendfile with
  | true =>
    obtain ⟨wrapper, _, _, eq⟩ := writeResponse_sendfile route
    rw [eq] at h
    unfold onWriteSendfile at h
    split at h
    next =>
      obtain ⟨⟨mid, left⟩, hm, h⟩ := bind_ok h
      dsimp only at h
      split at h
      next =>
        cases h
        exact absurd rfl ended
      next whole =>
        have whole : left = false := by simpa using whole
        subst whole
        have gone := doSendChunk_gone hm
        split at h
        next =>
          cases h
          exact gone
        next =>
          cases h
          exact absurd rfl ended
    next none =>
      have null := doSendfile_chunk (by simpa using none) wrapper.content w
      cases h
      rintro ⟨_, owned⟩
      cases null.symm.trans owned
  | false =>
    rw [writeResponse_chunk route] at h
    cases onWriteChunk_outcome h with
    | part => exact absurd rfl ended
    | chunk => exact absurd rfl ended
    | failed sent _ next _ =>
      have gone := doSendChunk_gone sent
      rw [← next.currentChunk] at gone
      exact gone
    | stopped sent _ next _ terminated =>
      have gone := doSendChunk_gone sent
      rw [← next.currentChunk] at gone
      rw [sendTerminatorChunk_done terminated ended]
      exact gone
    | concluded sent _ terminated =>
      rw [sendTerminatorChunk_done terminated ended]
      exact doSendChunk_gone sent

/-- Whoever iterates has called `start_response`, before the header block was made. -/
def Started (c : Conn) : Prop :=
  c.iterator ≠ none → c.state.startResponseCalled = true ∧ c.state.wsgiCallDone = true

theorem evIoOnWrite_keeps_references {c : Conn} (started : Started c) (w : WriteEvent) : ¬ evIoOnWriteLoses c w := by
  rintro (⟨_, mid, sent, loses⟩ | ⟨mid, state, written, loses⟩)
  · have gone := doSendChunk_gone sent
    split at loses
    next steps more =>
      have iterating : c.iterator ≠ none := by
        intro none
        cases more.symm.trans ((doSendChunk_frame sent).iterator none).1
      have flags : KeptByFlags fun _ state => state.startResponseCalled = true ∧ state.wsgiCallDone = true :=
        fun _ _ _ _ own => own
      have own := doSendChunk_keeps flags (started iterating) sent
      rcases loses with ⟨r, args, called, loses⟩ | ⟨last, chunk, pulled, owns, _⟩
      · have late := called.keeps startResponse_started own
        exact startResponse_late late.1 late.2 args loses
      · rw [wsgiIterableGetNextChunk_loop more] at pulled
        rw [(nextChunkLoop_outcome pulled).currentChunk] at owns
        exact gone owns
    next => exact gone loses.2
  · split at loses
    next => exact loses
    next =>
      cases state with
      | notYetDone => exact loses
      | expectContinue => exact loses
      | done => exact writeResponse_ended written (by simp) loses
      | aborted => exact writeResponse_ended written (by simp) loses

/-- No object of a response is there but the rest of an interim message. -/
structure Blank (c : Conn) : Prop where
  untouched : Untouched c
  status : c.status = none
  called : c.state.startResponseCalled = false
  rest : ∀ data, c.currentChunk = .owned data → data = continueMessage

/-- What the request holds in the states of its connection. -/
structure Holding (c : Conn) : Prop where
  idle : c.pyErr = none
  started : c.evWatcher = .writing → Started c
  blank : c.evWatcher = .reading ∨ c.evWatcher = .writing ∧ c.state.expectContinue = true → Blank c

theorem Blank.parsed {base : Environ} {c : Conn} {data : ReadData} (h : Blank c) (parses : Parses base c data) :
    Blank (c.parsed base data) := by
  have frame := (c.parsed_frame base data).request
  refine ⟨h.untouched.parsed parses, frame.status.trans h.status, frame.startResponseCalled.trans h.called, ?_⟩
  intro rest owned
  exact h.rest rest (frame.currentChunk.symm.trans owned)

theorem Holding.of_blank {c : Conn} (h : Blank c) : Holding c :=
  ⟨h.untouched.idle, fun _ iterating => absurd h.untouched.iterator iterating, fun _ => h⟩

theorem Holding.of_closed {c : Conn} (idle : c.pyErr = none) (closed : c.evWatcher = .closed) : Holding c := by
  refine ⟨idle, fun writing => ?_, ?_⟩
  · cases closed.symm.trans writing
  · rintro (reading | ⟨writing, _⟩)
    · cases closed.symm.trans reading
    · cases closed.symm.trans writing

theorem Holding.of_response {c : Conn} (idle : c.pyErr = none) (started : Started c) (writing : c.evWatcher = .writing)
    (clear : c.state.expectContinue = false) : Holding c := by
  refine ⟨idle, fun _ => started, ?_⟩
  rintro (reading | ⟨_, expects⟩)
  · cases writing.symm.trans reading
  · cases clear.symm.trans expects

/-- An answer whose headers were set is there when `start_response` was called. -/
theorem wsgiCallApplication_started {c c' : Conn} {app : PyCall PyValue}
    (h : wsgiCallApplication c app = .ok (c', true)) :
    c'.state.startResponseCalled = true ∧ c'.state.wsgiCallDone = true := by
  obtain ⟨mid, data, framed, headers, _, _, rfl⟩ := wsgiCallApplication_framed h
  obtain ⟨_, _, _, eq⟩ := mid.installed_frame data
  rw [eq]
  rcases framed with null | ⟨called, _⟩
  · exact absurd null headers
  · exact ⟨called, rfl⟩

theorem Holding.read {base : Environ} {c c' : Conn} {e : ReadEvent} (h : Holding c)
    (unexpected : AnswersUnexpected base c (.read e)) (step : Step base c (.read e) c') : Holding c' := by
  obtain ⟨reading, step⟩ := step
  have blank := h.blank (Or.inl reading)
  by_cases some : ∃ data, e.result = .bytes data
  · obtain ⟨data, bytes⟩ := some
    have parsed := blank.parsed (evIoOnRead_parses step bytes)
    rcases (evIoOnRead_outcome step).of_bytes bytes with ⟨code, failed, rfl⟩ | ⟨_, _, _, rfl⟩ | ⟨_, _, _, rfl⟩ |
      ⟨_, finished, called, answered, call, result⟩
    · exact .of_response parsed.untouched.idle (fun iterating => absurd parsed.untouched.iterator iterating) rfl
        (unexpected data bytes (Or.inl (by simp [failed])))
    · exact .of_blank ⟨parsed.untouched.count .reqActive, parsed.status, parsed.called, parsed.rest⟩
    · refine .of_blank ⟨parsed.untouched.besides _ _ _ _ _ _, parsed.status, parsed.called, ?_⟩
      rintro _ ⟨⟩
      rfl
    · obtain ⟨r, made, app⟩ := wsgiCallApplication_outcome call
      have clear := (app.frame made).expectContinue.trans (unexpected data bytes (Or.inr finished))
      rcases result with ⟨rfl, rfl⟩ | ⟨rfl, rfl⟩
      · have started := wsgiCallApplication_started call
        exact .of_response (app.idle parsed.untouched.idle) (fun _ => started) rfl clear
      · exact .of_response rfl (fun iterating => absurd rfl iterating) rfl clear
  · rcases evIoOnRead_noBytes step h.idle (fun data bytes => some ⟨data, bytes⟩) with rfl | ⟨metric, closed⟩
    · exact .of_blank ⟨blank.untouched.count .reqActive, blank.status, blank.called, blank.rest⟩
    · exact .of_closed closed.idle closed.evWatcher

/-- A write of an interim message leaves it where it is, or gives it up. -/
theorem interim_chunk {c c' : Conn} {w : WriteEvent} {state : RwState} (untouched : Untouched c)
    (h : writeResponse c w = .ok (c', state)) :
    ∀ data, c'.currentChunk = .owned data → c.currentChunk = .owned data := by
  intro data owned
  have direct : c.routesSendfile = false := by simp [Conn.routesSendfile, untouched.iterable]
  by_cases ended : state = .notYetDone
  · subst ended
    rw [writeResponse_chunk direct] at h
    cases onWriteChunk_outcome h with
    | part sent => exact (doSendChunk_more sent).symm.trans owned
    | chunk sent more =>
      cases more.symm.trans ((doSendChunk_frame sent).iterator untouched.iterator).1
    | stopped sent more =>
      cases more.symm.trans ((doSendChunk_frame sent).iterator untouched.iterator).1
    | concluded sent _ terminated =>
      have plain := (doSendChunk_frame sent).chunkedResponse untouched.chunkedResponse
      rw [sendTerminatorChunk, if_neg (by simp [plain])] at terminated
      cases terminated
  · exact absurd ⟨data, owned⟩ (writeResponse_ended h ended)

theorem Holding.write {base : Environ} {c c' : Conn} {w : WriteEvent} (h : Holding c)
    (step : Step base c (.write w) c') : Holding c' := by
  obtain ⟨writing, step⟩ := step
  obtain ⟨⟨mid, state⟩, hm, finish⟩ := bind_ok step
  have frame := (writeResponse_frame hm).1
  have flags : KeptByFlags fun _ state => state.startResponseCalled = true ∧ state.wsgiCallDone = true :=
    fun _ _ _ _ own => own
  have started : Started mid := by
    intro iterating
    have before : c.iterator ≠ none := fun none => iterating (frame.iterator none).1
    exact startResponse_started.write flags (h.started writing before) hm
  cases expects : c.state.expectContinue with
  | true =>
    have blank := h.blank (Or.inr ⟨writing, expects⟩)
    have chunk := interim_chunk blank.untouched hm
    obtain ⟨_, _, _, _, rfl⟩ := writeResponse_untouched blank.untouched hm
    dsimp only at finish
    rw [if_pos expects] at finish
    cases finish
    exact .of_blank ⟨blank.untouched.besides _ _ _ _ _ _, blank.status, blank.called,
      fun data owned => blank.rest data (chunk data owned)⟩
  | false =>
    have clear : mid.state.expectContinue = false := frame.expectContinue.trans expects
    dsimp only at finish
    rw [if_neg (by simp [clear])] at finish
    have idle := frame.idle h.idle
    cases state with
    | notYetDone =>
      cases finish
      exact .of_response idle started (frame.evWatcher.trans writing) clear
    | expectContinue => exact absurd rfl (writeResponse_frame hm).2
    | done =>
      have finished := finishWrite_done idle
      rw [finish] at finished
      have last := finished.of_ok.2
      split at last
      next =>
        have ready := last.ready
        refine .of_blank ⟨ready.untouched, ?_, ?_, ?_⟩
        · rw [← ready.reset]
          rfl
        · rw [← ready.reset]
          rfl
        · rw [← ready.reset]
          rintro _ ⟨⟩
      next => exact .of_closed last.idle last.evWatcher
    | aborted =>
      have finished := finishWrite_aborted idle
      rw [finish] at finished
      exact .of_closed finished.of_ok.2.idle finished.of_ok.2.evWatcher

/-- A message begins among the callbacks, behind others that have returned 0, while one has begun that is not answered
yet. -/
def BeginsAgain (base : Environ) (r : Request) (fired : List (HttpParser × Callback)) : Prop :=
  ∃ front parser back, fired = front ++ (parser, .messageBegin) :: back ∧ (runCallbacks base r front).2 = true ∧
    (r.headers ≠ .null ∨ ∃ x ∈ front, x.2 = .messageBegin)

theorem modify_null {headers : Headers} {f : Environ → Environ} : headers.modify f = .null ↔ headers = .null := by
  cases headers <;> simp [Headers.modify]

theorem runCallback_null {base : Environ} {r : Request} {parser : HttpParser} {callback : Callback} :
    (runCallback base r parser callback).1.headers = .null ↔ callback ≠ .messageBegin ∧ r.headers = .null := by
  cases callback with
  | messageBegin => simp [runCallback, onMessageBegin]
  | path data =>
    simp only [runCallback, onPath_eq]
    split <;> simp [modify_null]
  | queryString data => simp [runCallback, onQueryString, modify_null]
  | headerField data =>
    simp only [runCallback, onHeaderField]
    split
    next => simp
    next => split <;> simp
  | headerValue data =>
    obtain ⟨_, _, _, set, _⟩ := onHeaderValue_spec r parser data
    simp only [runCallback, set]
    split <;> simp [modify_null]
  | body data =>
    simp only [runCallback, onBody]
    split <;> simp [modify_null]
  | messageComplete => simp [runCallback, onMessageComplete, modify_null]

/-- `on_message_begin` overwrites a dictionary where a message begins again. -/
theorem beginsOver_iff {base : Environ} {r : Request} {fired : List (HttpParser × Callback)} :
    BeginsOver base r fired ↔ BeginsAgain base r fired := by
  induction fired generalizing r with
  | nil => simp [BeginsOver, BeginsAgain]
  | cons x rest ih =>
    obtain ⟨parser, callback⟩ := x
    have null := @runCallback_null base r parser callback
    constructor
    · rintro (⟨rfl, lost⟩ | ⟨mid, completes, begins⟩)
      · exact ⟨[], parser, rest, rfl, rfl, Or.inl lost⟩
      · obtain ⟨front, p, back, rfl, reached, again⟩ := ih.mp begins
        have ran : runCallbacks base r ((parser, callback) :: front) = runCallbacks base mid front := by
          rw [runCallbacks, completes]
        refine ⟨(parser, callback) :: front, p, back, rfl, by rw [ran]; exact reached, ?_⟩
        rw [completes] at null
        rcases again with lost | ⟨y, member, begin⟩
        · by_cases here : callback = .messageBegin
          · exact Or.inr ⟨_, List.mem_cons_self, here⟩
          · exact Or.inl fun none => lost (null.mpr ⟨here, none⟩)
        · exact Or.inr ⟨y, List.mem_cons_of_mem _ member, begin⟩
    · rintro ⟨front, p, back, split, reached, again⟩
      cases front with
      | nil =>
        cases split
        exact Or.inl ⟨rfl, again.resolve_right (by simp)⟩
      | cons y front =>
        obtain ⟨rfl, rfl⟩ := List.cons.inj split
        have completes : (runCallback base r parser callback).2 = true := by
          by_contra stops
          rw [runCallbacks] at reached
          split at reached
          next result => exact stops (by rw [result])
          next => cases reached
        rw [runCallbacks_cons completes] at reached
        refine Or.inr ⟨_, Prod.ext rfl completes, ih.mpr ⟨front, p, back, rfl, reached, ?_⟩⟩
        rcases again with lost | ⟨y, member, begin⟩
        · exact Or.inl fun none => lost (null.mp none).2
        · rcases List.mem_cons.mp member with rfl | later
          · exact Or.inl fun none => (null.mp none).1 begin
          · exact Or.inr ⟨y, later, begin⟩

/-- A read that a second message begins in before the first is answered, that comes to an end with the rest of an
interim message still there, or that calls an application which calls `start_response` again after a call that took
its status and failed. -/
def Careless (base : Environ) (c c' : Conn) (e : ReadEvent) : Prop :=
  (∃ data, e.result = .bytes data ∧ BeginsAgain base c.toRequest data.fired) ∨
    (c.currentChunk = .owned continueMessage ∧ c'.evWatcher ≠ .reading) ∨
    ∃ data, e.result = .bytes data ∧ (c.parsed base data).state.errorCode = none ∧
      (c.parsed base data).state.parseFinished = true ∧
      Retries ((c.parsed base data).count .reqSuccessRead) e.app

theorem Blank.owns_iff {c : Conn} (h : Blank c) : c.currentChunk.Owns ↔ c.currentChunk = .owned continueMessage := by
  constructor
  · rintro ⟨data, owned⟩
    rw [owned, h.rest data owned]
  · exact fun owned => ⟨_, owned⟩

theorem AppOutcome.currentChunk {c c' : Conn} {r : Request} {app : PyCall PyValue} (calls : CallsMade c app r)
    (h : AppOutcome c r app c' false) : c'.currentChunk = c.currentChunk := by
  have made := calls.frame.currentChunk
  cases h with
  | raised => exact made
  | refused _ taken => exact taken.frame.currentChunk.trans made
  | notStarted _ taken => exact taken.frame.currentChunk.trans made

/-- The application of a blank request loses what it retries, and the rest of an interim message. -/
theorem wsgiCallApplication_loses_iff {c c' : Conn} {app : PyCall PyValue} {answered : Bool} (blank : Blank c)
    (h : wsgiCallApplication c app = .ok (c', answered)) :
    wsgiCallApplicationLoses c app ∨
        (∃ called, wsgiCallApplication c app = .ok (called, false) ∧ called.currentChunk.Owns) ↔
      c.currentChunk.Owns ∨ Retries c app := by
  have calls : (∃ r args, AppCalls c app r args ∧ startResponseLoses r args) ↔ Retries c app :=
    exists_congr fun r => exists_congr fun args => and_congr_right fun called => startResponseLoses_iff called.framed
  have nothing : ¬ ∃ start retval, CallsMade c app start ∧ app.result = .ok retval ∧
      (start.iterable ≠ none ∨ start.iterator ≠ none) := by
    rintro ⟨start, _, made, _, loses⟩
    obtain ⟨_, _, _, _, rfl⟩ := runStartResponses_frame made
    exact loses.elim (absurd blank.untouched.iterable) (absurd blank.untouched.iterator)
  obtain ⟨r, made, outcome⟩ := wsgiCallApplication_outcome h
  rw [wsgiCallApplicationLoses, calls]
  cases answered with
  | true =>
    have last : ¬ ∃ called, wsgiCallApplication c app = .ok (called, false) ∧ called.currentChunk.Owns := by
      rintro ⟨_, failed, _⟩
      cases h.symm.trans failed
    have owns : (∃ answered, wsgiCallApplication c app = .ok (answered, true) ∧ c.currentChunk.Owns) ↔
        c.currentChunk.Owns := ⟨fun ⟨_, _, owns⟩ => owns, fun owns => ⟨c', h, owns⟩⟩
    rw [owns, or_iff_left last, or_iff_right nothing]
    exact or_comm
  | false =>
    have owns : (∃ called, wsgiCallApplication c app = .ok (called, false) ∧ called.currentChunk.Owns) ↔
        c.currentChunk.Owns := by
      rw [← outcome.currentChunk made]
      constructor
      · rintro ⟨called, failed, owns⟩
        cases h.symm.trans failed
        exact owns
      · exact fun owns => ⟨c', h, owns⟩
    have last : ¬ ∃ answered, wsgiCallApplication c app = .ok (answered, true) ∧ c.currentChunk.Owns := by
      rintro ⟨_, answered, _⟩
      cases h.symm.trans answered
    rw [owns, or_iff_right nothing, or_iff_left last]
    exact or_comm

theorem careless_bytes {base : Environ} {c c' : Conn} {data : ReadData} {app : PyCall PyValue} :
    Careless base c c' ⟨.bytes data, app⟩ ↔ BeginsAgain base c.toRequest data.fired ∨
      c.currentChunk = .owned continueMessage ∧ c'.evWatcher ≠ .reading ∨
      (c.parsed base data).state.errorCode = none ∧ (c.parsed base data).state.parseFinished = true ∧
        Retries ((c.parsed base data).count .reqSuccessRead) app := by
  have only : ∀ P : ReadData → Prop, (∃ d, ReadResult.bytes data = .bytes d ∧ P d) ↔ P data := by
    intro P
    constructor
    · rintro ⟨_, ⟨⟩, h⟩
      exact h
    · exact fun h => ⟨data, rfl, h⟩
  exact or_congr (only _) (or_congr_right (only _))

theorem evIoOnRead_loses_iff {base : Environ} {c c' : Conn} {e : ReadEvent} (blank : Blank c)
    (reading : c.evWatcher = .reading) (step : evIoOnRead base c e = .ok c') :
    evIoOnReadLoses base c e ↔ Careless base c c' e := by
  by_cases some : ∃ data, e.result = .bytes data
  · obtain ⟨data, bytes⟩ := some
    obtain ⟨result, app⟩ := e
    cases bytes
    have frame := (c.parsed_frame base data).request
    have parsed := blank.parsed (evIoOnRead_parses step rfl)
    have chunk : (c.parsed base data).currentChunk = c.currentChunk := frame.currentChunk
    have owns := blank.owns_iff
    rw [careless_bytes]
    refine or_congr beginsOver_iff ?_
    rcases (evIoOnRead_outcome step).of_bytes rfl with ⟨code, failed, rfl⟩ | ⟨noError, unfinished, clear, rfl⟩ |
      ⟨noError, unfinished, expects, rfl⟩ | ⟨noError, finished, called, answered, call, result⟩
    · rw [if_pos (by simp [failed]), chunk, owns, failed]
      simp [Conn.count, startWriting]
    · rw [if_neg (by simp [noError]), if_neg (by simp [unfinished]), clear, unfinished]
      simp [Conn.count, show (c.parsed base data).evWatcher = .reading from frame.evWatcher.trans reading]
    · rw [if_neg (by simp [noError]), if_neg (by simp [unfinished]), expects, unfinished, chunk, owns]
      simp [startWriting]
    · have loses := wsgiCallApplication_loses_iff (c := (c.parsed base data).count .reqSuccessRead)
        ⟨parsed.untouched.count .reqSuccessRead, parsed.status, parsed.called, parsed.rest⟩ call
      rw [if_neg (by simp [noError]), if_pos finished, loses]
      have writing : c'.evWatcher ≠ .reading := by
        rcases result with ⟨_, rfl⟩ | ⟨_, rfl⟩
        · simp [Conn.startedResponse, Conn.count, startWriting]
        · simp [Conn.failedResponse, Conn.count, startWriting]
      have owns' : ((c.parsed base data).count .reqSuccessRead).currentChunk.Owns ↔
          c.currentChunk = .owned continueMessage := by
        rw [← owns, ← chunk]
        rfl
      simp only [owns', noError, finished, writing, ne_eq, not_false_eq_true, and_true, true_and]
  · have none : ∀ data, e.result ≠ .bytes data := fun data bytes => some ⟨data, bytes⟩
    have nothing : ∀ P : ReadData → Prop, ¬ ∃ data, e.result = .bytes data ∧ P data := by
      rintro P ⟨data, bytes, _⟩
      exact none data bytes
    rw [Careless, or_iff_right (nothing _), or_iff_left (nothing _), ← blank.owns_iff]
    cases evIoOnRead_outcome step with
    | @again errno failed tryAgain =>
      rw [evIoOnReadLoses, failed]
      simp [tryAgain, Conn.count, reading]
    | @closed metric last result closing =>
      obtain ⟨_, _, rfl⟩ := requestClean_ok closing
      rw [evIoOnReadLoses]
      rcases result with eof | ⟨errno, failed, fatal⟩
      · rw [eof]
        simp [Conn.count]
      · rw [failed]
        simp [fatal, Conn.count]
    | waiting bytes => exact absurd bytes (none _)
    | interim bytes => exact absurd bytes (none _)
    | rejected bytes => exact absurd bytes (none _)
    | answered bytes => exact absurd bytes (none _)
    | failed bytes => exact absurd bytes (none _)

/-- An application that calls `start_response` with headers that are no list, and then again. -/
def retrying : PyCall PyValue := ⟨[okArgs.take 1 ++ [.none], okArgs], .ok oneItem⟩

end Bjoern
