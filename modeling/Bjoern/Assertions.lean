import Bjoern.ErrorResponses
import Bjoern.InterimResponse

namespace Bjoern

open Runs

/-- The assertions of `do_send_chunk`. -/
def doSendChunkAsserts (c : Conn) : Prop :=
  c.currentChunk ≠ .null ∧ ∀ data, c.currentChunk = .owned data → ¬ (c.currentChunkP = data.length ∧ data.length ≠ 0)

/-- The assertion behind the label `send_terminator_chunk`. -/
def sendTerminatorChunkAsserts (c : Conn) : Prop := c.state.chunkedResponse = true → c.currentChunkP = 0

/-- The assertions of `wrap_http_chunk_cruft_around`: the last byte that it writes is the last one of the object. -/
def wrapHttpChunkCruftAroundAsserts (chunk : Bytes) : Prop :=
  chunk.length ≠ 0 ∧ ∀ newChunk, wrapHttpChunkCruftAround chunk = some newChunk →
    newChunk.length = (ChunkedCoding.hex (chunk.length % 2 ^ 32) ++ ascii "\r\n").length + chunk.length + 2

/-- The assertions of `on_write_chunk` and of the functions it calls. -/
def onWriteChunkAsserts (c : Conn) (w : WriteEvent) : Prop :=
  doSendChunkAsserts c ∧ ∀ mid, doSendChunk c w = .ok (mid, false) →
    if mid.iterator.isSome then
      ∀ last nextChunk, wsgiIterableGetNextChunk mid = .ok (last, nextChunk) →
        match nextChunk with
        | some chunk =>
          (last.state.chunkedResponse = true → wrapHttpChunkCruftAroundAsserts chunk) ∧ last.currentChunkP = 0
        | none => last.pyErr = none → sendTerminatorChunkAsserts { last with iterator := none }
    else sendTerminatorChunkAsserts mid

def evIoOnWriteAsserts (c : Conn) (w : WriteEvent) : Prop :=
  if c.routesSendfile then c.currentChunk ≠ .null → doSendChunkAsserts c else onWriteChunkAsserts c w

/-- The assertions of `wsgi_call_application`, on the first chunk of a chunked response. The second takes its size when
its reference is given up. -/
def wsgiCallApplicationAsserts (c : Conn) (app : PyCall PyValue) : Prop :=
  ∀ called, callStartResponses { c with headers := .null, environs := c.environs ++ [c.headers] }
    app.startResponses = .ok called → ∀ retval, app.result = .ok retval →
  ∀ last chunk, takeRetval called retval = .ok (last, some (some chunk)) → last.headers.isNull = false →
    (chooseFraming last.toRequest).state.chunkedResponse = true →
      wrapHttpChunkCruftAroundAsserts chunk ∧
        ∀ newChunk, wrapHttpChunkCruftAround chunk = some newChunk → newChunk.length ≥ chunk.length + 5

/-- The assertions of `Request_parse`: that of `on_message_begin`, wherever it is called, and that there are bytes,
which is the branch of `ev_io_on_read` that it is called in. -/
def requestParseAsserts (base : Environ) (c : Conn) (data : ReadData) : Prop :=
  ∀ front parser back, data.fired = front ++ (parser, .messageBegin) :: back →
    ∀ mid, c.runCallbacks base front = .ok (mid, true) → mid.parser.field = none

/-- The assertions of `ev_io_on_read` and of the functions it calls. -/
def evIoOnReadAsserts (base : Environ) (c : Conn) (e : ReadEvent) : Prop := ∀ data, e.result = .bytes data →
  requestParseAsserts base c data ∧ ∀ parsed, c.requestParse base data = .ok parsed →
    (parsed.state.errorCode ≠ none → parsed.iterator = none) ∧
      (parsed.state.errorCode = none → parsed.state.parseFinished = true →
        wsgiCallApplicationAsserts (parsed.count .reqSuccessRead) e.app ∧
          ∀ called, wsgiCallApplication (parsed.count .reqSuccessRead) e.app = .ok (called, false) →
            called.pyErr ≠ none ∧ ∀ printed, pyErrPrint called = .ok printed → printed.state.chunkedResponse = false)

/-- The conditions that the callback for an event asserts. -/
def Asserts (base : Environ) (c : Conn) : Event → Prop
  | .read e => evIoOnReadAsserts base c e
  | .write w => evIoOnWriteAsserts c w

/-- A fatal error hits a chunked response in the middle of a chunk. -/
def BreaksChunk (c : Conn) (w : WriteEvent) : Prop :=
  Fatal w ∧ c.routesSendfile = false ∧ c.state.chunkedResponse = true ∧ c.currentChunkP ≠ 0

/-- A callback of the read gets to a `message_begin` behind the name of a header, of this read or an earlier one. -/
def BeginsBehindHeader (base : Environ) (c : Conn) (e : ReadEvent) : Prop := ∃ data, e.result = .bytes data ∧
  ∃ front parser back, data.fired = front ++ (parser, .messageBegin) :: back ∧
    (∃ mid, c.runCallbacks base front = .ok (mid, true)) ∧
    (c.parser.field ≠ none ∨ ∃ x ∈ front, ∃ field, x.2 = .headerField field)

/-- The event runs into an assertion. -/
def Trips (base : Environ) (c : Conn) : Event → Prop
  | .read e => BeginsBehindHeader base c e
  | .write w => BreaksChunk c w

/-- No expectation is up when a request is answered, and no fatal error hits the header block of a file or the middle
of a chunk. -/
def Orderly (base : Environ) (c : Conn) : Event → Prop
  | .read e => AnswersUnexpected base c (.read e)
  | .write w => ¬ BreaksChunk c w ∧ (Fatal w → c.routesSendfile = true → c.currentChunk = .null)

/-- The first name of a header starts it. -/
def BjParser.Fresh (p : BjParser) : Prop := p.field = none → p.lastCallWasHeaderValue = true

/-- The pointers are where the writer can use them. -/
inductive Sound (c : Conn) : Prop
  | reading : c.evWatcher = .reading → Untouched c → c.parser.Fresh → 0 ≤ c.currentChunkP →
      c.currentChunkP < continueMessage.length → Sound c
  | interim : c.evWatcher = .writing → Untouched c → c.parser.Fresh → c.state.expectContinue = true →
      SendingChunk c continueMessage → Sound c
  | sending {data} : c.evWatcher = .writing → c.pyErr = none → c.state.expectContinue = false →
      SendingChunk c data → Sound c
  | file : c.evWatcher = .writing → c.pyErr = none → c.state.expectContinue = false → c.routesSendfile = true →
      c.currentChunk = .null → Sound c
  | closed : c.evWatcher = .closed → Sound c

theorem Sound.untouched {c : Conn} (h : Sound c) (reading : c.evWatcher = .reading) :
    Untouched c ∧ c.parser.Fresh ∧ 0 ≤ c.currentChunkP ∧ c.currentChunkP < continueMessage.length := by
  cases h with
  | reading _ untouched fresh start inside => exact ⟨untouched, fresh, start, inside⟩
  | interim writing => cases writing.symm.trans reading
  | sending writing => cases writing.symm.trans reading
  | file writing => cases writing.symm.trans reading
  | closed closed => cases closed.symm.trans reading

/-- `field` is there from the first name on. -/
theorem BjParser.Fresh.behind {p : BjParser} (h : p.Fresh) (callback : Callback) :
    (p.behind callback).Fresh ∧
      ((p.behind callback).field = none ↔ p.field = none ∧ ∀ field, callback ≠ .headerField field) := by
  cases callback with
  | headerField field =>
    have set : (p.behind (.headerField field)).field ≠ none := by
      have started : (startHeader p).field ≠ none := by
        unfold startHeader
        split
        next => simp
        next later => exact fun none => later (h none)
      simp only [BjParser.behind]
      split
      next => exact started
      next =>
        split
        next => exact started
        next => simpa using started
    exact ⟨fun none => absurd none set, by simp [set]⟩
  | headerValue value => exact ⟨fun _ => rfl, by simp [BjParser.behind]⟩
  | messageBegin => exact ⟨h, by simp [BjParser.behind]⟩
  | path => exact ⟨h, by simp [BjParser.behind]⟩
  | queryString => exact ⟨h, by simp [BjParser.behind]⟩
  | body => exact ⟨h, by simp [BjParser.behind]⟩
  | messageComplete => exact ⟨h, by simp [BjParser.behind]⟩

theorem BjParser.Fresh.behindAll {p : BjParser} (h : p.Fresh) (fired : List (HttpParser × Callback)) :
    (p.behindAll fired).field = none ↔ p.field = none ∧ ∀ x ∈ fired, ∀ field, x.2 ≠ .headerField field := by
  induction fired generalizing p with
  | nil => simp [BjParser.behindAll]
  | cons x rest ih =>
    obtain ⟨fresh, first⟩ := h.behind x.2
    have later : (p.behindAll (x :: rest)).field = none ↔ _ := ih fresh
    rw [later, first]
    simp only [List.mem_cons, forall_eq_or_imp, and_assoc]

theorem runCallbacks_fresh (base : Environ) {r : Request} (h : r.parser.Fresh) (fired : List (HttpParser × Callback)) :
    (runCallbacks base r fired).1.parser.Fresh := by
  induction fired generalizing r with
  | nil => exact h
  | cons x rest ih =>
    have first : (runCallback base r x.1 x.2).1.parser.Fresh := by
      rw [runCallback_behind]
      exact (h.behind x.2).1
    rw [runCallbacks]
    split
    next result =>
      rw [result] at first
      exact ih first
    next result =>
      rw [result] at first
      exact first

theorem requestParse_fresh (base : Environ) {r : Request} (h : r.parser.Fresh) (data : ReadData) :
    (requestParse base r data).parser.Fresh := by
  have fresh := runCallbacks_fresh base h data.fired
  unfold requestParse
  dsimp only
  split
  next => exact fresh
  next => exact fresh

/-- An error message is longer than what an interim message may have left of its pointer. -/
theorem httpErrorMessages_longer (code : HttpStatus) :
    continueMessage.length < (httpErrorMessages code).length := by
  cases code <;> decide

/-- An answer begins with its header block. -/
theorem AppOutcome.sending {c c' : Conn} {r : Request} {app : PyCall PyValue} (h : AppOutcome c r app c' true) :
    ∃ data, SendingChunk c' data := by
  cases h with
  | @answered _ mid _ data =>
    have long := wsgiGetheaders_length (chooseFraming mid.toRequest)
    refine ⟨wsgiGetheaders (chooseFraming mid.toRequest) ++ data, rfl, Int.le_refl 0, ?_⟩
    have short : (0 : Int) < (wsgiGetheaders (chooseFraming mid.toRequest) ++ data).length := by
      rw [List.length_append]
      omega
    exact short

theorem Sound.read {base : Environ} {c c' : Conn} {e : ReadEvent} (h : Sound c)
    (unexpected : AnswersUnexpected base c (.read e)) (step : Step base c (.read e) c') : Sound c' := by
  obtain ⟨reading, step⟩ := step
  obtain ⟨untouched, fresh, start, inside⟩ := h.untouched reading
  by_cases some : ∃ data, e.result = .bytes data
  · obtain ⟨data, bytes⟩ := some
    have frame := (c.parsed_frame base data).request
    have parses := evIoOnRead_parses step bytes
    have parsed := untouched.parsed parses
    have fresh : (c.parsed base data).parser.Fresh := by
      rw [(untouched.toGrounded.parsed parses).1]
      exact requestParse_fresh base fresh data
    have same : (c.parsed base data).currentChunkP = c.currentChunkP := frame.currentChunkP
    rcases (evIoOnRead_outcome step).of_bytes bytes with ⟨code, failed, rfl⟩ | ⟨_, _, _, rfl⟩ | ⟨_, _, expects, rfl⟩ |
      ⟨_, finished, called, answered, call, result⟩
    · have longer := httpErrorMessages_longer code
      have short : (c.parsed base data).currentChunkP < (httpErrorMessages code).length := by omega
      exact .sending rfl parsed.idle (unexpected data bytes (Or.inl (by simp [failed]))) ⟨rfl, same ▸ start, short⟩
    · exact .reading (frame.evWatcher.trans reading) (parsed.count .reqActive) fresh (same ▸ start) (same ▸ inside)
    · exact .interim rfl (parsed.besides _ _ _ _ _ _) fresh expects ⟨rfl, same ▸ start, same ▸ inside⟩
    · obtain ⟨r, made, app⟩ := wsgiCallApplication_outcome call
      have clear := (app.frame made).expectContinue.trans (unexpected data bytes (Or.inr finished))
      rcases result with ⟨rfl, rfl⟩ | ⟨rfl, rfl⟩
      · obtain ⟨chunk, sending⟩ := app.sending
        exact .sending rfl (app.idle parsed.idle) clear ⟨sending.chunk, sending.start, sending.inside⟩
      · obtain ⟨_, _, position, _⟩ := app.failed_frame made parsed.iterable
        have longer := httpErrorMessages_longer .serverError
        have kept : called.currentChunkP = c.currentChunkP := position.trans same
        have short : called.currentChunkP < (httpErrorMessages .serverError).length := by omega
        exact .sending rfl rfl clear ⟨rfl, kept ▸ start, short⟩
  · rcases evIoOnRead_noBytes step untouched.idle (fun data bytes => some ⟨data, bytes⟩) with rfl | ⟨metric, closed⟩
    · exact .reading reading (untouched.count .reqActive) fresh start inside
    · exact .closed closed.evWatcher

theorem doSendChunk_position {c c' : Conn} {w : WriteEvent} {data : Bytes} {left : Bool} (sending : SendingChunk c data)
    (h : doSendChunk c w = .ok (c', left)) : 0 ≤ c'.currentChunkP ∧ c'.currentChunkP < data.length := by
  have start := sending.start
  have inside := sending.inside
  by_cases fatal : Fatal w
  · rw [doSendChunk_fatal sending.chunk fatal] at h
    cases h
    exact ⟨start, inside⟩
  · rcases doSendChunk_cases sending fatal with ⟨k, hk, step⟩ | step
    · rw [step] at h
      cases h
      have next := sending.sentPart hk
      exact ⟨next.start, next.inside⟩
    · rw [step] at h
      cases h
      have some : (0 : Int) < data.length := by omega
      exact ⟨Int.le_refl 0, some⟩

theorem interim_sound {c c' : Conn} {w : WriteEvent} (untouched : Untouched c) (fresh : c.parser.Fresh)
    (expects : c.state.expectContinue = true) (sending : SendingChunk c continueMessage)
    (step : evIoOnWrite c w = .ok c') : Sound c' := by
  have direct : c.routesSendfile = false := by simp [Conn.routesSendfile, untouched.iterable]
  obtain ⟨⟨mid, state⟩, hm, step⟩ := bind_ok step
  rw [writeResponse_chunk direct] at hm
  obtain ⟨⟨sent, left⟩, hs, hm⟩ := bind_ok hm
  obtain ⟨start, inside⟩ := doSendChunk_position sending hs
  obtain ⟨chunk, position, bytes, rfl⟩ := doSendChunk_untouched untouched hs
  have same : mid = { c with currentChunk := chunk, currentChunkP := position, sent := bytes } := by
    have ended : ¬ c.iterator.isSome = true := by simp [untouched.iterator]
    have plain : ¬ c.state.chunkedResponse = true := by simp [untouched.chunkedResponse]
    dsimp only at hm
    rw [if_neg ended, sendTerminatorChunk, if_neg plain] at hm
    split at hm
    next =>
      cases hm
      rfl
    next =>
      cases hm
      rfl
  subst same
  dsimp only at step
  rw [if_pos expects] at step
  cases step
  exact .reading rfl (untouched.besides _ _ _ _ _ _) fresh start inside

theorem Ready.fresh {c : Conn} (h : Ready c) : c.parser.Fresh := by
  rw [← h.reset]
  exact fun _ => rfl

theorem Sound.finished {c c' : Conn} {state : RwState} (idle : c.pyErr = none)
    (ended : state = .done ∨ state = .aborted) (step : finishWrite c state = .ok c') : Sound c' := by
  rcases ended with rfl | rfl
  · have finished := finishWrite_done idle
    rw [step] at finished
    have last := finished.of_ok.2
    split at last
    next =>
      have ready := last.ready
      have position := ready.flags.2.2.2
      have some : 0 < continueMessage.length := by decide
      exact .reading ready.reading ready.untouched ready.fresh (by omega) (by omega)
    next => exact .closed last.evWatcher
  · have finished := finishWrite_aborted idle
    rw [step] at finished
    exact .closed finished.of_ok.2.evWatcher

theorem encodeFirst_full {chunked : Bool} {data bytes : Bytes} (full : data ≠ [])
    (h : encodeFirst chunked (some data) = some bytes) : 0 < bytes.length := by
  have long := List.length_pos_iff.mpr full
  unfold encodeFirst at h
  cases chunked with
  | false =>
    cases h
    exact long
  | true =>
    have wrapped : wrapHttpChunkCruftAround data = some bytes := h
    unfold wrapHttpChunkCruftAround at wrapped
    dsimp only at wrapped
    split at wrapped
    next =>
      cases wrapped
      simp only [List.length_append]
      omega
    next => cases wrapped

/-- A chunk that is put in when the one before is sent is sent from its first byte. -/
theorem SendingChunk.of_start {c : Conn} {data : Bytes} (chunk : c.currentChunk = .owned data)
    (position : c.currentChunkP = 0) (full : 0 < data.length) : SendingChunk c data := by
  refine ⟨chunk, ?_, ?_⟩
  · omega
  · omega

theorem sendTerminatorChunk_sound {c c' : Conn} {state : RwState}
    (terminated : sendTerminatorChunk c = (c', state)) (asserted : sendTerminatorChunkAsserts c) :
    state = .done ∧ c' = c ∨ state = .notYetDone ∧ ∃ data, SendingChunk c' data := by
  unfold sendTerminatorChunk at terminated
  split at terminated
  next chunked =>
    cases terminated
    exact Or.inr ⟨rfl, _, .of_start rfl (asserted chunked) (by decide)⟩
  next =>
    cases terminated
    exact Or.inl ⟨rfl, rfl⟩

/-- A write of a sound response that breaks no chunk ends it or leaves a chunk that can be sent. -/
theorem onWriteChunk_sound {c c' : Conn} {w : WriteEvent} {data : Bytes} {state : RwState}
    (sending : SendingChunk c data) (direct : c.routesSendfile = false) (whole : ¬ BreaksChunk c w)
    (h : onWriteChunk c w = .ok (c', state)) :
    state = .done ∨ state = .aborted ∨ state = .notYetDone ∧ ∃ data, SendingChunk c' data := by
  by_cases fatal : Fatal w
  · have hungUp := doSendChunk_fatal sending.chunk fatal
    have asserted : sendTerminatorChunkAsserts c.hungUp := by
      intro chunked
      by_contra moved
      exact whole ⟨fatal, direct, chunked, moved⟩
    cases onWriteChunk_outcome h with
    | part sent => cases hungUp.symm.trans sent
    | chunk sent more =>
      cases hungUp.symm.trans sent
      cases more
    | failed => exact Or.inr (Or.inl rfl)
    | stopped sent more =>
      cases hungUp.symm.trans sent
      cases more
    | concluded sent _ terminated =>
      cases hungUp.symm.trans sent
      exact (sendTerminatorChunk_sound terminated asserted).imp And.left Or.inr
  · have cases' := doSendChunk_cases sending fatal
    have position : ∀ {mid}, doSendChunk c w = .ok (mid, false) → mid.currentChunkP = 0 := by
      intro mid sent
      rcases cases' with ⟨_, _, step⟩ | step
      · cases step.symm.trans sent
      · cases step.symm.trans sent
        rfl
    cases onWriteChunk_outcome h with
    | part sent =>
      rcases cases' with ⟨k, hk, step⟩ | step
      · cases step.symm.trans sent
        exact Or.inr (Or.inr ⟨rfl, data, sending.sentPart hk⟩)
      · cases step.symm.trans sent
    | chunk sent _ next framed =>
      have start := position sent
      cases next with
      | chunk full => exact Or.inr (Or.inr ⟨rfl, _, .of_start rfl start (encodeFirst_full full framed)⟩)
    | failed => exact Or.inr (Or.inl rfl)
    | stopped sent _ next _ terminated =>
      have start := position sent
      refine (sendTerminatorChunk_sound terminated fun _ => ?_).imp And.left Or.inr
      cases next with
      | stopped => exact start
      | failed => exact start
    | concluded sent _ terminated =>
      have start := position sent
      exact (sendTerminatorChunk_sound terminated fun _ => start).imp And.left Or.inr

theorem onWriteSendfile_sound {c c' : Conn} {w : WriteEvent} {content data : Bytes} {state : RwState}
    (sending : SendingChunk c data) (hw : ¬ Fatal w) (h : onWriteSendfile c content w = .ok (c', state)) :
    state = .aborted ∨ state = .notYetDone ∧ ((∃ data, SendingChunk c' data) ∨ c'.currentChunk = .null) := by
  have started : c.currentChunk ≠ .null := by simp [sending.chunk]
  rw [onWriteSendfile, if_pos started] at h
  rcases doSendChunk_cases sending hw with ⟨k, hk, step⟩ | step
  · rw [step] at h
    cases h
    exact Or.inr ⟨rfl, Or.inl ⟨data, sending.sentPart hk⟩⟩
  · rw [step] at h
    simp only [ok_bind, Bool.false_eq_true, if_false] at h
    split at h
    next =>
      cases h
      exact Or.inl rfl
    next =>
      cases h
      exact Or.inr ⟨rfl, Or.inr rfl⟩

theorem Sound.write {base : Environ} {c c' : Conn} {w : WriteEvent} (h : Sound c) (orderly : Orderly base c (.write w))
    (step : Step base c (.write w) c') : Sound c' := by
  obtain ⟨writing, step⟩ := step
  obtain ⟨whole, header⟩ := orderly
  cases h with
  | reading reading => cases reading.symm.trans writing
  | closed closed => cases closed.symm.trans writing
  | interim _ untouched fresh expects sending => exact interim_sound untouched fresh expects sending step
  | @sending data _ idle clear sending =>
    obtain ⟨⟨mid, state⟩, hm, _⟩ := bind_ok step
    have frame := (writeResponse_frame hm).1
    have idle' := frame.idle idle
    have clear' := frame.expectContinue.trans clear
    have step : finishWrite mid state = .ok c' := (evIoOnWrite_clear hm clear').symm.trans step
    have writing' : mid.evWatcher = .writing := frame.evWatcher.trans writing
    cases route : c.routesSendfile with
    | false =>
      rw [writeResponse_chunk route] at hm
      rcases onWriteChunk_sound sending route whole hm with done | aborted | ⟨rfl, data, more⟩
      · exact .finished idle' (Or.inl done) step
      · exact .finished idle' (Or.inr aborted) step
      · cases step
        exact .sending writing' idle' clear' (more.count .respActive)
    | true =>
      have route' : mid.routesSendfile = true := frame.routes.trans route
      have calm : ¬ Fatal w := by
        intro fatal
        cases (header fatal route).symm.trans sending.chunk
      obtain ⟨wrapper, _, _, eq⟩ := writeResponse_sendfile route
      rw [eq] at hm
      rcases onWriteSendfile_sound sending calm hm with aborted | ⟨rfl, ⟨data, more⟩ | null⟩
      · exact .finished idle' (Or.inr aborted) step
      · cases step
        exact .sending writing' idle' clear' (more.count .respActive)
      · cases step
        exact .file writing' idle' clear' route' null
  | file _ idle clear route null =>
    obtain ⟨⟨mid, state⟩, hm, _⟩ := bind_ok step
    have frame := (writeResponse_frame hm).1
    have idle' := frame.idle idle
    have clear' := frame.expectContinue.trans clear
    have route' : mid.routesSendfile = true := frame.routes.trans route
    have step : finishWrite mid state = .ok c' := (evIoOnWrite_clear hm clear').symm.trans step
    obtain ⟨wrapper, _, _, eq⟩ := writeResponse_sendfile route
    have concluded : ¬ c.currentChunk ≠ .null := by simp [null]
    rw [eq, onWriteSendfile, if_neg concluded] at hm
    have chunk := doSendfile_chunk null wrapper.content w
    cases left : (doSendfile c wrapper.content w).2 with
    | true =>
      simp only [left, if_true] at hm
      cases hm
      cases step
      exact .file (frame.evWatcher.trans writing) idle' clear' route' chunk
    | false =>
      simp only [left, Bool.false_eq_true, if_false] at hm
      cases hm
      exact .finished idle' (Or.inl rfl) step

theorem SendingChunk.asserts {c : Conn} {data : Bytes} (h : SendingChunk c data) : doSendChunkAsserts c := by
  have inside := h.inside
  refine ⟨by simp [h.chunk], fun other owned => ?_⟩
  cases h.chunk.symm.trans owned
  rintro ⟨all, _⟩
  omega

theorem wrapHttpChunkCruftAround_asserts {chunk : Bytes} (full : chunk ≠ []) :
    wrapHttpChunkCruftAroundAsserts chunk ∧
      ∀ newChunk, wrapHttpChunkCruftAround chunk = some newChunk → newChunk.length ≥ chunk.length + 5 := by
  have crlf : (ascii "\r\n").length = 2 := by decide
  have length : ∀ newChunk, wrapHttpChunkCruftAround chunk = some newChunk →
      newChunk.length = (ChunkedCoding.hex (chunk.length % 2 ^ 32) ++ ascii "\r\n").length + chunk.length + 2 := by
    intro newChunk wrapped
    unfold wrapHttpChunkCruftAround at wrapped
    dsimp only at wrapped
    split at wrapped
    next =>
      cases wrapped
      simp only [List.length_append, crlf]
    next => cases wrapped
  refine ⟨⟨by simpa using full, length⟩, fun newChunk wrapped => ?_⟩
  have digits : 0 < (ChunkedCoding.hex (chunk.length % 2 ^ 32)).length :=
    by simpa [ChunkedCoding.hex] using Nat.length_toDigits_pos
  rw [length newChunk wrapped, List.length_append, crlf]
  omega

/-- The first chunk of a response is not empty. -/
theorem Taken.chunk_full {c c' : Conn} {retval : PyValue} {chunk : Bytes}
    (h : Taken c retval c' (some (some chunk))) : chunk ≠ [] := by
  generalize first : some (some chunk) = taken at h
  cases h with
  | bytestring =>
    split at first
    next => cases first
    next full =>
      cases first
      exact full
  | file => cases first
  | notIterable => cases first
  | generic _ _ next =>
    split at first
    next => cases first
    next =>
      cases first
      cases next with
      | chunk full => exact full

theorem wsgiCallApplication_asserts (c : Conn) (app : PyCall PyValue) : wsgiCallApplicationAsserts c app := by
  intro called _ retval _ last chunk taken _ _
  exact wrapHttpChunkCruftAround_asserts (takeRetval_taken taken).chunk_full

/-- Where no response is there yet, only the assertion of `on_message_begin` can fail. -/
theorem Untouched.reading_asserts {base : Environ} {c : Conn} {e : ReadEvent} (h : Untouched c)
    (fresh : c.parser.Fresh) : evIoOnReadAsserts base c e ↔ ¬ BeginsBehindHeader base c e := by
  have begins : ∀ {front mid}, c.runCallbacks base front = .ok (mid, true) → (mid.parser.field = none ↔
      c.parser.field = none ∧ ∀ x ∈ front, ∀ field, x.2 ≠ .headerField field) := by
    intro front mid called
    obtain ⟨rfl, completed, _⟩ := h.toGrounded.runCallbacks called
    rw [← fresh.behindAll, ← runCallbacks_behindAll completed.symm]
  constructor
  · rintro asserted ⟨data, bytes, front, parser, back, split, ⟨mid, called⟩, named⟩
    obtain ⟨none, unnamed⟩ := (begins called).mp ((asserted data bytes).1 front parser back split mid called)
    rcases named with named | ⟨x, member, field, eq⟩
    · exact named none
    · exact unnamed x member field eq
  · intro free data bytes
    refine ⟨fun front parser back split mid called => (begins called).mpr ⟨?_, ?_⟩, fun last parses => ?_⟩
    · by_contra named
      exact free ⟨data, bytes, front, parser, back, split, ⟨mid, called⟩, Or.inl named⟩
    · intro x member field eq
      exact free ⟨data, bytes, front, parser, back, split, ⟨mid, called⟩, Or.inr ⟨x, member, field, eq⟩⟩
    · obtain rfl := Conn.parsed_eq parses
      have parsed := h.parsed parses
      refine ⟨fun _ => parsed.iterator, fun _ _ => ⟨wsgiCallApplication_asserts _ _, fun called call => ?_⟩⟩
      obtain ⟨r, made, outcome⟩ := wsgiCallApplication_outcome call
      obtain ⟨_, chunked, _, _⟩ := outcome.failed_frame made parsed.iterable
      refine ⟨?_, fun printed h => ?_⟩
      · cases outcome with
        | raised => simp
        | notStarted => simp
        | refused _ taken =>
          generalize first : (none : Option (Option Bytes)) = chunk at taken
          cases taken with
          | bytestring => cases first
          | file => cases first
          | notIterable => simp
          | generic _ _ next =>
            split at first
            next pending =>
              simp only [Bool.and_eq_true, Option.isSome_iff_ne_none] at pending
              exact pending.2
            next => cases first
      · obtain ⟨rfl, _⟩ := pyErrPrint_ok h
        exact chunked.trans parsed.chunkedResponse

theorem onWriteChunk_asserts {c : Conn} {w : WriteEvent} {data : Bytes} (sending : SendingChunk c data)
    (direct : c.routesSendfile = false) : onWriteChunkAsserts c w ↔ ¬ BreaksChunk c w := by
  constructor
  · rintro ⟨_, rest⟩ ⟨fatal, _, chunked, moved⟩
    have asserted := rest _ (doSendChunk_fatal sending.chunk fatal)
    exact moved (asserted chunked)
  · intro whole
    refine ⟨sending.asserts, fun mid sent => ?_⟩
    by_cases fatal : Fatal w
    · cases (doSendChunk_fatal sending.chunk fatal).symm.trans sent
      intro chunked
      by_contra moved
      exact whole ⟨fatal, direct, chunked, moved⟩
    · have position : mid.currentChunkP = 0 := by
        rcases doSendChunk_cases sending fatal with ⟨_, _, step⟩ | step
        · cases step.symm.trans sent
        · cases step.symm.trans sent
          rfl
      split
      next more =>
        obtain ⟨steps, hs⟩ := Option.isSome_iff_exists.mp more
        intro last nextChunk h
        have next := nextChunkLoop_outcome ((wsgiIterableGetNextChunk_loop hs).symm.trans h)
        cases next with
        | chunk full => exact ⟨fun _ => (wrapHttpChunkCruftAround_asserts full).1, position⟩
        | stopped => exact fun _ _ => position
        | failed => exact fun _ _ => position
      next => exact fun _ => position

theorem Sound.asserts_iff {base : Environ} {c : Conn} {event : Event} (h : Sound c) (on : enabled c event) :
    Asserts base c event ↔ ¬ Trips base c event := by
  cases event with
  | read e =>
    obtain ⟨untouched, fresh, _⟩ := h.untouched on
    exact untouched.reading_asserts fresh
  | write w =>
    have writing : c.evWatcher = .writing := on
    rw [Trips, Asserts, evIoOnWriteAsserts]
    cases route : c.routesSendfile with
    | true =>
      rw [if_pos rfl]
      refine ⟨fun _ breaks => absurd (route.symm.trans breaks.2.1) (by simp), fun _ started => ?_⟩
      cases h with
      | reading reading => cases reading.symm.trans writing
      | closed closed => cases closed.symm.trans writing
      | interim _ _ _ _ sending => exact sending.asserts
      | sending _ _ _ sending => exact sending.asserts
      | file _ _ _ _ null => exact absurd null started
    | false =>
      rw [if_neg (by simp)]
      cases h with
      | reading reading => cases reading.symm.trans writing
      | closed closed => cases closed.symm.trans writing
      | interim _ _ _ _ sending => exact onWriteChunk_asserts sending route
      | sending _ _ _ sending => exact onWriteChunk_asserts sending route
      | file _ _ _ route' => cases route.symm.trans route'

/-- In a run in which no fatal error hits the header block of a file and no expectation is up when a request is
answered, the assertions of the callbacks hold but in two cases: a read that gets to the start of another request behind
a header fails the one of `on_message_begin`, and a fatal error in the middle of a chunk of a chunked response the one
behind `send_terminator_chunk`. -/
theorem assertions_hold_iff {base : Environ} {clientAddr : Bytes} {parser : HttpParser} {events : List Event}
    {c : Conn} (run : Run (Guarded (Orderly base) (Step base)) (evIoOnRequest clientAddr parser) events c)
    {event : Event} (on : enabled c event) : Asserts base c event ↔ ¬ Trips base c event := by
  have ready := evIoOnRequest_ready clientAddr parser
  have position := ready.flags.2.2.2
  have some : 0 < continueMessage.length := by decide
  have start : Sound (evIoOnRequest clientAddr parser) :=
    .reading rfl ready.untouched ready.fresh (by omega) (by omega)
  have sound := run.invariant Sound (fun s event s' inv step => by
    obtain ⟨orderly, step⟩ := step
    cases event with
    | read e => exact inv.read orderly step
    | write w => exact inv.write orderly step) start
  exact sound.asserts_iff on

/-- A request with a header, and the start of the next one. -/
def pipelinedHeader : ReadData :=
  ⟨[(http11Get, .messageBegin), (http11Get, .path (ascii "/")), (http11Get, .headerField (ascii "Host")),
    (http11Get, .headerValue (ascii "a")), (http11Get, .messageComplete), (http11Get, .messageBegin)], http11Get, true⟩

/-- Ten bytes of a chunked response are sent when the connection is reset. Where the first of two pipelined requests
has a header, its read does not get that far. -/
theorem assertions_hold_iff_reset : (∃ c, Run (Guarded (Orderly .empty) (Step .empty)) freshConn
      [.read ⟨.bytes getRequest, returning oneItem⟩, .write (accepts 10)] c ∧
    Asserts .empty c (.write (accepts 1000)) ∧ ¬ Asserts .empty c (.write reset)) ∧
    ¬ Asserts .empty freshConn (.read ⟨.bytes pipelinedHeader, returning oneItem⟩) := by
  have unexpected : AnswersUnexpected .empty freshConn (.read ⟨.bytes getRequest, returning oneItem⟩) := by
    rintro _ ⟨⟩ _
    rfl
  have calm : ∀ n, ¬ Fatal (accepts n) := fun n fatal => by cases fatal
  have run : ∃ c, Run (Guarded (Orderly .empty) (Step .empty)) freshConn
      [.read ⟨.bytes getRequest, returning oneItem⟩, .write (accepts 10)] c ∧ c.evWatcher = .writing ∧
        BreaksChunk c reset := by
    refine ⟨_, .cons ⟨unexpected, rfl, rfl⟩ (.single ⟨⟨?_, ?_⟩, rfl, rfl⟩), rfl, rfl, rfl, rfl, by decide⟩
    · exact fun breaks => calm 10 breaks.1
    · exact fun fatal => absurd fatal (calm 10)
  obtain ⟨c, run, writing, breaks⟩ := run
  have on : ∀ w, enabled c (.write w) := fun _ => writing
  refine ⟨⟨c, run, (assertions_hold_iff run (on (accepts 1000))).mpr ?_, fun asserted => ?_⟩, fun asserted => ?_⟩
  · exact fun breaks => calm 1000 breaks.1
  · exact (assertions_hold_iff run (on reset)).mp asserted breaks
  · have fresh : Run (Guarded (Orderly .empty) (Step .empty)) freshConn [] freshConn := .nil
    have on : enabled freshConn (.read ⟨.bytes pipelinedHeader, returning oneItem⟩) := rfl
    refine (assertions_hold_iff fresh on).mp asserted ⟨_, rfl, pipelinedHeader.fired.dropLast, http11Get, [], rfl,
      ⟨_, rfl⟩, Or.inr ⟨(http11Get, .headerField (ascii "Host")), ?_, _, rfl⟩⟩
    simp [pipelinedHeader]

end Bjoern
