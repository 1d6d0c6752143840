import Bjoern.Expectations
import Bjoern.WriteStep
import Bjoern.FatalErrors

namespace Bjoern

open Runs

/-- A `FileWrapper` with a descriptor and a file that goes on behind the offset `pos`. -/
def PyValue.holdsBehind (pos : Nat) : PyValue → Bool
  | .fileWrapper wrapper => wrapper.fd != -1 && decide (pos < wrapper.content.length)
  | _ => false

/-- The descriptor of the file that the writer turns to is at `pos`, unless `lseek()` fails. -/
def SeeksTo (pos : Nat) (c : Conn) (w : WriteEvent) : Prop :=
  c.routesSendfile = true → w.lseek = pos ∨ w.lseek = -1

/-- The read `e` makes `ev_io_on_read` answer with the error message of a status. -/
inductive Rejects (base : Environ) (c : Conn) (e : ReadEvent) : HttpStatus → Prop
  | parsing {data code} : e.result = .bytes data → (c.parsed base data).state.errorCode = some code →
      Rejects base c e code
  | answering {data called} : e.result = .bytes data → (c.parsed base data).state.errorCode = none →
      (c.parsed base data).state.parseFinished = true →
      wsgiCallApplication ((c.parsed base data).count .reqSuccessRead) e.app = .ok (called, false) →
      Rejects base c e .serverError

/-- The interim flag is down whenever `ev_io_on_read` answers a request. -/
def AnswersUnexpected (base : Environ) (c : Conn) : Event → Prop
  | .read e => ∀ data, e.result = .bytes data →
      ((c.parsed base data).state.errorCode ≠ none ∨ (c.parsed base data).state.parseFinished = true) →
      (c.parsed base data).state.expectContinue = false
  | .write _ => True

/-- From `c` on, the bytes of `message` are sent and no others, then the connection is closed. Control comes back
from every write, unless a `close()` raises `SystemExit` at the end. The descriptor of a file is at `pos`. -/
def OnlySends (pos : Nat) (message : Bytes) (c : Conn) : Prop :=
  ∀ writes c', Run (Guarded (SeeksTo pos) Transmit) c writes c' →
    (∃ accepted, c'.sent = c.sent ++ accepted ∧ accepted <+: message ∧
      (c'.evWatcher = .writing ∨ c'.evWatcher = .closed ∧ accepted = message)) ∧
    ∀ w halt last, c'.evWatcher = .writing → ¬ Fatal w → SeeksTo pos c' w →
      evIoOnWrite c' w = .error (halt, last) → halt = .exit ∧ last.sent = c.sent ++ message

/-- What steers the writer is as `Request_reset` left it, unless a response is on its way. -/
inductive Steered (c : Conn) : Prop
  | reading : c.evWatcher = .reading → Untouched c → c.state.errorCode = none → c.state.parseFinished = false →
      Steered c
  | interim : c.evWatcher = .writing → Untouched c → c.state.errorCode = none → c.state.parseFinished = false →
      c.state.expectContinue = true → Steered c
  | response : c.evWatcher = .writing → c.pyErr = none → c.state.expectContinue = false → Steered c
  | closed : c.evWatcher = .closed → Steered c

theorem Steered.untouched {c : Conn} (h : Steered c) (reading : c.evWatcher = .reading) :
    Untouched c ∧ c.state.errorCode = none ∧ c.state.parseFinished = false := by
  cases h with
  | reading _ untouched noError unfinished => exact ⟨untouched, noError, unfinished⟩
  | interim writing => cases writing.symm.trans reading
  | response writing => cases writing.symm.trans reading
  | closed closed => cases closed.symm.trans reading

theorem Untouched.write {c mid : Conn} (h : Untouched c) (frame : WriteFrame c mid) : Untouched mid :=
  ⟨⟨frame.idle h.idle, frame.headers h.iterator ▸ h.unanswered⟩, frame.keepAlive h.keepAlive,
    frame.chunkedResponse h.chunkedResponse, frame.wsgiCallDone.trans h.wsgiCallDone, frame.iterable.trans h.iterable,
    (frame.iterator h.iterator).1⟩

theorem Steered.read {base : Environ} {c c' : Conn} {e : ReadEvent} (h : Steered c)
    (unexpected : AnswersUnexpected base c (.read e)) (step : Step base c (.read e) c') : Steered c' := by
  obtain ⟨reading, step⟩ := step
  obtain ⟨untouched, noError, unfinished⟩ := h.untouched reading
  by_cases some : ∃ data, e.result = .bytes data
  · obtain ⟨data, bytes⟩ := some
    have parsed := untouched.parsed (evIoOnRead_parses step bytes)
    rcases (evIoOnRead_outcome step).of_bytes bytes with ⟨code, failed, rfl⟩ | ⟨noError, unfinished, _, rfl⟩ |
      ⟨noError, unfinished, expects, rfl⟩ | ⟨_, finished, called, answered, call, result⟩
    · exact .response rfl parsed.idle (unexpected data bytes (Or.inl (by simp [failed])))
    · have frame := (c.parsed_frame base data).request
      exact .reading (frame.evWatcher.trans reading) (parsed.besides _ _ _ _ _ _) noError unfinished
    · exact .interim rfl (parsed.besides _ _ _ _ _ _) noError unfinished expects
    · obtain ⟨r, made, app⟩ := wsgiCallApplication_outcome call
      have clear := (app.frame made).expectContinue.trans (unexpected data bytes (Or.inr finished))
      rcases result with ⟨rfl, rfl⟩ | ⟨rfl, rfl⟩
      · exact .response rfl (app.idle parsed.idle) clear
      · exact .response rfl rfl clear
  · rcases evIoOnRead_noBytes step untouched.idle (fun data bytes => some ⟨data, bytes⟩) with rfl | ⟨metric, closed⟩
    · exact .reading reading (untouched.count _) noError unfinished
    · exact .closed closed.evWatcher

theorem Steered.write {base : Environ} {c c' : Conn} {w : WriteEvent} (h : Steered c)
    (step : Step base c (.write w) c') : Steered c' := by
  obtain ⟨writing, step⟩ := step
  have idle : c.pyErr = none := by
    cases h with
    | reading _ untouched => exact untouched.idle
    | interim _ untouched => exact untouched.idle
    | response _ idle => exact idle
    | closed closed => cases closed.symm.trans writing
  cases evIoOnWrite_outcome idle step with
  | more frame clear =>
    exact .response (frame.evWatcher.trans writing) (frame.idle idle) (frame.expectContinue.trans clear)
  | kept _ _ _ kept =>
    obtain ⟨noError, unfinished, _⟩ := kept.ready.flags
    exact .reading kept.ready.reading kept.ready.untouched noError unfinished
  | closed _ _ closed => exact .closed closed.evWatcher
  | @interim mid frame expects =>
    cases h with
    | reading reading => cases reading.symm.trans writing
    | interim _ untouched noError unfinished =>
      have same := untouched.write frame
      exact .reading rfl (same.besides _ _ _ _ _ _) (frame.errorCode.trans noError)
        (frame.parseFinished.trans unfinished)
    | response _ _ clear => cases clear.symm.trans expects
    | closed closed => cases closed.symm.trans writing

theorem Steered.step {base : Environ} {c c' : Conn} {event : Event} (h : Steered c)
    (step : Guarded (AnswersUnexpected base) (Step base) c event c') : Steered c' := by
  obtain ⟨unexpected, step⟩ := step
  cases event with
  | read e => exact h.read unexpected step
  | write w => exact h.write step

theorem evIoOnRequest_steered (clientAddr : Bytes) (parser : HttpParser) :
    Steered (evIoOnRequest clientAddr parser) := by
  have ready := evIoOnRequest_ready clientAddr parser
  obtain ⟨noError, unfinished, _⟩ := ready.flags
  exact .reading ready.reading ready.untouched noError unfinished

theorem steered_of_run {base : Environ} {clientAddr : Bytes} {parser : HttpParser} {events : List Event} {c : Conn}
    (run : Run (Guarded (AnswersUnexpected base) (Step base)) (evIoOnRequest clientAddr parser) events c) :
    Steered c :=
  run.invariant _ (fun _ _ _ inv step => inv.step step) (evIoOnRequest_steered clientAddr parser)

/-- Where no expectation stands behind the callbacks, the interim flag is down. -/
theorem Steered.unexpected {base : Environ} {c c' : Conn} {event : Event} (h : Steered c)
    (unawaited : Unawaited c event) (step : Step base c event c') : AnswersUnexpected base c event := by
  cases event with
  | write w => trivial
  | read e =>
    obtain ⟨reading, step⟩ := step
    obtain ⟨untouched, noError, unfinished⟩ := h.untouched reading
    intro data bytes answers
    have parses := evIoOnRead_parses step bytes
    rw [(untouched.toGrounded.parsed parses).1] at answers ⊢
    exact unawaited.clear bytes noError unfinished answers

theorem unexpected_of_run {base : Environ} {clientAddr : Bytes} {parser : HttpParser} {events : List Event} {c : Conn}
    (run : Run (Guarded Unawaited (Step base)) (evIoOnRequest clientAddr parser) events c) :
    Run (Guarded (AnswersUnexpected base) (Step base)) (evIoOnRequest clientAddr parser) events c := by
  obtain ⟨_, guarded, rfl, _⟩ := run.simulate (Guarded (AnswersUnexpected base) (Step base))
    (fun c d => d = c ∧ Steered c) (fun s _ event t related step => by
      obtain ⟨rfl, steered⟩ := related
      obtain ⟨unawaited, step⟩ := step
      have guarded := And.intro (steered.unexpected unawaited step) step
      exact ⟨t, guarded, rfl, steered.step guarded⟩) ⟨rfl, evIoOnRequest_steered clientAddr parser⟩
  exact guarded

/-- What steers the writer while an error message is sent. -/
structure Settled (pos : Nat) (c : Conn) : Prop where
  idle : c.pyErr = none
  keepAlive : c.state.keepAlive = false
  chunkedResponse : c.state.chunkedResponse = false
  expectContinue : c.state.expectContinue = false
  iterator : c.iterator = none
  nothing : c.iterable.any (PyValue.holdsBehind pos) = false

/-- A connection that sends an error message, has the end of a file behind it, or is closed. -/
inductive Rejecting (pos : Nat) (before message : Bytes) (c : Conn) : Prop
  | sending {accepted} : c.evWatcher = .writing → Settled pos c → SendingChunk c message →
      c.sent = before ++ accepted → accepted ++ message.drop c.currentChunkP.toNat = message →
      Rejecting pos before message c
  | endOfFile : c.evWatcher = .writing → Settled pos c → c.routesSendfile = true → c.currentChunk = .null →
      c.currentChunkP = pos → c.sent = before ++ message → Rejecting pos before message c
  | concluded : c.evWatcher = .closed → c.sent = before ++ message → Rejecting pos before message c

/-- A file that the writer turns to ends before the offset `pos`. -/
theorem Settled.endOfFile {pos : Nat} {c : Conn} (h : Settled pos c) (route : c.routesSendfile = true)
    (w : WriteEvent) : ∃ content, content.length ≤ pos ∧ writeResponse c w = onWriteSendfile c content w := by
  obtain ⟨wrapper, iterable, descriptor, eq⟩ := writeResponse_sendfile route
  have nothing := h.nothing
  rw [iterable] at nothing
  have ended : wrapper.content.length ≤ pos := by simpa [PyValue.holdsBehind, descriptor] using nothing
  exact ⟨wrapper.content, ended, eq w⟩

/-- The write of an error message sends a part of it, or all of it: then the response is over, unless there is the
end of a file to find. -/
theorem Settled.writeMessage {pos : Nat} {c : Conn} {w : WriteEvent} {message : Bytes} (h : Settled pos c)
    (sending : SendingChunk c message) (hw : ¬ Fatal w) (seeks : SeeksTo pos c w) :
    (∃ k, k < (message.drop c.currentChunkP.toNat).length ∧
      writeResponse c w = .ok (c.sentPart ((message.drop c.currentChunkP.toNat).take k), .notYetDone)) ∨
    ∃ p state, writeResponse c w =
        .ok ({ c.sentAll (message.drop c.currentChunkP.toNat) with currentChunkP := p }, state) ∧
      (state = .done ∨ state = .aborted ∨ state = .notYetDone ∧ c.routesSendfile = true ∧ p = pos) := by
  cases route : c.routesSendfile with
  | false =>
    rw [writeResponse_chunk route]
    unfold onWriteChunk
    rcases doSendChunk_cases sending hw with ⟨k, hk, step⟩ | step
    · exact Or.inl ⟨k, hk, by rw [step]; rfl⟩
    · have concluded : sendTerminatorChunk (c.sentAll (message.drop c.currentChunkP.toNat)) =
          (c.sentAll (message.drop c.currentChunkP.toNat), .done) := by
        simp [sendTerminatorChunk, Conn.sentAll, h.chunkedResponse]
      refine Or.inr ⟨0, .done, ?_, Or.inl rfl⟩
      have ended : ¬ (c.sentAll (message.drop c.currentChunkP.toNat)).iterator.isSome = true := by
        simp [Conn.sentAll, h.iterator]
      simp only [step, ok_bind, Bool.false_eq_true, if_false, if_neg ended, concluded]
      rfl
  | true =>
    obtain ⟨content, _, eq⟩ := h.endOfFile route w
    rw [eq]
    have started : c.currentChunk ≠ .null := by simp [sending.chunk]
    unfold onWriteSendfile
    rw [if_pos started]
    rcases doSendChunk_cases sending hw with ⟨k, hk, step⟩ | step
    · exact Or.inl ⟨k, hk, by rw [step]; rfl⟩
    · rw [step]
      rcases seeks route with found | lost
      · have there : ¬ w.lseek = -1 := by omega
        exact Or.inr ⟨w.lseek, .notYetDone, by simp [there], Or.inr (Or.inr ⟨rfl, rfl, found⟩)⟩
      · exact Or.inr ⟨w.lseek, .aborted, by simp [lost], Or.inr (Or.inl rfl)⟩

theorem Settled.closes {pos : Nat} {c : Conn} {state : RwState} (h : Settled pos c)
    (concluded : state = .done ∨ state = .aborted) : Cleaned c (Closed c) (finishWrite c state) := by
  rcases concluded with rfl | rfl
  · exact finishWrite_done_closed h.idle h.keepAlive
  · exact finishWrite_aborted h.idle

theorem Cleaned.rejecting {pos : Nat} {before message : Bytes} {c : Conn} {result : Except Halted Conn}
    (h : Cleaned c (Closed c) result) (sent : c.sent = before ++ message) :
    (∀ c', result = .ok c' → Rejecting pos before message c') ∧
      ∀ halt last, result = .error (halt, last) → halt = .exit ∧ last.sent = before ++ message := by
  cases h with
  | ok _ closed =>
    refine ⟨?_, by simp⟩
    rintro _ ⟨⟩
    exact .concluded closed.evWatcher (closed.sent.trans sent)
  | exit _ same _ =>
    refine ⟨by simp, ?_⟩
    rintro _ _ ⟨⟩
    exact ⟨rfl, same.trans sent⟩

theorem evIoOnWrite_clear {c mid : Conn} {w : WriteEvent} {state : RwState} (h : writeResponse c w = .ok (mid, state))
    (clear : mid.state.expectContinue = false) : evIoOnWrite c w = finishWrite mid state := by
  simp [evIoOnWrite, h, clear]

theorem Settled.write {pos : Nat} {c mid : Conn} (h : Settled pos c) (frame : WriteFrame c mid) : Settled pos mid := by
  refine ⟨frame.idle h.idle, frame.keepAlive h.keepAlive, frame.chunkedResponse h.chunkedResponse,
    frame.expectContinue.trans h.expectContinue, (frame.iterator h.iterator).1, ?_⟩
  rw [frame.iterable]
  exact h.nothing

theorem Settled.count {pos : Nat} {c : Conn} (h : Settled pos c) (metric : Metric) : Settled pos (c.count metric) :=
  { h with }

/-- The end of a file is found at once. -/
theorem Settled.writeNothing {pos : Nat} {c : Conn} {w : WriteEvent} (h : Settled pos c)
    (route : c.routesSendfile = true) (chunk : c.currentChunk = .null) (position : c.currentChunkP = pos)
    (hw : ¬ Fatal w) : writeResponse c w = .ok (c, .notYetDone) ∨ writeResponse c w = .ok (c, .done) := by
  have sent : ¬ c.currentChunk ≠ .null := by simp [chunk]
  obtain ⟨content, ended, eq⟩ := h.endOfFile route w
  rw [eq]
  unfold onWriteSendfile doSendfile
  rw [if_neg sent]
  cases he : w.result with
  | errno e =>
    have again : e.tryAgain = true := by
      cases e with
      | other => exact absurd he hw
      | _ => rfl
    exact Or.inl (by simp [handleNonzeroErrno, again])
  | room n =>
    have nothing : content.length - c.currentChunkP.toNat = 0 := by omega
    exact Or.inr (by simp [nothing])

theorem Rejecting.step {pos : Nat} {before message : Bytes} {c : Conn} {w : WriteEvent}
    (h : Rejecting pos before message c) (writing : c.evWatcher = .writing) (hw : ¬ Fatal w)
    (seeks : SeeksTo pos c w) :
    (∀ c', evIoOnWrite c w = .ok c' → Rejecting pos before message c') ∧
      ∀ halt last, evIoOnWrite c w = .error (halt, last) → halt = .exit ∧ last.sent = before ++ message := by
  cases h with
  | concluded closed => cases closed.symm.trans writing
  | @sending accepted on settled sending sent left =>
    rcases settled.writeMessage sending hw seeks with ⟨k, hk, step⟩ | ⟨p, state, step, concluded⟩
    · have frame := (writeResponse_frame step).1
      have settled' := settled.write frame
      rw [evIoOnWrite_clear step settled'.expectContinue]
      refine ⟨?_, by simp [finishWrite]⟩
      rintro _ ⟨⟩
      have sending' := sending.sentPart hk
      have more : (c.sentPart ((message.drop c.currentChunkP.toNat).take k)).sent =
          before ++ (accepted ++ (message.drop c.currentChunkP.toNat).take k) := by
        simp [Conn.sentPart, sent]
      refine .sending on (settled'.count _) ⟨sending'.chunk, sending'.start, sending'.inside⟩ more ?_
      rw [List.append_assoc]
      exact (congrArg (accepted ++ ·) (sending.sentPart_rest hk)).trans left
    · have frame := (writeResponse_frame step).1
      have settled' := settled.write frame
      have all : (c.sentAll (message.drop c.currentChunkP.toNat)).sent = before ++ message := by
        simp [Conn.sentAll, sent, left]
      rw [evIoOnWrite_clear step settled'.expectContinue]
      rcases concluded with concluded | concluded | ⟨rfl, route, found⟩
      · exact (settled'.closes (Or.inl concluded)).rejecting all
      · exact (settled'.closes (Or.inr concluded)).rejecting all
      · refine ⟨?_, by simp [finishWrite]⟩
        rintro _ ⟨⟩
        exact .endOfFile on (settled'.count _) route rfl found all
  | endOfFile on settled route chunk position sent =>
    rcases settled.writeNothing route chunk position hw with step | step
    · rw [evIoOnWrite_clear step settled.expectContinue]
      refine ⟨?_, by simp [finishWrite]⟩
      rintro _ ⟨⟩
      exact .endOfFile on (settled.count _) route chunk position sent
    · rw [evIoOnWrite_clear step settled.expectContinue]
      exact (settled.closes (Or.inl rfl)).rejecting sent

theorem Rejecting.onlySends {pos : Nat} {message : Bytes} {c : Conn} (h : Rejecting pos c.sent message c) :
    OnlySends pos message c := by
  intro writes c' run
  have reached := run.invariant (Rejecting pos c.sent message)
    (fun _ _ _ inv step => (inv.step step.2.1 step.2.2.1 step.1).1 _ step.2.2.2) h
  refine ⟨?_, fun w halt last writing hw seeks => (reached.step writing hw seeks).2 halt last⟩
  cases reached with
  | @sending accepted on _ _ sent left => exact ⟨accepted, sent, ⟨_, left⟩, Or.inl on⟩
  | endOfFile on _ _ _ _ sent => exact ⟨message, sent, List.prefix_refl _, Or.inl on⟩
  | concluded closed sent => exact ⟨message, sent, List.prefix_refl _, Or.inr ⟨closed, rfl⟩⟩

theorem httpErrorMessages_length (code : HttpStatus) : 0 < (httpErrorMessages code).length := by
  cases code <;> decide

theorem Taken.iterable {c c' : Conn} {v : PyValue} {chunk : Option (Option Bytes)} (taken : Taken c v c' chunk) :
    c'.iterable = none ∨ c'.iterable = some v := by
  cases taken with
  | bytestring => exact Or.inl rfl
  | file => exact Or.inr rfl
  | notIterable => exact Or.inr rfl
  | generic _ _ next => cases next <;> exact Or.inr rfl

/-- What a failed call of the application leaves behind. -/
theorem AppOutcome.failed_frame {c c' : Conn} {r : Request} {app : PyCall PyValue} (calls : CallsMade c app r)
    (h : AppOutcome c r app c' false) (fresh : c.iterable = none) :
    c'.state.keepAlive = c.state.keepAlive ∧ c'.state.chunkedResponse = c.state.chunkedResponse ∧
      c'.currentChunkP = c.currentChunkP ∧
      (c'.iterable = none ∨ ∃ v, app.result = .ok v ∧ c'.iterable = some v) := by
  have made := calls.frame
  cases h with
  | raised _ =>
    obtain ⟨_, _, _, _, rfl⟩ := runStartResponses_frame calls
    exact ⟨rfl, rfl, rfl, Or.inl fresh⟩
  | @refused v _ returned taken =>
    have frame := taken.frame
    refine ⟨frame.keepAlive.trans made.keepAlive, frame.chunkedResponse.trans made.chunkedResponse,
      frame.currentChunkP.trans made.currentChunkP, ?_⟩
    exact taken.iterable.imp id (fun same => ⟨v, returned, same⟩)
  | @notStarted v _ _ returned taken _ =>
    have frame := taken.frame
    refine ⟨frame.keepAlive.trans made.keepAlive, frame.chunkedResponse.trans made.chunkedResponse,
      frame.currentChunkP.trans made.currentChunkP, ?_⟩
    exact taken.iterable.imp id (fun same => ⟨v, returned, same⟩)

theorem Settled.rejecting {pos : Nat} {c : Conn} {message : Bytes} (h : Settled pos c)
    (writing : c.evWatcher = .writing) (chunk : c.currentChunk = .owned message) (position : c.currentChunkP = 0)
    (some : 0 < message.length) : Rejecting pos c.sent message c := by
  have none : c.sent = c.sent ++ [] := (List.append_nil _).symm
  exact .sending writing h ⟨chunk, by simp [position], by simpa [position] using some⟩ none (by simp [position])

/-- In a run in which no expectation stands whenever a read is answered, an error response is the error message and
nothing else, if it starts at the first byte of its chunk and the descriptor of a returned file is at its end. -/
theorem error_message_alone {base : Environ} {clientAddr : Bytes} {parser : HttpParser} {events : List Event}
    {c c' : Conn} {e : ReadEvent} {code : HttpStatus} {pos : Nat}
    (run : Run (Guarded Unawaited (Step base)) (evIoOnRequest clientAddr parser) events c)
    (step : Guarded Unawaited (Step base) c (.read e) c') (rejects : Rejects base c e code)
    (position : c.currentChunkP = 0)
    (ended : code = .serverError → ∀ v, e.app.result = .ok v → v.holdsBehind pos = false) :
    OnlySends pos (httpErrorMessages code) c' := by
  have steered := steered_of_run (unexpected_of_run run)
  have unexpected := steered.unexpected step.1 step.2
  obtain ⟨_, reading, step⟩ := step
  have untouched := (steered.untouched reading).1
  have outcome := evIoOnRead_outcome step
  cases rejects with
  | @parsing data _ bytes failed =>
    have parsed := untouched.parsed (evIoOnRead_parses step bytes)
    have clear := unexpected data bytes (Or.inl (by simp [failed]))
    have position' := (c.parsed_frame base data).request.currentChunkP.trans position
    rcases outcome.of_bytes bytes with ⟨code', failed', rfl⟩ | ⟨noError, _⟩ | ⟨noError, _⟩ | ⟨noError, _⟩
    · cases failed.symm.trans failed'
      have nothing : (c.parsed base data).iterable.any (PyValue.holdsBehind pos) = false := by simp [parsed.iterable]
      have settled : Settled pos ((startWriting { (c.parsed base data).count .reqErrorParse with
          currentChunk := .owned (httpErrorMessages code) }).count .reqDone) :=
        ⟨parsed.idle, parsed.keepAlive, parsed.chunkedResponse, clear, parsed.iterator, nothing⟩
      exact (settled.rejecting rfl rfl position' (httpErrorMessages_length code)).onlySends
    · cases failed.symm.trans noError
    · cases failed.symm.trans noError
    · cases failed.symm.trans noError
  | @answering data last bytes noError finished failed =>
    have parsed := untouched.parsed (evIoOnRead_parses step bytes)
    have clear := unexpected data bytes (Or.inr finished)
    have position' := (c.parsed_frame base data).request.currentChunkP.trans position
    obtain ⟨called, answered, call, result⟩ := outcome.finished bytes noError finished
    cases failed.symm.trans call
    obtain rfl : c' = last.failedResponse := by simpa using result
    obtain ⟨r, made, app⟩ := wsgiCallApplication_outcome failed
    obtain ⟨keepAlive, chunked, same, iterable⟩ := app.failed_frame made parsed.iterable
    have nothing : last.iterable.any (PyValue.holdsBehind pos) = false := by
      rcases iterable with none | ⟨v, returned, some⟩
      · simp [none]
      · simpa [some] using ended rfl v returned
    have settled : Settled pos last.failedResponse :=
      ⟨rfl, keepAlive.trans parsed.keepAlive, chunked.trans parsed.chunkedResponse,
        (app.frame made).expectContinue.trans clear, rfl, nothing⟩
    exact (settled.rejecting rfl rfl (same.trans position') (httpErrorMessages_length .serverError)).onlySends

/-- The return value `v` of an application that never calls `start_response`. -/
def silent (v : PyValue) : PyCall PyValue := ⟨[], .ok v⟩

/-- A file without a buffer that holds `hello`, wrapped to be read in blocks of two bytes. -/
def helloBlocks : FileWrapper := fileWrapperNew helloFile (some 2)

theorem getRequest_unawaited {c : Conn} (clear : c.state.expectContinue = false) (app : PyCall PyValue) :
    Unawaited c (.read ⟨.bytes getRequest, app⟩) := by
  refine .of_unnamed clear ?_
  rintro _ ⟨⟩
  simp [getRequest]

/-- A file that holds `hello`, wrapped to be read in one block: nothing is behind it. -/
def helloBlock : FileWrapper := fileWrapperNew helloFile (some 5)

theorem error_message_alone_silent : ∃ c c',
    Step .empty freshConn (.read ⟨.bytes getRequest, silent (.fileWrapper helloBlock)⟩) c ∧
    Run Transmit c [transfers 5 10, transfers 5 1000, transfers 5 1000] c' ∧ c'.evWatcher = .closed ∧
    ∃ accepted, c'.sent = c.sent ++ accepted ∧ accepted <+: httpErrorMessages .serverError ∧
      (c'.evWatcher = .writing ∨ c'.evWatcher = .closed ∧ accepted = httpErrorMessages .serverError) := by
  have seeks : ∀ n c, SeeksTo (helloFile.skip 5).descriptor c (transfers 5 n) := fun _ _ _ => Or.inl rfl
  have answer : ∃ c c', Step .empty freshConn (.read ⟨.bytes getRequest, silent (.fileWrapper helloBlock)⟩) c ∧
      Run (Guarded (SeeksTo (helloFile.skip 5).descriptor) Transmit) c
        [transfers 5 10, transfers 5 1000, transfers 5 1000] c' ∧ c'.evWatcher = .closed :=
    ⟨_, _, ⟨rfl, rfl⟩, .cons ⟨seeks _ _, rfl, by decide, rfl⟩ (.cons ⟨seeks _ _, rfl, by decide, rfl⟩
      (.single ⟨seeks _ _, rfl, by decide, rfl⟩)), rfl⟩
  obtain ⟨c, c', step, run, closed⟩ := answer
  have rejects : Rejects .empty freshConn ⟨.bytes getRequest, silent (.fileWrapper helloBlock)⟩ .serverError :=
    .answering rfl rfl rfl rfl
  have alone : OnlySends (helloFile.skip 5).descriptor (httpErrorMessages .serverError) c := by
    refine error_message_alone .nil ⟨getRequest_unawaited rfl _, step⟩ rejects rfl ?_
    rintro _ _ ⟨⟩
    rfl
  exact ⟨c, c', step, run.mono fun _ _ _ step => step.2, closed, (alone _ _ run).1⟩

/-- The application returns a file without calling `start_response`. The server reads its first block and then sends
what is behind the descriptor after the error message. -/
theorem file_behind_error_message : ∃ c c',
    Step .empty freshConn (.read ⟨.bytes getRequest, silent (.fileWrapper helloBlocks)⟩) c ∧
      Rejects .empty freshConn ⟨.bytes getRequest, silent (.fileWrapper helloBlocks)⟩ .serverError ∧
      Run (Guarded (SeeksTo (helloFile.skip 2).descriptor) Transmit) c
        [transfers 2 1000, transfers 2 1000] c' ∧
      c'.sent = httpErrorMessages .serverError ++ ascii "llo" ∧
      ¬ OnlySends (helloFile.skip 2).descriptor (httpErrorMessages .serverError) c := by
  have seeks : ∀ c, SeeksTo (helloFile.skip 2).descriptor c (transfers 2 1000) := fun _ _ => Or.inl rfl
  refine ⟨_, _, ⟨rfl, rfl⟩, .answering rfl rfl rfl rfl,
    .cons ⟨seeks _, rfl, by decide, rfl⟩ (.single ⟨seeks _, rfl, by decide, rfl⟩), by decide, ?_⟩
  intro alone
  obtain ⟨⟨accepted, sent, part, _⟩, _⟩ := alone [transfers 2 1000, transfers 2 1000] _
    (.cons ⟨seeks _, rfl, by decide, rfl⟩ (.single ⟨seeks _, rfl, by decide, rfl⟩))
  have all : httpErrorMessages .serverError ++ ascii "llo" = accepted := sent
  have short := part.length_le
  rw [← all] at short
  exact absurd short (by decide)

end Bjoern
