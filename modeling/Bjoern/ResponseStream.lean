import Bjoern.ContinueExchange
import Bjoern.ErrorIndicator

namespace Bjoern

open Runs

/-- The call of the application that an event makes, on the connection as the application finds it. -/
def Conn.calls (base : Environ) (c : Conn) : Event → List (Conn × PyCall PyValue)
  | .read ⟨.bytes data, app⟩ =>
    if (c.parsed base data).state.errorCode = none ∧ (c.parsed base data).state.parseFinished = true then
      [((c.parsed base data).count .reqSuccessRead, app)]
    else []
  | _ => []

/-- A call of the application that the server can answer, on a connection without anything of a response. -/
structure Call where
  conn : Conn
  app : PyCall PyValue
  untouched : Untouched conn
  whole : AnswersWhole conn app

/-- The answer to one call of the application, and whether the connection is kept after it. -/
structure Reply extends Call where
  pos : Nat
  bytes : Bytes
  keep : Bool
  answer : Answer conn app pos bytes keep

/-- What the server sends as a whole. -/
inductive Message
  | interim
  | reply (r : Reply)
  | refusal (code : HttpStatus)

def Message.bytes : Message → Bytes
  | .interim => continueMessage
  | .reply r => r.bytes
  | .refusal code => httpErrorMessages code

def Message.keep : Message → Bool
  | .interim => true
  | .reply r => r.keep
  | .refusal _ => false

def Message.calls : Message → List (Conn × PyCall PyValue)
  | .reply r => [(r.conn, r.app)]
  | _ => []

/-- A file is sent from where an `lseek()` of the run finds its descriptor. -/
def Message.Placed (events : List Event) : Message → Prop
  | .reply r => (∃ w, Event.write w ∈ events ∧ w.lseek = r.pos) ∨ ∀ pos, Answer r.conn r.app pos r.bytes r.keep
  | _ => True

/-- No expectation is up when a request is answered, the application keeps to what the server relies on, and no
system call fails; an interim message is taken as a whole if at all. -/
def Attended (base : Environ) (c : Conn) : Event → Prop
  | .read e => AnswersUnexpected base c (.read e) ∧ ∀ x ∈ c.calls base (.read e), AnswersWhole x.1 x.2
  | .write w => ¬ Fatal w ∧ (c.state.expectContinue = true → ∀ n, w.result = .room n → continueMessage.length ≤ n) ∧
      (c.routesSendfile = true → 0 ≤ w.lseek ∧ (c.currentChunk = .null → w.result ≠ .room 0))

theorem Attended.unexpected {base : Environ} {c : Conn} {event : Event} (h : Attended base c event) :
    AnswersUnexpected base c event := by
  cases event with
  | read e => exact h.1
  | write w => trivial

/-- The messages `past` are the answers to `calls` and make up `sent`, and the connection is kept after each. -/
structure Record (events : List Event) (calls : List (Conn × PyCall PyValue)) (past : List Message) (sent : Bytes) :
    Prop where
  calls_eq : past.flatMap Message.calls = calls
  sent_eq : past.flatMap Message.bytes = sent
  kept : ∀ m ∈ past, m.keep = true
  placed : ∀ m ∈ past, m.Placed events

theorem Message.Placed.later {events : List Event} {m : Message} (h : m.Placed events) (event : Event) :
    m.Placed (events ++ [event]) := by
  cases m with
  | reply r =>
    rcases h with ⟨w, found, eq⟩ | anywhere
    · exact Or.inl ⟨w, List.mem_append_left _ found, eq⟩
    · exact Or.inr anywhere
  | interim => trivial
  | refusal => trivial

theorem Record.later {events : List Event} {calls : List (Conn × PyCall PyValue)} {past : List Message} {sent : Bytes}
    (h : Record events calls past sent) (event : Event) : Record (events ++ [event]) calls past sent :=
  ⟨h.calls_eq, h.sent_eq, h.kept, fun m member => (h.placed m member).later event⟩

theorem Record.snoc {events : List Event} {calls : List (Conn × PyCall PyValue)} {past : List Message} {sent : Bytes}
    {m : Message} (h : Record events calls past sent) (kept : m.keep = true) (placed : m.Placed events) :
    Record events (calls ++ m.calls) (past ++ [m]) (sent ++ m.bytes) := by
  refine ⟨?_, ?_, ?_, ?_⟩
  · simp [h.calls_eq]
  · simp [h.sent_eq]
  · intro m' member
    rcases List.mem_append.mp member with old | new
    · exact h.kept m' old
    · exact List.mem_singleton.mp new ▸ kept
  · intro m' member
    rcases List.mem_append.mp member with old | new
    · exact h.placed m' old
    · exact List.mem_singleton.mp new ▸ placed

/-- The answer to a call is on its way behind `before`. -/
def Replying (before : Bytes) (call : Call) (pos : Nat) (c : Conn) : Prop :=
  ∃ R keep, Answer call.conn call.app pos R keep ∧ Answering before R keep pos c

/-- The position of a file is open until the `lseek()` behind its header block. -/
inductive Positioned (events : List Event) (before : Bytes) (call : Call) (c : Conn) : Prop
  | anywhere : (∀ pos, Replying before call pos c) → Positioned events before call c
  | at {pos : Nat} : (∃ w, Event.write w ∈ events ∧ w.lseek = pos) →
      (c.evWatcher = .writing → c.routesSendfile = true ∧ c.currentChunk = .null) →
      Replying before call pos c → Positioned events before call c

/-- Where a connection is with its messages. -/
inductive Telling (events : List Event) (calls : List (Conn × PyCall PyValue)) (c : Conn) : Prop
  | reading {past} : c.evWatcher = .reading → Record events calls past c.sent → Untouched c →
      c.state.expectContinue = false → c.currentChunkP = 0 → Telling events calls c
  | asking {past} : c.evWatcher = .writing → Record events calls past c.sent → Untouched c →
      c.state.expectContinue = true → SendingChunk c continueMessage → c.currentChunkP = 0 → Telling events calls c
  | replying {past called before} {call : Call} : c.evWatcher = .writing → Record events called past before →
      calls = called ++ [(call.conn, call.app)] → Positioned events before call c → Telling events calls c
  | refusing {past before code} : c.evWatcher = .writing → Record events calls past before →
      c.routesSendfile = false → Rejecting 0 before (httpErrorMessages code) c → Telling events calls c
  | left {past} : c.evWatcher = .closed → Record events calls past c.sent → Telling events calls c
  | closed {past called before} {m : Message} : c.evWatcher = .closed → Record events called past before →
      calls = called ++ m.calls → c.sent = before ++ m.bytes → m.keep = false → m.Placed events → Telling events calls c

theorem calls_of_bytes {base : Environ} {c : Conn} {e : ReadEvent} {data : ReadData} (bytes : e.result = .bytes data) :
    c.calls base (.read e) =
      if (c.parsed base data).state.errorCode = none ∧ (c.parsed base data).state.parseFinished = true then
        [((c.parsed base data).count .reqSuccessRead, e.app)]
      else [] := by
  obtain ⟨result, app⟩ := e
  subst bytes
  rfl

theorem calls_of_noBytes {base : Environ} {c : Conn} {e : ReadEvent} (none : ∀ data, e.result ≠ .bytes data) :
    c.calls base (.read e) = [] := by
  obtain ⟨result, app⟩ := e
  cases result with
  | bytes data => exact absurd rfl (none data)
  | eof => rfl
  | errno errno => rfl

theorem Telling.read {base : Environ} {events : List Event} {calls : List (Conn × PyCall PyValue)} {c c' : Conn}
    {e : ReadEvent} (h : Telling events calls c) (attended : Attended base c (.read e))
    (step : Step base c (.read e) c') :
    Telling (events ++ [.read e]) (calls ++ c.calls base (.read e)) c' := by
  obtain ⟨reading, step⟩ := step
  obtain ⟨unexpected, whole⟩ := attended
  cases h with
  | asking writing => cases writing.symm.trans reading
  | replying writing => cases writing.symm.trans reading
  | refusing writing => cases writing.symm.trans reading
  | left closed => cases closed.symm.trans reading
  | closed closed => cases closed.symm.trans reading
  | @reading past _ record untouched clear position =>
    have later := record.later (.read e)
    by_cases some : ∃ data, e.result = .bytes data
    · obtain ⟨data, bytes⟩ := some
      rw [calls_of_bytes bytes] at whole ⊢
      have frame := (c.parsed_frame base data).request
      have parsed := untouched.parsed (evIoOnRead_parses step bytes)
      have later : Record (events ++ [.read e]) calls past (c.parsed base data).sent := by
        rw [Conn.parsed_sent]
        exact later
      have position' : (c.parsed base data).currentChunkP = 0 := frame.currentChunkP.trans position
      have watcher : (c.parsed base data).evWatcher = .reading := frame.evWatcher.trans reading
      rcases (evIoOnRead_outcome step).of_bytes bytes with ⟨code, failed, rfl⟩ | ⟨noError, unfinished, clear', rfl⟩ |
        ⟨noError, unfinished, expects, rfl⟩ | ⟨noError, finished, called, answered, call, result⟩
      · rw [if_neg (by simp [failed]), List.append_nil]
        have quiet := unexpected data bytes (Or.inl (by simp [failed]))
        have nothing : (c.parsed base data).iterable.any (PyValue.holdsBehind 0) = false := by simp [parsed.iterable]
        have direct : (c.parsed base data).routesSendfile = false := by simp [Conn.routesSendfile, parsed.iterable]
        have settled : Settled 0 ((startWriting { (c.parsed base data).count .reqErrorParse with
            currentChunk := .owned (httpErrorMessages code) }).count .reqDone) :=
          ⟨parsed.idle, parsed.keepAlive, parsed.chunkedResponse, quiet, parsed.iterator, nothing⟩
        exact .refusing rfl later direct (settled.rejecting rfl rfl position' (httpErrorMessages_length code))
      · rw [if_neg (by simp [unfinished]), List.append_nil]
        exact .reading watcher later (parsed.count .reqActive) clear' position'
      · rw [if_neg (by simp [unfinished]), List.append_nil]
        have sending : SendingChunk (startWriting { c.parsed base data with currentChunk := .owned continueMessage })
            continueMessage := by
          have start : (startWriting { c.parsed base data with
              currentChunk := .owned continueMessage }).currentChunkP = 0 := position'
          have some : 0 < continueMessage.length := by decide
          exact ⟨rfl, by omega, by omega⟩
        exact .asking rfl later (parsed.besides _ _ _ _ _ _) expects sending position'
      · rw [if_pos ⟨noError, finished⟩] at whole ⊢
        have quiet := unexpected data bytes (Or.inr finished)
        have answers := whole _ (List.mem_singleton_self _)
        have start : ∀ pos, Replying (c.parsed base data).sent ⟨_, e.app, parsed.count .reqSuccessRead, answers⟩ pos
            (if answered then called.startedResponse else called.failedResponse) := fun pos =>
          Answering.start pos (parsed.count .reqSuccessRead) quiet position' answers call
        rcases result with ⟨rfl, rfl⟩ | ⟨rfl, rfl⟩
        · exact .replying rfl later rfl (.anywhere start)
        · exact .replying rfl later rfl (.anywhere start)
    · have noBytes : ∀ data, e.result ≠ .bytes data := fun data bytes => some ⟨data, bytes⟩
      rw [calls_of_noBytes noBytes, List.append_nil]
      rcases evIoOnRead_noBytes step untouched.idle noBytes with rfl | ⟨metric, closed⟩
      · exact .reading reading later (untouched.count .reqActive) clear position
      · have same : c'.sent = c.sent := closed.sent
        exact .left closed.evWatcher (same ▸ later)

/-- The interim message is sent, or dropped where the socket is not ready for it. -/
theorem interim_written {c c' : Conn} {w : WriteEvent} (untouched : Untouched c)
    (expects : c.state.expectContinue = true) (sending : SendingChunk c continueMessage) (start : c.currentChunkP = 0)
    (hw : ¬ Fatal w) (room : ∀ n, w.result = .room n → continueMessage.length ≤ n)
    (step : evIoOnWrite c w = .ok c') :
    ∃ chunk sent, c' = startReading { c with currentChunk := chunk, sent := sent, state.expectContinue := false } ∧
      (sent = c.sent ∨ sent = c.sent ++ continueMessage) := by
  have direct : c.routesSendfile = false := by simp [Conn.routesSendfile, untouched.iterable]
  unfold evIoOnWrite at step
  rw [writeResponse_chunk direct] at step
  cases result : w.result with
  | errno e =>
    have again : e.tryAgain = true := by
      cases e with
      | other => exact absurd result hw
      | _ => rfl
    have waits : doSendChunk c w = .ok (c, true) := by
      simp [doSendChunk, sending.chunk, result, handleNonzeroErrno, again]
    simp only [onWriteChunk, waits, ok_bind, if_true, pure_ok, expects] at step
    cases step
    exact ⟨_, _, rfl, Or.inl rfl⟩
  | room n =>
    have drop : continueMessage.drop c.currentChunkP.toNat = continueMessage := by simp [start]
    have whole := doSendChunk_whole sending result (by rw [drop]; exact room n result)
    rw [drop] at whole
    have ended : ¬ (c.sentAll continueMessage).iterator.isSome = true := by simp [Conn.sentAll, untouched.iterator]
    have plain : (c.sentAll continueMessage).state.chunkedResponse = false := untouched.chunkedResponse
    have flag : (c.sentAll continueMessage).state.expectContinue = true := expects
    simp only [onWriteChunk, whole, ok_bind, Bool.false_eq_true, if_false, if_neg ended, sendTerminatorChunk, plain,
      pure_ok, flag, if_true] at step
    cases step
    refine ⟨.null, _, ?_, Or.inr rfl⟩
    simp only [Conn.sentAll, ← start]

theorem Rejecting.accepted {pos : Nat} {before message : Bytes} {c : Conn} (h : Rejecting pos before message c) :
    ∃ accepted, c.sent = before ++ accepted ∧ accepted <+: message := by
  cases h with
  | sending _ _ _ sent left => exact ⟨_, sent, _, left⟩
  | endOfFile _ _ _ _ _ sent => exact ⟨message, sent, List.prefix_refl _⟩
  | concluded _ sent => exact ⟨message, sent, List.prefix_refl _⟩

theorem Answering.clear {before whole : Bytes} {keep : Bool} {pos : Nat} {c : Conn}
    (h : Answering before whole keep pos c) (writing : c.evWatcher = .writing) : c.state.expectContinue = false := by
  cases h with
  | items _ _ _ _ _ _ clear => exact clear
  | file _ transferring =>
    cases transferring with
    | header response => exact response.clear
    | file response => exact response.clear
    | concluded stopped => exact absurd writing stopped
  | message _ rejecting =>
    cases rejecting with
    | sending _ settled => exact settled.expectContinue
    | endOfFile _ settled => exact settled.expectContinue
    | concluded closed => cases closed.symm.trans writing
  | concluded ended =>
    cases keep with
    | true => cases (show Ready c from ended).reading.symm.trans writing
    | false => cases (show c.evWatcher = .closed from ended).symm.trans writing

/-- The write with another answer of `lseek()`. -/
def WriteEvent.seeking (w : WriteEvent) (pos : Nat) : WriteEvent := { w with lseek := pos }

/-- The position of the descriptor is looked up behind the header block of a file only. -/
theorem evIoOnWrite_seeking {c : Conn} {w : WriteEvent} (pos : Nat)
    (unasked : c.routesSendfile = true → c.currentChunk ≠ .null → ∃ mid, doSendChunk c w = .ok (mid, true)) :
    evIoOnWrite c (w.seeking pos) = evIoOnWrite c w := by
  cases route : c.routesSendfile with
  | false =>
    rw [evIoOnWrite, evIoOnWrite, writeResponse_chunk route, writeResponse_chunk route]
    rfl
  | true =>
    obtain ⟨wrapper, _, _, eq⟩ := writeResponse_sendfile route
    rw [evIoOnWrite, evIoOnWrite, eq, eq]
    by_cases started : c.currentChunk ≠ .null
    · obtain ⟨mid, sent⟩ := unasked route started
      have same : doSendChunk c (w.seeking pos) = .ok (mid, true) := sent
      simp only [onWriteSendfile, if_pos started, sent, same, ok_bind, if_true]
    · simp only [onWriteSendfile, if_neg started]
      rfl

theorem Replying.write {before : Bytes} {call : Call} {c c' : Conn} {pos : Nat} {w : WriteEvent}
    (h : Replying before call pos c) (step : Transmit c w c')
    (transfers : c.routesSendfile = true → Transfers pos c w) : Replying before call pos c' := by
  obtain ⟨R, keep, answer, answering⟩ := h
  exact ⟨R, keep, answer, answering.transmit step transfers⟩

/-- A write that ends the header block of a file leaves the file to the next write, from where `lseek()` is. -/
theorem header_written {c mid c' : Conn} {w : WriteEvent} (route : c.routesSendfile = true)
    (started : c.currentChunk ≠ .null) (clear : c.state.expectContinue = false) (found : 0 ≤ w.lseek)
    (hw : ¬ Fatal w) (sent : doSendChunk c w = .ok (mid, false)) (step : evIoOnWrite c w = .ok c') :
    c'.evWatcher = c.evWatcher ∧ c'.routesSendfile = true ∧ c'.currentChunk = .null := by
  obtain ⟨wrapper, _, _, eq⟩ := writeResponse_sendfile route
  have frame := doSendChunk_frame sent
  have flag : mid.state.expectContinue = false := frame.expectContinue.trans clear
  have known : ¬ w.lseek = -1 := by omega
  have null := doSendChunk_all hw sent
  rw [evIoOnWrite, eq] at step
  simp only [onWriteSendfile, if_pos started, sent, ok_bind, Bool.false_eq_true, if_false, if_neg known, pure_ok,
    flag] at step
  cases step
  exact ⟨frame.evWatcher, frame.routes.trans route, null⟩

/-- The file itself is sent without another look at the chunk. -/
theorem file_written {c c' : Conn} {w : WriteEvent} (route : c.routesSendfile = true) (chunk : c.currentChunk = .null)
    (step : evIoOnWrite c w = .ok c') (writing : c'.evWatcher = .writing) :
    c'.routesSendfile = true ∧ c'.currentChunk = .null := by
  obtain ⟨⟨mid, state⟩, hm, step⟩ := bind_ok step
  obtain ⟨_, rfl⟩ := finishWrite_writing step writing
  have frame := (writeResponse_frame hm).1
  obtain ⟨wrapper, _, _, eq⟩ := writeResponse_sendfile route
  have concluded : ¬ c.currentChunk ≠ .null := by simp [chunk]
  rw [eq, onWriteSendfile, if_neg concluded] at hm
  cases hm
  exact ⟨frame.routes.trans route, doSendfile_chunk chunk wrapper.content w⟩

theorem Positioned.write {base : Environ} {events : List Event} {before : Bytes} {call : Call} {c c' : Conn}
    {w : WriteEvent} (h : Positioned events before call c)
    (writing : c.evWatcher = .writing) (attended : Attended base c (.write w)) (step : evIoOnWrite c w = .ok c') :
    Positioned (events ++ [.write w]) before call c' := by
  obtain ⟨hw, _, found⟩ := attended
  have transmit : ∀ pos, evIoOnWrite c (w.seeking pos) = evIoOnWrite c w → Transmit c (w.seeking pos) c' :=
    fun pos same => ⟨writing, hw, same.trans step⟩
  cases h with
  | anywhere replying =>
    by_cases asks : c.routesSendfile = true ∧ c.currentChunk ≠ .null ∧ ∃ mid, doSendChunk c w = .ok (mid, false)
    · obtain ⟨route, started, mid, sent⟩ := asks
      obtain ⟨pos, seek⟩ := Int.eq_ofNat_of_zero_le (found route).1
      obtain ⟨_, _, _, answering⟩ := replying pos
      obtain ⟨_, route', null⟩ := header_written route started (answering.clear writing) (found route).1 hw sent step
      exact .at ⟨w, by simp, seek⟩ (fun _ => ⟨route', null⟩)
        ((replying pos).write ⟨writing, hw, step⟩ fun _ => ⟨seek, fun null => absurd null started⟩)
    · refine .anywhere fun pos => ?_
      have unasked : c.routesSendfile = true → c.currentChunk ≠ .null → ∃ mid, doSendChunk c w = .ok (mid, true) := by
        intro route started
        obtain ⟨⟨_, _⟩, hm, _⟩ := bind_ok step
        obtain ⟨wrapper, _, _, eq⟩ := writeResponse_sendfile route
        rw [eq, onWriteSendfile, if_pos started] at hm
        obtain ⟨⟨mid, left⟩, sent, _⟩ := bind_ok hm
        cases left with
        | true => exact ⟨mid, sent⟩
        | false => exact absurd ⟨route, started, mid, sent⟩ asks
      exact (replying pos).write (transmit pos (evIoOnWrite_seeking pos unasked)) fun route => ⟨rfl, (found route).2⟩
  | @«at» pos seek phase replying =>
    obtain ⟨route, chunk⟩ := phase writing
    have next := replying.write (transmit pos (evIoOnWrite_seeking pos (fun _ started => absurd chunk started)))
      fun route => ⟨rfl, (found route).2⟩
    obtain ⟨w', member, eq⟩ := seek
    exact .at ⟨w', List.mem_append_left _ member, eq⟩ (fun on => file_written route chunk step on) next

theorem Positioned.replying {events : List Event} {before : Bytes} {call : Call} {c : Conn}
    (h : Positioned events before call c) : ∃ pos, Replying before call pos c := by
  cases h with
  | anywhere replying => exact ⟨0, replying 0⟩
  | «at» _ _ replying => exact ⟨_, replying⟩

/-- A connection that has stopped writing has sent the answer. -/
theorem Positioned.ended {events : List Event} {before : Bytes} {call : Call} {c : Conn}
    (h : Positioned events before call c) (off : c.evWatcher ≠ .writing) : ∃ r : Reply,
    (Message.reply r).calls = [(call.conn, call.app)] ∧ c.sent = before ++ r.bytes ∧ (Message.reply r).Placed events ∧
      if r.keep then Ready c else c.evWatcher = .closed := by
  have ends : ∀ {pos}, Replying before call pos c → ∃ R keep, Answer call.conn call.app pos R keep ∧
      c.sent = before ++ R ∧ if keep then Ready c else c.evWatcher = .closed := by
    rintro pos ⟨R, keep, answer, answering⟩
    obtain ⟨accepted, sent, _, writing | ⟨rfl, last⟩⟩ := answering.accepted
    · exact absurd writing off
    · exact ⟨_, keep, answer, sent, last⟩
  have kept : ∀ {keep : Bool}, (if keep then Ready c else c.evWatcher = .closed) →
      (keep = true ↔ c.evWatcher = .reading) := by
    intro keep last
    cases keep with
    | true => exact ⟨fun _ => (show Ready c from last).reading, fun _ => rfl⟩
    | false =>
      have closed : c.evWatcher = .closed := last
      simp [closed]
  cases h with
  | anywhere replying =>
    obtain ⟨R, keep, answer, sent, last⟩ := ends (replying 0)
    refine ⟨⟨call, 0, R, keep, answer⟩, rfl, sent, Or.inr fun pos => ?_, last⟩
    obtain ⟨R', keep', answer', sent', last'⟩ := ends (replying pos)
    have same : R = R' := List.append_cancel_left (sent.symm.trans sent')
    have same' : keep = keep' := Bool.eq_iff_iff.mpr ((kept last).trans (kept last').symm)
    subst same same'
    exact answer'
  | @«at» pos seek _ replying =>
    obtain ⟨R, keep, answer, sent, last⟩ := ends replying
    exact ⟨⟨call, pos, R, keep, answer⟩, rfl, sent, Or.inl seek, last⟩

theorem Telling.write {base : Environ} {events : List Event} {calls : List (Conn × PyCall PyValue)} {c c' : Conn}
    {w : WriteEvent} (h : Telling events calls c) (attended : Attended base c (.write w))
    (step : Step base c (.write w) c') : Telling (events ++ [.write w]) calls c' := by
  obtain ⟨writing, step⟩ := step
  have ⟨hw, room, _⟩ := attended
  cases h with
  | reading reading => cases reading.symm.trans writing
  | left closed => cases closed.symm.trans writing
  | closed closed => cases closed.symm.trans writing
  | asking _ record untouched expects sending position =>
    have later := record.later (.write w)
    obtain ⟨chunk, sent, rfl, dropped | whole⟩ :=
      interim_written untouched expects sending position hw (room expects) step
    · exact .reading rfl (dropped ▸ later) (untouched.besides _ _ _ _ _ _) rfl position
    · have told := later.snoc (m := .interim) rfl trivial
      have asked : calls ++ Message.interim.calls = calls := List.append_nil _
      rw [asked] at told
      exact .reading rfl (whole ▸ told) (untouched.besides _ _ _ _ _ _) rfl position
  | replying _ record asked positioned =>
    have later := record.later (.write w)
    have next := positioned.write writing attended step
    by_cases on : c'.evWatcher = .writing
    · exact .replying on later asked next
    · obtain ⟨r, call, sent, placed, last⟩ := next.ended on
      cases keep : r.keep with
      | true =>
        rw [keep] at last
        have ready : Ready c' := last
        have told := later.snoc (m := .reply r) keep placed
        rw [call, ← asked] at told
        exact .reading ready.reading (sent ▸ told) ready.untouched ready.flags.2.2.1 ready.flags.2.2.2
      | false =>
        rw [keep] at last
        exact .closed (m := .reply r) last later (call ▸ asked) sent keep placed
  | refusing _ record direct rejecting =>
    have later := record.later (.write w)
    have next := (rejecting.step writing hw fun route => absurd route (by simp [direct])).1 _ step
    by_cases on : c'.evWatcher = .writing
    · obtain ⟨⟨mid, state⟩, hm, step⟩ := bind_ok step
      obtain ⟨_, rfl⟩ := finishWrite_writing step on
      exact .refusing on later ((writeResponse_frame hm).1.routes.trans direct) next
    · cases next with
      | sending writing => exact absurd writing on
      | endOfFile writing => exact absurd writing on
      | @concluded closed sent =>
        exact .closed (m := .refusal _) closed later (List.append_nil _).symm sent rfl trivial

/-- The messages of a connection: `past` is sent and followed by `current`, of which `accepted` is sent. -/
structure Dialogue (events : List Event) (calls : List (Conn × PyCall PyValue)) (c : Conn) (past : List Message)
    (current : Option Message) (accepted : Bytes) : Prop where
  calls_eq : (past ++ current.toList).flatMap Message.calls = calls
  sent_eq : c.sent = past.flatMap Message.bytes ++ accepted
  part : accepted <+: current.toList.flatMap Message.bytes
  kept : ∀ m ∈ past, m.keep = true ∧ m.Placed events
  reading : c.evWatcher = .reading → current = none
  writing : c.evWatcher = .writing → current ≠ none
  closed : c.evWatcher = .closed →
    accepted = current.toList.flatMap Message.bytes ∧ ∀ m ∈ current, m.keep = false ∧ m.Placed events

theorem Record.dialogue {events : List Event} {calls : List (Conn × PyCall PyValue)} {past : List Message} {c : Conn}
    (h : Record events calls past c.sent) (off : c.evWatcher ≠ .writing) : Dialogue events calls c past none [] := by
  refine ⟨?_, ?_, List.nil_prefix, fun m member => ⟨h.kept m member, h.placed m member⟩, fun _ => rfl,
    fun on => absurd on off, fun _ => ⟨rfl, by simp⟩⟩
  · simpa using h.calls_eq
  · simpa using h.sent_eq.symm

theorem Record.dialogue_with {events : List Event} {calls called : List (Conn × PyCall PyValue)} {past : List Message}
    {before accepted : Bytes} {c : Conn} {m : Message} (h : Record events called past before)
    (asked : calls = called ++ m.calls) (sent : c.sent = before ++ accepted) (part : accepted <+: m.bytes)
    (unread : c.evWatcher ≠ .reading)
    (closed : c.evWatcher = .closed → accepted = m.bytes ∧ m.keep = false ∧ m.Placed events) :
    Dialogue events calls c past (some m) accepted := by
  refine ⟨?_, ?_, ?_, fun m member => ⟨h.kept m member, h.placed m member⟩, fun on => absurd on unread,
    fun _ => by simp, fun off => ?_⟩
  · simp [h.calls_eq, asked]
  · rw [sent, h.sent_eq]
  · simpa using part
  · simpa using closed off

theorem Telling.dialogue {events : List Event} {calls : List (Conn × PyCall PyValue)} {c : Conn}
    (h : Telling events calls c) : ∃ past current accepted, Dialogue events calls c past current accepted := by
  cases h with
  | reading reading record => exact ⟨_, _, _, record.dialogue (by simp [reading])⟩
  | left closed record => exact ⟨_, _, _, record.dialogue (by simp [closed])⟩
  | asking writing record =>
    exact ⟨_, _, [], record.dialogue_with (m := .interim) (List.append_nil _).symm (List.append_nil _).symm
      List.nil_prefix (by simp [writing]) (by simp [writing])⟩
  | @replying _ _ _ call writing record asked positioned =>
    obtain ⟨pos, R, keep, answer, answering⟩ := positioned.replying
    obtain ⟨accepted, sent, part, _⟩ := answering.accepted
    exact ⟨_, _, accepted, record.dialogue_with (m := .reply ⟨call, pos, R, keep, answer⟩) asked sent part
      (by simp [writing]) (by simp [writing])⟩
  | @refusing _ _ code writing record _ rejecting =>
    obtain ⟨accepted, sent, part⟩ := rejecting.accepted
    exact ⟨_, _, accepted, record.dialogue_with (m := .refusal code) (List.append_nil _).symm sent part
      (by simp [writing]) (by simp [writing])⟩
  | @closed _ _ _ m closed record asked sent keep placed =>
    exact ⟨_, _, m.bytes, record.dialogue_with asked sent (List.prefix_refl _) (by simp [closed])
      fun _ => ⟨rfl, keep, placed⟩⟩

/-- The application is called with the environs that the requests leave. -/
theorem Step.environs {base : Environ} {c c' : Conn} {event : Event} (step : Step base c event c')
    (idle : c.pyErr = none) : c'.environs = c.environs ++ (c.calls base event).map (·.1.headers) := by
  obtain ⟨_, step⟩ := step
  cases event with
  | write w =>
    have none : c.calls base (.write w) = [] := rfl
    rw [none, (evIoOnWrite_environs step).2]
    simp
  | read e =>
    by_cases some : ∃ data, e.result = .bytes data
    · obtain ⟨data, bytes⟩ := some
      rw [calls_of_bytes bytes]
      rcases (evIoOnRead_outcome step).of_bytes bytes with ⟨code, failed, rfl⟩ | ⟨_, unfinished, _, rfl⟩ |
        ⟨_, unfinished, _, rfl⟩ | ⟨noError, finished, called, answered, call, result⟩
      · rw [if_neg (by simp [failed])]
        exact (c.parsed_environs base data).trans (List.append_nil _).symm
      · rw [if_neg (by simp [unfinished])]
        exact (c.parsed_environs base data).trans (List.append_nil _).symm
      · rw [if_neg (by simp [unfinished])]
        exact (c.parsed_environs base data).trans (List.append_nil _).symm
      · rw [if_pos ⟨noError, finished⟩]
        obtain ⟨r, made, outcome⟩ := wsgiCallApplication_outcome call
        have environs := (outcome.frame made).environs
        have before : ((c.parsed base data).count .reqSuccessRead).environs = c.environs := c.parsed_environs base data
        rw [before] at environs
        rcases result with ⟨rfl, rfl⟩ | ⟨rfl, rfl⟩
        · exact environs
        · exact environs
    · have noBytes : ∀ data, e.result ≠ .bytes data := fun data bytes => some ⟨data, bytes⟩
      rw [calls_of_noBytes noBytes]
      rcases evIoOnRead_noBytes step idle noBytes with rfl | ⟨metric, closed⟩
      · exact (List.append_nil _).symm
      · exact closed.environs.trans (List.append_nil _).symm

theorem telling_of_run {base : Environ} {clientAddr : Bytes} {parser : HttpParser} {events : List Event}
    {calls : List (Conn × PyCall PyValue)} {c : Conn}
    (run : Traced (Guarded (Attended base) (Step base)) (Conn.calls base) (evIoOnRequest clientAddr parser) events
      calls c) : Telling events calls c ∧ Undisturbed c ∧ c.environs = calls.map (·.1.headers) := by
  have ready := evIoOnRequest_ready clientAddr parser
  have nothing : Record [] [] [] (evIoOnRequest clientAddr parser).sent := ⟨rfl, rfl, by simp, by simp⟩
  have start : Telling [] [] (evIoOnRequest clientAddr parser) := .reading rfl nothing ready.untouched rfl rfl
  refine run.invariant_history
    (fun past calls c => Telling past calls c ∧ Undisturbed c ∧ c.environs = calls.map (·.1.headers))
    (fun past calls s event s' inv step => ?_) ⟨start, evIoOnRequest_undisturbed clientAddr parser, rfl⟩
  obtain ⟨telling, undisturbed, environs⟩ := inv
  obtain ⟨attended, step⟩ := step
  have environs' : s'.environs = (calls ++ s.calls base event).map (·.1.headers) := by
    rw [step.environs undisturbed.idle, environs, List.map_append]
  refine ⟨?_, undisturbed.step attended.unexpected step, environs'⟩
  cases event with
  | read e => exact telling.read attended step
  | write w =>
    have none : s.calls base (.write w) = [] := rfl
    rw [none, List.append_nil]
    exact telling.write attended step

/-- An application that sends what is left of a file behind its first two bytes. -/
def sendsFile : PyCall PyValue := ⟨[lengthArgs], .ok (.fileWrapper helloRest)⟩

/-- A write with room for everything, to a client of a file that is read up to its third byte. -/
def roomy : WriteEvent := ⟨.room 1000, 2, []⟩

def twoRequests : List Event :=
  [.read ⟨.bytes getRequest, returning oneItem⟩, .write roomy, .write roomy,
    .read ⟨.bytes getRequest, sendsFile⟩, .write roomy, .write roomy, .write roomy]

theorem roomy_attended {c : Conn} (clear : c.state.expectContinue = false) : Attended .empty c (.write roomy) := by
  refine ⟨by decide, fun expects => ?_, fun _ => ⟨by decide, fun _ => by decide⟩⟩
  cases clear.symm.trans expects

theorem getRequest_attended {c : Conn} {app : PyCall PyValue}
    (clear : (c.parsed .empty getRequest).state.expectContinue = false)
    (whole : AnswersWhole ((c.parsed .empty getRequest).count .reqSuccessRead) app) :
    Attended .empty c (.read ⟨.bytes getRequest, app⟩) := by
  refine ⟨?_, fun x member => ?_⟩
  · rintro _ ⟨⟩ _
    exact clear
  · rw [calls_of_bytes rfl] at member
    split at member
    next => exact List.mem_singleton.mp member ▸ whole
    next => cases member

theorem lengthArgs_started {r : Request} (fresh : r.state.startResponseCalled = false) :
    runStartResponses r [lengthArgs] =
      .ok (setResponse r (lengthArgs.headD .none) (lengthArgs.getD 1 .none)).1 := by
  have first : startResponse r lengthArgs =
      .ok (setResponse r (lengthArgs.headD .none) (lengthArgs.getD 1 .none)) := by
    simp [startResponse, clearResponse, fresh, lengthArgs]
  rw [runStartResponses, first]
  rfl

theorem sendsFile_answersWhole {c : Conn} (fresh : c.state.startResponseCalled = false) :
    AnswersWhole c sendsFile := by
  rintro r v made ⟨⟩
  cases made.symm.trans (lengthArgs_started (r := { c.toRequest with headers := .null }) fresh)
  exact ⟨fun null => Bool.false_ne_true (isNull_iff.mpr null), rfl⟩

end Bjoern
