import Bjoern.ResponseStream

namespace Bjoern

open Runs

/-- The system call has room for at least one byte. -/
def WriteEvent.presses (w : WriteEvent) : Bool :=
  match w.result with
  | .room n => 0 < n
  | .errno _ => false

/-- The file that `on_write_sendfile` sends. -/
def Conn.file (c : Conn) : Bytes :=
  match c.iterable with
  | some (.fileWrapper wrapper) => wrapper.content
  | _ => []

/-- At least as many bytes as are still to be sent of the response. -/
def Conn.toSend (c : Conn) : Nat :=
  if c.routesSendfile then
    if c.currentChunk = .null then c.file.length - c.currentChunkP.toNat else c.chunkRest.length + c.file.length
  else c.owed.length

theorem writeResponse_file {c : Conn} (route : c.routesSendfile = true) (w : WriteEvent) :
    writeResponse c w = onWriteSendfile c c.file w := by
  obtain ⟨wrapper, iterable, descriptor, eq⟩ := writeResponse_sendfile route
  rw [eq, Conn.file, iterable]

theorem SendingChunk.chunkRest {c : Conn} {data : Bytes} (h : SendingChunk c data) :
    c.chunkRest = data.drop c.currentChunkP.toNat := by
  rw [Conn.chunkRest, h.chunk]

theorem SendingChunk.left {c : Conn} {data : Bytes} (h : SendingChunk c data) :
    0 < (data.drop c.currentChunkP.toNat).length := by
  have start := h.start
  have inside := h.inside
  rw [List.length_drop]
  omega

/-- A write with room for a byte takes one. -/
theorem doSendChunk_presses {c c' : Conn} {w : WriteEvent} {data : Bytes} {left : Bool} (sending : SendingChunk c data)
    (presses : w.presses = true) (h : doSendChunk c w = .ok (c', left)) : c.sent.length < c'.sent.length := by
  have more := sending.left
  unfold WriteEvent.presses at presses
  cases result : w.result with
  | errno e =>
    rw [result] at presses
    cases presses
  | room n =>
    have some : 0 < n := by simpa [result] using presses
    have accepted : c'.sent = c.sent ++ (data.drop c.currentChunkP.toNat).take n := by
      by_cases full : (data.drop c.currentChunkP.toNat).length ≤ n
      · rw [doSendChunk_whole sending result full] at h
        cases h
        rw [List.take_of_length_le full]
        rfl
      · simp only [doSendChunk, sending.chunk, result, sending.bytesAt_eq, sending.offered_eq] at h
        have part : min n (data.drop c.currentChunkP.toNat).length = n := by omega
        rw [part] at h
        split at h
        next => cases h; rfl
        next => cases h; rfl
    rw [accepted, List.length_append, List.length_take]
    omega

theorem NextOutcome.sent {c c' : Conn} {steps : PyIter} {chunk : Option Bytes} (h : NextOutcome c steps c' chunk) :
    c'.sent = c.sent := by
  cases h with
  | chunk => rfl
  | stopped => rfl
  | failed => rfl

theorem ChunkOutcome.sent {c c' : Conn} {w : WriteEvent} {state : RwState} (h : ChunkOutcome c w c' state) :
    ∃ mid left, doSendChunk c w = .ok (mid, left) ∧ c'.sent = mid.sent := by
  have terminated : ∀ {d : Conn}, sendTerminatorChunk d = (c', state) → c'.sent = d.sent := by
    intro d eq
    unfold sendTerminatorChunk at eq
    split at eq
    next => cases eq; rfl
    next => cases eq; rfl
  cases h with
  | part written => exact ⟨_, _, written, rfl⟩
  | chunk written _ next => exact ⟨_, _, written, next.sent⟩
  | failed written _ next => exact ⟨_, _, written, next.sent⟩
  | stopped written _ next _ terminator => exact ⟨_, _, written, (terminated terminator).trans next.sent⟩
  | concluded written _ terminator => exact ⟨_, _, written, terminated terminator⟩

/-- A connection in the middle of a response, by the two ways that `ev_io_on_write` knows. -/
inductive Underway (c : Conn) : Prop
  | items : c.routesSendfile = false → Responding c → Underway c
  | message {pos message} : c.routesSendfile = false → Settled pos c → SendingChunk c message → Underway c
  | header {data} : c.routesSendfile = true → SendingChunk c data → Underway c
  | file : c.routesSendfile = true → c.currentChunk = .null → 0 ≤ c.currentChunkP → Underway c

theorem Rejecting.underway {pos : Nat} {before message : Bytes} {c : Conn} (h : Rejecting pos before message c)
    (writing : c.evWatcher = .writing) : Underway c := by
  cases h with
  | sending _ settled sending =>
    cases route : c.routesSendfile with
    | true => exact .header route sending
    | false => exact .message route settled sending
  | endOfFile _ _ route chunk position => exact .file route chunk (by omega)
  | concluded closed => cases closed.symm.trans writing

theorem Answering.underway {before whole : Bytes} {keep : Bool} {pos : Nat} {c : Conn}
    (h : Answering before whole keep pos c) (writing : c.evWatcher = .writing) : Underway c := by
  cases h with
  | items _ responding _ _ _ direct => exact .items direct responding
  | message _ rejecting => exact rejecting.underway writing
  | file _ transferring =>
    have route := transferring.routes writing
    cases transferring with
    | header _ sending => exact .header route sending
    | file _ chunk _ offset => exact .file route chunk (by omega)
    | concluded stopped => exact absurd writing stopped
  | concluded ended =>
    cases keep with
    | true => cases (show Ready c from ended).reading.symm.trans writing
    | false => cases (show c.evWatcher = .closed from ended).symm.trans writing

theorem Telling.underway {events : List Event} {calls : List (Conn × PyCall PyValue)} {c : Conn}
    (h : Telling events calls c) (writing : c.evWatcher = .writing) (answering : c.state.expectContinue = false) :
    Underway c := by
  cases h with
  | reading reading => cases reading.symm.trans writing
  | asking _ _ _ expects => cases answering.symm.trans expects
  | replying _ _ _ positioned =>
    obtain ⟨_, _, _, _, answering⟩ := positioned.replying
    exact answering.underway writing
  | refusing _ _ _ rejecting => exact rejecting.underway writing
  | left closed => cases closed.symm.trans writing
  | closed closed => cases closed.symm.trans writing

theorem sentPart_toSend {c : Conn} {data : Bytes} {k : Nat} (sending : SendingChunk c data)
    (inside : k < (data.drop c.currentChunkP.toNat).length) :
    (c.sentPart ((data.drop c.currentChunkP.toNat).take k)).toSend + k = c.toSend := by
  have rest := congrArg List.length (sending.sentPart_rest inside)
  have before := sending.chunkRest
  have after := (sending.sentPart inside).chunkRest
  rw [List.length_append, List.length_take] at rest
  have started : c.currentChunk ≠ .null := by simp [sending.chunk]
  have started' : (c.sentPart ((data.drop c.currentChunkP.toNat).take k)).currentChunk ≠ .null := started
  have route : (c.sentPart ((data.drop c.currentChunkP.toNat).take k)).routesSendfile = c.routesSendfile := rfl
  have file : (c.sentPart ((data.drop c.currentChunkP.toNat).take k)).file = c.file := rfl
  have chunked : (c.sentPart ((data.drop c.currentChunkP.toNat).take k)).state.chunkedResponse =
    c.state.chunkedResponse := rfl
  have items : (c.sentPart ((data.drop c.currentChunkP.toNat).take k)).pendingItems = c.pendingItems := rfl
  unfold Conn.toSend Conn.owed
  rw [route, file, chunked, items, if_neg started, if_neg started', before, after]
  split
  · omega
  · rw [List.length_append, List.length_append]
    omega

theorem Conn.toSend_file {c : Conn} (route : c.routesSendfile = true) (chunk : c.currentChunk = .null) :
    c.toSend = c.file.length - c.currentChunkP.toNat := by
  rw [Conn.toSend, if_pos route, if_pos chunk]

theorem writeResponse_presses {c d : Conn} {w : WriteEvent} {data : Bytes} {state : RwState}
    (direct : c.routesSendfile = false) (sending : SendingChunk c data) (step : writeResponse c w = .ok (d, state))
    (presses : w.presses = true) : c.sent.length < d.sent.length := by
  rw [writeResponse_chunk direct] at step
  obtain ⟨mid, left, written, sent⟩ := (onWriteChunk_outcome step).sent
  rw [sent]
  exact doSendChunk_presses sending presses written

theorem onWriteSendfile_header {c d : Conn} {w : WriteEvent} {data : Bytes} (route : c.routesSendfile = true)
    (sending : SendingChunk c data) (hw : ¬ Fatal w) (step : onWriteSendfile c c.file w = .ok (d, .notYetDone)) :
    d.toSend + w.presses.toNat ≤ c.toSend := by
  have started : c.currentChunk ≠ .null := by simp [sending.chunk]
  rw [onWriteSendfile, if_pos started] at step
  rcases doSendChunk_cases sending hw with ⟨k, inside, part⟩ | all
  · have left := sentPart_toSend sending inside
    have pressed : w.presses = true → 0 < k := by
      intro presses
      have more := doSendChunk_presses sending presses part
      rw [Conn.sentPart, List.length_append, List.length_take] at more
      omega
    rw [part] at step
    cases step
    cases presses : w.presses with
    | true =>
      have some := pressed presses
      simp only [Bool.toNat_true]
      omega
    | false =>
      simp only [Bool.toNat_false]
      omega
  · have rest := sending.left
    rw [← sending.chunkRest] at rest
    have bit := Bool.toNat_le w.presses
    have before : c.toSend = c.chunkRest.length + c.file.length := by
      rw [Conn.toSend, if_pos route, if_neg started]
    rw [all] at step
    simp only [ok_bind, Bool.false_eq_true, if_false] at step
    split at step
    next => cases step
    next =>
      cases step
      have after : Conn.toSend { c.sentAll (data.drop c.currentChunkP.toNat) with currentChunkP := w.lseek } =
          c.file.length - w.lseek.toNat := Conn.toSend_file route rfl
      rw [after]
      omega

theorem onWriteSendfile_file {c d : Conn} {w : WriteEvent} (route : c.routesSendfile = true)
    (chunk : c.currentChunk = .null) (start : 0 ≤ c.currentChunkP) (hw : ¬ Fatal w)
    (step : onWriteSendfile c c.file w = .ok (d, .notYetDone)) : d.toSend + w.presses.toNat ≤ c.toSend := by
  have concluded : ¬ c.currentChunk ≠ .null := by simp [chunk]
  have before := Conn.toSend_file route chunk
  rw [onWriteSendfile, if_neg concluded] at step
  cases result : w.result with
  | errno e =>
    have same : doSendfile c c.file w = (c, true) := by
      have again : e.tryAgain = true := by
        cases e with
        | other => exact absurd result hw
        | _ => rfl
      simp [doSendfile, result, handleNonzeroErrno, again]
    rw [same] at step
    cases step
    simp [WriteEvent.presses, result]
  | room n =>
    simp only [doSendfile, result] at step
    split at step
    next => cases step
    next some =>
      cases step
      have bit := Bool.toNat_le w.presses
      have after : ∀ sent p, Conn.toSend { c with sent := sent, currentChunkP := p } = c.file.length - p.toNat :=
        fun _ _ => Conn.toSend_file route chunk
      rw [before, after]
      omega

/-- Every write that has room for a byte brings the end of the response nearer. -/
theorem Underway.write {c d : Conn} {w : WriteEvent} (h : Underway c) (hw : ¬ Fatal w)
    (step : writeResponse c w = .ok (d, .notYetDone)) : d.toSend + w.presses.toNat ≤ c.toSend := by
  have routes := (writeResponse_frame step).1.routes
  cases h with
  | items direct responding =>
    obtain ⟨data, sending⟩ := responding.sending
    have pressed := writeResponse_presses direct sending step
    have progress := onWriteChunk_progress responding hw
    rw [← writeResponse_chunk direct, step] at progress
    cases progress with
    | @more _ bs _ _ sent owed =>
      have before : c.toSend = c.owed.length := by simp [Conn.toSend, direct]
      have after : d.toSend = d.owed.length := by simp [Conn.toSend, routes, direct]
      have split := congrArg List.length owed
      rw [List.length_append] at split
      rw [sent, List.length_append] at pressed
      cases presses : w.presses with
      | true =>
        have some := pressed presses
        simp only [Bool.toNat_true]
        omega
      | false =>
        simp only [Bool.toNat_false]
        omega
  | message direct settled sending =>
    have pressed := writeResponse_presses direct sending step
    have message := settled.writeMessage sending hw fun file => by cases direct.symm.trans file
    rcases message with ⟨k, inside, part⟩ | ⟨p, state, all, concluded⟩
    · have left := sentPart_toSend sending inside
      rw [part] at step
      cases step
      rw [Conn.sentPart, List.length_append, List.length_take] at pressed
      cases presses : w.presses with
      | true =>
        have some := pressed presses
        simp only [Bool.toNat_true]
        omega
      | false =>
        simp only [Bool.toNat_false]
        omega
    · rw [all] at step
      rcases concluded with rfl | rfl | ⟨_, route, _⟩
      · cases step
      · cases step
      · cases direct.symm.trans route
  | header route sending =>
    rw [writeResponse_file route] at step
    exact onWriteSendfile_header route sending hw step
  | file route chunk start =>
    rw [writeResponse_file route] at step
    exact onWriteSendfile_file route chunk start hw step

/-- One write of an attended run. -/
def Writes (base : Environ) (c : Conn) (w : WriteEvent) (d : Conn) : Prop :=
  Guarded (Attended base) (Step base) c (.write w) d

theorem Telling.progress {base : Environ} {events : List Event} {calls : List (Conn × PyCall PyValue)} {c d : Conn}
    {w : WriteEvent} (h : Telling events calls c) (step : Writes base c w d) (still : d.evWatcher = .writing) :
    c.evWatcher = .writing ∧ d.toSend + w.presses.toNat ≤ c.toSend := by
  obtain ⟨⟨hw, _⟩, writing, step⟩ := step
  have writing : c.evWatcher = .writing := writing
  obtain ⟨⟨mid, state⟩, written, step⟩ := bind_ok step
  obtain ⟨more, rfl⟩ := finishWrite_writing step still
  have frame := (writeResponse_frame written).1
  have clear : mid.state.expectContinue = false := by
    cases expects : mid.state.expectContinue with
    | false => rfl
    | true => simp [expects] at more
  have more : state = .notYetDone := by simpa [clear] using more
  subst more
  have underway := h.underway writing (frame.expectContinue.symm.trans clear)
  have nearer := underway.write hw written
  exact ⟨writing, nearer⟩

/-- What holds of a connection that `writes` has come to, from one with `bound` bytes to send. -/
structure Approaching (calls : List (Conn × PyCall PyValue)) (bound : Nat) (writes : List WriteEvent) (d : Conn) :
    Prop where
  telling : ∃ events, Telling events calls d
  nearer : d.evWatcher = .writing → writes.countP WriteEvent.presses + d.toSend ≤ bound

theorem Approaching.write {base : Environ} {calls : List (Conn × PyCall PyValue)} {bound : Nat}
    {writes : List WriteEvent} {c d : Conn} {w : WriteEvent} (h : Approaching calls bound writes c)
    (step : Writes base c w d) : Approaching calls bound (writes ++ [w]) d := by
  obtain ⟨events, telling⟩ := h.telling
  refine ⟨⟨_, telling.write step.1 step.2⟩, fun still => ?_⟩
  obtain ⟨writing, progress⟩ := telling.progress step still
  have before := h.nearer writing
  have count : (writes ++ [w]).countP WriteEvent.presses = writes.countP WriteEvent.presses + w.presses.toNat := by
    cases presses : w.presses <;> simp [presses]
  omega

/-- While a connection goes on writing, every write with room for a byte brings the end of its message nearer, so
that there are at most as many of them as there were bytes to send. -/
theorem message_ends {base : Environ} {clientAddr : Bytes} {parser : HttpParser} {events : List Event}
    {calls : List (Conn × PyCall PyValue)} {c d : Conn} {writes : List WriteEvent}
    (run : Traced (Guarded (Attended base) (Step base)) (Conn.calls base) (evIoOnRequest clientAddr parser) events
      calls c) (sending : Run (Writes base) c writes d) (still : d.evWatcher = .writing) :
    writes.countP WriteEvent.presses + d.toSend ≤ c.toSend := by
  have start : Approaching calls c.toSend [] c := ⟨⟨_, (telling_of_run run).1⟩, by simp⟩
  have reached := sending.invariant_history (Approaching calls c.toSend) (fun _ _ _ _ inv step => inv.write step) start
  exact reached.nearer still

/-- A client that takes two bytes of a chunked response, one by one. -/
def slowly : List WriteEvent := [⟨.room 1, 0, []⟩, ⟨.errno .eagain, 0, []⟩, ⟨.room 1, 0, []⟩]

theorem direct_attended {c : Conn} {w : WriteEvent} (hw : ¬ Fatal w) (clear : c.state.expectContinue = false)
    (direct : c.routesSendfile = false) : Attended .empty c (.write w) := by
  refine ⟨hw, fun expects => ?_, fun route => ?_⟩
  · cases clear.symm.trans expects
  · cases direct.symm.trans route

theorem message_ends_slowly : ∃ c d : Conn, Run (Writes .empty) c slowly d ∧ d.sent = ascii "HT" ∧
    2 + d.toSend ≤ c.toSend := by
  have run : ∃ calls c, Traced (Guarded (Attended .empty) (Step .empty)) (Conn.calls .empty) freshConn
      [.read ⟨.bytes getRequest, returning oneItem⟩] calls c ∧
      ∃ d, Run (Writes .empty) c slowly d ∧ d.evWatcher = .writing ∧ d.sent = ascii "HT" := by
    refine ⟨_, _, .cons ⟨getRequest_attended rfl (returning_oneItem_answersWhole _), rfl, rfl⟩ .nil, _,
      .cons ⟨direct_attended (by decide) rfl rfl, rfl, rfl⟩ (.cons ⟨direct_attended (by decide) rfl rfl, rfl, rfl⟩
      (.single ⟨direct_attended (by decide) rfl rfl, rfl, rfl⟩)), rfl, by decide⟩
  obtain ⟨calls, c, traced, d, sending, still, sent⟩ := run
  exact ⟨c, d, sending, sent, message_ends traced sending still⟩

end Bjoern
