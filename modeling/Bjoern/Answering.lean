import Bjoern.ErrorResponses

namespace Bjoern

open Runs

/-- The bytes of the answer that `wsgi_call_application` gives on `c`, and whether the connection is kept after
them: the server's `Connection` line says so. The descriptor of a file is at `pos`. -/
inductive Answer (c : Conn) (app : PyCall PyValue) (pos : Nat) : Bytes → Bool → Prop
  | items {called v} : wsgiCallApplication c app = .ok (called, true) → app.result = .ok v →
      v.hasDescriptor = false → Answer c app pos (called.responseBytes v) called.state.keepAlive
  | file {called wrapper} : wsgiCallApplication c app = .ok (called, true) → app.result = .ok (.fileWrapper wrapper) →
      wrapper.fd ≠ -1 →
      Answer c app pos (wsgiGetheaders called.toRequest ++ wrapper.content.drop pos) called.state.keepAlive
  | message {called} : wsgiCallApplication c app = .ok (called, false) →
      Answer c app pos (httpErrorMessages .serverError) false

/-- The application calls `start_response` with a length before it returns a file with a descriptor, and an
iterable, whose items have room in the chunk size line, does not fail after its first item. -/
def AnswersWhole (c : Conn) (app : PyCall PyValue) : Prop :=
  ∀ r v, CallsMade c app r → app.result = .ok v →
    if v.hasDescriptor then r.headers ≠ .null ∧ r.state.responseLengthUnknown = false
    else StaysExhausted v.steps ∧ (∀ item ∈ v.items, item.length < 2 ^ 28) ∧ (v.ending = true ∨ v.items = [])

/-- What the application does with `start_response` does not depend on the parser. -/
theorem AnswersWhole.parsed {base : Environ} {c : Conn} {app : PyCall PyValue} (h : AnswersWhole c app)
    (data : ReadData) : AnswersWhole ((c.parsed base data).count .reqSuccessRead) app := by
  intro r v made returned
  have frame := (c.parsed_frame base data).request
  have alike : ({ (c.parsed base data).toRequest with headers := .null } : Request).answeredLike
      { c.toRequest with headers := .null } = { (c.parsed base data).toRequest with headers := .null } := by
    simp only [Request.answeredLike, Request.withResponse, ← frame.status, ← frame.responseLengthUnknown,
      ← frame.startResponseCalled]
  have made : runStartResponses { (c.parsed base data).toRequest with headers := .null } app.startResponses = .ok r :=
    made
  obtain ⟨s, calls, rfl⟩ := runStartResponses_alike alike frame.wsgiCallDone made
  exact h s v calls returned

/-- An answer of which the bytes `whole` are sent after `before`, and the connection is kept if `keep`. -/
inductive Answering (before whole : Bytes) (keep : Bool) (pos : Nat) (c : Conn) : Prop
  | items {accepted} : c.evWatcher = .writing → Responding c → c.sent = before ++ accepted →
      accepted ++ c.owed = whole → c.pendingEnd = true → c.routesSendfile = false → c.state.expectContinue = false →
      c.state.keepAlive = keep → Answering before whole keep pos c
  | file {header wrapper} : c.evWatcher = .writing → Transferring before header wrapper pos keep c →
      header ++ wrapper.content.drop pos = whole → Answering before whole keep pos c
  | message : c.evWatcher = .writing → Rejecting pos before whole c → keep = false → Answering before whole keep pos c
  | concluded : (if keep then Ready c else c.evWatcher = .closed) → c.sent = before ++ whole →
      Answering before whole keep pos c

theorem Answering.accepted {before whole : Bytes} {keep : Bool} {pos : Nat} {c : Conn}
    (h : Answering before whole keep pos c) : ∃ accepted, c.sent = before ++ accepted ∧ accepted <+: whole ∧
      (c.evWatcher = .writing ∨ accepted = whole ∧ if keep then Ready c else c.evWatcher = .closed) := by
  cases h with
  | items writing _ sent left => exact ⟨_, sent, ⟨_, left⟩, Or.inl writing⟩
  | file writing transferring eq =>
    obtain ⟨accepted, sent, part⟩ := transferring.accepted
    exact ⟨accepted, sent, eq ▸ part, Or.inl writing⟩
  | message writing rejecting =>
    cases rejecting with
    | sending _ _ _ sent left => exact ⟨_, sent, ⟨_, left⟩, Or.inl writing⟩
    | endOfFile _ _ _ _ _ sent => exact ⟨whole, sent, List.prefix_refl _, Or.inl writing⟩
    | concluded _ sent => exact ⟨whole, sent, List.prefix_refl _, Or.inl writing⟩
  | concluded ended sent => exact ⟨whole, sent, List.prefix_refl _, Or.inr ⟨rfl, ended⟩⟩

theorem Answering.finish {before whole : Bytes} {keep : Bool} {pos : Nat} {c c' : Conn} (idle : c.pyErr = none)
    (same : c.state.keepAlive = keep) (sent : c.sent = before ++ whole) (step : finishWrite c .done = .ok c') :
    Answering before whole keep pos c' := by
  have finished := finishWrite_done idle
  rw [step, same] at finished
  have last := finished.of_ok.2
  cases keep with
  | true => exact .concluded (last.ready) (last.sent.trans sent)
  | false => exact .concluded last.evWatcher (last.sent.trans sent)

theorem Answering.transmit {before whole : Bytes} {keep : Bool} {pos : Nat} {c c' : Conn} {w : WriteEvent}
    (h : Answering before whole keep pos c) (step : Transmit c w c')
    (transfers : c.routesSendfile = true → Transfers pos c w) : Answering before whole keep pos c' := by
  obtain ⟨writing, hw, step⟩ := step
  cases h with
  | concluded ended =>
    cases keep with
    | true =>
      have reading := (show Ready c from ended).reading
      cases reading.symm.trans writing
    | false =>
      have closed : c.evWatcher = .closed := ended
      cases closed.symm.trans writing
  | message _ rejecting no =>
    have seeks : SeeksTo pos c w := fun route => Or.inl (transfers route).1
    have next := (rejecting.step writing hw seeks).1 c' step
    cases next with
    | sending on settled sending sent left => exact .message on (.sending on settled sending sent left) no
    | endOfFile on settled route chunk position sent =>
      exact .message on (.endOfFile on settled route chunk position sent) no
    | concluded closed sent => exact .concluded (by simpa [no] using closed) sent
  | @items accepted _ responding sent left ends direct clear same =>
    obtain ⟨⟨mid, state⟩, hm, step⟩ := bind_ok step
    rw [writeResponse_chunk direct] at hm
    have progress := onWriteChunk_progress responding hw
    rw [hm] at progress
    have flag : mid.state.expectContinue = false := progress.frame.expectContinue.trans clear
    have same' : mid.state.keepAlive = keep := progress.frame.keepAlive.trans same
    dsimp only at step
    rw [flag] at step
    cases progress with
    | @more _ bs frame responding' more owed ends' _ =>
      cases step
      have sent' : mid.sent = before ++ (accepted ++ bs) := by rw [more, sent, List.append_assoc]
      refine .items (frame.evWatcher.trans writing) (responding'.count _) sent' ?_ (ends'.trans ends) ?_ flag same'
      · rw [← left, ← owed, List.append_assoc]
        rfl
      · rw [Conn.routesSendfile]
        exact (congrArg (Option.any PyValue.hasDescriptor) frame.iterable).trans direct
    | done frame idle more _ =>
      exact .finish idle same' (by rw [more, sent, List.append_assoc, left]) step
    | aborted _ _ _ _ failing => cases ends.symm.trans failing
  | @file header wrapper _ transferring eq =>
    have route := transferring.routes writing
    obtain ⟨sendfile, clear, progress⟩ := transferring.step writing hw (transfers route)
    obtain ⟨⟨mid, state⟩, hm, step⟩ := bind_ok step
    have frame := (writeResponse_frame hm).1
    rw [← sendfile, hm] at progress
    dsimp only at step
    rw [frame.expectContinue.trans clear] at step
    cases progress with
    | more next _ =>
      cases step
      exact .file (frame.evWatcher.trans writing) (next.count _) eq
    | done response all =>
      rw [eq] at all
      exact .finish response.idle response.keepAlive all step

theorem Taken.ends {c c' : Conn} {v : PyValue} {first : Option Bytes} (taken : Taken c v c' (some first))
    (direct : v.hasDescriptor = false) (nothing : v.items = []) : v.ending = true := by
  generalize ho : some first = o at taken
  cases taken with
  | bytestring branch => simp [PyValue.ending, retvalBranch_bytestring branch]
  | file branch => cases direct.symm.trans (retvalBranch_file.mp branch).1
  | notIterable => cases ho
  | @generic steps _ _ _ _ _ chunk branch got next =>
    have string := retvalBranch_generic branch
    have steps_eq : v.steps = steps := by rw [PyValue.steps, got]
    rw [PyValue.items, string, steps_eq] at nothing
    rw [PyValue.ending, string, steps_eq]
    cases next with
    | chunk _ hi => cases nothing.symm.trans hi
    | stopped _ he => simp [he]
    | failed =>
      rw [if_pos (by simp)] at ho
      cases ho

/-- The connection on which the application has answered. -/
theorem Answering.answered (pos : Nat) {c c' : Conn} {app : PyCall PyValue} (whole : AnswersWhole c app)
    (idle : c.pyErr = none) (clear : c.state.expectContinue = false)
    (call : wsgiCallApplication c app = .ok (c', true)) :
    ∃ R keep, Answer c app pos R keep ∧ Answering c.sent R keep pos (startWriting c') := by
  obtain ⟨r, made, outcome⟩ := wsgiCallApplication_outcome call
  have frame := outcome.frame made
  have flag := frame.expectContinue.trans clear
  have returned : ∃ v, app.result = .ok v := by
    cases outcome with
    | answered returned => exact ⟨_, returned⟩
  obtain ⟨v, returned⟩ := returned
  have none : (startWriting c').sent = c.sent ++ [] := by simp [startWriting, frame.sent]
  have sound := whole r v made returned
  split at sound
  next descriptor =>
    have branch : retvalBranch r v = .file := retvalBranch_file.mpr ⟨descriptor, sound.2⟩
    obtain ⟨idle', iterable, _, chunk, position⟩ := outcome.file_branch returned branch
    cases v with
    | fileWrapper wrapper =>
      have open' : wrapper.fd ≠ -1 := by simpa [PyValue.hasDescriptor] using descriptor
      have length := wsgiGetheaders_length c'.toRequest
      refine ⟨_, _, .file call returned open', .file rfl (.header ⟨rfl, idle'.trans idle, flag, iterable, open', rfl⟩
        ⟨chunk, ?_, ?_⟩ none ?_) rfl⟩
      · simp [startWriting, position]
      · simpa [startWriting, position] using length
      · simp [startWriting, position]
    | _ => cases descriptor
  next direct =>
    have direct : v.hasDescriptor = false := by simpa using direct
    obtain ⟨stays, small, ends⟩ := sound
    obtain ⟨mid, first, taken, responding, pending, owed⟩ := outcome.responding idle returned
      (fun mid first taken => by
        rw [(taken.items idle direct stays).1]
        exact small)
    obtain ⟨items, ending⟩ := taken.items idle direct stays
    have normal : v.ending = true := ends.elim id (taken.ends direct)
    rw [items] at owed
    exact ⟨_, _, .items call returned direct, .items rfl responding.start none owed
      (pending.trans (ending.trans normal)) ((outcome.routes returned).trans direct) flag rfl⟩

theorem Answering.count {before whole : Bytes} {keep : Bool} {pos : Nat} {c : Conn} (metric : Metric)
    (h : Answering before whole keep pos c) (writing : c.evWatcher = .writing) :
    Answering before whole keep pos (c.count metric) := by
  cases h with
  | items _ responding sent left ends direct clear same =>
    exact .items writing (responding.count metric) sent left ends direct clear same
  | file _ transferring eq => exact .file writing (transferring.count metric) eq
  | message _ rejecting no =>
    cases rejecting with
    | sending on settled sending sent left =>
      exact .message writing (.sending on (settled.count metric) (sending.count metric) sent left) no
    | endOfFile on settled route chunk position sent =>
      exact .message writing (.endOfFile on (settled.count metric) route chunk position sent) no
    | concluded closed => cases closed.symm.trans writing
  | concluded ended sent =>
    cases keep with
    | true => cases (show Ready c from ended).reading.symm.trans writing
    | false => cases (show c.evWatcher = .closed from ended).symm.trans writing

/-- A file that is returned after a successful `start_response` with a length is not refused. -/
theorem AppOutcome.failed_direct {c c' : Conn} {r : Request} {app : PyCall PyValue} {v : PyValue}
    (h : AppOutcome c r app c' false) (returned : app.result = .ok v)
    (started : v.hasDescriptor = true → r.headers ≠ .null ∧ r.state.responseLengthUnknown = false) :
    v.hasDescriptor = false := by
  by_contra descriptor
  have descriptor : v.hasDescriptor = true := by simpa using descriptor
  obtain ⟨headers, known⟩ := started descriptor
  have branch : retvalBranch (c.entered r).toRequest v = .file := retvalBranch_file.mpr ⟨descriptor, known⟩
  cases h with
  | raised raised => cases returned.symm.trans raised
  | refused same taken =>
    cases returned.symm.trans same
    cases (taken.file_branch branch).2
  | notStarted same taken missing =>
    cases returned.symm.trans same
    obtain ⟨rfl, _⟩ := taken.file_branch branch
    exact headers missing

theorem PyValue.holdsBehind_direct {v : PyValue} (pos : Nat) (direct : v.hasDescriptor = false) :
    v.holdsBehind pos = false := by
  cases v with
  | fileWrapper wrapper =>
    have closed : wrapper.fd = -1 := by simpa [PyValue.hasDescriptor] using direct
    simp [PyValue.holdsBehind, closed]
  | _ => rfl

/-- The answer to a request that was read completely, from a connection that has nothing of a response yet. -/
theorem Answering.start (pos : Nat) {c c' : Conn} {app : PyCall PyValue} {answered : Bool} (untouched : Untouched c)
    (clear : c.state.expectContinue = false) (position : c.currentChunkP = 0) (whole : AnswersWhole c app)
    (call : wsgiCallApplication c app = .ok (c', answered)) :
    ∃ R keep, Answer c app pos R keep ∧
      Answering c.sent R keep pos (if answered then c'.startedResponse else c'.failedResponse) := by
  cases answered with
  | true =>
    obtain ⟨R, keep, answer, answering⟩ := Answering.answered pos whole untouched.idle clear call
    exact ⟨R, keep, answer, answering.count .reqDone rfl⟩
  | false =>
    obtain ⟨r, made, outcome⟩ := wsgiCallApplication_outcome call
    obtain ⟨keepAlive, chunked, same, iterable⟩ := outcome.failed_frame made untouched.iterable
    have frame := outcome.frame made
    have nothing : c'.iterable.any (PyValue.holdsBehind pos) = false := by
      rcases iterable with none | ⟨v, returned, some⟩
      · simp [none]
      · have sound := whole r v made returned
        have direct := outcome.failed_direct returned (fun descriptor => by simpa [descriptor] using sound)
        simpa [some] using PyValue.holdsBehind_direct pos direct
    have settled : Settled pos c'.failedResponse :=
      ⟨rfl, keepAlive.trans untouched.keepAlive, chunked.trans untouched.chunkedResponse,
        frame.expectContinue.trans clear, rfl, nothing⟩
    have rejecting := settled.rejecting rfl rfl (same.trans position) (httpErrorMessages_length .serverError)
    have sent : c'.failedResponse.sent = c.sent := frame.sent
    rw [sent] at rejecting
    exact ⟨_, _, .message call, .message rfl rejecting rfl⟩

end Bjoern
