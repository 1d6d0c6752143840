import Bjoern.KeptResponses
import Bjoern.SendfileDelivery

namespace Bjoern

open Runs

/-- What an iterator gives, now and after it has stopped, is empty. -/
def GivesNothing (steps : PyIter) : Prop := ∀ step ∈ steps, step.result = .ok (.bytes []) ∨ step.result = .ok .stop

theorem GivesNothing.items {steps : PyIter} (h : GivesNothing steps) :
    bodyItems steps = [] ∧ endsNormally steps = true := by
  induction steps with
  | nil => exact ⟨rfl, rfl⟩
  | cons step rest ih =>
    obtain ⟨items, ending⟩ := ih fun step member => h step (List.mem_cons_of_mem _ member)
    rcases h step List.mem_cons_self with empty | stop
    · simp [bodyItems, endsNormally, empty, items, ending]
    · simp [bodyItems, endsNormally, stop]

/-- A return value without a body. -/
def PyValue.Bodyless (v : PyValue) : Prop :=
  match v.bytestring with
  | some data => data = []
  | none => GivesNothing v.steps

/-- The descriptor of a wrapped file stands at its end. -/
def AtEnd (v : PyValue) (_ : Conn) (w : WriteEvent) : Prop :=
  ∀ wrapper, v = .fileWrapper wrapper → wrapper.fd ≠ -1 → (wrapper.content.length : Int) ≤ w.lseek

/-- A return value without a body leaves no first chunk and an iterator that gives nothing. -/
theorem Taken.bodyless {c c' : Conn} {v : PyValue} {first : Option Bytes} (taken : Taken c v c' (some first))
    (idle : c.pyErr = none) (nothing : v.Bodyless) :
    first = none ∧ c'.pendingItems = [] ∧ c'.pendingEnd = true := by
  generalize ho : some first = o at taken
  cases taken with
  | @bytestring data branch =>
    cases ho
    have empty : data = [] := by simpa [PyValue.Bodyless, retvalBranch_bytestring branch] using nothing
    exact ⟨if_pos empty, rfl, rfl⟩
  | file =>
    cases ho
    exact ⟨rfl, rfl, rfl⟩
  | notIterable => cases ho
  | @generic steps _ _ _ _ _ chunk branch got next =>
    have gives : GivesNothing steps := by
      simpa [PyValue.Bodyless, retvalBranch_generic branch, PyValue.steps, got] using nothing
    cases next with
    | chunk _ items => cases items.symm.trans gives.items.1
    | @stopped _ rest _ _ _ _ _ _ sub =>
      have last : first = none := by simpa [idle] using ho
      have concluded : GivesNothing rest := fun step member => gives step (sub member)
      exact ⟨last, concluded.items⟩
    | failed _ ending => cases ending.symm.trans gives.items.2

/-- The connection will send chunks: the client keeps it and knows them, the status allows a body and no header is taken
for its length. -/
structure Chunks (r : Request) : Prop where
  keepAlive : r.parser.parser.keepAlive = true
  version : 0 < r.parser.parser.httpMajor ∧ 0 < r.parser.parser.httpMinor
  status : ¬ NoBodyStatus r
  headers : ∀ h ∈ r.headers.responseFields, isContentLength h.1 = false

theorem chooseFraming_chunked {r : Request} (reset : r.state.chunkedResponse = false) :
    (chooseFraming r).state.chunkedResponse = true ↔ r.parser.parser.keepAlive = true ∧
      (0 < r.parser.parser.httpMajor ∧ 0 < r.parser.parser.httpMinor) ∧
      r.state.responseLengthUnknown = true ∧ ¬ NoBodyStatus r := by
  obtain ⟨unknown, special⟩ := specialCaseStatus_frame r
  have parser : (specialCaseStatus r).parser = r.parser := by rw [special]
  have reset' : (specialCaseStatus r).state.chunkedResponse = false := by rw [special]; exact reset
  rw [← specialCaseStatus_unknown, chooseFraming, decideKeepAlive, parser]
  split
  next keep =>
    split
    next unknown =>
      split
      next version => simp [keep, unknown, version]
      next old => simp [unknown, reset', old]
    next known => simp [known, reset']
  next close => simp [close, reset']

/-- Whether chunks are sent is decided by the request and by the status and headers of the response. -/
theorem answered_chunked {c c' : Conn} {app : PyCall PyValue} (reset : c.state.chunkedResponse = false)
    (answered : wsgiCallApplication c app = .ok (c', true)) :
    c'.state.chunkedResponse = true ↔ Chunks c'.toRequest := by
  obtain ⟨r, parser, parser', chunked, _, chunks, status, unknown⟩ := wsgiCallApplication_framing answered
  rw [← chunks, chooseFraming_chunked (chunked.trans reset), parser, status, unknown, ← parser']
  constructor
  · rintro ⟨keepAlive, version, without, body⟩
    exact ⟨keepAlive, version, body, without⟩
  · rintro ⟨keepAlive, version, body, without⟩
    exact ⟨keepAlive, version, without, body⟩

/-- What is sent after `before` is a part of `whole`, and all of it once the response is over. -/
def Sends (before whole : Bytes) (c : Conn) : Prop :=
  ∃ accepted, c.sent = before ++ accepted ∧ accepted <+: whole ∧ (c.evWatcher ≠ .writing → accepted = whole)

theorem Delivering.sends {before whole : Bytes} {chunked : Bool} {c : Conn}
    (h : Delivering before whole true chunked false c) : Sends before whole c := by
  cases h with
  | underway writing _ sent left => exact ⟨_, sent, ⟨_, left⟩, fun stopped => absurd writing stopped⟩
  | concluded _ sent part all =>
    have whole := (all rfl).resolve_right (by simp)
    exact ⟨_, sent, part, fun _ => whole⟩

/-- A response that `on_write_sendfile` makes of a file at its end: the header block on its way, or sent. -/
inductive Emptying (before header : Bytes) (wrapper : FileWrapper) (keep : Bool) (c : Conn) : Prop
  | header {accepted} (response : FileResponse wrapper keep c) (sending : SendingChunk c header)
      (sent : c.sent = before ++ accepted)
      (left : accepted ++ header.drop c.currentChunkP.toNat = header)
  | file (response : FileResponse wrapper keep c) (chunk : c.currentChunk = .null)
      (past : (wrapper.content.length : Int) ≤ c.currentChunkP) (sent : c.sent = before ++ header)
  | concluded (stopped : c.evWatcher ≠ .writing) (sent : c.sent = before ++ header)

theorem Emptying.sends {before header : Bytes} {wrapper : FileWrapper} {keep : Bool} {c : Conn}
    (h : Emptying before header wrapper keep c) : Sends before header c := by
  cases h with
  | header response _ sent left => exact ⟨_, sent, ⟨_, left⟩, fun stopped => absurd response.writing stopped⟩
  | file _ _ _ sent => exact ⟨_, sent, List.prefix_refl _, fun _ => rfl⟩
  | concluded _ sent => exact ⟨_, sent, List.prefix_refl _, fun _ => rfl⟩

theorem Emptying.count {before header : Bytes} {wrapper : FileWrapper} {keep : Bool} {c : Conn}
    (h : Emptying before header wrapper keep c) (metric : Metric) :
    Emptying before header wrapper keep (c.count metric) := by
  cases h with
  | header response sending sent left =>
    exact .header (response.moved _ _ _ _) (sending.count metric) sent left
  | file response chunk past sent =>
    exact .file (response.moved _ _ _ _) chunk past sent
  | concluded stopped sent => exact .concluded stopped sent

/-- What one call of `on_write_sendfile` does there. -/
inductive EmptyStep (before header : Bytes) (wrapper : FileWrapper) (keep : Bool) :
    Except Halted (Conn × RwState) → Prop
  | more {c'} : Emptying before header wrapper keep c' → FileResponse wrapper keep c' →
      EmptyStep before header wrapper keep (.ok (c', .notYetDone))
  | done {c'} : FileResponse wrapper keep c' → c'.sent = before ++ header →
      EmptyStep before header wrapper keep (.ok (c', .done))

theorem empty_header_step {before header accepted : Bytes} {wrapper : FileWrapper} {keep : Bool} {c : Conn}
    {w : WriteEvent} (response : FileResponse wrapper keep c) (sending : SendingChunk c header)
    (sent : c.sent = before ++ accepted) (left : accepted ++ header.drop c.currentChunkP.toNat = header)
    (hw : ¬ Fatal w) (past : (wrapper.content.length : Int) ≤ w.lseek) :
    EmptyStep before header wrapper keep (onWriteSendfile c wrapper.content w) := by
  have started : c.currentChunk ≠ .null := by simp [sending.chunk]
  unfold onWriteSendfile
  rw [if_pos started]
  rcases doSendChunk_cases sending hw with ⟨k, hk, step⟩ | step
  · rw [step]
    have response' : FileResponse wrapper keep (c.sentPart ((header.drop c.currentChunkP.toNat).take k)) :=
      response.moved _ _ _ _
    have more : (c.sentPart ((header.drop c.currentChunkP.toNat).take k)).sent =
        before ++ (accepted ++ (header.drop c.currentChunkP.toNat).take k) := by
      simp [Conn.sentPart, sent]
    refine .more (.header response' (sending.sentPart hk) more ?_) response'
    rw [List.append_assoc, sending.sentPart_rest hk, left]
  · rw [step]
    have found : ¬ w.lseek = -1 := by omega
    simp only [ok_bind, Bool.false_eq_true, if_false, if_neg found]
    refine .more (.file (response.moved _ _ _ _) rfl past ?_) (response.moved _ _ _ _)
    simp [Conn.sentAll, sent, left]

theorem empty_file_step {before header : Bytes} {wrapper : FileWrapper} {keep : Bool} {c : Conn} {w : WriteEvent}
    (response : FileResponse wrapper keep c) (chunk : c.currentChunk = .null)
    (past : (wrapper.content.length : Int) ≤ c.currentChunkP) (sent : c.sent = before ++ header)
    (hw : ¬ Fatal w) : EmptyStep before header wrapper keep (onWriteSendfile c wrapper.content w) := by
  have concluded : ¬ c.currentChunk ≠ .null := by simp [chunk]
  unfold onWriteSendfile
  rw [if_neg concluded]
  cases he : w.result with
  | errno e =>
    have again : e.tryAgain = true := by
      cases e with
      | other => exact absurd he hw
      | _ => rfl
    simpa [doSendfile, he, handleNonzeroErrno, again] using EmptyStep.more (.file response chunk past sent) response
  | room n =>
    have nothing : min n (min sendfileChunkSize (wrapper.content.length - c.currentChunkP.toNat)) = 0 := by omega
    simpa [doSendfile, he, nothing] using EmptyStep.done response sent

theorem Emptying.transmit {before header : Bytes} {v : PyValue} {wrapper : FileWrapper} {keep : Bool} {c c' : Conn}
    {w : WriteEvent} (file : v = .fileWrapper wrapper) (h : Emptying before header wrapper keep c)
    (step : Guarded (AtEnd v) Transmit c w c') : Emptying before header wrapper keep c' := by
  obtain ⟨atEnd, writing, hw, step⟩ := step
  obtain ⟨response, progress⟩ : FileResponse wrapper keep c ∧
      EmptyStep before header wrapper keep (onWriteSendfile c wrapper.content w) := by
    cases h with
    | header response sending sent left =>
      exact ⟨response, empty_header_step response sending sent left hw (atEnd wrapper file response.descriptor)⟩
    | file response chunk past sent => exact ⟨response, empty_file_step response chunk past sent hw⟩
    | concluded stopped => exact absurd writing stopped
  obtain ⟨⟨mid, state⟩, hm, step⟩ := bind_ok step
  rw [← response.writeResponse w, hm] at progress
  cases progress with
  | more next response' =>
    simp only [response'.clear] at step
    cases step
    exact next.count _
  | done response' all =>
    simp only [response'.clear] at step
    have finished := finishWrite_done response'.idle
    rw [show finishWrite mid .done = .ok c' from step] at finished
    have last := finished.of_ok.2
    split at last
    next => exact .concluded (by rw [last.request]; simp) (last.sent.trans all)
    next => exact .concluded (by rw [last.evWatcher]; simp) (last.sent.trans all)

theorem Taken.iterable_of_first {c c' : Conn} {v : PyValue} {first : Option Bytes} (taken : Taken c v c' (some first))
    (iterated : v.bytestring = none) : c'.iterable = some v := by
  generalize ho : some first = o at taken
  cases taken with
  | bytestring branch => cases (retvalBranch_bytestring branch).symm.trans iterated
  | file => rfl
  | notIterable => cases ho
  | generic _ _ next => cases next <;> rfl

theorem hasDescriptor_wrapper {v : PyValue} (h : v.hasDescriptor = true) :
    ∃ wrapper, v = .fileWrapper wrapper ∧ wrapper.fd ≠ -1 := by
  cases v with
  | fileWrapper wrapper => exact ⟨wrapper, rfl, by simpa [PyValue.hasDescriptor] using h⟩
  | _ => cases h

/-- A wrapped file at its end is installed as a header block. -/
theorem AppOutcome.emptying {c c' : Conn} {r : Request} {app : PyCall PyValue} {wrapper : FileWrapper}
    (h : AppOutcome c r app c' true) (idle : c.pyErr = none) (returned : app.result = .ok (.fileWrapper wrapper))
    (descriptor : wrapper.fd ≠ -1) (clear : c'.state.expectContinue = false)
    (nothing : (PyValue.fileWrapper wrapper).Bodyless) :
    Emptying c'.sent (wsgiGetheaders c'.toRequest) wrapper c'.state.keepAlive (startWriting c') := by
  have idle' := h.idle idle
  cases h with
  | @answered retval mid first data got taken _ framed =>
    rw [returned] at got
    cases got
    obtain ⟨rfl, _, _⟩ := taken.bodyless idle nothing
    cases framed
    have full : (0 : Int) < (wsgiGetheaders (mid.installed []).toRequest).length := by
      exact_mod_cast wsgiGetheaders_length (mid.installed []).toRequest
    have iterable : (mid.installed []).iterable = some (.fileWrapper wrapper) := by
      obtain ⟨_, _, _, eq⟩ := mid.installed_frame []
      rw [eq]
      exact taken.iterable_of_first rfl
    have chunk : (mid.installed []).currentChunk = .owned (wsgiGetheaders (mid.installed []).toRequest) := by
      simp only [Conn.installed, List.append_nil]
      rfl
    have none : (startWriting (mid.installed [])).sent = (mid.installed []).sent ++ [] := (List.append_nil _).symm
    exact .header ⟨rfl, idle', clear, iterable, descriptor, rfl⟩ ⟨chunk, Int.le_refl 0, full⟩ none rfl

/-- A response without a body ends with its header block, whatever the schedule of writes, unless chunks are announced
for it: then the last chunk follows, since nobody looks at the method of the request. A wrapped file never has one. -/
theorem bodyless_response {c₀ c c' : Conn} {app : PyCall PyValue} {v : PyValue} {writes : List WriteEvent}
    (idle : c₀.pyErr = none) (reset : c₀.state.chunkedResponse = false) (clear : c₀.state.expectContinue = false)
    (answered : wsgiCallApplication c₀ app = .ok (c, true)) (returned : app.result = .ok v) (nothing : v.Bodyless)
    (run : Run (Guarded (AtEnd v) Transmit) (startWriting c) writes c') :
    (¬ (Chunks c.toRequest ∧ v.hasDescriptor = false) → Sends c.sent (wsgiGetheaders c.toRequest) c') ∧
    (Chunks c.toRequest ∧ v.hasDescriptor = false →
      Sends c.sent (wsgiGetheaders c.toRequest ++ ChunkedCoding.terminator) c') := by
  have chunked := answered_chunked reset answered
  obtain ⟨r, calls, outcome⟩ := wsgiCallApplication_outcome answered
  have clear' : c.state.expectContinue = false := (outcome.frame calls).expectContinue.trans clear
  cases direct : v.hasDescriptor with
  | true =>
    obtain ⟨wrapper, rfl, descriptor⟩ := hasDescriptor_wrapper direct
    have reached := run.invariant (Emptying c.sent (wsgiGetheaders c.toRequest) wrapper c.state.keepAlive)
      (fun _ _ _ inv step => inv.transmit rfl step) (outcome.emptying idle returned descriptor clear' nothing)
    exact ⟨fun _ => reached.sends, fun direct' => by cases direct'.2⟩
  | false =>
    obtain ⟨mid, first, taken, responding, ends, owed⟩ := outcome.responding idle returned (by
      intro mid first taken item member
      obtain ⟨rfl, items, _⟩ := taken.bodyless idle nothing
      rw [items] at member
      cases member)
    obtain ⟨rfl, items, ending⟩ := taken.bodyless idle nothing
    rw [items] at owed
    have start := responding.delivering owed ((outcome.routes returned).trans direct)
    rw [ends, ending, clear'] at start
    have reached := (run.mono fun _ _ _ step => step.2).invariant (Delivering c.sent _ true _ false)
      (fun _ _ _ inv step => inv.transmit step) start
    have sends := reached.sends
    constructor
    · intro ends
      have plain : c.state.chunkedResponse = false := by
        by_contra set
        exact ends ⟨chunked.mp (by simpa using set), rfl⟩
      simpa [plain, encodeBody] using sends
    · rintro ⟨chunks, _⟩
      simpa [chunked.mpr chunks, encodeBody] using sends

def headConn : Conn := evIoOnRequest [] ⟨1, 1, .other (ascii "HEAD"), 0, true⟩

/-- `[b'']` -/
def emptyList : PyValue := .list [some []] ⟨[], .ok [⟨[], .ok (.bytes [])⟩]⟩ .absent

/-- `start_response('204', [])` -/
def noContentArgs : List PyArg := [.str [50, 48, 52], .list []]

/-- A 204 response, of which `write()` first takes nothing. -/
theorem bodyless_response_no_content : ∃ c c',
    wsgiCallApplication freshConn ⟨[noContentArgs], .ok emptyList⟩ = .ok (c, true) ∧
    c'.evWatcher = .reading ∧ Sends c.sent (wsgiGetheaders c.toRequest) c' := by
  have answered : wsgiCallApplication freshConn ⟨[noContentArgs], .ok emptyList⟩ = .ok (_, true) := rfl
  have spec := bodyless_response rfl rfl rfl answered rfl rfl
    (.cons (i := ⟨.errno .eagain, 0, []⟩) ⟨nofun, rfl, by decide, rfl⟩
      (.single (i := accepts 1000) ⟨nofun, rfl, by decide, rfl⟩))
  refine ⟨_, _, rfl, rfl, spec.1 fun chunks => chunks.1.status (Or.inl ?_)⟩
  decide

/-- The answer to a `HEAD` request goes on with `0\r\n\r\n`. -/
theorem head_response_goes_on : ∃ c c', wsgiCallApplication headConn ⟨[okArgs], .ok emptyList⟩ = .ok (c, true) ∧
    c.parser.parser.method = .other (ascii "HEAD") ∧ emptyList.Bodyless ∧
    Run (Guarded (AtEnd emptyList) Transmit) (startWriting c) [accepts 1000, accepts 1000] c' ∧
    c'.evWatcher = .reading ∧ c'.sent = wsgiGetheaders c.toRequest ++ ascii "0\r\n\r\n" ∧
    ¬ Sends c.sent (wsgiGetheaders c.toRequest) c' := by
  have sent : ∃ c c', wsgiCallApplication headConn ⟨[okArgs], .ok emptyList⟩ = .ok (c, true) ∧ c.sent = [] ∧
      c.parser.parser.method = .other (ascii "HEAD") ∧
      Run (Guarded (AtEnd emptyList) Transmit) (startWriting c) [accepts 1000, accepts 1000] c' ∧
      c'.evWatcher = .reading ∧ c'.sent = wsgiGetheaders c.toRequest ++ ascii "0\r\n\r\n" :=
    ⟨_, _, rfl, rfl, rfl, .cons ⟨nofun, rfl, by decide, rfl⟩ (.single ⟨nofun, rfl, by decide, rfl⟩), rfl, by decide⟩
  obtain ⟨c, c', answered, none, method, run, reading, all⟩ := sent
  refine ⟨c, c', answered, method, rfl, run, reading, all, ?_⟩
  rintro ⟨accepted, more, _, whole⟩
  have header := whole (by simp [reading])
  rw [all, none, header, List.nil_append] at more
  exact absurd (List.append_right_eq_self.mp more) (by decide)

end Bjoern
