import Bjoern.WsgiAnswer
import Bjoern.ConnectionEnd

namespace Bjoern

/-- What the parser callbacks leave alone. -/
structure ParseFrame (r r' : Request) : Prop where
  evWatcher : r'.evWatcher = r.evWatcher
  clientAddr : r'.clientAddr = r.clientAddr
  startResponseCalled : r'.state.startResponseCalled = r.state.startResponseCalled
  wsgiCallDone : r'.state.wsgiCallDone = r.state.wsgiCallDone
  keepAlive : r'.state.keepAlive = r.state.keepAlive
  responseLengthUnknown : r'.state.responseLengthUnknown = r.state.responseLengthUnknown
  chunkedResponse : r'.state.chunkedResponse = r.state.chunkedResponse
  status : r'.status = r.status
  currentChunk : r'.currentChunk = r.currentChunk
  currentChunkP : r'.currentChunkP = r.currentChunkP
  iterable : r'.iterable = r.iterable
  iterator : r'.iterator = r.iterator

theorem ParseFrame.refl (r : Request) : ParseFrame r r :=
  ⟨rfl, rfl, rfl, rfl, rfl, rfl, rfl, rfl, rfl, rfl, rfl, rfl⟩

theorem ParseFrame.trans {r s t : Request} (f : ParseFrame r s) (g : ParseFrame s t) : ParseFrame r t :=
  ⟨g.evWatcher.trans f.evWatcher, g.clientAddr.trans f.clientAddr,
    g.startResponseCalled.trans f.startResponseCalled, g.wsgiCallDone.trans f.wsgiCallDone,
    g.keepAlive.trans f.keepAlive, g.responseLengthUnknown.trans f.responseLengthUnknown,
    g.chunkedResponse.trans f.chunkedResponse, g.status.trans f.status, g.currentChunk.trans f.currentChunk,
    g.currentChunkP.trans f.currentChunkP, g.iterable.trans f.iterable, g.iterator.trans f.iterator⟩

theorem runCallback_frame (base : Environ) (r : Request) (parser : HttpParser) (callback : Callback) :
    ParseFrame r (runCallback base r parser callback).1 := by
  cases callback with
  | messageBegin => exact ⟨rfl, rfl, rfl, rfl, rfl, rfl, rfl, rfl, rfl, rfl, rfl, rfl⟩
  | path data =>
    simp only [runCallback, onPath]
    split
    next =>
      split
      next => exact .refl r
      next => exact ⟨rfl, rfl, rfl, rfl, rfl, rfl, rfl, rfl, rfl, rfl, rfl, rfl⟩
    next => exact .refl r
  | queryString data => exact ⟨rfl, rfl, rfl, rfl, rfl, rfl, rfl, rfl, rfl, rfl, rfl, rfl⟩
  | headerField data =>
    simp only [runCallback, onHeaderField]
    split
    next => exact ⟨rfl, rfl, rfl, rfl, rfl, rfl, rfl, rfl, rfl, rfl, rfl, rfl⟩
    next => split <;> exact ⟨rfl, rfl, rfl, rfl, rfl, rfl, rfl, rfl, rfl, rfl, rfl, rfl⟩
  | headerValue data =>
    simp only [runCallback, onHeaderValue]
    split
    next => split <;> exact ⟨rfl, rfl, rfl, rfl, rfl, rfl, rfl, rfl, rfl, rfl, rfl, rfl⟩
    next => exact ⟨rfl, rfl, rfl, rfl, rfl, rfl, rfl, rfl, rfl, rfl, rfl, rfl⟩
  | body data =>
    simp only [runCallback, onBody]
    split <;> exact ⟨rfl, rfl, rfl, rfl, rfl, rfl, rfl, rfl, rfl, rfl, rfl, rfl⟩
  | messageComplete => exact ⟨rfl, rfl, rfl, rfl, rfl, rfl, rfl, rfl, rfl, rfl, rfl, rfl⟩

theorem runCallbacks_frame (base : Environ) (r : Request) (fired : List (HttpParser × Callback)) :
    ParseFrame r (runCallbacks base r fired).1 := by
  induction fired generalizing r with
  | nil => exact .refl r
  | cons head rest ih =>
    obtain ⟨parser, callback⟩ := head
    have first := runCallback_frame base r parser callback
    simp only [runCallbacks]
    split
    next r' h =>
      rw [h] at first
      exact first.trans (ih r')
    next r' h =>
      rw [h] at first
      exact first

theorem requestParse_frame (base : Environ) (r : Request) (data : ReadData) :
    ParseFrame r (requestParse base r data) := by
  have f := runCallbacks_frame base r data.fired
  unfold requestParse
  dsimp only
  split
  next => exact { f with }
  next => exact { f with }

/-- A callback on a connection touches the request, and the pending exception where the request has no environ. -/
structure CallbackFrame (c c' : Conn) : Prop where
  request : ParseFrame c.toRequest c'.toRequest
  rest : c' = { c with toRequest := c'.toRequest, pyErr := c'.pyErr }

theorem CallbackFrame.refl (c : Conn) : CallbackFrame c c := ⟨.refl _, rfl⟩

theorem CallbackFrame.trans {c d e : Conn} (f : CallbackFrame c d) (g : CallbackFrame d e) : CallbackFrame c e :=
  ⟨f.request.trans g.request, by rw [g.rest, f.rest]⟩

theorem CallbackFrame.of_request {c : Conn} {r : Request} (frame : ParseFrame c.toRequest r) :
    CallbackFrame c { c with toRequest := r } :=
  ⟨frame, rfl⟩

theorem Conn.runCallback_frame {base : Environ} {c c' : Conn} {parser : HttpParser} {callback : Callback}
    {completed : Bool} (h : c.runCallback base parser callback = .ok (c', completed)) : CallbackFrame c c' := by
  have frame := CallbackFrame.of_request (Bjoern.runCallback_frame base c.toRequest parser callback)
  unfold Conn.runCallback at h
  dsimp only at h
  split at h
  next =>
    cases h
    exact frame
  next => cases h
  next =>
    cases h
    exact .of_request ⟨rfl, rfl, rfl, rfl, rfl, rfl, rfl, rfl, rfl, rfl, rfl, rfl⟩
  next =>
    cases h
    exact ⟨frame.request, rfl⟩

theorem Conn.runCallbacks_frame {base : Environ} {c c' : Conn} {fired : List (HttpParser × Callback)}
    {completed : Bool} (h : c.runCallbacks base fired = .ok (c', completed)) : CallbackFrame c c' := by
  induction fired generalizing c with
  | nil =>
    cases h
    exact .refl _
  | cons head rest ih =>
    obtain ⟨⟨mid, returned⟩, first, h⟩ := bind_ok h
    have frame := Conn.runCallback_frame first
    cases returned with
    | true => exact frame.trans (ih h)
    | false =>
      cases h
      exact frame

theorem Conn.requestParse_frame {base : Environ} {c c' : Conn} {data : ReadData}
    (h : c.requestParse base data = .ok c') : CallbackFrame c c' := by
  obtain ⟨⟨mid, completed⟩, called, h⟩ := bind_ok h
  obtain ⟨frame, rest⟩ := Conn.runCallbacks_frame called
  dsimp only at h
  split at h
  next =>
    cases h
    exact ⟨{ frame with }, by rw [rest]⟩
  next =>
    cases h
    exact ⟨{ frame with }, by rw [rest]⟩

/-- `c` after `Request_parse`, if control comes back from it. -/
def Conn.parsed (base : Environ) (c : Conn) (data : ReadData) : Conn :=
  match c.requestParse base data with
  | .ok parsed => parsed
  | .error _ => c

theorem Conn.parsed_eq {base : Environ} {c p : Conn} {data : ReadData} (h : c.requestParse base data = .ok p) :
    c.parsed base data = p := by
  rw [Conn.parsed, h]

/-- Control comes back from `Request_parse`. -/
def Parses (base : Environ) (c : Conn) (data : ReadData) : Prop := c.requestParse base data = .ok (c.parsed base data)

theorem Conn.parsed_frame (base : Environ) (c : Conn) (data : ReadData) : CallbackFrame c (c.parsed base data) := by
  unfold Conn.parsed
  split
  next parsed => exact Conn.requestParse_frame parsed
  next => exact .refl c

@[simp] theorem Conn.parsed_sent (base : Environ) (c : Conn) (data : ReadData) :
    (c.parsed base data).sent = c.sent := by
  rw [(c.parsed_frame base data).rest]

@[simp] theorem Conn.parsed_environs (base : Environ) (c : Conn) (data : ReadData) :
    (c.parsed base data).environs = c.environs := by
  rw [(c.parsed_frame base data).rest]

@[simp] theorem Conn.parsed_iterLog (base : Environ) (c : Conn) (data : ReadData) :
    (c.parsed base data).iterLog = c.iterLog := by
  rw [(c.parsed_frame base data).rest]

@[simp] theorem Conn.parsed_metrics (base : Environ) (c : Conn) (data : ReadData) :
    (c.parsed base data).metrics = c.metrics := by
  rw [(c.parsed_frame base data).rest]

/-- A callback that returns 0 does to the request what it does to one with a dictionary. -/
theorem Conn.runCallback_completed {base : Environ} {c c' : Conn} {parser : HttpParser} {callback : Callback}
    (h : c.runCallback base parser callback = .ok (c', true)) :
    Bjoern.runCallback base c.toRequest parser callback = (c'.toRequest, true) := by
  unfold Conn.runCallback at h
  dsimp only at h
  split at h
  next =>
    obtain ⟨rfl, completed⟩ := Prod.mk.inj (Except.ok.inj h)
    exact Prod.ext rfl completed
  next => cases h
  next => cases h
  next =>
    obtain ⟨rfl, completed⟩ := Prod.mk.inj (Except.ok.inj h)
    exact Prod.ext rfl completed

theorem Conn.runCallbacks_completed {base : Environ} {c c' : Conn} {fired : List (HttpParser × Callback)}
    (h : c.runCallbacks base fired = .ok (c', true)) :
    Bjoern.runCallbacks base c.toRequest fired = (c'.toRequest, true) := by
  induction fired generalizing c with
  | nil =>
    cases h
    rfl
  | cons head rest ih =>
    obtain ⟨⟨mid, returned⟩, first, h⟩ := bind_ok h
    cases returned with
    | true => simp only [Bjoern.runCallbacks, Conn.runCallback_completed first, ih h]
    | false => cases h

/-- Where no error is found, all callbacks have returned 0. -/
theorem Parses.completed {base : Environ} {c : Conn} {data : ReadData} (parses : Parses base c data)
    (noError : (c.parsed base data).state.errorCode = none) :
    (Bjoern.runCallbacks base c.toRequest data.fired).2 = true ∧ data.consumed = true ∧
      (c.parsed base data).toRequest =
        { (Bjoern.runCallbacks base c.toRequest data.fired).1 with parser.parser := data.parser } := by
  unfold Parses at parses
  generalize c.parsed base data = p at parses noError ⊢
  obtain ⟨⟨mid, completed⟩, called, parsed⟩ := bind_ok parses
  dsimp only at parsed
  split at parsed
  next all =>
    rw [Bool.and_eq_true] at all
    obtain ⟨rfl, consumed⟩ := all
    have run := Conn.runCallbacks_completed called
    cases parsed
    exact ⟨by rw [run], consumed, by rw [run]⟩
  next =>
    cases parsed
    cases noError

/-- What the callbacks and the end of `Request_parse` keep is kept by `Request_parse`. -/
theorem Conn.parsed_invariant {base : Environ} {P : Request → Prop} (c : Conn) (data : ReadData)
    (callback : ∀ r parser callback, P r → P (Bjoern.runCallback base r parser callback).1)
    (flag : ∀ r, P r → P { r with state.expectContinue := false })
    (ends : ∀ r parser code, P r → P { r with parser.parser := parser, state.errorCode := code })
    (start : P c.toRequest) : P (c.parsed base data).toRequest := by
  have one : ∀ {c c' : Conn} {parser : HttpParser} {callback : Callback} {completed : Bool}, P c.toRequest →
      c.runCallback base parser callback = .ok (c', completed) → P c'.toRequest := by
    intro c c' parser cb completed before called
    have after := callback c.toRequest parser cb before
    unfold Conn.runCallback at called
    dsimp only at called
    split at called
    next =>
      cases called
      exact after
    next => cases called
    next =>
      cases called
      exact flag _ before
    next =>
      cases called
      exact after
  have all : ∀ {fired : List (HttpParser × Callback)} {c c' : Conn} {completed : Bool}, P c.toRequest →
      c.runCallbacks base fired = .ok (c', completed) → P c'.toRequest := by
    intro fired
    induction fired with
    | nil =>
      intro c c' completed before called
      cases called
      exact before
    | cons head rest ih =>
      intro c c' completed before called
      obtain ⟨⟨mid, returned⟩, first, called⟩ := bind_ok called
      cases returned with
      | true => exact ih (one before first) called
      | false =>
        cases called
        exact one before first
  unfold Conn.parsed
  split
  next parsed parses =>
    obtain ⟨⟨mid, completed⟩, called, parsed⟩ := bind_ok parses
    have before := all start called
    dsimp only at parsed
    split at parsed
    next =>
      cases parsed
      exact ends mid.toRequest data.parser mid.state.errorCode before
    next =>
      cases parsed
      exact ends mid.toRequest data.parser (some .badRequest) before
  next => exact start

/-- The connection has no headers of a response, and no exception is pending. -/
structure Grounded (c : Conn) : Prop where
  idle : c.pyErr = none
  unanswered : ∀ fields, c.headers ≠ .response fields

theorem Headers.modify_unanswered {headers : Headers} (f : Environ → Environ)
    (unanswered : ∀ fields, headers ≠ .response fields) (fields : List (Bytes × Bytes)) :
    headers.modify f ≠ .response fields := by
  cases headers with
  | response => exact absurd rfl (unanswered _)
  | null => simp [Headers.modify]
  | environ => simp [Headers.modify]

/-- What `on_header_value` does to each part of the request that it touches. -/
theorem onHeaderValue_spec (r : Request) (parser : HttpParser) (value : Bytes) :
    (onHeaderValue r parser value).2 = true ∧
      (onHeaderValue r parser value).1.parser = { r.parser with lastCallWasHeaderValue := true } ∧
      (onHeaderValue r parser value).1.clientAddr = r.clientAddr ∧
      (onHeaderValue r parser value).1.headers =
        (match r.parser.invalidHeader, r.parser.field with
        | false, some field => r.headers.modify (setOrAppendHeader field value)
        | _, _ => r.headers) ∧
      (onHeaderValue r parser value).1.state =
        if checksExpectation r parser then
          if meetsExpectation value then { r.state with expectContinue := true }
          else { r.state with errorCode := some .expectationFailed }
        else r.state := by
  unfold onHeaderValue
  dsimp only
  split
  next => split <;> exact ⟨rfl, rfl, rfl, rfl, rfl⟩
  next => exact ⟨rfl, rfl, rfl, rfl, rfl⟩

theorem runCallback_unanswered (base : Environ) {r : Request} (parser : HttpParser) (callback : Callback)
    (h : ∀ fields, r.headers ≠ .response fields) (fields : List (Bytes × Bytes)) :
    (Bjoern.runCallback base r parser callback).1.headers ≠ .response fields := by
  cases callback with
  | messageBegin => simp [Bjoern.runCallback, onMessageBegin]
  | path data =>
    simp only [Bjoern.runCallback, onPath]
    split
    next =>
      split
      next => exact h fields
      next => exact Headers.modify_unanswered _ h fields
    next => exact h fields
  | queryString data => exact Headers.modify_unanswered _ h fields
  | headerField data =>
    simp only [Bjoern.runCallback, onHeaderField]
    split
    next => exact h fields
    next => split <;> exact h fields
  | headerValue data =>
    obtain ⟨_, _, _, set, _⟩ := onHeaderValue_spec r parser data
    simp only [Bjoern.runCallback, set]
    split
    next => exact Headers.modify_unanswered _ h fields
    next => exact h fields
  | body data =>
    simp only [Bjoern.runCallback, onBody]
    split
    next => exact h fields
    next => exact Headers.modify_unanswered _ h fields
  | messageComplete => exact Headers.modify_unanswered _ h fields

/-- A callback finds its dictionary, or none. -/
theorem Grounded.callbackEnd {c : Conn} (h : Grounded c) (callback : Callback) (completed : Bool) :
    c.callbackEnd callback completed =
      if callback.usesHeaders c.toRequest && c.headers.isNull then .crashes else .returns := by
  unfold Conn.callbackEnd
  cases callback.usesHeaders c.toRequest with
  | false => rfl
  | true =>
    cases found : c.headers with
    | response fields => exact absurd found (h.unanswered fields)
    | null => rfl
    | environ d => cases callback <;> simp [Headers.isEnviron, Headers.isNull, h.idle]

/-- Where control comes back from a callback, it has found its dictionary. -/
theorem Grounded.runCallback {base : Environ} {c c' : Conn} {parser : HttpParser} {callback : Callback}
    {completed : Bool} (h : Grounded c) (called : c.runCallback base parser callback = .ok (c', completed)) :
    c' = { c with toRequest := (Bjoern.runCallback base c.toRequest parser callback).1 } ∧
      completed = (Bjoern.runCallback base c.toRequest parser callback).2 := by
  unfold Conn.runCallback at called
  dsimp only at called
  rw [h.callbackEnd] at called
  split at called
  next =>
    cases called
    exact ⟨rfl, rfl⟩
  next => cases called
  next impossible => split at impossible <;> cases impossible
  next impossible => split at impossible <;> cases impossible

theorem Grounded.runCallbacks {base : Environ} {c c' : Conn} {fired : List (HttpParser × Callback)}
    {completed : Bool} (h : Grounded c) (called : c.runCallbacks base fired = .ok (c', completed)) :
    c' = { c with toRequest := (Bjoern.runCallbacks base c.toRequest fired).1 } ∧
      completed = (Bjoern.runCallbacks base c.toRequest fired).2 ∧ Grounded c' := by
  induction fired generalizing c with
  | nil =>
    cases called
    exact ⟨rfl, rfl, h⟩
  | cons head rest ih =>
    obtain ⟨parser, callback⟩ := head
    obtain ⟨⟨mid, returned⟩, first, called⟩ := bind_ok called
    obtain ⟨rfl, rfl⟩ := h.runCallback first
    have mid : Grounded { c with toRequest := (Bjoern.runCallback base c.toRequest parser callback).1 } :=
      ⟨h.idle, runCallback_unanswered base parser callback h.unanswered⟩
    simp only [Bjoern.runCallbacks]
    split
    next r result =>
      rw [result] at called mid
      exact ih mid called
    next r result =>
      rw [result] at called mid
      cases called
      exact ⟨rfl, rfl, mid⟩

theorem Grounded.parsed {base : Environ} {c : Conn} {data : ReadData} (h : Grounded c) (parses : Parses base c data) :
    c.parsed base data = { c with toRequest := requestParse base c.toRequest data } ∧
      Grounded (c.parsed base data) := by
  unfold Parses at parses
  generalize c.parsed base data = p at parses ⊢
  obtain ⟨⟨mid, completed⟩, called, parsed⟩ := bind_ok parses
  obtain ⟨rfl, rfl, grounded⟩ := h.runCallbacks called
  unfold requestParse
  dsimp only at parsed ⊢
  split at parsed
  next all =>
    cases parsed
    rw [if_pos all]
    exact ⟨rfl, grounded.idle, grounded.unanswered⟩
  next some =>
    cases parsed
    rw [if_neg some]
    exact ⟨rfl, grounded.idle, grounded.unanswered⟩

/-- The connection after a failed call of the application. -/
def Conn.failedResponse (c : Conn) : Conn :=
  (startWriting ({ c with
    pyErr := none
    iterator := none
    currentChunk := .owned (httpErrorMessages .serverError) }.count .reqErrorInternal)).count .reqDone

/-- The connection after a call of the application that gave a response. -/
def Conn.startedResponse (c : Conn) : Conn := (startWriting c).count .reqDone

/-- Everything that one call of `ev_io_on_read` from which control comes back can do. -/
inductive ReadOutcome (base : Environ) (c : Conn) (e : ReadEvent) : Conn → Prop
  | again {errno} : e.result = .errno errno → errno.tryAgain = true → ReadOutcome base c e (c.count .reqActive)
  | closed {metric c'} : (e.result = .eof ∨ ∃ errno, e.result = .errno errno ∧ errno.tryAgain = false) →
      closeConnection (c.count metric) = .ok c' → ReadOutcome base c e (c'.count .reqAborted)
  | waiting {data} : e.result = .bytes data → (c.parsed base data).state.errorCode = none →
      (c.parsed base data).state.parseFinished = false → (c.parsed base data).state.expectContinue = false →
      ReadOutcome base c e ((c.parsed base data).count .reqActive)
  | interim {data} : e.result = .bytes data → (c.parsed base data).state.errorCode = none →
      (c.parsed base data).state.parseFinished = false → (c.parsed base data).state.expectContinue = true →
      ReadOutcome base c e (startWriting { c.parsed base data with currentChunk := .owned continueMessage })
  | rejected {data code} : e.result = .bytes data → (c.parsed base data).state.errorCode = some code →
      ReadOutcome base c e ((startWriting { (c.parsed base data).count .reqErrorParse with
        currentChunk := .owned (httpErrorMessages code) }).count .reqDone)
  | answered {data c'} : e.result = .bytes data → (c.parsed base data).state.errorCode = none →
      (c.parsed base data).state.parseFinished = true →
      wsgiCallApplication ((c.parsed base data).count .reqSuccessRead) e.app = .ok (c', true) →
      ReadOutcome base c e c'.startedResponse
  | failed {data c'} : e.result = .bytes data → (c.parsed base data).state.errorCode = none →
      (c.parsed base data).state.parseFinished = true →
      wsgiCallApplication ((c.parsed base data).count .reqSuccessRead) e.app = .ok (c', false) →
      ReadOutcome base c e c'.failedResponse

theorem evIoOnRead_outcome {base : Environ} {c c' : Conn} {e : ReadEvent} (h : evIoOnRead base c e = .ok c') :
    ReadOutcome base c e c' := by
  obtain ⟨⟨mid, state⟩, hr, h⟩ := bind_ok h
  unfold readRequest at hr
  split at hr
  next eof =>
    cases hr
    obtain ⟨last, hl, h⟩ := bind_ok h
    cases h
    exact .closed (Or.inl eof) hl
  next errno he =>
    split at hr
    next again =>
      cases hr
      cases h
      exact .again he again
    next fatal =>
      cases hr
      obtain ⟨last, hl, h⟩ := bind_ok h
      cases h
      exact .closed (Or.inr ⟨errno, he, by simpa using fatal⟩) hl
  next data he =>
    obtain ⟨p, parsed, hr⟩ := bind_ok hr
    obtain rfl := Conn.parsed_eq parsed
    split at hr
    next code hc =>
      cases hr
      cases h
      exact .rejected he hc
    next hc =>
      split at hr
      next finished =>
        obtain ⟨answer, ha, hr⟩ := bind_ok hr
        cases hr
        cases h
        unfold respond at ha
        split at ha
        next => cases ha
        obtain ⟨⟨called, answered⟩, hw, ha⟩ := bind_ok ha
        dsimp only at ha
        split at ha
        next yes =>
          subst yes
          cases ha
          exact .answered he hc finished hw
        next no =>
          have no : answered = false := by simpa using no
          subst no
          obtain ⟨printed, hp, ha⟩ := bind_ok ha
          obtain ⟨rfl, _⟩ := pyErrPrint_ok hp
          cases ha
          show ReadOutcome base c e called.failedResponse
          exact .failed he hc finished hw
      next unfinished =>
        have unfinished : (c.parsed base data).state.parseFinished = false := by simpa using unfinished
        split at hr
        next expects =>
          cases hr
          cases h
          exact .interim he hc unfinished expects
        next clear =>
          cases hr
          cases h
          exact .waiting he hc unfinished (by simpa using clear)

theorem evIoOnRead_parses {base : Environ} {c c' : Conn} {e : ReadEvent} {data : ReadData}
    (h : evIoOnRead base c e = .ok c') (bytes : e.result = .bytes data) : Parses base c data := by
  obtain ⟨⟨mid, state⟩, hr, h⟩ := bind_ok h
  rw [readRequest, bytes] at hr
  obtain ⟨p, parsed, _⟩ := bind_ok hr
  rw [Parses, Conn.parsed_eq parsed, parsed]

theorem ReadOutcome.of_bytes {base : Environ} {c c' : Conn} {e : ReadEvent} {data : ReadData}
    (outcome : ReadOutcome base c e c') (bytes : e.result = .bytes data) :
    (∃ code, (c.parsed base data).state.errorCode = some code ∧
      c' = (startWriting { (c.parsed base data).count .reqErrorParse with
        currentChunk := .owned (httpErrorMessages code) }).count .reqDone) ∨
    (c.parsed base data).state.errorCode = none ∧ (c.parsed base data).state.parseFinished = false ∧
      (c.parsed base data).state.expectContinue = false ∧ c' = (c.parsed base data).count .reqActive ∨
    (c.parsed base data).state.errorCode = none ∧ (c.parsed base data).state.parseFinished = false ∧
      (c.parsed base data).state.expectContinue = true ∧
      c' = startWriting { c.parsed base data with currentChunk := .owned continueMessage } ∨
    (c.parsed base data).state.errorCode = none ∧ (c.parsed base data).state.parseFinished = true ∧
      ∃ called answered,
        wsgiCallApplication ((c.parsed base data).count .reqSuccessRead) e.app = .ok (called, answered) ∧
        (answered = true ∧ c' = called.startedResponse ∨ answered = false ∧ c' = called.failedResponse) := by
  cases outcome with
  | again failed => cases bytes.symm.trans failed
  | closed failed =>
    rcases failed with failed | ⟨_, failed, _⟩
    · cases bytes.symm.trans failed
    · cases bytes.symm.trans failed
  | waiting same noError unfinished clear =>
    cases bytes.symm.trans same
    exact Or.inr (Or.inl ⟨noError, unfinished, clear, rfl⟩)
  | interim same noError unfinished expects =>
    cases bytes.symm.trans same
    exact Or.inr (Or.inr (Or.inl ⟨noError, unfinished, expects, rfl⟩))
  | rejected same failed =>
    cases bytes.symm.trans same
    exact Or.inl ⟨_, failed, rfl⟩
  | answered same noError finished call =>
    cases bytes.symm.trans same
    exact Or.inr (Or.inr (Or.inr ⟨noError, finished, _, true, call, Or.inl ⟨rfl, rfl⟩⟩))
  | failed same noError finished call =>
    cases bytes.symm.trans same
    exact Or.inr (Or.inr (Or.inr ⟨noError, finished, _, false, call, Or.inr ⟨rfl, rfl⟩⟩))

/-- A read that leaves the request unfinished waits for more, or writes the interim message. -/
theorem ReadOutcome.unfinished {base : Environ} {c c' : Conn} {e : ReadEvent} {data : ReadData}
    (outcome : ReadOutcome base c e c') (bytes : e.result = .bytes data)
    (noError : (c.parsed base data).state.errorCode = none)
    (unfinished : (c.parsed base data).state.parseFinished = false) :
    (c.parsed base data).state.expectContinue = false ∧ c' = (c.parsed base data).count .reqActive ∨
    (c.parsed base data).state.expectContinue = true ∧
      c' = startWriting { c.parsed base data with currentChunk := .owned continueMessage } := by
  rcases outcome.of_bytes bytes with ⟨_, failed, _⟩ | ⟨_, _, clear, rfl⟩ | ⟨_, _, expects, rfl⟩ | ⟨_, finished, _⟩
  · cases noError.symm.trans failed
  · exact Or.inl ⟨clear, rfl⟩
  · exact Or.inr ⟨expects, rfl⟩
  · cases unfinished.symm.trans finished

/-- A read that completes the request calls the application. -/
theorem ReadOutcome.finished {base : Environ} {c c' : Conn} {e : ReadEvent} {data : ReadData}
    (outcome : ReadOutcome base c e c') (bytes : e.result = .bytes data)
    (noError : (c.parsed base data).state.errorCode = none)
    (finished : (c.parsed base data).state.parseFinished = true) :
    ∃ called answered,
      wsgiCallApplication ((c.parsed base data).count .reqSuccessRead) e.app = .ok (called, answered) ∧
      (answered = true ∧ c' = called.startedResponse ∨ answered = false ∧ c' = called.failedResponse) := by
  rcases outcome.of_bytes bytes with ⟨_, failed, _⟩ | ⟨_, unfinished, _⟩ | ⟨_, unfinished, _⟩ | ⟨_, _, called⟩
  · cases noError.symm.trans failed
  · cases unfinished.symm.trans finished
  · cases unfinished.symm.trans finished
  · exact called

end Bjoern
