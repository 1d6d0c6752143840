import Bjoern.ErrorIndicator

namespace Bjoern

open Runs

theorem bind_error {ε α β : Type} {x : Except ε α} {f : α → Except ε β} {e : ε} (h : (x >>= f) = .error e) :
    x = .error e ∨ ∃ a, x = .ok a ∧ f a = .error e := by
  cases x with
  | error e' => exact Or.inl (by cases h; rfl)
  | ok a => exact Or.inr ⟨a, rfl, h⟩

/-- A callback from which control does not come back ends the process. -/
def OnlyExits {α : Type} (result : Except Halted α) : Prop := ∀ halt last, result = .error (halt, last) → halt = .exit

theorem OnlyExits.ok {α : Type} (a : α) : OnlyExits (.ok a) := by
  intro _ _ h
  cases h

theorem OnlyExits.bind {α β : Type} {x : Except Halted α} {f : α → Except Halted β} (first : OnlyExits x)
    (second : ∀ a, x = .ok a → OnlyExits (f a)) : OnlyExits (x >>= f) := by
  intro halt last h
  rcases bind_error h with failed | ⟨a, ha, failed⟩
  · exact first halt last failed
  · exact second a ha halt last failed

/-- An `exc_info` of three items begins with an exception class, as that of `sys.exc_info()` does. -/
def ClassFirst : List PyArg → Prop
  | [_, _, .tuple [type, _, _]] => ∃ exc, type = .excType exc
  | _ => True

/-- Every call of `start_response` among them has such an `exc_info`, or none. -/
def Conforms (calls : List (List PyArg)) : Prop := ∀ args ∈ calls, ClassFirst args

/-- What the steps of an iterator do to `start_response`, and give: the chunks fit into the buffer for their size
line. -/
def SafeSteps (steps : PyIter) : Prop :=
  ∀ step ∈ steps, Conforms step.startResponses ∧ ∀ data, step.result = .ok (.bytes data) → data.length < 2 ^ 28

structure SafeItems (v : PyValue) : Prop where
  whole : ∀ data, v.bytestring = some data → data.length < 2 ^ 28
  getIter : Conforms v.getIter.startResponses
  steps : SafeSteps v.steps

/-- The callbacks but `on_message_begin` come when a request has begun. -/
def InOrder (r : Request) (fired : List (HttpParser × Callback)) : Prop :=
  ∀ front x back, fired = front ++ x :: back → x.2 ≠ .messageBegin →
    (∃ d, r.headers = .environ d) ∨ .messageBegin ∈ front.map Prod.snd

/-- No expectation stands where a request is answered, and the callbacks come in order. The application has an
exception class for every `exc_info` and gives no chunk of 2^28 bytes. No fatal error hits the header block of a
file. -/
def Careful (c : Conn) : Event → Prop
  | .read e => Unawaited c (.read e) ∧ (∀ data, e.result = .bytes data → InOrder c.toRequest data.fired) ∧
      Conforms e.app.startResponses ∧ ∀ v, e.app.result = .ok v → SafeItems v
  | .write w => Fatal w → c.routesSendfile = true → c.currentChunk = .null

theorem Careful.unawaited {c : Conn} {event : Event} (h : Careful c event) : Unawaited c event := by
  cases event with
  | read e => exact h.1
  | write w => trivial

/-- The writer finds a chunk that is not released, or a file and no chunk. -/
structure Usable (c : Conn) : Prop where
  chunk : c.evWatcher = .writing → (∃ data, c.currentChunk = .owned data) ∨
    c.routesSendfile = true ∧ c.currentChunk = .null
  steps : SafeSteps (c.iterator.getD [])

theorem startResponse_exits {r : Request} {args : List PyArg} {halt : Halt} (first : ClassFirst args)
    (h : startResponse r args = .error halt) : halt = .exit := by
  unfold startResponse at h
  dsimp only at h
  split at h
  next => cases h
  next => cases h
  next =>
    obtain ⟨exc, rfl⟩ := first
    split at h
    next => cases h
    next =>
      cases exc with
      | systemExit =>
        cases h
        rfl
      | other => cases h
  next => cases h

theorem callStartResponses_exits (c : Conn) {calls : List (List PyArg)} (conforms : Conforms calls) :
    OnlyExits (callStartResponses c calls) := by
  have runs : ∀ (r : Request) halt, runStartResponses r calls = .error halt → halt = .exit := by
    induction calls with
    | nil =>
      intro r halt h
      cases h
    | cons args rest ih =>
      intro r halt h
      rcases bind_error h with failed | ⟨⟨mid, _⟩, _, failed⟩
      · exact startResponse_exits (conforms args List.mem_cons_self) failed
      · exact ih (fun a member => conforms a (List.mem_cons_of_mem _ member)) mid halt failed
  intro halt last h
  unfold callStartResponses at h
  split at h
  next => cases h
  next failed =>
    cases h
    exact runs _ _ failed

theorem pyErrPrint_exits (c : Conn) : OnlyExits (pyErrPrint c) := by
  intro halt last h
  obtain ⟨_, returned | exits⟩ := pyErrPrint_only c
  · cases returned.symm.trans h
  · cases exits.symm.trans h
    rfl

theorem closeConnection_exits (c : Conn) : OnlyExits (closeConnection c) := by
  intro halt last h
  have closed := closeConnection_endsClosed c
  rw [h] at closed
  exact closed.1

theorem requestClean_exits (c : Conn) : OnlyExits (requestClean c) := by
  intro halt last h
  obtain ⟨_, _, returned | exits⟩ := requestClean_only c
  · cases returned.symm.trans h
  · cases exits.symm.trans h
    rfl

theorem nextChunkLoop_exits (c : Conn) {steps : PyIter} (safe : SafeSteps steps) :
    OnlyExits (nextChunkLoop c steps) := by
  induction steps generalizing c with
  | nil => exact .ok _
  | cons step rest ih =>
    refine .bind (callStartResponses_exits _ (safe step List.mem_cons_self).1) fun mid _ => ?_
    split
    next => exact .ok _
    next => exact .ok _
    next => exact .ok _
    next =>
      split
      next => exact ih mid fun s member => safe s (List.mem_cons_of_mem _ member)
      next => exact .ok _

theorem nextChunkLoop_safe {c c' : Conn} {steps : PyIter} {chunk : Option Bytes} (safe : SafeSteps steps)
    (h : nextChunkLoop c steps = .ok (c', chunk)) :
    SafeSteps (c'.iterator.getD []) ∧ ∀ data, chunk = some data → data.length < 2 ^ 28 := by
  induction steps generalizing c with
  | nil =>
    cases h
    exact ⟨by simp [SafeSteps], by simp⟩
  | cons step rest ih =>
    have tail : SafeSteps rest := fun s member => safe s (List.mem_cons_of_mem _ member)
    obtain ⟨mid, hm, h⟩ := bind_ok h
    obtain ⟨_, _, _, _, rfl⟩ := callStartResponses_frame hm
    split at h
    next =>
      cases h
      exact ⟨tail, by simp⟩
    next =>
      cases h
      exact ⟨tail, by simp⟩
    next =>
      cases h
      exact ⟨tail, by simp⟩
    next data given =>
      split at h
      next => exact ih tail h
      next =>
        cases h
        refine ⟨tail, fun data' same => ?_⟩
        cases same
        exact (safe step List.mem_cons_self).2 data given

theorem takeRetval_exits (c : Conn) {v : PyValue} (safe : SafeItems v) : OnlyExits (takeRetval c v) := by
  unfold takeRetval
  split
  next => exact .ok _
  next => exact .ok _
  next =>
    refine .bind (callStartResponses_exits _ safe.getIter) fun mid _ => ?_
    split
    next => exact .ok _
    next steps got =>
      have taken : v.steps = steps := by rw [PyValue.steps, got]
      refine .bind (nextChunkLoop_exits _ (taken ▸ safe.steps)) fun parts _ => ?_
      dsimp only
      split
      next => exact .ok _
      next => exact .ok _

theorem takeRetval_safe {c c' : Conn} {v : PyValue} {first : Option (Option Bytes)} (safe : SafeItems v)
    (h : takeRetval c v = .ok (c', first)) :
    SafeSteps (c'.iterator.getD []) ∧ ∀ data, first = some (some data) → data.length < 2 ^ 28 := by
  unfold takeRetval at h
  split at h
  next data branch =>
    cases h
    refine ⟨by simp [SafeSteps], fun data' same => ?_⟩
    have taken : (if data = [] then none else some data) = some data' := Option.some.inj same
    split at taken
    next => cases taken
    next =>
      cases taken
      exact safe.whole _ (retvalBranch_bytestring branch)
  next =>
    cases h
    exact ⟨by simp [SafeSteps], by simp⟩
  next =>
    obtain ⟨mid, hm, h⟩ := bind_ok h
    split at h
    next =>
      cases h
      exact ⟨by simp [SafeSteps], by simp⟩
    next steps got =>
      have taken : v.steps = steps := by rw [PyValue.steps, got]
      obtain ⟨⟨last, chunk⟩, hn, h⟩ := bind_ok h
      have next := nextChunkLoop_safe (taken ▸ safe.steps) hn
      dsimp only at h
      split at h
      next =>
        cases h
        exact ⟨next.1, by simp⟩
      next =>
        cases h
        exact ⟨next.1, fun data same => next.2 data (Option.some.inj same)⟩

theorem installResponse_returns (c : Conn) {first : Option Bytes}
    (small : ∀ data, first = some data → data.length < 2 ^ 28) : ∃ c', installResponse c first = .ok c' := by
  have framed : ∃ data, encodeFirst (chooseFraming c.toRequest).state.chunkedResponse first = some data := by
    cases first with
    | none => exact ⟨_, rfl⟩
    | some chunk =>
      cases (chooseFraming c.toRequest).state.chunkedResponse with
      | false => exact ⟨_, rfl⟩
      | true => exact ⟨_, wrapHttpChunkCruftAround_small (small chunk rfl)⟩
  obtain ⟨data, framed⟩ := framed
  exact ⟨_, by rw [installResponse_def, framed]⟩

theorem wsgiCallApplication_exits (c : Conn) {app : PyCall PyValue} (conforms : Conforms app.startResponses)
    (safe : ∀ v, app.result = .ok v → SafeItems v) : OnlyExits (wsgiCallApplication c app) := by
  refine .bind (callStartResponses_exits _ conforms) fun mid _ => ?_
  split
  next => exact .ok _
  next v returned =>
    refine .bind (takeRetval_exits _ (safe v returned)) fun parts taken => ?_
    obtain ⟨last, first⟩ := parts
    have next := (takeRetval_safe (safe v returned) taken).2
    dsimp only
    split
    next => exact .ok _
    next first =>
      split
      next => exact .ok _
      next =>
        obtain ⟨c', installed⟩ := installResponse_returns last fun data same => next data (congrArg some same)
        rw [installed]
        exact .ok _

theorem wsgiCallApplication_steps {c c' : Conn} {app : PyCall PyValue} {answered : Bool}
    (safe : ∀ v, app.result = .ok v → SafeItems v) (before : SafeSteps (c.iterator.getD []))
    (h : wsgiCallApplication c app = .ok (c', answered)) : SafeSteps (c'.iterator.getD []) := by
  obtain ⟨mid, hm, h⟩ := bind_ok h
  obtain ⟨_, _, _, _, rfl⟩ := callStartResponses_frame hm
  split at h
  next =>
    cases h
    exact before
  next v returned =>
    obtain ⟨⟨last, first⟩, taken, h⟩ := bind_ok h
    have next := (takeRetval_safe (safe v returned) taken).1
    dsimp only at h
    split at h
    next =>
      cases h
      exact next
    next first =>
      split at h
      next =>
        cases h
        exact next
      next =>
        obtain ⟨final, hi, h⟩ := bind_ok h
        cases h
        obtain ⟨data, _, rfl⟩ := installResponse_eq hi
        obtain ⟨_, _, _, frame⟩ := last.installed_frame data
        rw [frame]
        exact next

/-- A callback that comes when a request has begun finds its dictionary. -/
theorem Grounded.callback_returns {c : Conn} (h : Grounded c) (base : Environ) (parser : HttpParser)
    {callback : Callback} (begun : (∃ d, c.headers = .environ d) ∨ callback = .messageBegin) :
    c.runCallback base parser callback =
      .ok ({ c with toRequest := (Bjoern.runCallback base c.toRequest parser callback).1 },
        (Bjoern.runCallback base c.toRequest parser callback).2) := by
  have found : (callback.usesHeaders c.toRequest && c.headers.isNull) = false := by
    rcases begun with ⟨d, headers⟩ | rfl
    · simp [headers, Headers.isNull]
    · rfl
  unfold Conn.runCallback
  dsimp only
  rw [h.callbackEnd, found]
  rfl

theorem InOrder.rest {base : Environ} {r : Request} {x : HttpParser × Callback} {rest : List (HttpParser × Callback)}
    (h : InOrder r (x :: rest)) : InOrder (Bjoern.runCallback base r x.1 x.2).1 rest := by
  intro front y back split other
  have before := h (x :: front) y back (by rw [split]; rfl) other
  rw [List.map_cons, List.mem_cons, ← or_assoc] at before
  exact before.imp_left fun begun => runCallback_begun base x.1 (begun.imp_right Eq.symm)

/-- Control comes back from the parser when the callbacks come in order. -/
theorem Grounded.parses {base : Environ} {c : Conn} {data : ReadData} (h : Grounded c)
    (ordered : InOrder c.toRequest data.fired) : Parses base c data := by
  have called : ∀ {fired : List (HttpParser × Callback)} {c : Conn}, Grounded c → InOrder c.toRequest fired →
      ∃ result, c.runCallbacks base fired = .ok result := by
    intro fired
    induction fired with
    | nil =>
      intro c _ _
      exact ⟨_, rfl⟩
    | cons x rest ih =>
      intro c grounded ordered
      have begun : (∃ d, c.headers = .environ d) ∨ x.2 = .messageBegin := by
        by_cases begins : x.2 = .messageBegin
        · exact Or.inr begins
        · exact Or.inl ((ordered [] x rest rfl begins).resolve_right (by simp))
      obtain ⟨parser, callback⟩ := x
      have first := grounded.callback_returns base parser begun
      rw [Conn.runCallbacks, first, ok_bind]
      dsimp only
      split
      next => exact ih ⟨grounded.idle, runCallback_unanswered base parser callback grounded.unanswered⟩ ordered.rest
      next => exact ⟨_, rfl⟩
  obtain ⟨⟨mid, completed⟩, run⟩ := called h ordered
  have parsed : ∃ p, c.requestParse base data = .ok p := by
    rw [Conn.requestParse, run, ok_bind]
    dsimp only
    split
    next => exact ⟨_, rfl⟩
    next => exact ⟨_, rfl⟩
  obtain ⟨p, parsed⟩ := parsed
  rw [Parses, Conn.parsed_eq parsed, parsed]

/-- The application is called with a dictionary then. -/
theorem InOrder.dictionary {base : Environ} {c : Conn} {data : ReadData} (ordered : InOrder c.toRequest data.fired)
    (parses : Parses base c data) (completes : ∃ x ∈ data.fired, x.2 = .messageComplete)
    (noError : (c.parsed base data).state.errorCode = none) : ∃ d, (c.parsed base data).headers = .environ d := by
  obtain ⟨x, member, complete⟩ := completes
  obtain ⟨front, back, split⟩ := List.append_of_mem member
  have begun := ordered front x back split (by simp [complete])
  obtain ⟨completed, _, eq⟩ := parses.completed noError
  have all : runCallbacks base c.toRequest data.fired = ((runCallbacks base c.toRequest data.fired).1, true) :=
    Prod.ext rfl completed
  have headers := runCallbacks_begun all (begun.imp_right fun earlier => by
    rw [split, List.map_append]
    exact List.mem_append_left _ earlier)
  rw [eq]
  exact headers

theorem respond_exits {c : Conn} {app : PyCall PyValue} {d : Environ} (found : c.headers = .environ d)
    (conforms : Conforms app.startResponses) (safe : ∀ v, app.result = .ok v → SafeItems v) :
    OnlyExits (respond c app) := by
  unfold respond
  rw [found, if_neg (by simp [Headers.isNull])]
  refine .bind (wsgiCallApplication_exits _ conforms safe) fun parts _ => ?_
  dsimp only
  split
  next => exact .ok _
  next => exact .bind (pyErrPrint_exits _) fun _ _ => .ok _

theorem evIoOnRead_exits {base : Environ} {c : Conn} {e : ReadEvent} (grounded : Grounded c)
    (unfinished : c.state.parseFinished = false) (careful : Careful c (.read e)) :
    OnlyExits (evIoOnRead base c e) := by
  obtain ⟨_, ordered, conforms, safe⟩ := careful
  refine .bind ?_ fun parts _ => ?_
  · unfold readRequest
    split
    next => exact .ok _
    next =>
      split
      next => exact .ok _
      next => exact .ok _
    next data bytes =>
      have ordered := ordered data bytes
      have parses : Parses base c data := grounded.parses ordered
      rw [parseBytes, parses, ok_bind]
      split
      next => exact .ok _
      next noError =>
        split
        next finished =>
          have completes : ∃ x ∈ data.fired, x.2 = .messageComplete := by
            rw [(grounded.parsed parses).1] at finished
            exact requestParse_completes unfinished finished
          obtain ⟨d, found⟩ := ordered.dictionary parses completes noError
          exact .bind (respond_exits found conforms safe) fun _ _ => .ok _
        next =>
          split
          next => exact .ok _
          next => exact .ok _
  · obtain ⟨mid, state⟩ := parts
    cases state with
    | aborted => exact .bind (closeConnection_exits _) fun _ _ => .ok _
    | notYetDone => exact .ok _
    | done => exact .ok _
    | expectContinue => exact .ok _

theorem finishWrite_exits (c : Conn) (state : RwState) : OnlyExits (finishWrite c state) := by
  cases state with
  | notYetDone => exact .ok _
  | expectContinue => exact .ok _
  | aborted => exact .bind (closeConnection_exits _) fun _ _ => .ok _
  | done =>
    unfold finishWrite
    dsimp only
    split
    next => exact .bind (requestClean_exits _) fun _ _ => .ok _
    next => exact closeConnection_exits _

theorem doSendChunk_owned {c : Conn} {data : Bytes} (owned : c.currentChunk = .owned data) (w : WriteEvent) :
    ∃ c' left, doSendChunk c w = .ok (c', left) := by
  unfold doSendChunk
  simp only [owned]
  split
  next => exact ⟨_, _, rfl⟩
  next =>
    split
    next => exact ⟨_, _, rfl⟩
    next => exact ⟨_, _, rfl⟩

theorem doSendChunk_steps {c c' : Conn} {w : WriteEvent} {left : Bool} (safe : SafeSteps (c.iterator.getD []))
    (h : doSendChunk c w = .ok (c', left)) : SafeSteps (c'.iterator.getD []) := by
  unfold doSendChunk at h
  split at h
  next =>
    split at h
    next =>
      unfold handleNonzeroErrno at h
      split at h
      next =>
        cases h
        exact safe
      next =>
        cases h
        simp [SafeSteps]
    next =>
      dsimp only at h
      split at h
      next =>
        cases h
        exact safe
      next =>
        cases h
        exact safe
  next => cases h

theorem doSendfile_steps {c : Conn} (safe : SafeSteps (c.iterator.getD [])) (content : Bytes) (w : WriteEvent) :
    SafeSteps ((doSendfile c content w).1.iterator.getD []) := by
  unfold doSendfile handleNonzeroErrno
  split
  next =>
    split
    next => exact safe
    next => simp [SafeSteps]
  next =>
    dsimp only
    split
    next => exact safe
    next => exact safe

theorem sendTerminatorChunk_steps {c : Conn} (safe : SafeSteps (c.iterator.getD [])) :
    SafeSteps ((sendTerminatorChunk c).1.iterator.getD []) := by
  unfold sendTerminatorChunk
  split
  next => exact safe
  next => exact safe

theorem onWriteChunk_exits {c : Conn} {w : WriteEvent} {data : Bytes} (owned : c.currentChunk = .owned data)
    (safe : SafeSteps (c.iterator.getD [])) : OnlyExits (onWriteChunk c w) := by
  obtain ⟨mid, left, sent⟩ := doSendChunk_owned owned w
  have safe' := doSendChunk_steps safe sent
  unfold onWriteChunk
  rw [sent, ok_bind]
  dsimp only
  split
  next => exact .ok _
  next =>
    split
    next =>
      refine .bind (nextChunkLoop_exits _ safe') fun parts given => ?_
      obtain ⟨last, chunk⟩ := parts
      have next := (nextChunkLoop_safe safe' given).2
      dsimp only
      split
      next chunk =>
        rw [wrapHttpChunkCruftAround_small (next chunk rfl)]
        split
        next => exact .ok _
        next => exact .ok _
      next =>
        split
        next => exact .bind (pyErrPrint_exits _) fun _ _ => .ok _
        next => exact .ok _
    next => exact .ok _

theorem onWriteChunk_steps {c c' : Conn} {w : WriteEvent} {state : RwState} (safe : SafeSteps (c.iterator.getD []))
    (h : onWriteChunk c w = .ok (c', state)) : SafeSteps (c'.iterator.getD []) := by
  obtain ⟨⟨mid, left⟩, sent, h⟩ := bind_ok h
  have safe' := doSendChunk_steps safe sent
  dsimp only at h
  split at h
  next =>
    cases h
    exact safe'
  next =>
    split at h
    next =>
      obtain ⟨⟨last, chunk⟩, given, h⟩ := bind_ok h
      have next := (nextChunkLoop_safe safe' given).1
      dsimp only at h
      split at h
      next =>
        split at h
        next =>
          split at h
          next =>
            cases h
            exact next
          next => cases h
        next =>
          cases h
          exact next
      next =>
        split at h
        next =>
          obtain ⟨printed, hp, h⟩ := bind_ok h
          obtain ⟨rfl, _⟩ := pyErrPrint_ok hp
          cases h
          exact next
        next =>
          have none : SafeSteps (({ last with iterator := none } : Conn).iterator.getD []) := by simp [SafeSteps]
          have stopped := sendTerminatorChunk_steps none
          rw [Except.ok.inj h] at stopped
          exact stopped
    next =>
      have concluded := sendTerminatorChunk_steps safe'
      rw [Except.ok.inj h] at concluded
      exact concluded

theorem onWriteSendfile_exits {c : Conn} {content : Bytes} {w : WriteEvent}
    (chunk : (∃ data, c.currentChunk = .owned data) ∨ c.currentChunk = .null) :
    OnlyExits (onWriteSendfile c content w) := by
  unfold onWriteSendfile
  split
  next started =>
    obtain ⟨data, owned⟩ := chunk.resolve_right started
    obtain ⟨mid, left, sent⟩ := doSendChunk_owned owned w
    rw [sent, ok_bind]
    dsimp only
    split
    next => exact .ok _
    next =>
      split
      next => exact .ok _
      next => exact .ok _
  next => exact .ok _

theorem Usable.write_exits {c : Conn} {w : WriteEvent} (h : Usable c) (writing : c.evWatcher = .writing) :
    OnlyExits (evIoOnWrite c w) := by
  refine .bind ?_ fun _ _ => finishWrite_exits _ _
  cases route : c.routesSendfile with
  | true =>
    obtain ⟨wrapper, _, _, eq⟩ := writeResponse_sendfile route
    rw [eq]
    exact onWriteSendfile_exits ((h.chunk writing).imp id And.right)
  | false =>
    obtain ⟨data, owned⟩ := (h.chunk writing).resolve_right fun file => by cases route.symm.trans file.1
    rw [writeResponse_chunk route]
    exact onWriteChunk_exits owned h.steps

theorem finishWrite_steps {c c' : Conn} {state : RwState} (safe : SafeSteps (c.iterator.getD []))
    (h : finishWrite c state = .ok c') : SafeSteps (c'.iterator.getD []) := by
  cases state with
  | notYetDone =>
    cases h
    exact safe
  | expectContinue =>
    cases h
    exact safe
  | aborted =>
    obtain ⟨last, closing, h⟩ := bind_ok h
    obtain ⟨_, _, rfl⟩ := requestClean_ok closing
    cases h
    exact safe
  | done =>
    unfold finishWrite at h
    dsimp only at h
    split at h
    next =>
      obtain ⟨last, cleaned, h⟩ := bind_ok h
      cases h
      simp [SafeSteps, startReading, requestReset]
    next =>
      obtain ⟨_, _, rfl⟩ := requestClean_ok h
      exact safe

/-- A file response goes on with a chunk, or with the file. -/
theorem onWriteSendfile_usable {c c' : Conn} {content : Bytes} {w : WriteEvent} {state : RwState}
    (careful : Fatal w → c.currentChunk = .null) (safe : SafeSteps (c.iterator.getD []))
    (h : onWriteSendfile c content w = .ok (c', state)) :
    ((∃ data, c'.currentChunk = .owned data) ∨ c'.currentChunk = .null) ∧ SafeSteps (c'.iterator.getD []) := by
  unfold onWriteSendfile at h
  split at h
  next started =>
    have calm : ¬ Fatal w := fun fatal => started (careful fatal)
    obtain ⟨⟨mid, left⟩, sent, h⟩ := bind_ok h
    have safe' := doSendChunk_steps safe sent
    cases left with
    | true =>
      cases h
      exact ⟨Or.inl (doSendChunk_left sent), safe'⟩
    | false =>
      have null := doSendChunk_all calm sent
      dsimp only at h
      rw [if_neg (by simp)] at h
      split at h
      next =>
        cases h
        exact ⟨Or.inr null, safe'⟩
      next =>
        cases h
        exact ⟨Or.inr null, safe'⟩
  next concluded =>
    have null : c.currentChunk = .null := by simpa using concluded
    have safe' := doSendfile_steps safe content w
    have null' := doSendfile_chunk null content w
    cases h
    exact ⟨Or.inr null', safe'⟩

theorem Usable.write {c c' : Conn} {w : WriteEvent} (h : Usable c) (careful : Careful c (.write w))
    (step : evIoOnWrite c w = .ok c') : Usable c' := by
  have ready := evIoOnWrite_chunkReady step
  obtain ⟨⟨mid, state⟩, hm, step⟩ := bind_ok step
  have frame := (writeResponse_frame hm).1
  cases route : c.routesSendfile with
  | false =>
    rw [writeResponse_chunk route] at hm
    refine ⟨fun writing => Or.inl (ready writing ?_), finishWrite_steps (onWriteChunk_steps h.steps hm) step⟩
    obtain ⟨_, rfl⟩ := finishWrite_writing step writing
    exact frame.routes.trans route
  | true =>
    obtain ⟨wrapper, _, _, eq⟩ := writeResponse_sendfile route
    rw [eq] at hm
    obtain ⟨chunk, safe⟩ := onWriteSendfile_usable (fun fatal => careful fatal route) h.steps hm
    refine ⟨fun writing => ?_, finishWrite_steps safe step⟩
    obtain ⟨_, rfl⟩ := finishWrite_writing step writing
    exact chunk.imp id fun null => ⟨frame.routes.trans route, null⟩

theorem Usable.read {base : Environ} {c c' : Conn} {e : ReadEvent} (h : Usable c) (reading : c.evWatcher = .reading)
    (careful : Careful c (.read e)) (step : evIoOnRead base c e = .ok c') : Usable c' := by
  have parsed : ∀ data, SafeSteps ((c.parsed base data).iterator.getD []) := by
    intro data
    have same := (c.parsed_frame base data).request.iterator
    have safe := h.steps
    rw [← same] at safe
    exact safe
  have still : ∀ {d : Conn}, d.evWatcher = .reading → ¬ d.evWatcher = .writing := fun reading writing => by
    cases reading.symm.trans writing
  cases evIoOnRead_outcome step with
  | again => exact ⟨fun writing => absurd writing (still reading), h.steps⟩
  | closed _ closing =>
    obtain ⟨_, _, rfl⟩ := requestClean_ok closing
    exact ⟨fun writing => (by cases writing), h.steps⟩
  | @waiting data =>
    have watcher := (c.parsed_frame base data).request.evWatcher.trans reading
    exact ⟨fun writing => absurd writing (still watcher), parsed data⟩
  | interim => exact ⟨fun _ => Or.inl ⟨_, rfl⟩, parsed _⟩
  | rejected => exact ⟨fun _ => Or.inl ⟨_, rfl⟩, parsed _⟩
  | @answered data _ _ _ _ call =>
    have before : SafeSteps (((c.parsed base data).count .reqSuccessRead).iterator.getD []) := parsed data
    have after := wsgiCallApplication_steps careful.2.2.2 before call
    obtain ⟨_, _, outcome⟩ := wsgiCallApplication_outcome call
    cases outcome with
    | answered => exact ⟨fun _ => Or.inl ⟨_, rfl⟩, after⟩
  | failed => exact ⟨fun _ => Or.inl ⟨_, rfl⟩, by simp [SafeSteps, Conn.failedResponse, startWriting, Conn.count]⟩

/-- An application that calls `sys.exit`. -/
def quitting : PyCall PyValue := ⟨[], .error .systemExit⟩

theorem InOrder.of_begin (r : Request) (parser : HttpParser) (rest : List (HttpParser × Callback)) :
    InOrder r ((parser, .messageBegin) :: rest) := by
  intro front x back split other
  cases front with
  | nil =>
    obtain ⟨rfl, _⟩ := List.cons.inj split
    exact absurd rfl other
  | cons y front =>
    obtain ⟨rfl, _⟩ := List.cons.inj split
    exact Or.inr List.mem_cons_self

end Bjoern
