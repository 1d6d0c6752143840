import Bjoern.CloseOnce
import Bjoern.FatalErrors

namespace Bjoern

open Runs

/-- The same object with another `close()`. -/
def PyValue.withClose (m : CloseMethod) : PyValue → PyValue
  | .bytes data => .bytes data
  | .list items iter _ => .list items iter m
  | .fileWrapper wrapper => .fileWrapper { wrapper with fileClose := m }
  | .other iter _ => .other iter m

def PyCall.withClose (m : CloseMethod) (app : PyCall PyValue) : PyCall PyValue :=
  { app with result := app.result.map (PyValue.withClose m) }

def Event.withClose (m : CloseMethod) : Event → Event
  | .read e => .read { e with app := e.app.withClose m }
  | .write w => .write w

def Request.withClose (m : CloseMethod) (r : Request) : Request :=
  { r with iterable := r.iterable.map (PyValue.withClose m) }

def Conn.withClose (m : CloseMethod) (c : Conn) : Conn := { c with toRequest := c.toRequest.withClose m }

/-- `close()` is there and does not raise `SystemExit`. -/
def CloseMethod.Calm (m : CloseMethod) : Prop := m = .returns ∨ m = .raises .other

/-- `Request_clean` makes the same calls with `m` as `close()`, and comes back if it did before. -/
structure SameClose (m : CloseMethod) (iterable : Option PyValue) : Prop where
  calls : closeCalls (iterable.map (PyValue.withClose m)) = closeCalls iterable
  exits : CloseExits (iterable.map (PyValue.withClose m)) → CloseExits iterable

theorem SameClose.of_calm {m : CloseMethod} {v : PyValue} (calm : m.Calm) (calm' : v.closeMethod.Calm) :
    SameClose m (some v) := by
  have close : (v.withClose m).closeMethod = m := by
    cases v with
    | bytes => rcases calm' with h | h <;> cases h
    | list => rfl
    | fileWrapper => rcases calm with rfl | rfl <;> rfl
    | other => rfl
  constructor
  · rcases calm with rfl | rfl <;> rcases calm' with h | h <;>
      simp [closeCalls, close, h, CloseMethod.callable]
  · intro exits
    rcases calm with rfl | rfl <;> simp [CloseExits, close] at exits

variable {m : CloseMethod}

@[simp] theorem PyValue.withClose_getIter (v : PyValue) : (v.withClose m).getIter = v.getIter := by cases v <;> rfl

theorem hasDescriptor_withClose (v : PyValue) : (v.withClose m).hasDescriptor = v.hasDescriptor := by
  cases v <;> rfl

theorem retvalBranch_withClose (r : Request) (v : PyValue) :
    retvalBranch (r.withClose m) (v.withClose m) = retvalBranch r v := by
  have string : (v.withClose m).bytestring = v.bytestring := by
    cases v with
    | list items => rcases items with _ | ⟨_ | _, _ | _⟩ <;> rfl
    | _ => rfl
  rw [retvalBranch_eq, retvalBranch_eq, string, hasDescriptor_withClose]
  rfl

theorem runStartResponses_withClose {r r' : Request} {calls : List (List PyArg)}
    (h : runStartResponses r calls = .ok r') : runStartResponses (r.withClose m) calls = .ok (r'.withClose m) := by
  have like : r.withClose m = (r.withClose m).answeredLike r := rfl
  have done : (r.withClose m).state.wsgiCallDone = r.state.wsgiCallDone := rfl
  obtain ⟨_, _, _, _, frame⟩ := runStartResponses_frame h
  rw [like, runStartResponses_answeredLike done, h, frame]
  rfl

theorem callStartResponses_withClose {c c' : Conn} {calls : List (List PyArg)}
    (h : callStartResponses c calls = .ok c') : callStartResponses (c.withClose m) calls = .ok (c'.withClose m) := by
  unfold callStartResponses at h
  split at h
  next r hr =>
    cases h
    have calm : runStartResponses (c.withClose m).toRequest calls = .ok (r.withClose m) :=
      runStartResponses_withClose hr
    simp only [callStartResponses, calm]
    rfl
  next => cases h

theorem nextChunkLoop_withClose {c c' : Conn} {steps : PyIter} {chunk : Option Bytes}
    (h : nextChunkLoop c steps = .ok (c', chunk)) :
    nextChunkLoop (c.withClose m) steps = .ok (c'.withClose m, chunk) := by
  induction steps generalizing c with
  | nil =>
    cases h
    rfl
  | cons step rest ih =>
    obtain ⟨mid, hm, h⟩ := bind_ok h
    have entered : callStartResponses
        { c.withClose m with iterator := some rest, iterLog := (c.withClose m).iterLog ++ [.next] }
        step.startResponses = .ok (mid.withClose m) := callStartResponses_withClose hm
    simp only [nextChunkLoop, entered, ok_bind]
    split at h
    next =>
      cases h
      rfl
    next =>
      cases h
      rfl
    next =>
      cases h
      rfl
    next =>
      split at h
      next empty =>
        rw [if_pos empty]
        exact ih h
      next ne =>
        rw [if_neg ne]
        cases h
        rfl

theorem takeRetval_withClose {c c' : Conn} {v : PyValue} {chunk : Option (Option Bytes)}
    (h : takeRetval c v = .ok (c', chunk)) :
    takeRetval (c.withClose m) (v.withClose m) = .ok (c'.withClose m, chunk) := by
  have branch : retvalBranch (c.withClose m).toRequest (v.withClose m) = retvalBranch c.toRequest v :=
    retvalBranch_withClose _ _
  unfold takeRetval at h ⊢
  rw [branch]
  split at h
  next =>
    cases h
    rfl
  next =>
    cases h
    rfl
  next =>
    obtain ⟨mid, hm, h⟩ := bind_ok h
    have entered : callStartResponses { c.withClose m with iterable := some (v.withClose m) } v.getIter.startResponses =
        .ok (mid.withClose m) := callStartResponses_withClose hm
    simp only [PyValue.withClose_getIter, entered, ok_bind]
    split at h
    next =>
      cases h
      rfl
    next steps _ =>
      obtain ⟨⟨last, first⟩, hn, h⟩ := bind_ok h
      have pulled : wsgiIterableGetNextChunk { mid.withClose m with iterator := some steps } =
          .ok (last.withClose m, first) :=
        nextChunkLoop_withClose hn
      simp only [pulled, ok_bind]
      dsimp only at h
      split at h
      next failed =>
        cases h
        exact if_pos failed
      next fine =>
        cases h
        exact if_neg fine

theorem chooseFraming_withClose (r : Request) : chooseFraming (r.withClose m) = (chooseFraming r).withClose m := by
  have special : specialCaseStatus (r.withClose m) = ((specialCaseStatus r).withClose m) := by
    by_cases h : (r.status.getD []).take 3 = ascii "204" ∨ (r.status.getD []).take 3 = ascii "304" <;>
      simp [specialCaseStatus, Request.withClose, h]
  have keep : ∀ r : Request, decideKeepAlive (r.withClose m) = ((decideKeepAlive r).withClose m) := by
    intro r
    by_cases version : r.parser.parser.httpMajor > 0 ∧ r.parser.parser.httpMinor > 0 <;>
      cases wish : r.parser.parser.keepAlive <;> cases unknown : r.state.responseLengthUnknown <;>
        simp [decideKeepAlive, Request.withClose, wish, unknown, version]
  rw [chooseFraming, special, keep, chooseFraming]

theorem installResponse_withClose {c c' : Conn} {first : Option Bytes} (h : installResponse c first = .ok c') :
    installResponse (c.withClose m) first = .ok (c'.withClose m) := by
  have framing : chooseFraming (c.withClose m).toRequest = ((chooseFraming c.toRequest).withClose m) :=
    chooseFraming_withClose _
  unfold installResponse at h ⊢
  rw [framing]
  cases first with
  | none =>
    cases h
    rfl
  | some chunk =>
    dsimp only at h ⊢
    split at h
    next chunked =>
      rw [if_pos (show ((chooseFraming c.toRequest).withClose m).state.chunkedResponse = true from chunked)]
      split at h
      next =>
        cases h
        rfl
      next => cases h
    next plain =>
      rw [if_neg (show ¬ ((chooseFraming c.toRequest).withClose m).state.chunkedResponse = true from plain)]
      cases h
      rfl

theorem wsgiCallApplication_withClose {c c' : Conn} {app : PyCall PyValue} {answered : Bool}
    (h : wsgiCallApplication c app = .ok (c', answered)) :
    wsgiCallApplication (c.withClose m) (app.withClose m) = .ok (c'.withClose m, answered) := by
  obtain ⟨mid, hm, h⟩ := bind_ok h
  have entered : callStartResponses
      { c.withClose m with headers := .null, environs := (c.withClose m).environs ++ [(c.withClose m).headers] }
      (app.withClose m).startResponses = .ok (mid.withClose m) := callStartResponses_withClose hm
  unfold wsgiCallApplication
  rw [entered, ok_bind]
  split at h
  next exc raised =>
    have raised' : (app.withClose m).result = .error exc := by simp [PyCall.withClose, raised, Except.map]
    rw [raised']
    cases h
    rfl
  next v returned =>
    have returned' : (app.withClose m).result = .ok (v.withClose m) := by simp [PyCall.withClose, returned, Except.map]
    rw [returned']
    obtain ⟨⟨last, first⟩, ht, h⟩ := bind_ok h
    simp only [takeRetval_withClose ht, ok_bind]
    dsimp only at h
    split at h
    next =>
      cases h
      rfl
    next first =>
      split at h
      next missing =>
        cases h
        exact if_pos missing
      next set =>
        obtain ⟨final, hi, h⟩ := bind_ok h
        cases h
        exact (if_neg set).trans (by rw [installResponse_withClose hi]; rfl)

theorem pyErrPrint_withClose {c c' : Conn} (h : pyErrPrint c = .ok c') :
    pyErrPrint (c.withClose m) = .ok (c'.withClose m) := by
  obtain ⟨rfl, calm⟩ := pyErrPrint_ok h
  exact if_neg calm

theorem respond_withClose {c c' : Conn} {app : PyCall PyValue} (h : respond c app = .ok c') :
    respond (c.withClose m) (app.withClose m) = .ok (c'.withClose m) := by
  unfold respond at h ⊢
  have headers : (c.withClose m).headers = c.headers := rfl
  rw [headers]
  split at h
  next => cases h
  next set =>
  rw [if_neg set]
  obtain ⟨⟨called, answered⟩, hw, h⟩ := bind_ok h
  have calm : wsgiCallApplication ((c.withClose m).count .reqSuccessRead) (app.withClose m) =
      .ok ((called.withClose m), answered) :=
    wsgiCallApplication_withClose hw
  rw [calm, ok_bind]
  dsimp only at h ⊢
  split at h
  next yes =>
    cases h
    exact if_pos yes
  next no =>
    obtain ⟨printed, hp, h⟩ := bind_ok h
    cases h
    rw [if_neg no, pyErrPrint_withClose hp]
    rfl

/-- The callbacks do not look at the iterable, and leave it where it is. -/
theorem runCallback_withClose (base : Environ) (r : Request) (parser : HttpParser) (callback : Callback) :
    runCallback base (r.withClose m) parser callback =
      ((runCallback base r parser callback).1.withClose m, (runCallback base r parser callback).2) := by
  have besides := runCallback_besides base r parser callback r.parser.parser r.evWatcher r.currentChunk r.currentChunkP
  have same : (runCallback base r parser callback).1 = (runCallback base r parser callback).1.besides
      r.parser.parser r.evWatcher r.currentChunk r.currentChunkP r.iterable := congrArg Prod.fst (besides r.iterable)
  refine (besides (r.iterable.map (PyValue.withClose m))).trans (Prod.ext ?_ rfl)
  calc (runCallback base r parser callback).1.besides r.parser.parser r.evWatcher r.currentChunk r.currentChunkP
        (r.iterable.map (PyValue.withClose m))
      = ((runCallback base r parser callback).1.besides r.parser.parser r.evWatcher r.currentChunk r.currentChunkP
        r.iterable).withClose m := rfl
    _ = (runCallback base r parser callback).1.withClose m := by rw [← same]

theorem runCallbacks_withClose (base : Environ) (r : Request) (fired : List (HttpParser × Callback)) :
    runCallbacks base (r.withClose m) fired = ((runCallbacks base r fired).1.withClose m,
      (runCallbacks base r fired).2) := by
  induction fired generalizing r with
  | nil => rfl
  | cons head rest ih =>
    simp only [runCallbacks, runCallback_withClose]
    split
    next r' h =>
      obtain ⟨rfl, ended⟩ := Prod.mk.inj h
      have first : runCallback base r head.1 head.2 = ((runCallback base r head.1 head.2).1, true) :=
        Prod.ext rfl ended
      rw [first]
      exact ih _
    next r' h =>
      obtain ⟨rfl, ended⟩ := Prod.mk.inj h
      have first : runCallback base r head.1 head.2 = ((runCallback base r head.1 head.2).1, false) :=
        Prod.ext rfl ended
      rw [first]

theorem usesHeaders_withClose (r : Request) (callback : Callback) :
    callback.usesHeaders (r.withClose m) = callback.usesHeaders r := by
  cases callback with
  | path piece =>
    simp only [Callback.usesHeaders, onPath_eq]
    split <;> rfl
  | _ => rfl

theorem Conn.callbackEnd_withClose (c : Conn) (callback : Callback) (completed : Bool) :
    (c.withClose m).callbackEnd callback completed = c.callbackEnd callback completed := by
  have headers : (c.withClose m).headers = c.headers := rfl
  have uses : callback.usesHeaders (c.withClose m).toRequest = callback.usesHeaders c.toRequest :=
    usesHeaders_withClose c.toRequest callback
  unfold Conn.callbackEnd
  rw [uses, headers]
  rfl

theorem Conn.runCallback_withClose {base : Environ} {c c' : Conn} {parser : HttpParser} {callback : Callback}
    {completed : Bool} (h : c.runCallback base parser callback = .ok (c', completed)) :
    (c.withClose m).runCallback base parser callback = .ok (c'.withClose m, completed) := by
  have result : Bjoern.runCallback base (c.withClose m).toRequest parser callback = _ :=
    Bjoern.runCallback_withClose base c.toRequest parser callback
  unfold Conn.runCallback at h ⊢
  rw [result]
  dsimp only at h ⊢
  rw [c.callbackEnd_withClose]
  split at h <;> cases h <;> rfl

theorem Conn.runCallbacks_withClose {base : Environ} {c c' : Conn} {fired : List (HttpParser × Callback)}
    {completed : Bool} (h : c.runCallbacks base fired = .ok (c', completed)) :
    (c.withClose m).runCallbacks base fired = .ok (c'.withClose m, completed) := by
  induction fired generalizing c with
  | nil =>
    cases h
    rfl
  | cons head rest ih =>
    obtain ⟨⟨mid, returned⟩, first, h⟩ := bind_ok h
    have next := Conn.runCallback_withClose (m := m) first
    cases returned with
    | true =>
      have later : (mid.withClose m).runCallbacks base rest = _ := ih h
      simp only [Conn.runCallbacks, next, ok_bind, if_true, later]
    | false =>
      cases h
      simp only [Conn.runCallbacks, next, ok_bind, Bool.false_eq_true, if_false, pure_ok]

theorem Conn.requestParse_withClose {base : Environ} {c c' : Conn} {data : ReadData}
    (h : c.requestParse base data = .ok c') : (c.withClose m).requestParse base data = .ok (c'.withClose m) := by
  obtain ⟨⟨mid, completed⟩, called, h⟩ := bind_ok h
  have next := Conn.runCallbacks_withClose (m := m) called
  rw [Conn.requestParse, next, ok_bind]
  dsimp only at h ⊢
  split at h
  next all =>
    cases h
    rw [if_pos all]
    rfl
  next some =>
    cases h
    rw [if_neg some]
    rfl

theorem requestClean_withClose {c c' : Conn} (idle : c.pyErr = none) (same : SameClose m c.iterable)
    (h : requestClean c = .ok c') : requestClean (c.withClose m) = .ok (c'.withClose m) := by
  rcases requestClean_cases idle with ⟨calm, eq⟩ | ⟨_, eq⟩
  · cases eq.symm.trans h
    rcases requestClean_cases (c := c.withClose m) idle with ⟨_, eq'⟩ | ⟨exits, _⟩
    · have calls : closeCalls (c.withClose m).iterable = closeCalls c.iterable := same.calls
      rw [eq', calls]
      rfl
    · exact absurd (same.exits exits) calm
  · cases eq.symm.trans h

theorem closeConnection_withClose {c c' : Conn} (idle : c.pyErr = none) (same : SameClose m c.iterable)
    (h : closeConnection c = .ok c') : closeConnection (c.withClose m) = .ok (c'.withClose m) :=
  requestClean_withClose (c := { c with evWatcher := .closed }) idle same h

theorem readRequest_withClose {base : Environ} {c c' : Conn} {e : ReadEvent} {state : RwState}
    (h : readRequest base c e = .ok (c', state)) :
    readRequest base (c.withClose m) { e with app := e.app.withClose m } = .ok (c'.withClose m, state) := by
  unfold readRequest at h ⊢
  dsimp only
  split at h
  next =>
    cases h
    rfl
  next =>
    split at h
    next again =>
      cases h
      exact if_pos again
    next fatal =>
      cases h
      exact if_neg fatal
  next data _ =>
    obtain ⟨p, parses, h⟩ := bind_ok h
    have parses' := Conn.requestParse_withClose (m := m) parses
    rw [parseBytes, parses', ok_bind]
    split at h
    next code failed =>
      cases h
      have failed' : (p.withClose m).state.errorCode = some code := failed
      rw [failed']
      rfl
    next fine =>
      have fine' : (p.withClose m).state.errorCode = none := fine
      rw [fine']
      dsimp only
      split at h
      next finished =>
        obtain ⟨last, hl, h⟩ := bind_ok h
        cases h
        refine (if_pos finished).trans ?_
        have calm : respond (p.withClose m) (e.app.withClose m) = .ok (c'.withClose m) := respond_withClose hl
        rw [calm]
        rfl
      next unfinished =>
        refine (if_neg unfinished).trans ?_
        split at h
        next expects =>
          cases h
          exact if_pos expects
        next clear =>
          cases h
          exact if_neg clear

theorem readRequest_aborted {base : Environ} {c c' : Conn} {e : ReadEvent}
    (h : readRequest base c e = .ok (c', .aborted)) : ∃ metric, c' = c.count metric := by
  unfold readRequest at h
  split at h
  next =>
    cases h
    exact ⟨_, rfl⟩
  next =>
    split at h
    next => cases h
    next =>
      cases h
      exact ⟨_, rfl⟩
  next =>
    obtain ⟨_, _, h⟩ := bind_ok h
    split at h
    next => cases h
    next =>
      split at h
      next =>
        obtain ⟨_, _, h⟩ := bind_ok h
        cases h
      next => split at h <;> cases h

theorem evIoOnRead_withClose {base : Environ} {c c' : Conn} {e : ReadEvent} (idle : c.pyErr = none)
    (same : SameClose m c.iterable) (h : evIoOnRead base c e = .ok c') :
    evIoOnRead base (c.withClose m) { e with app := e.app.withClose m } = .ok (c'.withClose m) := by
  obtain ⟨⟨mid, state⟩, hr, h⟩ := bind_ok h
  unfold evIoOnRead
  rw [readRequest_withClose hr, ok_bind]
  cases state with
  | notYetDone =>
    cases h
    rfl
  | done =>
    cases h
    rfl
  | expectContinue =>
    cases h
    rfl
  | aborted =>
    obtain ⟨last, hl, h⟩ := bind_ok h
    cases h
    obtain ⟨metric, rfl⟩ := readRequest_aborted hr
    simp only [finishRead, closeConnection_withClose (c := c.count metric) idle same hl]
    rfl

theorem handleNonzeroErrno_withClose (c : Conn) (e : Errno) :
    handleNonzeroErrno (c.withClose m) e = ((handleNonzeroErrno c e).1.withClose m, (handleNonzeroErrno c e).2) := by
  cases e <;> rfl

theorem doSendChunk_withClose {c c' : Conn} {w : WriteEvent} {left : Bool} (h : doSendChunk c w = .ok (c', left)) :
    doSendChunk (c.withClose m) w = .ok (c'.withClose m, left) := by
  unfold doSendChunk at h
  split at h
  next data chunk =>
    have chunk' : (c.withClose m).currentChunk = .owned data := chunk
    unfold doSendChunk
    rw [chunk']
    dsimp only
    split at h
    next e _ =>
      rw [handleNonzeroErrno_withClose, Except.ok.inj h]
    next =>
      dsimp only at h
      split at h
      next all =>
        cases h
        exact if_pos all
      next part =>
        cases h
        exact (if_neg part).trans (by simp [Conn.withClose, Request.withClose, chunk])
  next => cases h

theorem doSendfile_withClose (c : Conn) (content : Bytes) (w : WriteEvent) :
    doSendfile (c.withClose m) content w = ((doSendfile c content w).1.withClose m, (doSendfile c content w).2) := by
  have position : (c.withClose m).currentChunkP = c.currentChunkP := rfl
  unfold doSendfile
  split
  next e _ => exact handleNonzeroErrno_withClose c e
  next n _ =>
    rw [position]
    dsimp only
    split <;> rfl

theorem onWriteSendfile_withClose {c c' : Conn} {content : Bytes} {w : WriteEvent} {state : RwState}
    (h : onWriteSendfile c content w = .ok (c', state)) :
    onWriteSendfile (c.withClose m) content w = .ok (c'.withClose m, state) := by
  unfold onWriteSendfile at h ⊢
  split at h
  next headers =>
    obtain ⟨⟨mid, left⟩, hm, h⟩ := bind_ok h
    refine (if_pos headers).trans ?_
    rw [doSendChunk_withClose hm, ok_bind]
    dsimp only at h ⊢
    split at h
    next part =>
      cases h
      exact if_pos part
    next all =>
      refine (if_neg all).trans ?_
      split at h
      next failed =>
        cases h
        exact if_pos failed
      next fine =>
        cases h
        exact if_neg fine
  next body =>
    cases h
    refine (if_neg body).trans ?_
    rw [doSendfile_withClose]
    rfl

theorem sendTerminatorChunk_withClose (c : Conn) :
    sendTerminatorChunk (c.withClose m) = ((sendTerminatorChunk c).1.withClose m, (sendTerminatorChunk c).2) := by
  cases h : c.state.chunkedResponse <;> simp [sendTerminatorChunk, Conn.withClose, Request.withClose, h]

theorem onWriteChunk_withClose {c c' : Conn} {w : WriteEvent} {state : RwState}
    (h : onWriteChunk c w = .ok (c', state)) : onWriteChunk (c.withClose m) w = .ok (c'.withClose m, state) := by
  obtain ⟨⟨mid, left⟩, hm, h⟩ := bind_ok h
  unfold onWriteChunk
  rw [doSendChunk_withClose hm, ok_bind]
  dsimp only at h ⊢
  split at h
  next part =>
    cases h
    exact if_pos part
  next all =>
    refine (if_neg all).trans ?_
    split at h
    next more =>
      refine (if_pos more).trans ?_
      obtain ⟨⟨last, chunk⟩, hn, h⟩ := bind_ok h
      have pulled : wsgiIterableGetNextChunk (mid.withClose m) = .ok (last.withClose m, chunk) :=
        nextChunkLoop_withClose hn
      rw [pulled, ok_bind]
      dsimp only at h ⊢
      split at h
      next data =>
        split at h
        next chunked =>
          refine (if_pos chunked).trans ?_
          split at h
          next =>
            cases h
            rfl
          next => cases h
        next plain =>
          cases h
          exact if_neg plain
      next =>
        split at h
        next failed =>
          obtain ⟨printed, hp, h⟩ := bind_ok h
          cases h
          refine (if_pos failed).trans ?_
          rw [pyErrPrint_withClose hp]
          rfl
        next fine =>
          refine (if_neg fine).trans ?_
          exact congrArg Except.ok ((sendTerminatorChunk_withClose _).trans (by rw [Except.ok.inj h]))
    next concluded =>
      refine (if_neg concluded).trans ?_
      exact congrArg Except.ok ((sendTerminatorChunk_withClose _).trans (by rw [Except.ok.inj h]))

theorem routesSendfile_withClose (c : Conn) : (c.withClose m).routesSendfile = c.routesSendfile := by
  have same : (c.withClose m).iterable = c.iterable.map (PyValue.withClose m) := rfl
  rw [Conn.routesSendfile, Conn.routesSendfile, same]
  cases c.iterable with
  | none => rfl
  | some v => exact hasDescriptor_withClose v

theorem writeResponse_withClose {c c' : Conn} {w : WriteEvent} {state : RwState}
    (h : writeResponse c w = .ok (c', state)) : writeResponse (c.withClose m) w = .ok (c'.withClose m, state) := by
  cases route : c.routesSendfile with
  | false =>
    rw [writeResponse_chunk route] at h
    exact (writeResponse_chunk ((routesSendfile_withClose c).trans route) w).trans (onWriteChunk_withClose h)
  | true =>
    obtain ⟨wrapper, iterable, descriptor, sends⟩ := writeResponse_sendfile route
    rw [sends w] at h
    have same : (c.withClose m).iterable = c.iterable.map (PyValue.withClose m) := rfl
    rw [iterable] at same
    unfold writeResponse
    rw [same]
    exact (if_pos descriptor).trans (onWriteSendfile_withClose h)

theorem finishWrite_withClose {c c' : Conn} {state : RwState} (idle : c.pyErr = none)
    (same : SameClose m c.iterable) (h : finishWrite c state = .ok c') :
    finishWrite (c.withClose m) state = .ok (c'.withClose m) := by
  cases state with
  | notYetDone =>
    cases h
    rfl
  | done =>
    unfold finishWrite at h ⊢
    dsimp only at h ⊢
    split at h
    next keep =>
      obtain ⟨last, hl, h⟩ := bind_ok h
      cases h
      have cleaned : requestClean (((c.withClose m).count .respDone).count .respDoneKeepalive) =
          .ok (last.withClose m) :=
        requestClean_withClose (c := (c.count .respDone).count .respDoneKeepalive) idle same hl
      refine (if_pos keep).trans ?_
      rw [cleaned]
      rfl
    next close =>
      exact (if_neg close).trans
        (closeConnection_withClose (c := (c.count .respDone).count .respConnClose) idle same h)
  | aborted =>
    obtain ⟨last, hl, h⟩ := bind_ok h
    cases h
    simp only [finishWrite, closeConnection_withClose idle same hl]
    rfl
  | expectContinue =>
    cases h
    rfl

theorem evIoOnWrite_withClose {c c' : Conn} {w : WriteEvent} (idle : c.pyErr = none) (same : SameClose m c.iterable)
    (h : evIoOnWrite c w = .ok c') : evIoOnWrite (c.withClose m) w = .ok (c'.withClose m) := by
  obtain ⟨⟨mid, state⟩, hm, h⟩ := bind_ok h
  have frame := (writeResponse_frame hm).1
  unfold evIoOnWrite
  rw [writeResponse_withClose hm, ok_bind]
  refine finishWrite_withClose (frame.idle idle) ?_ h
  rw [frame.iterable]
  exact same

theorem Step.withClose {base : Environ} {c c' : Conn} {event : Event} (step : Step base c event c')
    (idle : c.pyErr = none) (same : SameClose m c.iterable) :
    Step base (c.withClose m) (event.withClose m) (c'.withClose m) := by
  obtain ⟨enabled, step⟩ := step
  cases event with
  | read e => exact ⟨enabled, evIoOnRead_withClose idle same step⟩
  | write w => exact ⟨enabled, evIoOnWrite_withClose idle same step⟩

theorem Step.live {base : Environ} {c c' : Conn} {event : Event} (step : Step base c event c') :
    c.evWatcher ≠ .closed := by
  intro closed
  cases event with
  | read e => cases closed.symm.trans step.1
  | write w => cases closed.symm.trans step.1

theorem SameClose.none : SameClose m none := ⟨rfl, id⟩

theorem ClosePhase.sameClose {v : PyValue} {log : List IterEvent} {environs : List Headers} {c : Conn}
    (h : ClosePhase v log environs c) (live : c.evWatcher ≠ .closed) (calm : m.Calm) (calm' : v.closeMethod.Calm) :
    c.pyErr = none ∧ SameClose m c.iterable := by
  cases h with
  | reading _ untouched =>
    rw [untouched.iterable]
    exact ⟨untouched.idle, .none⟩
  | rejected _ iterable _ idle =>
    rw [iterable]
    exact ⟨idle, .none⟩
  | lost closed => exact absurd closed live
  | during _ iterable idle =>
    rw [iterable]
    exact ⟨idle, .of_calm calm calm'⟩
  | after concluded idle =>
    rcases concluded with closed | ready
    · exact absurd closed live
    · rw [ready.untouched.iterable]
      exact ⟨idle, .none⟩

/-- With a `close()` that does not raise `SystemExit`, a run goes the same way whether it raises or not. -/
theorem Run.withClose {base : Environ} {v : PyValue} {environs : List Headers} {log : List IterEvent} {c₀ c : Conn}
    {events : List Event} (generic : v.bytestring = none) (direct : v.hasDescriptor = false)
    (start : ClosePhase v log environs c₀) (calm : m.Calm) (calm' : v.closeMethod.Calm)
    (run : Run (Guarded (Serves base v environs) (Step base)) c₀ events c) :
    Run (Step base) (c₀.withClose m) (events.map (Event.withClose m)) (c.withClose m) := by
  obtain ⟨_, run', rfl, _⟩ := run.simulate
    (fun s event s' => Step base s (event.withClose m) s')
    (fun s s' => s' = s.withClose m ∧ ClosePhase v log environs s)
    (by
      rintro s _ event t ⟨rfl, phase⟩ step
      obtain ⟨idle, same⟩ := phase.sameClose step.2.live calm calm'
      exact ⟨_, step.2.withClose idle same, rfl, phase.step generic direct step⟩)
    ⟨rfl, start⟩
  exact run'.map

/-- Whatever happens to a request without a pending expectation, `close()` is called once: after the last
`__next__`, and not later than the connection is closed or goes back to reading. Raising makes no difference. -/
theorem iterable_closed_once {base : Environ} {v : PyValue} {c₀ c : Conn} {events : List Event}
    (generic : v.bytestring = none) (direct : v.hasDescriptor = false) (start : Ready c₀)
    (run : Run (Guarded (Serves base v c₀.environs) (Step base)) c₀ events c) :
    (c.environs = c₀.environs ∧ c.iterLog = c₀.iterLog ∨
      (∃ environ n, c.environs = c₀.environs ++ [environ] ∧
        c.iterLog = c₀.iterLog ++ List.replicate n .next ++
          if c.evWatcher = .writing then [] else closeCalls (some v)) ∧
      (c.evWatcher = .reading → Ready c)) ∧
    (v.closeMethod.Calm → ∀ m : CloseMethod, m.Calm →
      ∃ c', Run (Step base) c₀ (events.map (Event.withClose m)) c' ∧ c'.sent = c.sent ∧
        c'.evWatcher = c.evWatcher) := by
  have before : ClosePhase v c₀.iterLog c₀.environs c₀ :=
    .reading start.reading start.untouched start.flags.2.2.1 rfl rfl
  constructor
  · cases run.invariant _ (fun _ _ _ phase step => phase.step generic direct step) before with
    | reading _ _ _ same calls => exact Or.inl ⟨same, calls⟩
    | rejected _ _ _ _ _ same calls => exact Or.inl ⟨same, calls⟩
    | lost _ same calls => exact Or.inl ⟨same, calls⟩
    | @during n environ writing _ _ _ called calls =>
      refine Or.inr ⟨⟨environ, n, called, ?_⟩, fun reading => ?_⟩
      · rw [if_pos writing, calls, List.append_nil]
      · cases writing.symm.trans reading
    | @after n environ concluded _ called calls =>
      have silent : c.evWatcher ≠ .writing := by
        intro writing
        rcases concluded with closed | ready
        · cases closed.symm.trans writing
        · cases ready.reading.symm.trans writing
      refine Or.inr ⟨⟨environ, n, called, ?_⟩, fun reading => ?_⟩
      · rw [if_neg silent, calls]
      · rcases concluded with closed | ready
        · cases closed.symm.trans reading
        · exact ready
  · intro calm' m calm
    have same : c₀.withClose m = c₀ := by
      have nothing := start.untouched.iterable
      simp only [Conn.withClose, Request.withClose, nothing, Option.map_none]
      rw [← nothing]
    have run' := Run.withClose generic direct before calm calm' run
    rw [same] at run'
    exact ⟨_, run', rfl, rfl⟩

theorem getRequest_withoutExpect : WithoutExpect freshConn.toRequest getRequest.fired := by
  intro front parser value back split
  have member : (parser, .headerValue value) ∈ getRequest.fired := by simp [split]
  simp [getRequest] at member

/-- An iterable whose `close()` raises, behind a `GET` of which all is sent in two writes. -/
theorem iterable_closed_once_raising : ∃ c c',
    Run (Step .empty) freshConn
      [.read ⟨.bytes getRequest, returning (oneItem.withClose (.raises .other))⟩, .write (accepts 1000),
        .write (accepts 1000)] c ∧
      c.iterLog = [.next, .next, .close] ∧ c.evWatcher = .reading ∧
      Run (Step .empty) freshConn
        [.read ⟨.bytes getRequest, returning oneItem⟩, .write (accepts 1000), .write (accepts 1000)] c' ∧
      c'.sent = c.sent ∧ c'.evWatcher = c.evWatcher := by
  have run : Run (Guarded (ServesPlain (oneItem.withClose (.raises .other)) []) (Step .empty)) freshConn
      [.read ⟨.bytes getRequest, returning (oneItem.withClose (.raises .other))⟩, .write (accepts 1000),
        .write (accepts 1000)] _ :=
    .cons ⟨⟨rfl, fun _ bytes => by cases bytes; exact ⟨rfl, getRequest_withoutExpect⟩⟩, rfl, rfl⟩
      (.cons ⟨trivial, rfl, rfl⟩ (.single ⟨trivial, rfl, rfl⟩))
  have ready := evIoOnRequest_ready [] http11Get
  obtain ⟨_, same⟩ := iterable_closed_once rfl rfl ready (serves_of_plain rfl rfl ready run)
  obtain ⟨c', run', sent, watcher⟩ := same (Or.inr rfl) .returns (Or.inl rfl)
  exact ⟨_, c', run.mono (fun _ _ _ step => step.2), rfl, rfl, run', sent, watcher⟩

end Bjoern
