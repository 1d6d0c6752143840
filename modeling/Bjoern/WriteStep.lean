import Bjoern.ChunkDelivery
import Bjoern.ResponseHeaders

namespace Bjoern

/-- What one write of a response leaves alone, whatever its system call returns. -/
structure WriteFrame (c c' : Conn) : Prop where
  evWatcher : c'.evWatcher = c.evWatcher
  clientAddr : c'.clientAddr = c.clientAddr
  errorCode : c'.state.errorCode = c.state.errorCode
  parseFinished : c'.state.parseFinished = c.state.parseFinished
  wsgiCallDone : c'.state.wsgiCallDone = c.state.wsgiCallDone
  keepAlive : c.state.keepAlive = false → c'.state.keepAlive = false
  chunkedResponse : c.state.chunkedResponse = false → c'.state.chunkedResponse = false
  expectContinue : c'.state.expectContinue = c.state.expectContinue
  iterable : c'.iterable = c.iterable
  iterator : c.iterator = none → c'.iterator = none ∧ c'.iterLog = c.iterLog
  parser : c'.parser = c.parser
  idle : c.pyErr = none → c'.pyErr = none
  environs : c'.environs = c.environs
  headers : c.iterator = none → c'.headers = c.headers
  iterLog : ∃ n, c'.iterLog = c.iterLog ++ List.replicate n .next

theorem WriteFrame.refl (c : Conn) : WriteFrame c c :=
  ⟨rfl, rfl, rfl, rfl, rfl, id, id, rfl, rfl, fun h => ⟨h, rfl⟩, rfl, id, rfl, fun _ => rfl, 0, by simp⟩

theorem WriteFrame.routes {c d : Conn} (f : WriteFrame c d) : d.routesSendfile = c.routesSendfile :=
  congrArg (Option.any PyValue.hasDescriptor) f.iterable

theorem WriteFrame.trans {c d e : Conn} (f : WriteFrame c d) (g : WriteFrame d e) : WriteFrame c e := by
  obtain ⟨n, hn⟩ := f.iterLog
  obtain ⟨m, hm⟩ := g.iterLog
  exact ⟨g.evWatcher.trans f.evWatcher, g.clientAddr.trans f.clientAddr, g.errorCode.trans f.errorCode,
    g.parseFinished.trans f.parseFinished, g.wsgiCallDone.trans f.wsgiCallDone,
    fun h => g.keepAlive (f.keepAlive h), fun h => g.chunkedResponse (f.chunkedResponse h),
    g.expectContinue.trans f.expectContinue, g.iterable.trans f.iterable,
    fun h => ⟨(g.iterator (f.iterator h).1).1, (g.iterator (f.iterator h).1).2.trans (f.iterator h).2⟩,
    g.parser.trans f.parser, fun h => g.idle (f.idle h), g.environs.trans f.environs,
    fun h => (g.headers (f.iterator h).1).trans (f.headers h), n + m,
    by rw [hm, hn, List.append_assoc, List.replicate_add]⟩

theorem handleNonzeroErrno_frame (c : Conn) (e : Errno) : WriteFrame c (handleNonzeroErrno c e).1 := by
  unfold handleNonzeroErrno
  split
  next => exact .refl c
  next => exact ⟨rfl, rfl, rfl, rfl, rfl, fun _ => rfl, id, rfl, rfl, fun _ => ⟨rfl, rfl⟩,
      rfl, id, rfl, fun _ => rfl, 0, by simp⟩

theorem doSendChunk_frame {c c' : Conn} {w : WriteEvent} {left : Bool} (h : doSendChunk c w = .ok (c', left)) :
    WriteFrame c c' := by
  unfold doSendChunk at h
  split at h
  next =>
    split at h
    next e _ =>
      have frame := handleNonzeroErrno_frame c e
      rw [Except.ok.inj h] at frame
      exact frame
    next =>
      dsimp only at h
      split at h <;> cases h <;>
        exact ⟨rfl, rfl, rfl, rfl, rfl, id, id, rfl, rfl, fun h => ⟨h, rfl⟩, rfl, id, rfl, fun _ => rfl, 0, by simp⟩
  next => cases h

theorem doSendfile_frame (c : Conn) (content : Bytes) (w : WriteEvent) : WriteFrame c (doSendfile c content w).1 := by
  unfold doSendfile
  split
  next e _ => exact handleNonzeroErrno_frame c e
  next =>
    dsimp only
    split
    next => exact .refl c
    next => exact ⟨rfl, rfl, rfl, rfl, rfl, id, id, rfl, rfl, fun h => ⟨h, rfl⟩, rfl, id, rfl, fun _ => rfl, 0, by simp⟩

/-- A file is sent without a chunk. -/
theorem doSendfile_chunk {c : Conn} (null : c.currentChunk = .null) (content : Bytes) (w : WriteEvent) :
    (doSendfile c content w).1.currentChunk = .null := by
  unfold doSendfile handleNonzeroErrno
  split
  next =>
    split
    next => exact null
    next => simp [null, ChunkRef.release]
  next =>
    dsimp only
    split
    next => exact null
    next => exact null

/-- A chunk of which nothing is left is given up, unless a fatal error has ended its sending. -/
theorem doSendChunk_all {c c' : Conn} {w : WriteEvent} (hw : ¬ Fatal w) (h : doSendChunk c w = .ok (c', false)) :
    c'.currentChunk = .null := by
  unfold doSendChunk at h
  split at h
  next =>
    split at h
    next e result =>
      have again : e.tryAgain = true := by
        cases e with
        | other => exact absurd result hw
        | _ => rfl
      simp [handleNonzeroErrno, again] at h
    next =>
      dsimp only at h
      split at h
      next =>
        cases h
        rfl
      next => cases h
  next => cases h

theorem onWriteSendfile_frame {c c' : Conn} {content : Bytes} {w : WriteEvent} {state : RwState}
    (h : onWriteSendfile c content w = .ok (c', state)) : WriteFrame c c' ∧ state ≠ .expectContinue := by
  unfold onWriteSendfile at h
  split at h
  next =>
    obtain ⟨⟨mid, left⟩, hm, h⟩ := bind_ok h
    have frame := doSendChunk_frame hm
    dsimp only at h
    split at h
    next =>
      cases h
      exact ⟨frame, by simp⟩
    next =>
      have moved : WriteFrame c { mid with currentChunkP := w.lseek } := { frame with }
      split at h <;> cases h <;> exact ⟨moved, by simp⟩
  next =>
    have frame := doSendfile_frame c content w
    dsimp only at h
    cases h
    refine ⟨frame, ?_⟩
    split <;> simp

theorem sendTerminatorChunk_frame {c c' : Conn} {state : RwState} (h : sendTerminatorChunk c = (c', state)) :
    WriteFrame c c' ∧ state ≠ .expectContinue := by
  unfold sendTerminatorChunk at h
  split at h
  next =>
    cases h
    exact ⟨⟨rfl, rfl, rfl, rfl, rfl, id, fun _ => rfl, rfl, rfl, fun h => ⟨h, rfl⟩, rfl, id, rfl, fun _ => rfl, 0,
      by simp⟩, by simp⟩
  next =>
    cases h
    exact ⟨.refl c, by simp⟩

/-- What pulling the next chunk leaves alone. -/
theorem NextOutcome.frame {c c' : Conn} {steps : PyIter} {chunk : Option Bytes} (h : NextOutcome c steps c' chunk)
    (more : c.iterator ≠ none) : WriteFrame c { c' with pyErr := none } := by
  cases h with
  | @chunk n =>
    exact ⟨rfl, rfl, rfl, rfl, rfl, id, id, rfl, rfl, fun none => absurd none more, rfl, fun _ => rfl, rfl,
      fun none => absurd none more, n, rfl⟩
  | @stopped n =>
    exact ⟨rfl, rfl, rfl, rfl, rfl, id, id, rfl, rfl, fun none => absurd none more, rfl, fun _ => rfl, rfl,
      fun none => absurd none more, n, rfl⟩
  | @failed n =>
    exact ⟨rfl, rfl, rfl, rfl, rfl, id, id, rfl, rfl, fun none => absurd none more, rfl, fun _ => rfl, rfl,
      fun none => absurd none more, n, rfl⟩

theorem NextOutcome.chunk_idle {c c' : Conn} {steps : PyIter} {data : Bytes}
    (h : NextOutcome c steps c' (some data)) : c'.pyErr = c.pyErr := by
  cases h with
  | chunk => rfl

/-- Everything that one call of `on_write_chunk` from which control comes back can do. -/
inductive ChunkOutcome (c : Conn) (w : WriteEvent) : Conn → RwState → Prop
  | part {mid} : doSendChunk c w = .ok (mid, true) → ChunkOutcome c w mid .notYetDone
  | chunk {mid last steps data bytes} : doSendChunk c w = .ok (mid, false) → mid.iterator = some steps →
      NextOutcome mid steps last (some data) → encodeFirst last.state.chunkedResponse (some data) = some bytes →
      ChunkOutcome c w { last with currentChunk := .owned bytes } .notYetDone
  | failed {mid last steps} : doSendChunk c w = .ok (mid, false) → mid.iterator = some steps →
      NextOutcome mid steps last none → last.pyErr ≠ none → ChunkOutcome c w { last with pyErr := none } .aborted
  | stopped {mid last steps c' state} : doSendChunk c w = .ok (mid, false) → mid.iterator = some steps →
      NextOutcome mid steps last none → last.pyErr = none →
      sendTerminatorChunk { last with iterator := none } = (c', state) → ChunkOutcome c w c' state
  | concluded {mid c' state} : doSendChunk c w = .ok (mid, false) → mid.iterator = none →
      sendTerminatorChunk mid = (c', state) → ChunkOutcome c w c' state

theorem onWriteChunk_outcome {c c' : Conn} {w : WriteEvent} {state : RwState}
    (h : onWriteChunk c w = .ok (c', state)) : ChunkOutcome c w c' state := by
  obtain ⟨⟨mid, left⟩, hm, h⟩ := bind_ok h
  dsimp only at h
  split at h
  next unsent =>
    subst unsent
    cases h
    exact .part hm
  next whole =>
    have whole : left = false := by simpa using whole
    subst whole
    split at h
    next more =>
      obtain ⟨steps, hs⟩ := Option.isSome_iff_exists.mp more
      obtain ⟨⟨last, chunk⟩, hn, h⟩ := bind_ok h
      have outcome := nextChunkLoop_outcome ((wsgiIterableGetNextChunk_loop hs).symm.trans hn)
      dsimp only at h
      split at h
      next data =>
        split at h
        next chunked =>
          split at h
          next wrapped encoded =>
            cases h
            exact .chunk hm hs outcome (by simp [encodeFirst, chunked, encoded])
          next => cases h
        next plain =>
          cases h
          exact .chunk hm hs outcome (by simp [encodeFirst, plain])
      next =>
        split at h
        next raised =>
          obtain ⟨printed, hp, h⟩ := bind_ok h
          obtain ⟨rfl, _⟩ := pyErrPrint_ok hp
          cases h
          exact .failed hm hs outcome (Option.isSome_iff_ne_none.mp raised)
        next quiet => exact .stopped hm hs outcome (by simpa using quiet) (Except.ok.inj h)
    next ended => exact .concluded hm (by simpa using ended) (Except.ok.inj h)

theorem onWriteChunk_frame {c c' : Conn} {w : WriteEvent} {state : RwState}
    (h : onWriteChunk c w = .ok (c', state)) : WriteFrame c c' ∧ state ≠ .expectContinue := by
  cases onWriteChunk_outcome h with
  | part sent => exact ⟨doSendChunk_frame sent, by simp⟩
  | chunk sent more outcome =>
    have first := doSendChunk_frame sent
    have frame := first.trans (outcome.frame (by simp [more]))
    have idle := fun none => outcome.chunk_idle.trans (first.idle none)
    exact ⟨{ frame with idle := idle }, by simp⟩
  | failed sent more outcome => exact ⟨(doSendChunk_frame sent).trans (outcome.frame (by simp [more])), by simp⟩
  | @stopped _ last _ _ _ sent more outcome calm terminated =>
    have frame := (doSendChunk_frame sent).trans (outcome.frame (by simp [more]))
    have stopped : WriteFrame c { last with iterator := none } :=
      { frame with
        iterator := fun none => ⟨rfl, (frame.iterator none).2⟩
        idle := fun _ => calm }
    obtain ⟨final, plain⟩ := sendTerminatorChunk_frame terminated
    exact ⟨stopped.trans final, plain⟩
  | concluded sent _ terminated =>
    obtain ⟨final, plain⟩ := sendTerminatorChunk_frame terminated
    exact ⟨(doSendChunk_frame sent).trans final, plain⟩

theorem writeResponse_sendfile {c : Conn} (route : c.routesSendfile = true) : ∃ wrapper,
    c.iterable = some (.fileWrapper wrapper) ∧ wrapper.fd ≠ -1 ∧
      ∀ w, writeResponse c w = onWriteSendfile c wrapper.content w := by
  unfold Conn.routesSendfile at route
  cases iterable : c.iterable with
  | none => simp [iterable] at route
  | some v =>
    cases v with
    | fileWrapper wrapper =>
      have descriptor : wrapper.fd ≠ -1 := by simpa [iterable, PyValue.hasDescriptor] using route
      exact ⟨wrapper, rfl, descriptor, fun w => by simp [writeResponse, iterable, descriptor]⟩
    | _ => simp [iterable, PyValue.hasDescriptor] at route

theorem writeResponse_frame {c c' : Conn} {w : WriteEvent} {state : RwState}
    (h : writeResponse c w = .ok (c', state)) : WriteFrame c c' ∧ state ≠ .expectContinue := by
  cases route : c.routesSendfile with
  | true =>
    obtain ⟨wrapper, _, _, eq⟩ := writeResponse_sendfile route
    rw [eq] at h
    exact onWriteSendfile_frame h
  | false =>
    rw [writeResponse_chunk route] at h
    exact onWriteChunk_frame h

section

variable {P : Headers → RequestState → Prop}

/-- The flags for the framing and the end of the connection do not matter. -/
def KeptByFlags (P : Headers → RequestState → Prop) : Prop := ∀ headers state keep chunked, P headers state →
  P headers { state with keepAlive := keep, chunkedResponse := chunked }

theorem handleNonzeroErrno_keeps {c : Conn} (flags : KeptByFlags P)
    (own : P c.headers c.state) (e : Errno) :
    P (handleNonzeroErrno c e).1.headers (handleNonzeroErrno c e).1.state := by
  unfold handleNonzeroErrno
  split
  next => exact own
  next => exact flags _ _ false c.state.chunkedResponse own

theorem doSendChunk_keeps {c c' : Conn} {w : WriteEvent} {left : Bool} (flags : KeptByFlags P)
    (own : P c.headers c.state) (h : doSendChunk c w = .ok (c', left)) : P c'.headers c'.state := by
  unfold doSendChunk at h
  split at h
  next =>
    split at h
    next e _ =>
      have hungUp := handleNonzeroErrno_keeps flags own e
      rwa [Except.ok.inj h] at hungUp
    next =>
      dsimp only at h
      split at h <;> cases h <;> exact own
  next => cases h

theorem doSendfile_keeps {c : Conn} (flags : KeptByFlags P) (own : P c.headers c.state) (content : Bytes)
    (w : WriteEvent) : P (doSendfile c content w).1.headers (doSendfile c content w).1.state := by
  obtain ⟨result, lseek, stray⟩ := w
  cases result with
  | errno e => exact handleNonzeroErrno_keeps flags own e
  | room n =>
    by_cases nothing : min n (min sendfileChunkSize (content.length - c.currentChunkP.toNat)) = 0
    · simp only [doSendfile, if_pos nothing]
      exact own
    · simp only [doSendfile, if_neg nothing]
      exact own

theorem sendTerminatorChunk_keeps {c : Conn} (flags : KeptByFlags P)
    (own : P c.headers c.state) : P (sendTerminatorChunk c).1.headers (sendTerminatorChunk c).1.state := by
  unfold sendTerminatorChunk
  split
  next => exact flags _ _ c.state.keepAlive false own
  next => exact own

theorem onWriteSendfile_keeps {c c' : Conn} {content : Bytes} {w : WriteEvent} {state : RwState} (flags : KeptByFlags P)
    (own : P c.headers c.state) (h : onWriteSendfile c content w = .ok (c', state)) : P c'.headers c'.state := by
  unfold onWriteSendfile at h
  split at h
  next =>
    obtain ⟨⟨mid, left⟩, hm, h⟩ := bind_ok h
    have own' := doSendChunk_keeps flags own hm
    dsimp only at h
    split at h
    next =>
      cases h
      exact own'
    next => split at h <;> cases h <;> exact own'
  next =>
    have own' := doSendfile_keeps flags own content w
    cases h
    exact own'

/-- What `start_response` keeps, the Python code that runs during a write keeps. -/
theorem KeptByStart.writeChunk {c c' : Conn} {w : WriteEvent} {state : RwState} (keeps : KeptByStart P)
    (flags : KeptByFlags P) (own : P c.headers c.state) (h : onWriteChunk c w = .ok (c', state)) :
    P c'.headers c'.state := by
  obtain ⟨⟨mid, left⟩, hm, h⟩ := bind_ok h
  have own' := doSendChunk_keeps flags own hm
  have ended : ∀ d : Conn, P d.headers d.state → ∀ x, sendTerminatorChunk d = x → P x.1.headers x.1.state := by
    rintro d holds _ rfl
    exact sendTerminatorChunk_keeps flags holds
  dsimp only at h
  split at h
  next =>
    cases h
    exact own'
  next =>
    split at h
    next =>
      obtain ⟨⟨last, chunk⟩, hn, h⟩ := bind_ok h
      have last' := keeps.next own' hn
      dsimp only at h
      split at h
      next =>
        split at h
        next =>
          split at h
          next =>
            cases h
            exact last'
          next => cases h
        next =>
          cases h
          exact last'
      next =>
        split at h
        next =>
          obtain ⟨printed, hp, h⟩ := bind_ok h
          obtain ⟨rfl, _⟩ := pyErrPrint_ok hp
          cases h
          exact last'
        next => exact ended { last with iterator := none } last' _ (Except.ok.inj h)
    next => exact ended mid own' _ (Except.ok.inj h)

theorem KeptByStart.write {c c' : Conn} {w : WriteEvent} {state : RwState} (keeps : KeptByStart P)
    (flags : KeptByFlags P) (own : P c.headers c.state) (h : writeResponse c w = .ok (c', state)) :
    P c'.headers c'.state := by
  cases route : c.routesSendfile with
  | true =>
    obtain ⟨wrapper, _, _, eq⟩ := writeResponse_sendfile route
    rw [eq] at h
    exact onWriteSendfile_keeps flags own h
  | false =>
    rw [writeResponse_chunk route] at h
    exact keeps.writeChunk flags own h

end

theorem finishWrite_frame {c c' : Conn} {state : RwState} (h : finishWrite c state = .ok c') :
    c'.clientAddr = c.clientAddr ∧ c'.environs = c.environs := by
  cases state with
  | notYetDone =>
    cases h
    exact ⟨rfl, rfl⟩
  | done =>
    unfold finishWrite at h
    dsimp only at h
    split at h
    next =>
      obtain ⟨last, hl, h⟩ := bind_ok h
      obtain ⟨_, _, rfl⟩ := requestClean_ok hl
      cases h
      exact ⟨rfl, rfl⟩
    next =>
      obtain ⟨_, _, rfl⟩ := requestClean_ok h
      exact ⟨rfl, rfl⟩
  | expectContinue =>
    cases h
    exact ⟨rfl, rfl⟩
  | aborted =>
    obtain ⟨last, hl, h⟩ := bind_ok h
    obtain ⟨_, _, rfl⟩ := requestClean_ok hl
    cases h
    exact ⟨rfl, rfl⟩

/-- A write does not call the application. -/
theorem evIoOnWrite_environs {c c' : Conn} {w : WriteEvent} (h : evIoOnWrite c w = .ok c') :
    c'.clientAddr = c.clientAddr ∧ c'.environs = c.environs := by
  obtain ⟨⟨mid, state⟩, hm, h⟩ := bind_ok h
  have frame := (writeResponse_frame hm).1
  obtain ⟨address, environs⟩ := finishWrite_frame h
  exact ⟨address.trans frame.clientAddr, environs.trans frame.environs⟩

/-- Everything that one call of `ev_io_on_write` from which control comes back can do. -/
inductive WriteOutcome (c : Conn) : Conn → Prop
  | more {mid} : WriteFrame c mid → c.state.expectContinue = false → WriteOutcome c (mid.count .respActive)
  | kept {mid c'} : WriteFrame c mid → c.state.expectContinue = false → mid.state.keepAlive = true → Kept mid c' →
      WriteOutcome c c'
  | closed {mid c'} : WriteFrame c mid → c.state.expectContinue = false → Closed mid c' → WriteOutcome c c'
  | interim {mid} : WriteFrame c mid → c.state.expectContinue = true →
      WriteOutcome c (startReading { mid with state.expectContinue := false })

theorem evIoOnWrite_outcome {c c' : Conn} {w : WriteEvent} (idle : c.pyErr = none)
    (h : evIoOnWrite c w = .ok c') : WriteOutcome c c' := by
  obtain ⟨⟨mid, state⟩, hm, h⟩ := bind_ok h
  obtain ⟨frame, plain⟩ := writeResponse_frame hm
  have idle' := frame.idle idle
  have same := frame.expectContinue
  cases expects : c.state.expectContinue with
  | true =>
    rw [expects] at same
    simp only [same] at h
    cases h
    exact .interim frame expects
  | false =>
    rw [expects] at same
    have h : finishWrite mid state = .ok c' := by simpa [same] using h
    cases state with
    | notYetDone =>
      cases h
      exact .more frame expects
    | done =>
      have finished := finishWrite_done idle'
      rw [h] at finished
      have last := finished.of_ok.2
      split at last
      next keep => exact .kept frame expects keep last
      next => exact .closed frame expects last
    | aborted =>
      have finished := finishWrite_aborted idle'
      rw [h] at finished
      exact .closed frame expects finished.of_ok.2
    | expectContinue => exact absurd rfl plain

/-- A write that ends a response cleans up, and control comes back from that. -/
theorem Transmit.cleans {c c' : Conn} {w : WriteEvent} (idle : c.pyErr = none)
    (clear : c.state.expectContinue = false) (step : Transmit c w c') (reading : c'.evWatcher = .reading) :
    ¬ CloseExits c.iterable ∧ closeCalls c.iterable <:+ c'.iterLog := by
  obtain ⟨writing, _, step⟩ := step
  obtain ⟨⟨mid, state⟩, hm, h⟩ := bind_ok step
  obtain ⟨frame, plain⟩ := writeResponse_frame hm
  have same : mid.state.expectContinue = false := frame.expectContinue.trans clear
  have h : finishWrite mid state = .ok c' := by simpa [same] using h
  rw [← frame.iterable]
  cases state with
  | notYetDone =>
    cases h
    cases (frame.evWatcher.trans writing).symm.trans reading
  | done =>
    have finished := finishWrite_done (frame.idle idle)
    rw [h] at finished
    obtain ⟨calm, last⟩ := finished.of_ok
    refine ⟨calm, ?_⟩
    split at last
    next => exact ⟨_, last.iterLog.symm⟩
    next => exact ⟨_, last.iterLog.symm⟩
  | aborted =>
    have finished := finishWrite_aborted (frame.idle idle)
    rw [h] at finished
    obtain ⟨calm, last⟩ := finished.of_ok
    exact ⟨calm, _, last.iterLog.symm⟩
  | expectContinue => exact absurd rfl plain

end Bjoern
