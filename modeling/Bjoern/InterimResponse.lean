import Bjoern.ReadingPhase
import Bjoern.WriteStep

namespace Bjoern

open Runs

/-- The connection after a write that ends in `expect_continue`. -/
def Conn.resumed (c : Conn) : Conn := startReading { c with state.expectContinue := false }

/-- The interim message is on its way, and the callbacks `left` of the request are still to come. -/
structure Interim (base : Environ) (q : HttpRequest) (d : Environ) (left : List (HttpParser × Callback)) (c : Conn) :
    Prop where
  writing : c.evWatcher = .writing
  expects : c.state.expectContinue = true
  chunk : c.currentChunk = .owned continueMessage
  rest : Receiving base true q d left c.resumed

/-- Neither the expectation that is spent nor the chunk matters to the callbacks that are still to come. -/
theorem Receiving.resume {base : Environ} {q : HttpRequest} {d : Environ} {left : List (HttpParser × Callback)}
    {c c' : Conn} (h : Receiving base true q d left c) (chunk : ChunkRef) (position : Int)
    (same : c'.toRequest = (c.toRequest.besides c.parser.parser .reading chunk position c.iterable).unexpecting)
    (idle : c'.pyErr = none) : Receiving base true q d left c' := by
  obtain ⟨r', hears, complete⟩ := h.hears
  have run : Run (CallbackStep base True)
      (c.toRequest.besides c.parser.parser .reading chunk position c.iterable).unexpecting left
      (r'.besides c.parser.parser .reading chunk position c.iterable) := by
    cases hears with
    | quiet run => exact besides_run run _ _ _ _ _
    | once fresh => cases fresh
  refine ⟨by rw [same]; rfl, ⟨⟨idle, ?_⟩, ?_, ?_, ?_, ?_, ?_⟩, ?_, ?_, h.some, h.ends, _,
    .quiet (by rw [same]; exact run), ?_⟩
  all_goals rw [same]
  · exact h.untouched.unanswered
  · exact h.untouched.keepAlive
  · exact h.untouched.chunkedResponse
  · exact h.untouched.wsgiCallDone
  · exact h.untouched.iterable
  · exact h.untouched.iterator
  · exact h.noError
  · exact h.unfinished
  · exact ⟨complete.headers, complete.finished, complete.noError⟩

/-- A read in the middle of a request waits for more of it or asks for it with the interim message, which is sent
for one expectation only. -/
theorem Receiving.read {base : Environ} {spent : Bool} {q : HttpRequest} {d : Environ}
    {rest : List (HttpParser × Callback)} {c c' : Conn} {e : ReadEvent} {data : ReadData}
    (h : Receiving base spent q d (data.fired ++ rest) c) (bytes : e.result = .bytes data)
    (consumed : data.consumed = true) (more : rest ≠ []) (step : evIoOnRead base c e = .ok c') :
    (c' = (c.parsed base data).count .reqActive ∧ c'.state.expectContinue = false ∧
      Receiving base spent q d rest c') ∨
    (c' = startWriting { c.parsed base data with currentChunk := .owned continueMessage } ∧
      ¬ (spent = true ∧ c.state.expectContinue = false) ∧ Interim base q d rest c') := by
  obtain ⟨receiving, quiet⟩ := h.part (evIoOnRead_parses step bytes) consumed more
  rcases (evIoOnRead_outcome step).unfinished bytes receiving.noError receiving.unfinished with
    ⟨clear, rfl⟩ | ⟨expects, rfl⟩
  · rw [clear, Bool.or_false] at receiving
    exact Or.inl ⟨rfl, clear, receiving.count _⟩
  · rw [expects, Bool.or_true] at receiving
    refine Or.inr ⟨rfl, ?_, rfl, expects, rfl, ?_⟩
    · rintro ⟨spent, clear⟩
      cases expects.symm.trans (quiet spent clear)
    · exact receiving.resume (.owned continueMessage) (c.parsed base data).currentChunkP rfl receiving.untouched.idle

/-- What `do_send_chunk` changes where nothing of a response is there yet. -/
theorem doSendChunk_untouched {c c' : Conn} {w : WriteEvent} {left : Bool} (untouched : Untouched c)
    (h : doSendChunk c w = .ok (c', left)) :
    ∃ chunk position sent, c' = { c with currentChunk := chunk, currentChunkP := position, sent := sent } := by
  have hungUp : c.hungUp = { c with currentChunk := c.currentChunk.release } := by
    rw [Conn.hungUp, ← untouched.iterator, ← untouched.keepAlive]
  unfold doSendChunk at h
  split at h
  next =>
    split at h
    next e _ =>
      unfold handleNonzeroErrno at h
      split at h
      next =>
        cases h
        exact ⟨_, _, _, rfl⟩
      next =>
        cases h
        exact ⟨_, _, _, hungUp⟩
    next =>
      dsimp only at h
      split at h
      next =>
        cases h
        exact ⟨_, _, _, rfl⟩
      next =>
        cases h
        exact ⟨_, _, _, rfl⟩
  next => cases h

/-- A write of an interim message is a `do_send_chunk`. -/
theorem writeResponse_untouched {c c' : Conn} {w : WriteEvent} {state : RwState} (untouched : Untouched c)
    (h : writeResponse c w = .ok (c', state)) : (∃ left, doSendChunk c w = .ok (c', left)) ∧
      ∃ chunk position sent, c' = { c with currentChunk := chunk, currentChunkP := position, sent := sent } := by
  have direct : c.routesSendfile = false := by simp [Conn.routesSendfile, untouched.iterable]
  rw [writeResponse_chunk direct] at h
  obtain ⟨⟨mid, left⟩, hs, h⟩ := bind_ok h
  obtain ⟨chunk, position, sent, rfl⟩ := doSendChunk_untouched untouched hs
  have same : c' = { c with currentChunk := chunk, currentChunkP := position, sent := sent } := by
    dsimp only at h
    split at h
    next =>
      cases h
      rfl
    next =>
      split at h
      next more => simp [untouched.iterator] at more
      next =>
        rw [sendTerminatorChunk, if_neg (by simp [untouched.chunkedResponse])] at h
        cases h
        rfl
  subst same
  exact ⟨⟨left, hs⟩, chunk, position, sent, rfl⟩

/-- A write while an expectation is up sends what it can of the chunk, and the connection reads again. -/
theorem evIoOnWrite_expecting {c c' : Conn} {w : WriteEvent} (untouched : Untouched c)
    (expects : c.state.expectContinue = true) (step : evIoOnWrite c w = .ok c') :
    ∃ mid left, doSendChunk c w = .ok (mid, left) ∧ c' = mid.resumed := by
  obtain ⟨⟨mid, state⟩, hm, step⟩ := bind_ok step
  obtain ⟨⟨left, sends⟩, chunk, position, sent, rfl⟩ := writeResponse_untouched untouched hm
  dsimp only at step
  rw [expects] at step
  cases step
  exact ⟨_, left, sends, rfl⟩

/-- A write sends the interim message whole if it has room for all of it, and otherwise at most a part. -/
theorem interim_sent {c c' : Conn} {w : WriteEvent} (untouched : Untouched c) (expects : c.state.expectContinue = true)
    (chunk : c.currentChunk = .owned continueMessage) (start : c.currentChunkP = 0) (step : evIoOnWrite c w = .ok c') :
    (∃ n, w.result = .room n ∧ continueMessage.length ≤ n) ∧ c'.sent = c.sent ++ continueMessage ∧
        c'.currentChunkP = 0 ∨
      (¬ ∃ n, w.result = .room n ∧ continueMessage.length ≤ n) ∧
        c'.sent.length < c.sent.length + continueMessage.length := by
  have sending : SendingChunk c continueMessage := ⟨chunk, by simp [start], by simp only [start]; decide⟩
  have rest : continueMessage.drop c.currentChunkP.toNat = continueMessage := by rw [start]; rfl
  have some : 0 < continueMessage.length := by decide
  obtain ⟨mid, left, sends, rfl⟩ := evIoOnWrite_expecting untouched expects step
  by_cases room : ∃ n, w.result = .room n ∧ continueMessage.length ≤ n
  · obtain ⟨n, result, all⟩ := room
    rw [doSendChunk_whole sending result (by rw [rest]; exact all), rest] at sends
    cases sends
    exact Or.inl ⟨⟨n, result, all⟩, rfl, rfl⟩
  · refine Or.inr ⟨room, ?_⟩
    by_cases fatal : Fatal w
    · rw [doSendChunk_fatal chunk fatal] at sends
      cases sends
      exact Nat.lt_add_of_pos_right some
    · cases result : w.result with
      | errno e =>
        rw [doSendChunk_again chunk result fatal] at sends
        cases sends
        exact Nat.lt_add_of_pos_right some
      | room n =>
        have part : n < continueMessage.length := by
          by_contra all
          exact room ⟨n, result, by omega⟩
        rw [doSendChunk_part sending result (by rw [rest]; exact part), rest] at sends
        cases sends
        have taken : (continueMessage.take n).length < continueMessage.length := by
          rw [List.length_take]
          omega
        simpa [Conn.resumed, startReading, Conn.sentPart] using taken

theorem Interim.untouched {base : Environ} {q : HttpRequest} {d : Environ} {left : List (HttpParser × Callback)}
    {c : Conn} (h : Interim base q d left c) : Untouched c := by
  have rest := h.rest.untouched
  exact { rest with }

/-- After any write of the interim message the connection reads the rest of the request. -/
theorem Interim.write {base : Environ} {q : HttpRequest} {d : Environ} {left : List (HttpParser × Callback)}
    {c c' : Conn} {w : WriteEvent} (h : Interim base q d left c) (step : evIoOnWrite c w = .ok c') :
    Receiving base true q d left c' ∧ c'.state.expectContinue = false ∧ c'.environs = c.environs := by
  obtain ⟨mid, _, sends, rfl⟩ := evIoOnWrite_expecting h.untouched h.expects step
  obtain ⟨chunk, position, sent, rfl⟩ := doSendChunk_untouched h.untouched sends
  exact ⟨h.rest.resume chunk position rfl h.untouched.idle, rfl, rfl⟩

/-- A write that accepts all of the message sends it. -/
theorem Interim.write_whole {base : Environ} {q : HttpRequest} {d : Environ} {left : List (HttpParser × Callback)}
    {c c' : Conn} {w : WriteEvent} (h : Interim base q d left c) (step : evIoOnWrite c w = .ok c')
    (start : c.currentChunkP = 0) {n : Nat} (room : w.result = .room n) (all : continueMessage.length ≤ n) :
    c'.sent = c.sent ++ continueMessage ∧ c'.currentChunkP = 0 := by
  rcases interim_sent h.untouched h.expects h.chunk start step with ⟨_, whole⟩ | ⟨short, _⟩
  · exact whole
  · exact absurd ⟨n, room, all⟩ short

end Bjoern
