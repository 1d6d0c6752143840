import Bjoern.ResponseFrames

namespace Bjoern

/-- The system call fails with an errno other than `EAGAIN` and `EWOULDBLOCK`. -/
def Fatal (w : WriteEvent) : Prop := w.result = .errno .other

instance (w : WriteEvent) : Decidable (Fatal w) := inferInstanceAs (Decidable (_ = _))

/-- An `EV_WRITE` event whose system call does not fail fatally. -/
def Transmit (c : Conn) (w : WriteEvent) (c' : Conn) : Prop :=
  c.evWatcher = .writing ∧ ¬ Fatal w ∧ evIoOnWrite c w = .ok c'

/-- `current_chunk` is `data`, with at least one byte of it still to send. -/
structure SendingChunk (c : Conn) (data : Bytes) : Prop where
  chunk : c.currentChunk = .owned data
  start : 0 ≤ c.currentChunkP
  inside : c.currentChunkP < data.length

theorem SendingChunk.count {c : Conn} {data : Bytes} (h : SendingChunk c data) (metric : Metric) :
    SendingChunk (c.count metric) data :=
  ⟨h.chunk, h.start, h.inside⟩

/-- `c` after the bytes `bs` of its chunk were accepted, with some left. -/
def Conn.sentPart (c : Conn) (bs : Bytes) : Conn :=
  { c with sent := c.sent ++ bs, currentChunkP := c.currentChunkP + bs.length }

/-- `c` after the rest `bs` of its chunk was accepted. -/
def Conn.sentAll (c : Conn) (bs : Bytes) : Conn :=
  { c with sent := c.sent ++ bs, currentChunk := .null, currentChunkP := 0 }

/-- What `handle_nonzero_errno` leaves behind when it hangs up. -/
def Conn.hungUp (c : Conn) : Conn :=
  { c with currentChunk := c.currentChunk.release, iterator := none, state.keepAlive := false }

@[simp] theorem Conn.hungUp_expectContinue (c : Conn) :
    c.hungUp.state.expectContinue = c.state.expectContinue := rfl

theorem SendingChunk.offered_eq {c : Conn} {data : Bytes} (h : SendingChunk c data) :
    offered data c.currentChunkP = (data.drop c.currentChunkP.toNat).length := by
  have inside := h.inside
  have start := h.start
  simp only [offered, List.length_drop, if_pos (Int.le_of_lt inside)]
  omega

theorem SendingChunk.bytesAt_eq {c : Conn} {data : Bytes} (h : SendingChunk c data) (stray : Bytes) :
    bytesAt data c.currentChunkP stray = data.drop c.currentChunkP.toNat :=
  if_pos ⟨h.start, Int.le_of_lt h.inside⟩

theorem doSendChunk_sent {c c' : Conn} {w : WriteEvent} {left : Bool} (h : doSendChunk c w = .ok (c', left)) :
    c.sent <+: c'.sent := by
  unfold doSendChunk at h
  split at h
  next =>
    split at h
    next e _ =>
      have same : (handleNonzeroErrno c e).1.sent = c.sent := by
        unfold handleNonzeroErrno
        split <;> rfl
      rw [Except.ok.inj h] at same
      exact same ▸ List.prefix_refl _
    next =>
      dsimp only at h
      split at h <;> cases h <;> exact List.prefix_append _ _
  next => cases h

/-- A `write()` with room for all that is left takes it. -/
theorem doSendChunk_whole {c : Conn} {w : WriteEvent} {data : Bytes} (h : SendingChunk c data) {n : Nat}
    (room : w.result = .room n) (all : (data.drop c.currentChunkP.toNat).length ≤ n) :
    doSendChunk c w = .ok (c.sentAll (data.drop c.currentChunkP.toNat), false) := by
  have start := h.start
  have inside := h.inside
  have left : (data.drop c.currentChunkP.toNat).length = data.length - c.currentChunkP.toNat := by simp
  have whole : c.currentChunkP + ((data.drop c.currentChunkP.toNat).length : Int) = data.length := by omega
  simp only [doSendChunk, h.chunk, room, h.bytesAt_eq, h.offered_eq, Nat.min_eq_right all, List.take_length, whole,
    if_true, Conn.sentAll]

/-- A `write()` with less room takes the first bytes of what is left. -/
theorem doSendChunk_part {c : Conn} {w : WriteEvent} {data : Bytes} (h : SendingChunk c data) {n : Nat}
    (room : w.result = .room n) (some : n < (data.drop c.currentChunkP.toNat).length) :
    doSendChunk c w = .ok (c.sentPart ((data.drop c.currentChunkP.toNat).take n), true) := by
  have start := h.start
  have inside := h.inside
  have left : (data.drop c.currentChunkP.toNat).length = data.length - c.currentChunkP.toNat := by simp
  have more : c.currentChunkP + (n : Int) ≠ data.length := by omega
  have len : ((data.drop c.currentChunkP.toNat).take n).length = n := by simp; omega
  simp only [doSendChunk, h.chunk, room, h.bytesAt_eq, h.offered_eq, Nat.min_eq_left (Nat.le_of_lt some), more,
    if_false, Conn.sentPart, len]

theorem doSendChunk_again {c : Conn} {w : WriteEvent} {data : Bytes} (h : c.currentChunk = .owned data) {e : Errno}
    (failed : w.result = .errno e) (hw : ¬ Fatal w) : doSendChunk c w = .ok (c, true) := by
  have again : e.tryAgain = true := by
    cases e with
    | other => exact absurd failed hw
    | _ => rfl
  simp [doSendChunk, h, failed, handleNonzeroErrno, again]

/-- One `write()` that does not fail fatally takes a part of what is left, possibly none, or all of it. -/
theorem doSendChunk_cases {c : Conn} {w : WriteEvent} {data : Bytes} (h : SendingChunk c data)
    (hw : ¬ Fatal w) :
    (∃ k, k < (data.drop c.currentChunkP.toNat).length ∧
      doSendChunk c w = .ok (c.sentPart ((data.drop c.currentChunkP.toNat).take k), true)) ∨
    doSendChunk c w = .ok (c.sentAll (data.drop c.currentChunkP.toNat), false) := by
  have inside := h.inside
  have start := h.start
  cases he : w.result with
  | errno e =>
    refine Or.inl ⟨0, by simp; omega, ?_⟩
    rw [doSendChunk_again h.chunk he hw]
    simp [Conn.sentPart]
  | room n =>
    by_cases full : (data.drop c.currentChunkP.toNat).length ≤ n
    · exact Or.inr (doSendChunk_whole h he full)
    · exact Or.inl ⟨n, by omega, doSendChunk_part h he (by omega)⟩

theorem doSendChunk_fatal {c : Conn} {w : WriteEvent} {data : Bytes} (h : c.currentChunk = .owned data)
    (hw : Fatal w) : doSendChunk c w = .ok (c.hungUp, false) := by
  have result : w.result = .errno .other := hw
  simp [doSendChunk, h, result, handleNonzeroErrno, Errno.tryAgain, Conn.hungUp]

theorem SendingChunk.sentPart {c : Conn} {data : Bytes} (h : SendingChunk c data) {k : Nat}
    (hk : k < (data.drop c.currentChunkP.toNat).length) :
    SendingChunk (c.sentPart ((data.drop c.currentChunkP.toNat).take k)) data := by
  have start := h.start
  have inside := h.inside
  simp only [List.length_drop] at hk
  refine ⟨h.chunk, ?_, ?_⟩ <;> simp only [Conn.sentPart, List.length_take, List.length_drop] <;> omega

/-- The bytes of a chunk that the writes so far leave over. -/
theorem SendingChunk.sentPart_rest {c : Conn} {data : Bytes} (h : SendingChunk c data) {k : Nat}
    (hk : k < (data.drop c.currentChunkP.toNat).length) :
    (data.drop c.currentChunkP.toNat).take k ++
      data.drop (c.sentPart ((data.drop c.currentChunkP.toNat).take k)).currentChunkP.toNat =
      data.drop c.currentChunkP.toNat := by
  have start := h.start
  have position : (c.sentPart ((data.drop c.currentChunkP.toNat).take k)).currentChunkP.toNat =
      c.currentChunkP.toNat + k := by
    simp only [List.length_drop] at hk
    simp only [Conn.sentPart, List.length_take, List.length_drop]
    omega
  rw [position, ← List.drop_drop, List.take_append_drop]

end Bjoern
