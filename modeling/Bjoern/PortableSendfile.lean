import Bjoern.WriteStep
import Bjoern.SendfileDelivery

namespace Bjoern

open Runs

/-- The systems that `portable_sendfile` is written for. -/
inductive Platform
  | osx
  | freebsd
  | linux
  deriving DecidableEq

inductive SendfileErrno
  | eagain
  | eintr
  | other
  deriving DecidableEq

/-- What the kernel does in one `sendfile()`: it puts `sent` bytes on the socket, until an error stops it or not. -/
structure SendfileCall where
  sent : Nat
  errno : Option SendfileErrno
  deriving DecidableEq

/-- The kernel sends at most what is asked for and what is left, and without an error it stops before the first byte
only at the end of the file. -/
structure SendfileCall.Lawful (k : SendfileCall) (rest : Bytes) : Prop where
  inside : k.sent ≤ min sendfileChunkSize rest.length
  ends : k.errno = none → k.sent = 0 → rest = []

/-- The value that `sendfile()` returns. Linux counts what was sent before an error, and reports the error only when
that is nothing; the others return an error or 0, and the count in `len`. -/
def sendfile (platform : Platform) (k : SendfileCall) : Int :=
  match platform with
  | .linux => if k.sent = 0 ∧ k.errno.isSome then -1 else k.sent
  | _ => if k.errno.isSome then -1 else 0

def portableSendfile (platform : Platform) (k : SendfileCall) : Int :=
  match platform with
  | .linux => sendfile .linux k
  | .osx =>
    if sendfile .osx k = -1 then
      if (k.errno = some .eagain ∨ k.errno = some .eintr) ∧ k.sent > 0 then k.sent else -1
    else k.sent
  | .freebsd =>
    if sendfile .freebsd k = -1 then
      if (k.errno = some .eagain ∨ k.errno = some .eintr) ∧ k.sent > 0 then k.sent else -1
    else k.sent

/-- `errno` as `handle_nonzero_errno` looks at it. -/
def SendfileErrno.errno : SendfileErrno → Errno
  | .eagain => .eagain
  | _ => .other

/-- `do_sendfile` over what the kernel does with the socket. -/
def doSendfileOn (platform : Platform) (c : Conn) (content : Bytes) (k : SendfileCall) : Conn × Bool :=
  let bytesSent := portableSendfile platform k
  let c := { c with sent := c.sent ++ (content.drop c.currentChunkP.toNat).take k.sent }
  if bytesSent = -1 then handleNonzeroErrno c ((k.errno.map SendfileErrno.errno).getD .other)
  else if bytesSent = 0 then (c, false)
  else ({ c with currentChunkP := c.currentChunkP + bytesSent }, true)

/-- The bytes that the kernel has sent are not counted. -/
def Uncounted (platform : Platform) (k : SendfileCall) : Prop :=
  platform ≠ .linux ∧ k.errno = some .other ∧ 0 < k.sent

theorem portableSendfile_bsd {k : SendfileCall} (counted : ¬ (k.errno = some .other ∧ 0 < k.sent)) :
    (if (if k.errno.isSome then -1 else 0 : Int) = -1 then
      if (k.errno = some .eagain ∨ k.errno = some .eintr) ∧ k.sent > 0 then (k.sent : Int) else -1
    else k.sent) = if k.sent = 0 ∧ k.errno.isSome then -1 else (k.sent : Int) := by
  obtain ⟨sent, errno⟩ := k
  cases errno with
  | none => simp
  | some e =>
    rcases Nat.eq_zero_or_pos sent with rfl | some
    · simp
    · have other : e ≠ .other := fun same => counted ⟨congrArg Option.some same, some⟩
      have count : sent ≠ 0 := by omega
      cases e with
      | eagain => simp [some, count]
      | eintr => simp [some, count]
      | other => exact absurd rfl other

/-- `portable_sendfile` returns the number of the bytes that were sent, or -1 for an error before the first one,
unless the kernel hides the bytes that it has sent behind another error than `EAGAIN` and `EINTR`. -/
theorem portableSendfile_eq {platform : Platform} {k : SendfileCall} (counted : ¬ Uncounted platform k) :
    portableSendfile platform k = if k.sent = 0 ∧ k.errno.isSome then -1 else (k.sent : Int) := by
  cases platform with
  | linux => rfl
  | osx => exact portableSendfile_bsd fun hidden => counted ⟨by decide, hidden⟩
  | freebsd => exact portableSendfile_bsd fun hidden => counted ⟨by decide, hidden⟩

/-- The kernel's doing as the writer sees it. -/
def SendfileCall.ioResult (k : SendfileCall) : IoResult :=
  if k.sent = 0 then
    match k.errno with
    | some e => .errno e.errno
    | none => .room 1
  else .room k.sent

/-- On every platform `do_sendfile` does what it does with a system call that counts. -/
theorem doSendfileOn_eq {platform : Platform} {c : Conn} {content : Bytes} {k : SendfileCall}
    (counted : ¬ Uncounted platform k) (lawful : k.Lawful (content.drop c.currentChunkP.toNat)) (lseek : Int)
    (stray : Bytes) : doSendfileOn platform c content k = doSendfile c content ⟨k.ioResult, lseek, stray⟩ := by
  have inside := lawful.inside
  have ends := lawful.ends
  rw [List.length_drop] at inside
  unfold doSendfileOn
  rw [portableSendfile_eq counted]
  obtain ⟨sent, errno⟩ := k
  rcases Nat.eq_zero_or_pos sent with rfl | some
  · cases errno with
    | none =>
      have nothing : content.length - c.currentChunkP.toNat = 0 := by
        rw [← List.length_drop, ends rfl rfl]
        rfl
      simp [doSendfile, SendfileCall.ioResult, nothing]
    | some e => simp [doSendfile, SendfileCall.ioResult]
  · have count : sent ≠ 0 := by omega
    have all : min sent (min sendfileChunkSize (content.length - c.currentChunkP.toNat)) = sent := by
      exact Nat.min_eq_left inside
    have number : (sent : Int) ≠ -1 := by omega
    simp [doSendfile, SendfileCall.ioResult, count, all, number]

/-- A call of `do_sendfile` after which the file goes on. -/
def FileWrite (platform : Platform) (content : Bytes) (c : Conn) (k : SendfileCall) (c' : Conn) : Prop :=
  k.Lawful (content.drop c.currentChunkP.toNat) ∧ doSendfileOn platform c content k = (c', true)

/-- The offset is in step with what is sent of the file from `start` on. -/
def InStep (before : Bytes) (start : Nat) (content : Bytes) (c : Conn) : Prop :=
  ∃ n ≤ (content.drop start).length, c.currentChunkP = ((start + n : Nat) : Int) ∧
    c.sent = before ++ (content.drop start).take n

/-- The connection with `sent` more bytes of the file on its socket. -/
def Conn.sentOf (c : Conn) (content : Bytes) (sent : Nat) : Conn :=
  { c with sent := c.sent ++ (content.drop c.currentChunkP.toNat).take sent }

/-- Everything that one call of `do_sendfile` can do. -/
inductive SendfileOutcome (platform : Platform) (c : Conn) (content : Bytes) (k : SendfileCall) : Conn × Bool → Prop
  | counted : 0 < k.sent → SendfileOutcome platform c content k
      ({ c.sentOf content k.sent with currentChunkP := c.currentChunkP + k.sent }, true)
  | again : SendfileOutcome platform c content k (c, true)
  | ended : content.drop c.currentChunkP.toNat = [] → SendfileOutcome platform c content k (c, false)
  | broken : k.errno ≠ none → SendfileOutcome platform c content k ((c.sentOf content k.sent).hungUp, false)

theorem doSendfileOn_outcome {c : Conn} {content : Bytes} {k : SendfileCall} (platform : Platform)
    (lawful : k.Lawful (content.drop c.currentChunkP.toNat)) :
    SendfileOutcome platform c content k (doSendfileOn platform c content k) := by
  have ends := lawful.ends
  by_cases hidden : Uncounted platform k
  · obtain ⟨other, errno, _⟩ := hidden
    have value : portableSendfile platform k = -1 := by
      cases platform with
      | linux => exact absurd rfl other
      | osx => simp [portableSendfile, sendfile, errno]
      | freebsd => simp [portableSendfile, sendfile, errno]
    unfold doSendfileOn
    dsimp only
    rw [value, if_pos rfl, errno]
    exact .broken (by simp [errno])
  · rw [doSendfileOn_eq hidden lawful 0 []]
    have inside := lawful.inside
    rw [List.length_drop] at inside
    obtain ⟨sent, errno⟩ := k
    rcases Nat.eq_zero_or_pos sent with rfl | some
    · cases errno with
      | none =>
        have nothing := ends rfl rfl
        have ended : doSendfile c content ⟨.room 1, 0, []⟩ = (c, false) := by
          simp [doSendfile, ← List.length_drop, nothing]
        exact ended.symm ▸ .ended nothing
      | some e =>
        have broken : SendfileOutcome platform c content ⟨0, some e⟩ ((c.sentOf content 0).hungUp, false) :=
          .broken (by simp)
        have same : c.sentOf content 0 = c := by simp [Conn.sentOf]
        rw [same] at broken
        cases e with
        | eagain => exact .again
        | eintr => exact broken
        | other => exact broken
    · have count : sent ≠ 0 := by omega
      have all : min sent (min sendfileChunkSize (content.length - c.currentChunkP.toNat)) = sent :=
        Nat.min_eq_left inside
      have counted : doSendfile c content ⟨SendfileCall.ioResult ⟨sent, errno⟩, 0, []⟩ =
          ({ c.sentOf content sent with currentChunkP := c.currentChunkP + sent }, true) := by
        simp [doSendfile, SendfileCall.ioResult, count, all, Conn.sentOf]
      exact counted.symm ▸ .counted some

theorem InStep.write {before content : Bytes} {start : Nat} {platform : Platform} {c c' : Conn} {k : SendfileCall}
    (h : InStep before start content c) (step : FileWrite platform content c k c') :
    InStep before start content c' := by
  obtain ⟨lawful, step⟩ := step
  obtain ⟨n, inside, offset, sent⟩ := h
  have outcome := doSendfileOn_outcome platform lawful
  have bound := lawful.inside
  have position : c.currentChunkP.toNat = start + n := by omega
  rw [step] at outcome
  cases outcome with
  | again => exact ⟨n, inside, offset, sent⟩
  | counted =>
    rw [position, ← List.drop_drop, List.length_drop] at bound
    refine ⟨n + k.sent, by omega, ?_, ?_⟩
    · show c.currentChunkP + k.sent = ((start + (n + k.sent) : Nat) : Int)
      omega
    · show c.sent ++ (content.drop c.currentChunkP.toNat).take k.sent = _
      rw [sent, position, List.append_assoc, ← List.drop_drop, ← List.take_add]

/-- On every platform, whatever the kernel does, the client gets the file from the offset on in order, without a gap
and without a byte that is sent twice: all of it if no error stops the sending, and a part, after which the connection
is not kept, if one does. -/
theorem file_in_step {platform : Platform} {content : Bytes} {c c' last : Conn} {ks : List SendfileCall}
    {k : SendfileCall} (start : 0 ≤ c.currentChunkP) (run : Run (FileWrite platform content) c ks c')
    (lawful : k.Lawful (content.drop c'.currentChunkP.toNat))
    (ends : doSendfileOn platform c' content k = (last, false)) :
    ∃ part, last.sent = c.sent ++ part ∧ part <+: content.drop c.currentChunkP.toNat ∧
      (part = content.drop c.currentChunkP.toNat ∨ k.errno ≠ none ∧ last.state.keepAlive = false) := by
  have begun : InStep c.sent c.currentChunkP.toNat content c := ⟨0, Nat.zero_le _, by omega, by simp⟩
  obtain ⟨n, most, offset, sent⟩ := run.invariant (InStep c.sent c.currentChunkP.toNat content)
    (fun _ _ _ inv step => inv.write step) begun
  have outcome := doSendfileOn_outcome platform lawful
  have position : c'.currentChunkP.toNat = c.currentChunkP.toNat + n := by omega
  rw [ends] at outcome
  cases outcome with
  | ended nothing =>
    rw [position, ← List.drop_drop] at nothing
    have whole := List.take_append_drop n (content.drop c.currentChunkP.toNat)
    rw [nothing, List.append_nil] at whole
    rw [whole] at sent
    exact ⟨_, sent, List.prefix_refl _, Or.inl rfl⟩
  | broken failed =>
    refine ⟨(content.drop c.currentChunkP.toNat).take (n + k.sent), ?_, List.take_prefix _ _, Or.inr ⟨failed, rfl⟩⟩
    show c'.sent ++ (content.drop c'.currentChunkP.toNat).take k.sent = _
    rw [sent, position, List.append_assoc, ← List.drop_drop, ← List.take_add]

/-- On OS X, a socket with room for two bytes only, then for all. -/
theorem file_in_step_hello : ∃ last part,
    doSendfileOn .osx (doSendfileOn .osx freshConn (ascii "hello") ⟨2, some .eagain⟩).1 (ascii "hello")
      ⟨3, some .other⟩ = (last, false) ∧ last.sent = freshConn.sent ++ part ∧ part <+: ascii "hello" := by
  have first : FileWrite .osx (ascii "hello") freshConn ⟨2, some .eagain⟩ _ := ⟨⟨by decide, nofun⟩, rfl⟩
  obtain ⟨part, sent, inside, _⟩ := file_in_step (k := ⟨3, some .other⟩) (by decide) (.single first)
    ⟨by decide, nofun⟩ rfl
  exact ⟨_, part, rfl, sent, inside⟩

end Bjoern
