import Bjoern.ChunkDelivery

namespace Bjoern

open Runs

/-- The descriptor stays at `pos`, and `sendfile()` does not return 0 before the end of the file. -/
def Transfers (pos : Nat) (c : Conn) (w : WriteEvent) : Prop :=
  w.lseek = pos ∧ (c.currentChunk = .null → w.result ≠ .room 0)

/-- A connection that answers with a file, in a step other than the closing one. -/
structure FileResponse (wrapper : FileWrapper) (keep : Bool) (c : Conn) : Prop where
  writing : c.evWatcher = .writing
  idle : c.pyErr = none
  clear : c.state.expectContinue = false
  iterable : c.iterable = some (.fileWrapper wrapper)
  descriptor : wrapper.fd ≠ -1
  keepAlive : c.state.keepAlive = keep

theorem FileResponse.moved {wrapper : FileWrapper} {keep : Bool} {c : Conn} (h : FileResponse wrapper keep c)
    (chunk : ChunkRef) (position : Int) (sent : Bytes) (metrics : List Metric) : FileResponse wrapper keep
      { c with currentChunk := chunk, currentChunkP := position, sent := sent, metrics := metrics } :=
  ⟨h.writing, h.idle, h.clear, h.iterable, h.descriptor, h.keepAlive⟩

theorem FileResponse.writeResponse {wrapper : FileWrapper} {keep : Bool} {c : Conn} (h : FileResponse wrapper keep c)
    (w : WriteEvent) : writeResponse c w = onWriteSendfile c wrapper.content w := by
  simp [Bjoern.writeResponse, h.iterable, h.descriptor]

/-- The two phases of `on_write_sendfile`. In the first `current_chunk_p` counts the sent bytes of the header
block, in the second it is the offset in the file. -/
inductive Transferring (before header : Bytes) (wrapper : FileWrapper) (pos : Nat) (keep : Bool) (c : Conn) : Prop
  | header {accepted} (response : FileResponse wrapper keep c) (sending : SendingChunk c header)
      (sent : c.sent = before ++ accepted) (left : accepted ++ header.drop c.currentChunkP.toNat = header)
  | file {k} (response : FileResponse wrapper keep c) (chunk : c.currentChunk = .null)
      (inside : k ≤ (wrapper.content.drop pos).length) (offset : c.currentChunkP = ((pos + k : Nat) : Int))
      (sent : c.sent = before ++ (header ++ (wrapper.content.drop pos).take k))
  | concluded (stopped : c.evWatcher ≠ .writing) (sent : c.sent = before ++ (header ++ wrapper.content.drop pos))

/-- What one call of `on_write_sendfile` without a fatal error does. -/
inductive TransferStep (before header : Bytes) (wrapper : FileWrapper) (pos : Nat) (keep : Bool) :
    Except Halted (Conn × RwState) → Prop
  | more {c'} : Transferring before header wrapper pos keep c' → FileResponse wrapper keep c' →
      TransferStep before header wrapper pos keep (.ok (c', .notYetDone))
  | done {c'} : FileResponse wrapper keep c' → c'.sent = before ++ (header ++ wrapper.content.drop pos) →
      TransferStep before header wrapper pos keep (.ok (c', .done))

theorem header_step {before header accepted : Bytes} {wrapper : FileWrapper} {pos : Nat} {keep : Bool} {c : Conn}
    {w : WriteEvent} (response : FileResponse wrapper keep c) (sending : SendingChunk c header)
    (sent : c.sent = before ++ accepted)
    (left : accepted ++ header.drop c.currentChunkP.toNat = header) (hw : ¬ Fatal w) (transfers : Transfers pos c w) :
    TransferStep before header wrapper pos keep (onWriteSendfile c wrapper.content w) := by
  have started : c.currentChunk ≠ .null := by simp [sending.chunk]
  unfold onWriteSendfile
  rw [if_pos started]
  rcases doSendChunk_cases sending hw with ⟨k, hk, step⟩ | step
  · rw [step]
    have response' : FileResponse wrapper keep (c.sentPart ((header.drop c.currentChunkP.toNat).take k)) :=
      response.moved _ _ _ _
    have more : (c.sentPart ((header.drop c.currentChunkP.toNat).take k)).sent =
        before ++ (accepted ++ (header.drop c.currentChunkP.toNat).take k) := by
      simp [Conn.sentPart, sent]
    refine .more (.header response' (sending.sentPart hk) more ?_) response'
    rw [List.append_assoc, sending.sentPart_rest hk, left]
  · rw [step]
    have found : ¬ w.lseek = -1 := by
      rw [transfers.1]
      omega
    simp only [ok_bind, Bool.false_eq_true, if_false, if_neg found]
    have response' : FileResponse wrapper keep
        { c.sentAll (header.drop c.currentChunkP.toNat) with currentChunkP := w.lseek } :=
      response.moved _ _ _ _
    refine .more (.file (k := 0) response' rfl (Nat.zero_le _) transfers.1 ?_) response'
    simp [Conn.sentAll, sent, left]

theorem file_step {before header : Bytes} {wrapper : FileWrapper} {pos k : Nat} {keep : Bool} {c : Conn}
    {w : WriteEvent} (response : FileResponse wrapper keep c) (chunk : c.currentChunk = .null)
    (inside : k ≤ (wrapper.content.drop pos).length) (offset : c.currentChunkP = ((pos + k : Nat) : Int))
    (sent : c.sent = before ++ (header ++ (wrapper.content.drop pos).take k)) (hw : ¬ Fatal w)
    (transfers : Transfers pos c w) :
    TransferStep before header wrapper pos keep (onWriteSendfile c wrapper.content w) := by
  have position : c.currentChunkP.toNat = pos + k := by omega
  have concluded : ¬ c.currentChunk ≠ .null := by simp [chunk]
  have same : Transferring before header wrapper pos keep c := .file response chunk inside offset sent
  unfold onWriteSendfile
  rw [if_neg concluded]
  cases he : w.result with
  | errno e =>
    have again : e.tryAgain = true := by
      cases e with
      | other => exact absurd he hw
      | _ => rfl
    simpa [doSendfile, he, handleNonzeroErrno, again] using TransferStep.more same response
  | room n =>
    have some : n ≠ 0 := fun zero => transfers.2 chunk (zero ▸ he)
    have rest : wrapper.content.length - c.currentChunkP.toNat = (wrapper.content.drop pos).length - k := by
      simp only [position, List.length_drop]
      omega
    have size : 0 < sendfileChunkSize := by decide
    simp only [doSendfile, he, rest]
    by_cases zero : min n (min sendfileChunkSize ((wrapper.content.drop pos).length - k)) = 0
    · rw [if_pos zero]
      have all : (wrapper.content.drop pos).length ≤ k := by omega
      refine .done response ?_
      rw [sent, List.take_of_length_le all]
    · rw [if_neg zero]
      have fits : min n (min sendfileChunkSize ((wrapper.content.drop pos).length - k)) ≤
          (wrapper.content.drop pos).length - k := by omega
      refine .more (.file (k := k + min n (min sendfileChunkSize ((wrapper.content.drop pos).length - k)))
        (response.moved _ _ _ _) chunk (by omega) ?_ ?_)
        (response.moved _ _ _ _)
      · simp only [offset]
        omega
      · rw [List.take_add, List.drop_drop, ← position, sent]
        simp

theorem Transferring.accepted {before header : Bytes} {wrapper : FileWrapper} {pos : Nat} {keep : Bool} {c : Conn}
    (h : Transferring before header wrapper pos keep c) :
    ∃ accepted, c.sent = before ++ accepted ∧ accepted <+: header ++ wrapper.content.drop pos := by
  cases h with
  | @header accepted _ _ sent left =>
    refine ⟨accepted, sent, header.drop c.currentChunkP.toNat ++ wrapper.content.drop pos, ?_⟩
    rw [← List.append_assoc, left]
  | @file k _ _ _ _ sent =>
    exact ⟨_, sent, (List.prefix_append_right_inj header).mpr (List.take_prefix k _)⟩
  | concluded _ sent => exact ⟨_, sent, List.prefix_refl _⟩

theorem Transferring.step {before header : Bytes} {wrapper : FileWrapper} {pos : Nat} {keep : Bool} {c : Conn}
    {w : WriteEvent} (h : Transferring before header wrapper pos keep c) (writing : c.evWatcher = .writing)
    (hw : ¬ Fatal w) (transfers : Transfers pos c w) :
    writeResponse c w = onWriteSendfile c wrapper.content w ∧ c.state.expectContinue = false ∧
      TransferStep before header wrapper pos keep (onWriteSendfile c wrapper.content w) := by
  cases h with
  | header response sending sent left =>
    exact ⟨response.writeResponse w, response.clear, header_step response sending sent left hw transfers⟩
  | file response chunk inside offset sent =>
    exact ⟨response.writeResponse w, response.clear, file_step response chunk inside offset sent hw transfers⟩
  | concluded stopped => exact absurd writing stopped

theorem Transferring.routes {before header : Bytes} {wrapper : FileWrapper} {pos : Nat} {keep : Bool} {c : Conn}
    (h : Transferring before header wrapper pos keep c) (writing : c.evWatcher = .writing) :
    c.routesSendfile = true := by
  have routes : FileResponse wrapper keep c → c.routesSendfile = true := by
    intro response
    simp [Conn.routesSendfile, response.iterable, PyValue.hasDescriptor, response.descriptor]
  cases h with
  | header response => exact routes response
  | file response => exact routes response
  | concluded stopped => exact absurd writing stopped

theorem Transferring.count {before header : Bytes} {wrapper : FileWrapper} {pos : Nat} {keep : Bool} {c : Conn}
    (h : Transferring before header wrapper pos keep c) (metric : Metric) :
    Transferring before header wrapper pos keep (c.count metric) := by
  cases h with
  | header response sending sent left =>
    exact .header (response.moved _ _ _ _) (sending.count metric) sent left
  | file response chunk inside offset sent =>
    exact .file (response.moved _ _ _ _) chunk inside offset sent
  | concluded stopped sent => exact .concluded stopped sent

theorem Transferring.transmit {before header : Bytes} {wrapper : FileWrapper} {pos : Nat} {keep : Bool} {c c' : Conn}
    {w : WriteEvent} (h : Transferring before header wrapper pos keep c)
    (step : Guarded (Transfers pos) Transmit c w c') : Transferring before header wrapper pos keep c' := by
  obtain ⟨transfers, writing, hw, step⟩ := step
  obtain ⟨route, clear, progress⟩ := h.step writing hw transfers
  obtain ⟨⟨mid, state⟩, hm, step⟩ := bind_ok step
  rw [← route, hm] at progress
  cases progress with
  | more next response =>
    simp only [response.clear] at step
    cases step
    exact next.count _
  | done response all =>
    simp only [response.clear] at step
    have finished := finishWrite_done response.idle
    rw [show finishWrite mid .done = .ok c' from step] at finished
    have last := finished.of_ok.2
    split at last
    next => exact .concluded (by rw [last.request]; simp) (last.sent.trans all)
    next => exact .concluded (by rw [last.evWatcher]; simp) (last.sent.trans all)

/-- What one call of `on_write_sendfile` does where `header` and then `file` are left to send. -/
def NextTransfer (c : Conn) (content header file : Bytes) (w : WriteEvent) : Prop :=
  match w.result with
  | .errno _ => onWriteSendfile c content w = .ok (c, .notYetDone)
  | .room n =>
    if header = [] ∧ file = [] then onWriteSendfile c content w = .ok (c, .done)
    else ∃ last, onWriteSendfile c content w = .ok (last, .notYetDone) ∧
      last.sent = c.sent ++ if header = [] then file.take (min n sendfileChunkSize) else header.take n

theorem header_next {c : Conn} {header file content : Bytes} {w : WriteEvent} {pos : Nat}
    (sending : SendingChunk c header) (hw : ¬ Fatal w) (transfers : Transfers pos c w) :
    NextTransfer c content (header.drop c.currentChunkP.toNat) file w := by
  have started : c.currentChunk ≠ .null := by simp [sending.chunk]
  have inside := sending.inside
  have start := sending.start
  have some : header.drop c.currentChunkP.toNat ≠ [] := by
    rw [ne_eq, List.drop_eq_nil_iff]
    omega
  unfold NextTransfer onWriteSendfile
  simp only [if_pos started]
  split
  next e failed => rw [doSendChunk_again sending.chunk failed hw]; rfl
  next n room =>
    simp only [some, false_and, if_false]
    by_cases full : (header.drop c.currentChunkP.toNat).length ≤ n
    · rw [doSendChunk_whole sending room full]
      have found : ¬ w.lseek = -1 := by
        rw [transfers.1]
        omega
      refine ⟨_, by simp only [ok_bind, Bool.false_eq_true, if_false, if_neg found]; rfl, ?_⟩
      simp [Conn.sentAll, List.take_of_length_le full]
    · rw [doSendChunk_part sending room (by omega)]
      exact ⟨_, rfl, rfl⟩

theorem file_next {c : Conn} {content : Bytes} {w : WriteEvent} {pos : Nat} (chunk : c.currentChunk = .null)
    (hw : ¬ Fatal w) (transfers : Transfers pos c w) :
    NextTransfer c content [] (content.drop c.currentChunkP.toNat) w := by
  have concluded : ¬ c.currentChunk ≠ .null := by simp [chunk]
  unfold NextTransfer onWriteSendfile doSendfile
  rw [if_neg concluded]
  cases result : w.result with
  | errno e =>
    have again : e.tryAgain = true := by
      cases e with
      | other => exact absurd result hw
      | _ => rfl
    simp [handleNonzeroErrno, again]
  | room n =>
    have some : n ≠ 0 := fun zero => transfers.2 chunk (zero ▸ result)
    have size : 0 < sendfileChunkSize := by decide
    have empty : content.drop c.currentChunkP.toNat = [] ↔ content.length - c.currentChunkP.toNat = 0 := by
      rw [List.drop_eq_nil_iff]
      omega
    simp only [true_and, if_true, empty]
    by_cases ended : content.length - c.currentChunkP.toNat = 0
    · simp [ended]
    · have positive : ¬ min n (min sendfileChunkSize (content.length - c.currentChunkP.toNat)) = 0 := by omega
      rw [if_neg ended, if_neg positive]
      refine ⟨_, rfl, ?_⟩
      rw [← Nat.min_assoc, ← List.length_drop, ← List.take_eq_take_min]

/-- What is left to send of the header block and of the file. -/
theorem Transferring.next {before header : Bytes} {wrapper : FileWrapper} {pos : Nat} {keep : Bool} {c : Conn}
    (h : Transferring before header wrapper pos keep c) : ∃ accepted headerLeft fileLeft,
      c.sent = before ++ accepted ∧ accepted ++ (headerLeft ++ fileLeft) = header ++ wrapper.content.drop pos ∧
      headerLeft <:+ header ∧ (headerLeft = [] ∨ fileLeft = wrapper.content.drop pos) ∧
      (c.evWatcher = .writing ∨ headerLeft ++ fileLeft = []) ∧
      ∀ w, c.evWatcher = .writing → ¬ Fatal w → Transfers pos c w →
        NextTransfer c wrapper.content headerLeft fileLeft w := by
  cases h with
  | @header accepted response sending sent left =>
    refine ⟨accepted, _, _, sent, ?_, List.drop_suffix _ _, Or.inr rfl, Or.inl response.writing,
      fun w _ hw => header_next sending hw⟩
    rw [← List.append_assoc, left]
  | @file k response chunk inside offset sent =>
    have position : c.currentChunkP.toNat = pos + k := by omega
    refine ⟨_, [], wrapper.content.drop c.currentChunkP.toNat, sent, ?_, List.nil_suffix, Or.inl rfl,
      Or.inl response.writing, fun w _ hw => file_next chunk hw⟩
    rw [position, ← List.drop_drop, List.nil_append, List.append_assoc, List.take_append_drop]
  | concluded stopped sent =>
    exact ⟨_, [], [], sent, by simp, List.nil_suffix, Or.inl rfl, Or.inr rfl, fun w writing => absurd writing stopped⟩

/-- A file response sends the header block and then the file from the position of its descriptor, without gap or
repetition: a write takes as much of the header block as it has room for, a transfer as much of the file up to the
chunk size, and the response is reported done exactly when nothing of either is left. -/
theorem file_delivered {c₀ c c' : Conn} {r : Request} {app : PyCall PyValue} {wrapper : FileWrapper} {pos : Nat}
    {writes : List WriteEvent} (idle : c₀.pyErr = none) (answered : wsgiCallApplication c₀ app = .ok (c, true))
    (calls : CallsMade c₀ app r) (returned : app.result = .ok (.fileWrapper wrapper))
    (branch : retvalBranch r (.fileWrapper wrapper) = .file) (clear : c.state.expectContinue = false)
    (run : Run (Guarded (Transfers pos) Transmit) (startWriting c) writes c') :
    ∃ accepted headerLeft fileLeft, c'.sent = c.sent ++ accepted ∧
      accepted ++ (headerLeft ++ fileLeft) = wsgiGetheaders c.toRequest ++ wrapper.content.drop pos ∧
      headerLeft <:+ wsgiGetheaders c.toRequest ∧ (headerLeft = [] ∨ fileLeft = wrapper.content.drop pos) ∧
      (c'.evWatcher = .writing ∨ headerLeft ++ fileLeft = []) ∧
      ∀ w, c'.evWatcher = .writing → ¬ Fatal w → Transfers pos c' w →
        writeResponse c' w = onWriteSendfile c' wrapper.content w ∧
          NextTransfer c' wrapper.content headerLeft fileLeft w := by
  obtain ⟨r', calls', outcome⟩ := wsgiCallApplication_outcome answered
  obtain rfl := calls.unique calls'
  obtain ⟨idle', iterable, _, chunk, position⟩ := outcome.file_branch returned branch
  have descriptor : wrapper.fd ≠ -1 := by simpa [PyValue.hasDescriptor] using (retvalBranch_file.mp branch).1
  have length := wsgiGetheaders_length c.toRequest
  have none : (startWriting c).sent = c.sent ++ [] := (List.append_nil _).symm
  have start : Transferring c.sent (wsgiGetheaders c.toRequest) wrapper pos c.state.keepAlive (startWriting c) :=
    .header ⟨rfl, idle'.trans idle, clear, iterable, descriptor, rfl⟩
      ⟨chunk, by simp [startWriting, position], by simpa [startWriting, position] using length⟩ none
      (by simp [startWriting, position])
  have reached := run.invariant (Transferring c.sent (wsgiGetheaders c.toRequest) wrapper pos c.state.keepAlive)
    (fun _ _ _ inv step => inv.transmit step) start
  obtain ⟨accepted, headerLeft, fileLeft, sent, whole, part, split, ended, next⟩ := reached.next
  exact ⟨accepted, headerLeft, fileLeft, sent, whole, part, split, ended, fun w writing hw transfers =>
    ⟨(reached.step writing hw transfers).1, next w writing hw transfers⟩⟩

/-- A file without a buffer that holds `hello`. -/
def helloFile : PyFile := ⟨some 3, ascii "hello", 0, 0, .returns⟩

/-- The same file behind its first two bytes, wrapped. -/
def helloRest : FileWrapper := fileWrapperNew (helloFile.skip 2) none

/-- A `start_response` call that announces the length. -/
def lengthArgs : List PyArg :=
  [.str [50, 48, 48], .list [.tuple [.str ((ascii "Content-Length").map UInt8.toNat), .str [51]]]]

/-- A `sendfile()` or `write()` with room for `n` bytes, while the descriptor is at `pos`. -/
def transfers (pos n : Nat) : WriteEvent := ⟨.room n, pos, []⟩

/-- A file of which the first two bytes were read before the response begins: two transfers bring the other three, and
the next one reports the end. -/
theorem file_delivered_from_two : ∃ c c',
    wsgiCallApplication freshConn ⟨[lengthArgs], .ok (.fileWrapper helloRest)⟩ = .ok (c, true) ∧
      Run Transmit (startWriting c) [transfers 2 1000, transfers 2 2, transfers 2 9] c' ∧
      c'.evWatcher = .writing ∧ c'.sent = c.sent ++ (wsgiGetheaders c.toRequest ++ ascii "llo") ∧
      onWriteSendfile c' helloRest.content (transfers 2 9) = .ok (c', .done) := by
  have lawful : ∀ c n, Transfers (helloFile.skip 2).descriptor c (transfers 2 (n + 1)) := fun c n =>
    ⟨rfl, by simp [transfers]⟩
  have two : ∃ c c', wsgiCallApplication freshConn ⟨[lengthArgs], .ok (.fileWrapper helloRest)⟩ = .ok (c, true) ∧
      c.state.expectContinue = false ∧
      Run (Guarded (Transfers (helloFile.skip 2).descriptor) Transmit) (startWriting c)
        [transfers 2 1000, transfers 2 2, transfers 2 9] c' ∧
      c'.evWatcher = .writing ∧ c'.sent = c.sent ++ (wsgiGetheaders c.toRequest ++ ascii "llo") :=
    ⟨_, _, rfl, rfl, .cons ⟨lawful _ 999, rfl, by decide, rfl⟩ (.cons ⟨lawful _ 1, rfl, by decide, rfl⟩
      (.single ⟨lawful _ 8, rfl, by decide, rfl⟩)), rfl, by decide⟩
  obtain ⟨c, c', answered, clear, run, writing, all⟩ := two
  obtain ⟨accepted, headerLeft, fileLeft, sent, whole, _, _, _, next⟩ :=
    file_delivered rfl answered rfl rfl rfl clear run
  obtain rfl := List.append_cancel_left (sent.symm.trans all)
  obtain ⟨rfl, rfl⟩ := List.append_eq_nil_iff.mp (List.append_right_eq_self.mp whole)
  exact ⟨c, c', answered, run.mono fun _ _ _ step => step.2, writing, all,
    (next (transfers 2 9) writing (by decide) (lawful _ 8)).2⟩

end Bjoern
