import Bjoern.ResponseFrames

namespace Bjoern

theorem pyErrPrint_ok {c c' : Conn} (h : pyErrPrint c = .ok c') :
    c' = { c with pyErr := none } ∧ c.pyErr ≠ some .systemExit := by
  unfold pyErrPrint at h
  split at h
  next => cases h
  next calm =>
    cases h
    exact ⟨rfl, calm⟩

theorem pyErrPrint_only (c : Conn) : ∃ exc, pyErrPrint c = .ok { c with pyErr := exc } ∨
    pyErrPrint c = .error (.exit, { c with pyErr := exc }) := by
  unfold pyErrPrint
  split
  next => exact ⟨c.pyErr, Or.inr rfl⟩
  next => exact ⟨none, Or.inl rfl⟩

/-- `Request_clean` touches the pending exception and the log of the iterable only. -/
theorem requestClean_only (c : Conn) : ∃ log exc, requestClean c = .ok { c with iterLog := log, pyErr := exc } ∨
    requestClean c = .error (.exit, { c with iterLog := log, pyErr := exc }) := by
  unfold requestClean
  split
  next => exact ⟨c.iterLog, c.pyErr, Or.inl rfl⟩
  next => exact ⟨c.iterLog, none, Or.inl rfl⟩
  next exc _ =>
    obtain ⟨exc', printed⟩ := pyErrPrint_only { c with pyErr := some exc }
    exact ⟨c.iterLog, exc', printed⟩
  next =>
    dsimp only
    split
    next =>
      obtain ⟨exc', printed⟩ := pyErrPrint_only { c with iterLog := c.iterLog ++ [.close] }
      exact ⟨_, exc', printed⟩
    next => exact ⟨_, c.pyErr, Or.inl rfl⟩
  next exc _ =>
    obtain ⟨exc', printed⟩ := pyErrPrint_only { c with iterLog := c.iterLog ++ [.close], pyErr := some exc }
    exact ⟨_, exc', printed⟩

theorem requestClean_ok {c c' : Conn} (h : requestClean c = .ok c') :
    ∃ log exc, c' = { c with iterLog := log, pyErr := exc } := by
  obtain ⟨log, exc, cleaned | exits⟩ := requestClean_only c
  · exact ⟨log, exc, Except.ok.inj (h.symm.trans cleaned)⟩
  · cases h.symm.trans exits

/-- The calls of `close()` that `Request_clean` makes. -/
def closeCalls (iterable : Option PyValue) : List IterEvent :=
  if (iterable.map PyValue.closeMethod).any CloseMethod.callable then [.close] else []

/-- Whether `close()` ends in a `SystemExit`, which `PyErr_Print` then obeys. -/
def CloseExits (iterable : Option PyValue) : Prop :=
  iterable.map PyValue.closeMethod = some (.lookupRaises .systemExit) ∨
    iterable.map PyValue.closeMethod = some (.raises .systemExit)

/-- `Request_clean` calls `close()` where there is one, and lets no exception out but `SystemExit`. -/
theorem requestClean_cases {c : Conn} (idle : c.pyErr = none) :
    (¬ CloseExits c.iterable ∧
      requestClean c = .ok { c with iterLog := c.iterLog ++ closeCalls c.iterable }) ∨
    (CloseExits c.iterable ∧ requestClean c =
      .error (.exit, { c with iterLog := c.iterLog ++ closeCalls c.iterable, pyErr := some .systemExit })) := by
  unfold requestClean closeCalls CloseExits
  split
  next h => simp [h]
  next h => simp [h, CloseMethod.callable, ← idle]
  next exc h =>
    cases exc with
    | systemExit => simp [h, CloseMethod.callable, pyErrPrint]
    | other => simp [h, CloseMethod.callable, pyErrPrint, ← idle]
  next h => simp [h, CloseMethod.callable, idle]
  next exc h =>
    cases exc with
    | systemExit => simp [h, CloseMethod.callable, pyErrPrint]
    | other => simp [h, CloseMethod.callable, pyErrPrint, ← idle]

/-- A connection that `close_connection` has closed. -/
structure Closed (c c' : Conn) : Prop where
  evWatcher : c'.evWatcher = .closed
  idle : c'.pyErr = none
  sent : c'.sent = c.sent
  environs : c'.environs = c.environs
  iterLog : c'.iterLog = c.iterLog ++ closeCalls c.iterable

/-- A connection that went back to reading after a response, with its request reset. -/
structure Kept (c c' : Conn) : Prop where
  request : c'.toRequest = { requestReset c.toRequest with evWatcher := .reading }
  idle : c'.pyErr = none
  sent : c'.sent = c.sent
  environs : c'.environs = c.environs
  iterLog : c'.iterLog = c.iterLog ++ closeCalls c.iterable

/-- What a callback that ends in a call of `Request_clean` comes to. -/
inductive Cleaned (c : Conn) (leaves : Conn → Prop) : Except Halted Conn → Prop
  | ok {c'} : ¬ CloseExits c.iterable → leaves c' → Cleaned c leaves (.ok c')
  | exit {c'} : CloseExits c.iterable → c'.sent = c.sent → c'.iterLog = c.iterLog ++ closeCalls c.iterable →
      Cleaned c leaves (.error (.exit, c'))

theorem closeConnection_cleaned {c : Conn} (idle : c.pyErr = none) :
    Cleaned c (Closed c) (closeConnection c) := by
  unfold closeConnection
  rcases requestClean_cases (c := { c with evWatcher := .closed }) idle with ⟨calm, h⟩ | ⟨exits, h⟩
  · rw [h]
    exact .ok calm ⟨rfl, idle, rfl, rfl, rfl⟩
  · rw [h]
    exact .exit exits rfl rfl

theorem finishWrite_aborted {c : Conn} (idle : c.pyErr = none) :
    Cleaned c (Closed c) (finishWrite c .aborted) := by
  have closing := closeConnection_cleaned idle
  unfold finishWrite
  revert closing
  cases closeConnection c with
  | ok c' =>
    rintro (⟨calm, closed⟩ | _)
    exact .ok calm ⟨closed.evWatcher, closed.idle, closed.sent, closed.environs, closed.iterLog⟩
  | error halted =>
    rintro (_ | ⟨exits, sent, log⟩)
    exact .exit exits sent log

theorem finishWrite_done_kept {c : Conn} (idle : c.pyErr = none) (keep : c.state.keepAlive = true) :
    Cleaned c (Kept c) (finishWrite c .done) := by
  unfold finishWrite
  dsimp only
  rw [if_pos (show (c.count .respDone).state.keepAlive = true from keep)]
  rcases requestClean_cases (c := (c.count .respDone).count .respDoneKeepalive) idle with ⟨calm, h⟩ | ⟨exits, h⟩
  · rw [h]
    exact .ok calm ⟨rfl, idle, rfl, rfl, rfl⟩
  · rw [h]
    exact .exit exits rfl rfl

theorem finishWrite_done_closed {c : Conn} (idle : c.pyErr = none) (close : c.state.keepAlive = false) :
    Cleaned c (Closed c) (finishWrite c .done) := by
  have closing := closeConnection_cleaned (c := (c.count .respDone).count .respConnClose) idle
  have concluded : ¬ (c.count .respDone).state.keepAlive = true := by simp [Conn.count, close]
  unfold finishWrite
  dsimp only
  rw [if_neg concluded]
  revert closing
  cases closeConnection ((c.count .respDone).count .respConnClose) with
  | ok c' =>
    rintro (⟨calm, closed⟩ | _)
    exact .ok calm ⟨closed.evWatcher, closed.idle, closed.sent, closed.environs, closed.iterLog⟩
  | error halted =>
    rintro (_ | ⟨exits, sent, log⟩)
    exact .exit exits sent log

/-- A finished response leaves the connection kept or closed, as `keep_alive` says. -/
theorem finishWrite_done {c : Conn} (idle : c.pyErr = none) :
    Cleaned c (fun c' => if c.state.keepAlive then Kept c c' else Closed c c') (finishWrite c .done) := by
  cases keep : c.state.keepAlive with
  | true => simpa using finishWrite_done_kept idle keep
  | false => simpa using finishWrite_done_closed idle keep

theorem Cleaned.of_ok {c c' : Conn} {leaves : Conn → Prop} (h : Cleaned c leaves (.ok c')) :
    ¬ CloseExits c.iterable ∧ leaves c' := by
  cases h with
  | ok calm left => exact ⟨calm, left⟩

end Bjoern
