import Bjoern.SendfileDelivery
import Bjoern.WriteStep

namespace Bjoern

open Runs

/-- A list of one `bytes` object, as an instance of `list` or of a subclass of it. `own` tells whether the subclass
defines its own iteration; without, it is that of `list`. -/
structure ListOfOne where
  data : Bytes
  own : Bool
  iter : PyCall PyIter
  close : CloseMethod
  inherited : own = false → iter = ⟨[], .ok [⟨[], .ok (.bytes data)⟩]⟩

def ListOfOne.value (l : ListOfOne) : PyValue := .list [some l.data] l.iter l.close

/-- The same object where it is taken for an iterable like any other. -/
def ListOfOne.iterable (l : ListOfOne) : PyValue := .other l.iter l.close

/-- The logged calls of methods that the application defined. -/
def ListOfOne.calls (l : ListOfOne) (log : List IterEvent) : List IterEvent :=
  log.filter fun event => event = .close ∨ l.own

/-- Cleaning up calls nothing: there is no `close`, or its lookup fails with an exception that is only printed. -/
def QuietClose (close : CloseMethod) : Prop := close = .absent ∨ close = .lookupRaises .other

/-- The connection with an iterable whose iteration took `n` calls. -/
def Conn.iterating (c : Conn) (v : Option PyValue) (steps : Option PyIter) (n : Nat) : Conn :=
  { c with iterable := v, iterator := steps, iterLog := c.iterLog ++ List.replicate n .next }

/-- Two connections with the same response: `c` has nothing left to iterate, `d` an exhausted iterator and an
iterable that cleans up quietly. -/
structure Alongside (c d : Conn) : Prop where
  idle : c.pyErr = none
  iterable : c.iterable = none
  iterator : c.iterator = none
  shape : ∃ v steps n, d = c.iterating v steps n ∧ (steps = none ∨ steps = some []) ∧
    (v = none ∨ ∃ iter close, v = some (.other iter close) ∧ QuietClose close)

/-- Two results of the same code on such connections. -/
inductive Matched {α : Type} (rel : α → α → Prop) : Except Halted α → Except Halted α → Prop
  | ok {a b} : rel a b → Matched rel (.ok a) (.ok b)
  | halted {halt c d} : Matched rel (.error (halt, c)) (.error (halt, d))

/-- They agree also in what they report. -/
def AlongsideWith {α : Type} (x y : Conn × α) : Prop := Alongside x.1 y.1 ∧ x.2 = y.2

theorem Matched.bind {α β : Type} {rel : α → α → Prop} {rel' : β → β → Prop} {x y : Except Halted α}
    {f g : α → Except Halted β} (first : Matched rel x y) (next : ∀ a b, rel a b → Matched rel' (f a) (g b)) :
    Matched rel' (x >>= f) (y >>= g) := by
  cases first with
  | ok related => exact next _ _ related
  | halted => exact .halted

/-- What does not touch the iteration keeps them alongside. -/
theorem Alongside.map {c d : Conn} (h : Alongside c d) (f : Conn → Conn) (idle : (f c).pyErr = c.pyErr)
    (iterable : (f c).iterable = c.iterable) (iterator : (f c).iterator = c.iterator)
    (commutes : ∀ v steps n, f (c.iterating v steps n) = (f c).iterating v steps n) : Alongside (f c) (f d) := by
  obtain ⟨none, noIterable, noIterator, v, steps, n, rfl, given, quiet⟩ := h
  exact ⟨idle.trans none, iterable.trans noIterable, iterator.trans noIterator, v, steps, n, commutes v steps n, given,
    quiet⟩

theorem Alongside.state {c d : Conn} (h : Alongside c d) : d.state = c.state := by
  obtain ⟨_, _, _, v, steps, n, rfl, _, _⟩ := h
  rfl

theorem Alongside.handleNonzeroErrno {c d : Conn} (h : Alongside c d) (e : Errno) :
    AlongsideWith (handleNonzeroErrno c e) (handleNonzeroErrno d e) := by
  unfold Bjoern.handleNonzeroErrno
  split
  next => exact ⟨h, rfl⟩
  next =>
    obtain ⟨idle, iterable, iterator, v, steps, n, rfl, _, quiet⟩ := h
    exact ⟨⟨idle, iterable, rfl, v, none, n, rfl, Or.inl rfl, quiet⟩, rfl⟩

theorem Alongside.doSendChunk {c d : Conn} (h : Alongside c d) (w : WriteEvent) :
    Matched AlongsideWith (doSendChunk c w) (doSendChunk d w) := by
  have errnos := h.handleNonzeroErrno
  obtain ⟨idle, iterable, iterator, v, steps, n, rfl, given, quiet⟩ := h
  have chunk : (c.iterating v steps n).currentChunk = c.currentChunk := rfl
  have position : (c.iterating v steps n).currentChunkP = c.currentChunkP := rfl
  unfold Bjoern.doSendChunk
  rw [chunk, position]
  split
  next data _ =>
    split
    next e _ => exact .ok (errnos e)
    next room _ =>
      dsimp only
      split
      next => exact .ok ⟨⟨idle, iterable, iterator, v, steps, n, rfl, given, quiet⟩, rfl⟩
      next => exact .ok ⟨⟨idle, iterable, iterator, v, steps, n, rfl, given, quiet⟩, rfl⟩
  next => exact .halted

theorem Alongside.sendTerminatorChunk {c d : Conn} (h : Alongside c d) :
    AlongsideWith (sendTerminatorChunk c) (sendTerminatorChunk d) := by
  unfold Bjoern.sendTerminatorChunk
  rw [h.state]
  split
  next =>
    have installed := h.map (fun c => { c with
      currentChunk := .owned (ascii "0\r\n\r\n"), state.chunkedResponse := false }) rfl rfl rfl fun _ _ _ => rfl
    exact ⟨by simpa [h.state] using installed, rfl⟩
  next => exact ⟨h, rfl⟩

/-- With its chunk sent, the one goes to the terminator at once and the other once its iterator has stopped. -/
theorem Alongside.onWriteChunk {c d : Conn} (h : Alongside c d) (w : WriteEvent) :
    Matched AlongsideWith (onWriteChunk c w) (onWriteChunk d w) := by
  unfold Bjoern.onWriteChunk
  refine (h.doSendChunk w).bind ?_
  rintro ⟨c', left⟩ ⟨d', left'⟩ ⟨related, same⟩
  obtain rfl : left = left' := same
  dsimp only at related ⊢
  split
  next => exact .ok ⟨related, rfl⟩
  next =>
    rw [if_neg (by simp [related.iterator])]
    have direct := related
    obtain ⟨idle, iterable, iterator, v, steps, n, rfl, given, quiet⟩ := related
    rcases given with rfl | rfl
    · exact .ok direct.sendTerminatorChunk
    · have stopped : Alongside c' { c'.iterating v (some []) n with
          iterator := none, iterLog := (c'.iterating v (some []) n).iterLog ++ [.next] } := by
        refine ⟨idle, iterable, iterator, v, none, n + 1, ?_, Or.inl rfl, quiet⟩
        simp [Conn.iterating, ← List.replicate_append_replicate]
      have last : Matched AlongsideWith (.ok (Bjoern.sendTerminatorChunk c'))
          (.ok (Bjoern.sendTerminatorChunk { c'.iterating v (some []) n with
            iterator := none, iterLog := (c'.iterating v (some []) n).iterLog ++ [.next] })) :=
        .ok stopped.sendTerminatorChunk
      simpa [Conn.iterating, wsgiIterableGetNextChunk, nextChunkLoop, idle] using last

theorem Alongside.direct {c d : Conn} (h : Alongside c d) : c.routesSendfile = false ∧ d.routesSendfile = false := by
  obtain ⟨_, iterable, _, v, steps, n, rfl, _, quiet⟩ := h
  refine ⟨by simp [Conn.routesSendfile, iterable], ?_⟩
  rcases quiet with rfl | ⟨iter, close, rfl, _⟩
  · rfl
  · rfl

theorem Alongside.requestClean {c d : Conn} (h : Alongside c d) :
    requestClean c = .ok c ∧ requestClean d = .ok d := by
  obtain ⟨idle, iterable, _, v, steps, n, rfl, _, quiet⟩ := h
  have idle' : (c.iterating v steps n).pyErr = none := idle
  have given : (c.iterating v steps n).iterable = v := rfl
  refine ⟨by simp [Bjoern.requestClean, iterable], ?_⟩
  rcases quiet with rfl | ⟨iter, close, rfl, rfl | rfl⟩
  · rfl
  · simp only [Bjoern.requestClean, given, PyValue.closeMethod, Option.map_some]
    rw [← idle']
  · simp only [Bjoern.requestClean, given, PyValue.closeMethod, Option.map_some, pyErrPrint]
    rw [if_neg (by simp), ← idle']

theorem Alongside.count {c d : Conn} (h : Alongside c d) (metric : Metric) :
    Alongside (c.count metric) (d.count metric) :=
  h.map (Conn.count · metric) rfl rfl rfl fun _ _ _ => rfl

theorem Alongside.closeConnection {c d : Conn} (h : Alongside c d) :
    Matched Alongside (closeConnection c) (closeConnection d) := by
  have closed : Alongside { c with evWatcher := .closed } { d with evWatcher := .closed } :=
    h.map (fun c => { c with evWatcher := .closed }) rfl rfl rfl fun _ _ _ => rfl
  obtain ⟨clean, clean'⟩ := closed.requestClean
  unfold Bjoern.closeConnection
  rw [clean, clean']
  exact .ok closed

theorem Alongside.finishWrite {c d : Conn} (h : Alongside c d) (state : RwState) :
    Matched Alongside (finishWrite c state) (finishWrite d state) := by
  cases state with
  | notYetDone => exact .ok (h.count _)
  | expectContinue =>
    exact .ok (h.map (fun c => startReading { c with state.expectContinue := false }) rfl rfl rfl fun _ _ _ => rfl)
  | aborted =>
    refine h.closeConnection.bind fun c' d' closed => ?_
    exact .ok (closed.count _)
  | done =>
    have counted := h.count .respDone
    unfold Bjoern.finishWrite
    dsimp only
    rw [counted.state]
    split
    next =>
      have kept := counted.count .respDoneKeepalive
      obtain ⟨clean, clean'⟩ := kept.requestClean
      rw [clean, clean']
      refine .ok ?_
      obtain ⟨idle, _, _, v, steps, n, rfl, _, _⟩ := h
      exact ⟨idle, rfl, rfl, none, none, n, rfl, Or.inl rfl, Or.inl rfl⟩
    next => exact (counted.count .respConnClose).closeConnection

theorem Alongside.evIoOnWrite {c d : Conn} (h : Alongside c d) (w : WriteEvent) :
    Matched Alongside (evIoOnWrite c w) (evIoOnWrite d w) := by
  unfold Bjoern.evIoOnWrite
  rw [writeResponse_chunk h.direct.1, writeResponse_chunk h.direct.2]
  refine (h.onWriteChunk w).bind ?_
  rintro ⟨c', state⟩ ⟨d', state'⟩ ⟨related, same⟩
  obtain rfl : state = state' := same
  dsimp only
  rw [related.state]
  exact related.finishWrite _

theorem Alongside.evWatcher {c d : Conn} (h : Alongside c d) : d.evWatcher = c.evWatcher := by
  obtain ⟨_, _, _, v, steps, n, rfl, _, _⟩ := h
  rfl

theorem Alongside.transmit {c d c' : Conn} {w : WriteEvent} (h : Alongside c d) (step : Transmit c w c') :
    ∃ d', Transmit d w d' ∧ Alongside c' d' := by
  obtain ⟨writing, hw, step⟩ := step
  have matched := h.evIoOnWrite w
  rw [step] at matched
  generalize result : Bjoern.evIoOnWrite d w = y at matched
  cases matched with
  | ok related => exact ⟨_, ⟨h.evWatcher.trans writing, hw, result⟩, related⟩

theorem Alongside.transmit_back {c d d' : Conn} {w : WriteEvent} (h : Alongside c d) (step : Transmit d w d') :
    ∃ c', Transmit c w c' ∧ Alongside c' d' := by
  obtain ⟨writing, hw, step⟩ := step
  have matched := h.evIoOnWrite w
  rw [step] at matched
  generalize result : Bjoern.evIoOnWrite c w = x at matched
  cases matched with
  | ok related => exact ⟨_, ⟨h.evWatcher.symm.trans writing, hw, result⟩, related⟩

/-- The two ways to take the value find the same first chunk. -/
theorem takeRetval_alongside {l : ListOfOne} (inherited : l.own = false) (quiet : QuietClose l.close) {c : Conn}
    (idle : c.pyErr = none) : ∃ c' d' first, takeRetval c l.value = .ok (c', some first) ∧
      takeRetval c l.iterable = .ok (d', some first) ∧ Alongside c' d' := by
  have iter := l.inherited inherited
  refine ⟨{ c with iterable := none, iterator := none },
    c.iterating (some l.iterable) (some []) (if l.data = [] then 2 else 1), if l.data = [] then none else some l.data,
    rfl, ?_, idle, rfl, rfl, some l.iterable, some [], _, rfl, Or.inr rfl, Or.inr ⟨l.iter, l.close, rfl, quiet⟩⟩
  have branch : retvalBranch c.toRequest l.iterable = .generic := by
    simp [retvalBranch, ListOfOne.iterable, PyValue.hasDescriptor]
  unfold takeRetval
  rw [branch]
  simp only [ListOfOne.iterable, PyValue.getIter, iter]
  by_cases empty : l.data = []
  · simp [callStartResponses, runStartResponses, wsgiIterableGetNextChunk, nextChunkLoop, empty, idle, Conn.iterating]
  · simp [callStartResponses, runStartResponses, wsgiIterableGetNextChunk, nextChunkLoop, empty, Conn.iterating]

theorem specialCaseStatus_iterating (r : Request) (v : Option PyValue) (steps : Option PyIter) :
    specialCaseStatus { r with iterable := v, iterator := steps } =
      { specialCaseStatus r with iterable := v, iterator := steps } := by
  unfold specialCaseStatus
  split
  next => rfl
  next => rfl

theorem decideKeepAlive_iterating (r : Request) (v : Option PyValue) (steps : Option PyIter) :
    decideKeepAlive { r with iterable := v, iterator := steps } =
      { decideKeepAlive r with iterable := v, iterator := steps } := by
  unfold decideKeepAlive
  split
  next =>
    split
    next =>
      split
      next => rfl
      next => rfl
    next => rfl
  next => rfl

/-- The framing does not depend on what is iterated. -/
theorem chooseFraming_iterating (r : Request) (v : Option PyValue) (steps : Option PyIter) :
    chooseFraming { r with iterable := v, iterator := steps } =
      { chooseFraming r with iterable := v, iterator := steps } := by
  rw [chooseFraming, specialCaseStatus_iterating, decideKeepAlive_iterating]
  rfl

theorem Alongside.installResponse {c d : Conn} (h : Alongside c d) (first : Option Bytes) :
    Matched Alongside (installResponse c first) (installResponse d first) := by
  obtain ⟨idle, iterable, iterator, v, steps, n, rfl, given, quiet⟩ := h
  have framing : chooseFraming (c.iterating v steps n).toRequest =
      { chooseFraming c.toRequest with iterable := v, iterator := steps } := chooseFraming_iterating c.toRequest v steps
  have flag : (chooseFraming (c.iterating v steps n).toRequest).state.chunkedResponse =
      (chooseFraming c.toRequest).state.chunkedResponse := by rw [framing]
  rw [installResponse_def, installResponse_def, flag]
  split
  next data _ =>
    obtain ⟨_, _, _, frame⟩ := c.installed_frame data
    refine .ok ⟨by rw [frame]; exact idle, by rw [frame]; exact iterable, by rw [frame]; exact iterator,
      v, steps, n, ?_,
      given, quiet⟩
    rw [Conn.installed, framing]
    rfl
  next => exact .halted

/-- A response is installed by both, or by neither and `start_response` was never called. -/
def Answered (x y : Conn × Bool) : Prop :=
  x.2 = true ∧ y.2 = true ∧ Alongside x.1 y.1 ∨
    x.2 = false ∧ y.2 = false ∧ ∃ c d, x.1 = { c with pyErr := some .other } ∧ y.1 = { d with pyErr := some .other } ∧
      Alongside c d

theorem wsgiCallApplication_matched {l : ListOfOne} (inherited : l.own = false) (quiet : QuietClose l.close) {c : Conn}
    (idle : c.pyErr = none) (calls : List (List PyArg)) :
    Matched Answered (wsgiCallApplication c ⟨calls, .ok l.value⟩) (wsgiCallApplication c ⟨calls, .ok l.iterable⟩) := by
  unfold wsgiCallApplication
  dsimp only
  cases entered : callStartResponses { c with headers := .null, environs := c.environs ++ [c.headers] } calls with
  | error halted => exact .halted
  | ok mid =>
    have idle' : mid.pyErr = none := by
      obtain ⟨_, _, _, _, rfl⟩ := callStartResponses_frame entered
      exact idle
    obtain ⟨c', d', first, fast, general, related⟩ := takeRetval_alongside inherited quiet idle'
    have headers : d'.headers = c'.headers := by
      obtain ⟨_, _, _, v, steps, n, rfl, _, _⟩ := related
      rfl
    simp only [ok_bind, fast, general, headers]
    split
    next => exact .ok (Or.inr ⟨rfl, rfl, c', d', rfl, rfl, related⟩)
    next =>
      refine (related.installResponse first).bind ?_
      intro c'' d'' installed
      exact .ok (Or.inl ⟨rfl, rfl, installed⟩)

theorem respond_matched {l : ListOfOne} (inherited : l.own = false) (quiet : QuietClose l.close) {c : Conn}
    (idle : c.pyErr = none) (calls : List (List PyArg)) :
    Matched Alongside (respond c ⟨calls, .ok l.value⟩) (respond c ⟨calls, .ok l.iterable⟩) := by
  unfold respond
  split
  next => exact .halted
  refine (wsgiCallApplication_matched inherited quiet
    (show (c.count .reqSuccessRead).pyErr = none from idle) calls).bind ?_
  rintro ⟨x, answered⟩ ⟨y, answered'⟩ result
  rcases result with ⟨yes, yes', related⟩ | ⟨no, no', c', d', eq, eq', related⟩
  · obtain rfl : answered = true := yes
    obtain rfl : answered' = true := yes'
    exact .ok related
  · obtain rfl : answered = false := no
    obtain rfl : answered' = false := no'
    obtain rfl : x = _ := eq
    obtain rfl : y = _ := eq'
    obtain ⟨idle, iterable, iterator, v, steps, n, rfl, _, quiet⟩ := related
    refine .ok ⟨rfl, iterable, rfl, v, none, n, rfl, Or.inl rfl, quiet⟩

/-- The same bytes sent, the same decision about the connection, and the same calls of the application's methods. -/
structure SameResponse (l : ListOfOne) (c d : Conn) : Prop where
  sent : d.sent = c.sent
  evWatcher : d.evWatcher = c.evWatcher
  keepAlive : d.state.keepAlive = c.state.keepAlive
  calls : l.calls d.iterLog = l.calls c.iterLog

theorem Alongside.sameResponse {l : ListOfOne} (inherited : l.own = false) {c d : Conn} (h : Alongside c d) :
    SameResponse l c d := by
  obtain ⟨_, _, _, v, steps, n, rfl, _, _⟩ := h
  refine ⟨rfl, rfl, rfl, ?_⟩
  simp [ListOfOne.calls, Conn.iterating, inherited]

/-- Whatever the connection and the application's calls of `start_response`, the fast path answers the value in every
run of writes as it would be answered were it taken for any iterable. -/
def ListOfOne.Agrees (l : ListOfOne) : Prop :=
  ∀ c₀ : Conn, c₀.pyErr = none → ∀ (calls : List (List PyArg)) (writes : List WriteEvent),
    (∀ c c', respond c₀ ⟨calls, .ok l.value⟩ = .ok c → Run Transmit (startWriting c) writes c' →
      ∃ d d', respond c₀ ⟨calls, .ok l.iterable⟩ = .ok d ∧ Run Transmit (startWriting d) writes d' ∧
        SameResponse l c' d') ∧
    (∀ d d', respond c₀ ⟨calls, .ok l.iterable⟩ = .ok d → Run Transmit (startWriting d) writes d' →
      ∃ c c', respond c₀ ⟨calls, .ok l.value⟩ = .ok c ∧ Run Transmit (startWriting c) writes c' ∧
        SameResponse l c' d')

theorem ListOfOne.agrees {l : ListOfOne} (inherited : l.own = false) (quiet : QuietClose l.close) : l.Agrees := by
  intro c₀ idle calls writes
  have matched := respond_matched inherited quiet idle calls
  have starts : ∀ {c d}, Alongside c d → Alongside (startWriting c) (startWriting d) := fun related =>
    related.map startWriting rfl rfl rfl fun _ _ _ => rfl
  constructor
  · intro c c' answered run
    rw [answered] at matched
    generalize general : respond c₀ ⟨calls, .ok l.iterable⟩ = y at matched
    cases matched with
    | @ok _ d related =>
      obtain ⟨d', run', last⟩ := Run.simulate Transmit Alongside (fun _ _ _ _ rel step => rel.transmit step)
        (starts related) run
      exact ⟨d, d', rfl, run', last.sameResponse inherited⟩
  · intro d d' answered run
    rw [answered] at matched
    generalize fast : respond c₀ ⟨calls, .ok l.value⟩ = x at matched
    cases matched with
    | @ok c _ related =>
      obtain ⟨c', run', last⟩ := Run.simulate Transmit (fun t s => Alongside s t)
        (fun _ _ _ _ rel step => rel.transmit_back step) (starts related) run
      exact ⟨c, c', rfl, run', last.sameResponse inherited⟩

theorem quietClose_iff {iter : PyCall PyIter} {close : CloseMethod} : QuietClose close ↔
    closeCalls (some (.other iter close)) = [] ∧ ¬ CloseExits (some (.other iter close)) := by
  simp only [QuietClose, closeCalls, CloseExits, Option.map_some, Option.any_some, PyValue.closeMethod,
    Option.some.injEq]
  rcases close with _ | ⟨_ | _⟩ | _ | ⟨_ | _⟩ <;> simp [CloseMethod.callable]

theorem ListOfOne.calls_closeCalls (l : ListOfOne) (v : Option PyValue) : l.calls (closeCalls v) = closeCalls v := by
  unfold closeCalls
  split
  next => simp [ListOfOne.calls]
  next => rfl

theorem nextChunkLoop_pulls {c c' : Conn} {steps : PyIter} {chunk : Option Bytes}
    (h : nextChunkLoop c steps = .ok (c', chunk)) : c.iterLog ++ [.next] <+: c'.iterLog := by
  induction steps generalizing c with
  | nil =>
    cases h
    exact List.prefix_refl _
  | cons step rest ih =>
    obtain ⟨mid, hm, h⟩ := bind_ok h
    obtain ⟨_, _, _, _, rfl⟩ := callStartResponses_frame hm
    dsimp only at h
    split at h
    next =>
      cases h
      exact List.prefix_refl _
    next =>
      cases h
      exact List.prefix_refl _
    next =>
      cases h
      exact List.prefix_refl _
    next =>
      split at h
      next => exact (List.prefix_append _ _).trans (ih h)
      next =>
        cases h
        exact List.prefix_refl _

theorem takeRetval_pulls {c c' : Conn} {iter : PyCall PyIter} {close : CloseMethod} {first : Option (Option Bytes)}
    (h : takeRetval c (.other iter close) = .ok (c', first)) :
    c.iterLog ++ [.next] <+: c'.iterLog ∨ first = none ∧ c'.state.keepAlive = c.state.keepAlive := by
  have branch : retvalBranch c.toRequest (.other iter close) = .generic := by simp [retvalBranch, PyValue.hasDescriptor]
  unfold takeRetval at h
  rw [branch] at h
  obtain ⟨mid, hm, h⟩ := bind_ok h
  obtain ⟨_, _, _, _, rfl⟩ := callStartResponses_frame hm
  split at h
  next =>
    cases h
    exact Or.inr ⟨rfl, rfl⟩
  next =>
    obtain ⟨⟨last, chunk⟩, hn, h⟩ := bind_ok h
    have pulls := nextChunkLoop_pulls hn
    dsimp only at h
    split at h
    next =>
      cases h
      exact Or.inl pulls
    next =>
      cases h
      exact Or.inl pulls

/-- An iterable is pulled at least once, unless it cannot be iterated at all. -/
theorem wsgiCallApplication_pulls {c c' : Conn} {iter : PyCall PyIter} {close : CloseMethod} {calls : List (List PyArg)}
    {answered : Bool} (h : wsgiCallApplication c ⟨calls, .ok (.other iter close)⟩ = .ok (c', answered)) :
    c.iterLog ++ [.next] <+: c'.iterLog ∨ answered = false ∧ c'.state.keepAlive = c.state.keepAlive := by
  obtain ⟨mid, hm, h⟩ := bind_ok h
  obtain ⟨_, _, _, _, rfl⟩ := callStartResponses_frame hm
  obtain ⟨⟨last, first⟩, ht, h⟩ := bind_ok h
  have pulls := takeRetval_pulls ht
  dsimp only at h
  split at h
  next =>
    cases h
    exact pulls.imp_right fun kept => ⟨rfl, kept.2⟩
  next first =>
    have pulled := pulls.resolve_right fun none => by cases none.1
    split at h
    next =>
      cases h
      exact Or.inl pulled
    next =>
      obtain ⟨final, hi, h⟩ := bind_ok h
      cases h
      obtain ⟨data, _, rfl⟩ := installResponse_eq hi
      exact Or.inl pulled

theorem respond_pulls {c c' : Conn} {iter : PyCall PyIter} {close : CloseMethod} {calls : List (List PyArg)}
    (h : respond c ⟨calls, .ok (.other iter close)⟩ = .ok c') :
    c.iterLog ++ [.next] <+: c'.iterLog ∨ c'.state.keepAlive = c.state.keepAlive := by
  unfold respond at h
  split at h
  next => cases h
  obtain ⟨⟨mid, answered⟩, hm, h⟩ := bind_ok h
  have pulls := wsgiCallApplication_pulls hm
  dsimp only at h
  split at h
  next yes =>
    cases h
    exact pulls.imp_right fun refused => by cases yes.symm.trans refused.1
  next =>
    obtain ⟨printed, hp, h⟩ := bind_ok h
    obtain ⟨rfl, _⟩ := pyErrPrint_ok hp
    cases h
    exact pulls.imp_right And.right

/-- A connection with an environ to call the application with. -/
def begunConn : Conn := { freshConn with headers := .environ .empty }

/-- The response of known length that the fast path installs. -/
theorem respond_length (l : ListOfOne) : ∃ c, respond begunConn ⟨[lengthArgs], .ok l.value⟩ = .ok c ∧ c.pyErr = none ∧
    SendingChunk (startWriting c) (wsgiGetheaders c.toRequest ++ l.data) ∧ c.iterable = none ∧ c.iterator = none ∧
    c.state.chunkedResponse = false ∧ c.state.keepAlive = true ∧ c.state.expectContinue = false ∧ c.iterLog = [] := by
  have headers : ∀ (r : Request) (body : Bytes), (0 : Int) < (wsgiGetheaders r ++ body).length := by
    intro r body
    have := wsgiGetheaders_length r
    rw [List.length_append]
    omega
  obtain ⟨data, own, iter, close, inherited⟩ := l
  cases data with
  | nil => exact ⟨_, rfl, rfl, ⟨rfl, Int.le_refl 0, headers _ _⟩, rfl, rfl, rfl, rfl, rfl, rfl⟩
  | cons x xs => exact ⟨_, rfl, rfl, ⟨rfl, Int.le_refl 0, headers _ _⟩, rfl, rfl, rfl, rfl, rfl, rfl⟩

theorem respond_length_iterable {l : ListOfOne} (inherited : l.own = false) : ∃ d,
    respond begunConn ⟨[lengthArgs], .ok l.iterable⟩ = .ok d ∧ d.pyErr = none ∧ d.state.expectContinue = false ∧
      d.iterable = some l.iterable := by
  obtain ⟨data, own, iter, close, lists⟩ := l
  obtain rfl := lists inherited
  cases data with
  | nil => exact ⟨_, rfl, rfl, rfl, rfl⟩
  | cons x xs => exact ⟨_, rfl, rfl, rfl, rfl⟩

/-- The last write of a response of which nothing is left to iterate and nothing to clean up. -/
theorem Transmit.last {c : Conn} {data : Bytes} (writing : c.evWatcher = .writing) (idle : c.pyErr = none)
    (sending : SendingChunk c data) (iterable : c.iterable = none) (iterator : c.iterator = none)
    (plain : c.state.chunkedResponse = false) (keep : c.state.keepAlive = true)
    (clear : c.state.expectContinue = false) :
    ∃ c', Transmit c (accepts data.length) c' ∧ c'.evWatcher = .reading ∧ c'.iterLog = c.iterLog := by
  have sent := doSendChunk_whole (w := accepts data.length) sending rfl (by simp)
  have step : evIoOnWrite c (accepts data.length) =
      finishWrite (c.sentAll (data.drop c.currentChunkP.toNat)) .done := by
    rw [evIoOnWrite, writeResponse_chunk (by simp [Conn.routesSendfile, iterable]), onWriteChunk, sent]
    simp [Conn.sentAll, iterator, sendTerminatorChunk, plain, clear]
  have finished := finishWrite_done_kept (c := c.sentAll (data.drop c.currentChunkP.toNat)) idle keep
  rw [← step] at finished
  generalize result : evIoOnWrite c (accepts data.length) = outcome at finished
  cases finished with
  | @ok c' _ kept =>
    refine ⟨c', ⟨writing, by simp [Fatal, accepts], result⟩, by rw [kept.request], ?_⟩
    rw [kept.iterLog]
    simp [Conn.sentAll, iterable, closeCalls]
  | exit exits => simp [CloseExits, Conn.sentAll, iterable] at exits

/-- Unless it fails to be iterable, a value with an iteration of its own is pulled by the general path only. -/
theorem ListOfOne.Agrees.inherited {l : ListOfOne} (agrees : l.Agrees) : l.own = false := by
  obtain ⟨c, fast, _, _, _, _, _, keep, _, none⟩ := respond_length l
  obtain ⟨d, d', general, run, same⟩ := (agrees begunConn rfl [lengthArgs] []).1 c _ fast .nil
  cases run
  by_contra own
  have own : l.own = true := by simpa using own
  rcases respond_pulls general with pulled | kept
  · have calls : d.iterLog = c.iterLog := by simpa [ListOfOne.calls, own, startWriting] using same.calls
    rw [calls, none] at pulled
    exact absurd (List.prefix_nil.mp pulled) (by simp)
  · cases (kept.symm.trans same.keepAlive).trans keep

/-- With the iteration of `list`, the general path ends with the value cleaned up. -/
theorem ListOfOne.Agrees.quiet {l : ListOfOne} (agrees : l.Agrees) : QuietClose l.close := by
  obtain ⟨c, fast, idle, sending, iterable, iterator, plain, keep, clear, none⟩ := respond_length l
  obtain ⟨c', step, reading, log⟩ :=
    Transmit.last (c := startWriting c) rfl idle sending iterable iterator plain keep clear
  obtain ⟨d, d', general, run, same⟩ := (agrees begunConn rfl [lengthArgs] [accepts _]).1 c c' fast (.single step)
  obtain ⟨e, answered, idle', clear', given⟩ := respond_length_iterable agrees.inherited
  obtain rfl := Except.ok.inj (answered.symm.trans general)
  cases run with
  | cons step' rest =>
    cases rest
    obtain ⟨calm, suffix⟩ := Transmit.cleans (c := startWriting e) idle' clear' step' (same.evWatcher.trans reading)
    rw [show (startWriting e).iterable = some (.other l.iter l.close) from given] at calm suffix
    refine quietClose_iff.mpr ⟨?_, calm⟩
    have calls := same.calls
    rw [log, show (startWriting c).iterLog = [] from none] at calls
    have closes : l.calls (closeCalls (some (.other l.iter l.close))) <:+ l.calls d'.iterLog := suffix.filter _
    rw [l.calls_closeCalls, calls] at closes
    exact List.suffix_nil.mp closes

/-- A list of one `bytes` object is answered as it would be were it taken for any iterable if and only if it
iterates as lists do and cleaning it up calls nothing. -/
theorem fast_path_agrees (l : ListOfOne) : l.Agrees ↔ l.own = false ∧ QuietClose l.close :=
  ⟨fun agrees => ⟨agrees.inherited, agrees.quiet⟩, fun condition => ListOfOne.agrees condition.1 condition.2⟩

/-- `[b'hello']`, with the `close` of a subclass. -/
def helloList (close : CloseMethod) : ListOfOne :=
  ⟨ascii "hello", false, ⟨[], .ok [⟨[], .ok (.bytes (ascii "hello"))⟩]⟩, close, fun _ => rfl⟩

theorem fast_path_agrees_hello : ∃ c c' d d', respond begunConn ⟨[okArgs], .ok (helloList .absent).value⟩ = .ok c ∧
    c'.sent = wsgiGetheaders c.toRequest ++ ascii "5\r\nhello\r\n0\r\n\r\n" ∧
    respond begunConn ⟨[okArgs], .ok (helloList .absent).iterable⟩ = .ok d ∧
    Run Transmit (startWriting d) [accepts 1000, accepts 1000] d' ∧ SameResponse (helloList .absent) c' d' := by
  have fast : ∃ c c', respond begunConn ⟨[okArgs], .ok (helloList .absent).value⟩ = .ok c ∧
      Run Transmit (startWriting c) [accepts 1000, accepts 1000] c' ∧
      c'.sent = wsgiGetheaders c.toRequest ++ ascii "5\r\nhello\r\n0\r\n\r\n" :=
    ⟨_, _, rfl, .cons ⟨rfl, by decide, rfl⟩ (.single ⟨rfl, by decide, rfl⟩), by decide⟩
  obtain ⟨c, c', answered, run, sent⟩ := fast
  have quiet : QuietClose (helloList .absent).close := Or.inl rfl
  have spec := (fast_path_agrees (helloList .absent)).mpr ⟨rfl, quiet⟩ begunConn rfl [okArgs]
    [accepts 1000, accepts 1000]
  obtain ⟨d, d', answered', run', same⟩ := spec.1 c c' answered run
  exact ⟨c, c', d, d', answered, sent, answered', run', same⟩

/-- The `close` of a subclass of `list` is not called. -/
theorem close_of_list_skipped : ∃ c c' d d', respond begunConn ⟨[okArgs], .ok (helloList .returns).value⟩ = .ok c ∧
    Run Transmit (startWriting c) [accepts 1000, accepts 1000] c' ∧ c'.evWatcher = .reading ∧
    respond begunConn ⟨[okArgs], .ok (helloList .returns).iterable⟩ = .ok d ∧
    Run Transmit (startWriting d) [accepts 1000, accepts 1000] d' ∧ d'.evWatcher = .reading ∧
    (helloList .returns).calls c'.iterLog = [] ∧ (helloList .returns).calls d'.iterLog = [.close] ∧
    ¬ (helloList .returns).Agrees :=
  ⟨_, _, _, _, rfl, .cons ⟨rfl, by decide, rfl⟩ (.single ⟨rfl, by decide, rfl⟩), rfl, rfl,
    .cons ⟨rfl, by decide, rfl⟩ (.single ⟨rfl, by decide, rfl⟩), rfl, rfl, rfl, fun agrees => by
      rcases agrees.quiet with absent | raises
      · cases absent
      · cases raises⟩

end Bjoern
