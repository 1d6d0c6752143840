import Bjoern.Server

namespace Bjoern

open Runs

/-- A `str` all of whose code points exist in Latin-1. -/
def Latin1Str (arg : PyArg) : Prop := ∃ cs, arg = .str cs ∧ ∀ c ∈ cs, c < 256

def WellFormedStatus (status : PyArg) : Prop :=
  ∃ cs, status = .str cs ∧ (∀ c ∈ cs, c < 256) ∧ 3 ≤ cs.length

/-- A list of 2-tuples of Latin-1 strings. -/
def WellFormedHeaders (headers : PyArg) : Prop :=
  ∃ items, headers = .list items ∧
    ∀ item ∈ items, ∃ field value, item = .tuple [field, value] ∧ Latin1Str field ∧ Latin1Str value

def WellFormedArgs (args : List PyArg) : Prop :=
  ∃ status headers rest, args = status :: headers :: rest ∧ rest.length ≤ 1 ∧
    WellFormedStatus status ∧ WellFormedHeaders headers

/-- The third argument is a 3-tuple. -/
def HasExcInfo (args : List PyArg) : Prop := ∃ type value traceback, args[2]? = some (.tuple [type, value, traceback])

/-- The call has `PyErr_Print` print a 3-tuple whose first item is no exception class, or is `SystemExit`. -/
def PrintsNoException (r : Request) (args : List PyArg) : Prop :=
  r.state.wsgiCallDone = false ∧ ∃ status headers type value traceback,
    args = [status, headers, .tuple [type, value, traceback]] ∧ type ≠ .excType .other

def NoExcInfo (args : List PyArg) : Prop := args[2]? = none ∨ args[2]? = some .none

theorem asLatin1String_of_str {cs : List Nat} (small : ∀ c ∈ cs, c < 256) :
    asLatin1String (.str cs) = some (cs.map Nat.toUInt8) := by
  simp only [asLatin1String]
  rw [if_pos (by simpa using small)]

theorem asLatin1String_eq_some {arg : PyArg} {bytes : Bytes} (h : asLatin1String arg = some bytes) :
    ∃ cs, arg = .str cs ∧ (∀ c ∈ cs, c < 256) ∧ bytes.length = cs.length := by
  cases arg with
  | str cs =>
    simp only [asLatin1String] at h
    split at h
    next small =>
      cases Option.some.inj h
      exact ⟨cs, rfl, by simpa using small, by simp⟩
    next => simp at h
  | _ => simp [asLatin1String] at h

theorem cleanPair_isSome {item : PyArg} :
    (isPair item = true ∧ (cleanPair item).isSome = true) ↔
      ∃ field value, item = .tuple [field, value] ∧ Latin1Str field ∧ Latin1Str value := by
  constructor
  · rintro ⟨_, clean⟩
    obtain ⟨pair, h⟩ := Option.isSome_iff_exists.mp clean
    unfold cleanPair at h
    split at h
    next field value _ =>
      obtain ⟨f, hf, h⟩ := Option.bind_eq_some_iff.mp h
      obtain ⟨v, hv, _⟩ := Option.bind_eq_some_iff.mp h
      obtain ⟨fs, ef, sf, _⟩ := asLatin1String_eq_some hf
      obtain ⟨vs, ev, sv, _⟩ := asLatin1String_eq_some hv
      exact ⟨field, value, rfl, ⟨fs, ef, sf⟩, ⟨vs, ev, sv⟩⟩
    next => simp at h
  · rintro ⟨_, _, rfl, ⟨fs, rfl, sf⟩, ⟨vs, rfl, sv⟩⟩
    exact ⟨rfl, by simp [cleanPair, asLatin1String_of_str sf, asLatin1String_of_str sv]⟩

theorem option_mapM_isSome {α β : Type} {f : α → Option β} {xs : List α} :
    (xs.mapM f).isSome = true ↔ ∀ x ∈ xs, (f x).isSome = true := by
  induction xs with
  | nil => simp
  | cons x xs ih =>
    rw [List.mapM_cons]
    cases hx : f x with
    | none => simp [hx]
    | some y => cases hxs : xs.mapM f <;> simp_all

theorem cleanHeaders_isSome {headers : PyArg} :
    (cleanHeaders headers).isSome = true ↔ WellFormedHeaders headers := by
  cases headers with
  | list items =>
    have pairs : (∀ item ∈ items, isPair item = true ∧ (cleanPair item).isSome = true) ↔
        WellFormedHeaders (.list items) := by
      simp only [WellFormedHeaders, PyArg.list.injEq, exists_eq_left', cleanPair_isSome]
    rw [← pairs]
    have whole : (cleanHeaders (.list items)).isSome = true ↔
        (∀ item ∈ items, isPair item = true) ∧ (items.mapM cleanPair).isSome = true := by
      simp only [cleanHeaders]
      split
      next all =>
        have all' : ∀ item ∈ items, isPair item = true := by simpa using all
        cases items.mapM cleanPair with
        | none => simp
        | some fields => simpa using all'
      next some =>
        have some' : ¬ ∀ item ∈ items, isPair item = true := by simpa using some
        simp [some']
    rw [whole, option_mapM_isSome]
    exact ⟨fun h item hi => ⟨h.1 item hi, h.2 item hi⟩, fun h => ⟨fun i hi => (h i hi).1, fun i hi => (h i hi).2⟩⟩
  | _ => simp [cleanHeaders, WellFormedHeaders]

/-- What `start_response` stores when it gets past its checks. -/
def Request.accept (r : Request) (status : Bytes) (fields : List (Bytes × Bytes)) (found : Bool) : Request :=
  { r with
    status := some status
    headers := .response fields
    state.responseLengthUnknown := !found
    state.startResponseCalled := true }

theorem setResponse_cases (r : Request) (status headers : PyArg) :
    (∃ bytes fields found, WellFormedStatus status ∧ WellFormedHeaders headers ∧ 3 ≤ bytes.length ∧
      cleanHeaders headers = some (fields, found) ∧
      setResponse r status headers = (r.accept bytes fields found, true)) ∨
    (¬ (WellFormedStatus status ∧ WellFormedHeaders headers) ∧
      ((setResponse r status headers) = ({ r with status := none }, false) ∨
        ∃ bytes, (setResponse r status headers) = ({ r with status := some bytes, headers := .null }, false))) := by
  unfold setResponse
  split
  next hs =>
    refine Or.inr ⟨?_, Or.inl rfl⟩
    rintro ⟨⟨cs, rfl, small, _⟩, _⟩
    simp [asLatin1String_of_str small] at hs
  next bytes hs =>
    obtain ⟨cs, rfl, small, len⟩ := asLatin1String_eq_some hs
    split
    next short =>
      refine Or.inr ⟨?_, Or.inl rfl⟩
      rintro ⟨⟨cs', eq, _, long⟩, _⟩
      cases eq
      omega
    next long =>
      have status : WellFormedStatus (.str cs) := ⟨cs, rfl, small, by omega⟩
      split
      next hh =>
        refine Or.inr ⟨fun h => ?_, Or.inr ⟨bytes, rfl⟩⟩
        simpa [hh] using cleanHeaders_isSome.mpr h.2
      next fields found hh =>
        exact Or.inl ⟨bytes, fields, found, status, cleanHeaders_isSome.mp (by simp [hh]), by omega, hh, rfl⟩

/-- The states in which a failed call leaves the request it was made on. -/
def FailedOn (r r' : Request) : Prop :=
  r' = r ∨ r' = { r with status := none } ∨ ∃ bytes, r' = { r with status := some bytes, headers := .null }

/-- The condition of the protocol on a call: well-formed arguments, and headers that are still open. -/
def Accepts (r : Request) (args : List PyArg) : Prop :=
  WellFormedArgs args ∧ (HasExcInfo args ∧ r.state.wsgiCallDone = false ∨
    NoExcInfo args ∧ r.state.startResponseCalled = false)

/-- Everything that a call of `start_response` which returns can do. -/
inductive CallOutcome (r : Request) (args : List PyArg) : Request → Bool → Prop
  | success {bytes headers fields found} : Accepts r args → 3 ≤ bytes.length →
      cleanHeaders headers = some (fields, found) →
      CallOutcome r args ((clearResponse r).accept bytes fields found) true
  | failure {r'} : ¬ Accepts r args → FailedOn (clearResponse r) r' → CallOutcome r args r' false

theorem setResponse_outcome {r r' : Request} {status headers : PyArg} {rest : List PyArg} {succeeded : Bool}
    (short : rest.length ≤ 1)
    (late : HasExcInfo (status :: headers :: rest) ∧ r.state.wsgiCallDone = false ∨
      NoExcInfo (status :: headers :: rest) ∧ r.state.startResponseCalled = false)
    (h : setResponse (clearResponse r) status headers = (r', succeeded)) :
    CallOutcome r (status :: headers :: rest) r' succeeded := by
  rcases setResponse_cases (clearResponse r) status headers with
    ⟨bytes, fields, found, hs, hh, len, clean, ok⟩ | ⟨bad, failed⟩
  · cases ok.symm.trans h
    exact .success ⟨⟨status, headers, rest, rfl, short, hs, hh⟩, late⟩ len clean
  · have wrong : ¬ Accepts r (status :: headers :: rest) := by
      rintro ⟨⟨s, hd, tail, eq, _, ws, wh⟩, _⟩
      cases eq
      exact bad ⟨ws, wh⟩
    rcases failed with eq | ⟨bytes, eq⟩
    · cases eq.symm.trans h
      exact .failure wrong (Or.inr (Or.inl rfl))
    · cases eq.symm.trans h
      exact .failure wrong (Or.inr (Or.inr ⟨bytes, rfl⟩))

@[simp] theorem clearResponse_wsgiCallDone (r : Request) :
    (clearResponse r).state.wsgiCallDone = r.state.wsgiCallDone := by
  unfold clearResponse
  split <;> rfl

@[simp] theorem clearResponse_startResponseCalled (r : Request) :
    (clearResponse r).state.startResponseCalled = r.state.startResponseCalled := by
  unfold clearResponse
  split <;> rfl

theorem startResponse_outcome {r r' : Request} {args : List PyArg} {succeeded : Bool}
    (h : startResponse r args = .ok (r', succeeded)) : CallOutcome r args r' succeeded := by
  have refused : ∀ {args}, (clearResponse r, false) = (r', succeeded) → ¬ Accepts r args →
      CallOutcome r args r' succeeded := by
    intro args eq bad
    cases eq
    exact .failure bad (Or.inl rfl)
  simp only [startResponse, clearResponse_startResponseCalled, clearResponse_wsgiCallDone] at h
  split at h
  next status headers =>
    have noTuple : ¬ HasExcInfo [status, headers] := by simp [HasExcInfo]
    split at h
    next twice => exact refused (Except.ok.inj h) (by simp [Accepts, noTuple, twice])
    next once =>
      exact setResponse_outcome (by simp) (Or.inr ⟨Or.inl rfl, by simpa using once⟩) (Except.ok.inj h)
  next status headers =>
    have noTuple : ¬ HasExcInfo [status, headers, .none] := by simp [HasExcInfo]
    split at h
    next twice => exact refused (Except.ok.inj h) (by simp [Accepts, noTuple, twice])
    next once =>
      exact setResponse_outcome (by simp) (Or.inr ⟨Or.inr rfl, by simpa using once⟩) (Except.ok.inj h)
  next status headers type value traceback =>
    have given : ¬ NoExcInfo [status, headers, .tuple [type, value, traceback]] := by simp [NoExcInfo]
    split at h
    next tooLate => exact refused (Except.ok.inj h) (by simp [Accepts, given, tooLate])
    next early =>
      split at h
      next =>
        exact setResponse_outcome (by simp) (Or.inl ⟨⟨_, value, traceback, rfl⟩, by simpa using early⟩)
          (Except.ok.inj h)
      next => simp at h
      next => simp at h
  next two three tuple =>
    refine refused (Except.ok.inj h) ?_
    rintro ⟨⟨status, headers, rest, rfl, short, _, _⟩, exc⟩
    cases rest with
    | nil => exact two _ _ rfl
    | cons excInfo tail =>
      have empty : tail = [] := by
        simp only [List.length_cons] at short
        exact List.length_eq_zero_iff.mp (by omega)
      subst tail
      rcases exc with ⟨⟨type, value, traceback, eq⟩, _⟩ | ⟨eq | eq, _⟩
      · have eq : excInfo = .tuple [type, value, traceback] := by simpa using eq
        subst excInfo
        exact tuple status headers type value traceback rfl
      · simp at eq
      · have eq : excInfo = .none := by simpa using eq
        subst excInfo
        exact three status headers rfl

/-- What the application and `wsgi_call_application` do to the response data of a request: a call of
`start_response` with its outcome, or the serialisation of the headers. -/
inductive ResponseEvent
  | call (args : List PyArg) (succeeded : Bool)
  | serialised

/-- The end of `wsgi_call_application` as far as `start_response` looks at it. -/
def serialise (r : Request) : Request := { chooseFraming r with state.wsgiCallDone := true }

def ResponseStep (r : Request) : ResponseEvent → Request → Prop
  | .call args succeeded, r' => startResponse r args = .ok (r', succeeded)
  | .serialised, r' => r.headers.isNull = false ∧ r' = serialise r

def CallSucceeded (es : List ResponseEvent) : Prop := ∃ args, .call args true ∈ es

/-- Whether the latest call succeeded. -/
def lastSucceeded (es : List ResponseEvent) : Bool :=
  es.foldl (fun last e => match e with | .call _ succeeded => succeeded | .serialised => last) false

/-- The request as `wsgi_call_application` hands it to the application. -/
structure Unanswered (r : Request) : Prop where
  headers : r.headers = .null
  uncalled : r.state.startResponseCalled = false
  undone : r.state.wsgiCallDone = false
  unknown : r.state.responseLengthUnknown = true

/-- The content length of the headers that are set was reported by `clean_headers` for them. -/
def KnowsLength (r : Request) : Prop :=
  ∃ headers fields, cleanHeaders headers = some (fields, true) ∧ r.headers = .response fields

structure ProtocolInv (es : List ResponseEvent) (r : Request) : Prop where
  called : r.state.startResponseCalled = true ↔ CallSucceeded es
  headers : r.headers.isNull = false ↔ lastSucceeded es = true
  clear : lastSucceeded es = true → r.state.startResponseCalled = true
  status : r.headers.isNull = false → ∃ bytes, r.status = some bytes ∧ 3 ≤ bytes.length
  length : .serialised ∉ es → (r.state.responseLengthUnknown = false ↔ KnowsLength r)

theorem Unanswered.protocolInv {r : Request} (h : Unanswered r) : ProtocolInv [] r := by
  refine ⟨by simp [h.uncalled, CallSucceeded], by simp [h.headers, Headers.isNull, lastSucceeded],
    by simp [lastSucceeded], by simp [h.headers, Headers.isNull], fun _ => ?_⟩
  simp [h.unknown, KnowsLength, h.headers]

theorem startResponse_returns_iff {r : Request} (args : List PyArg) :
    (∃ r' succeeded, startResponse r args = .ok (r', succeeded)) ↔ ¬ PrintsNoException r args := by
  simp only [startResponse, clearResponse_wsgiCallDone]
  split
  next => exact ⟨fun _ printed => (by simp [PrintsNoException] at printed), fun _ => ⟨_, _, rfl⟩⟩
  next => exact ⟨fun _ printed => (by simp [PrintsNoException] at printed), fun _ => ⟨_, _, rfl⟩⟩
  next status headers type value traceback =>
    have printed : PrintsNoException r [status, headers, .tuple [type, value, traceback]] ↔
        r.state.wsgiCallDone = false ∧ type ≠ .excType .other := by
      constructor
      · rintro ⟨early, _, _, _, _, _, ⟨⟩, other⟩
        exact ⟨early, other⟩
      · rintro ⟨early, other⟩
        exact ⟨early, _, _, _, _, _, rfl, other⟩
    rw [printed]
    split
    next late => exact ⟨fun _ early => (by simp [late] at early), fun _ => ⟨_, _, rfl⟩⟩
    next early =>
      have early : r.state.wsgiCallDone = false := by simpa using early
      split
      next => exact ⟨fun _ other => other.2 rfl, fun _ => ⟨_, _, rfl⟩⟩
      next => simp [early]
      next other _ => simpa [early] using other
  next two three tuple =>
    refine ⟨fun _ printed => ?_, fun _ => ⟨_, _, rfl⟩⟩
    obtain ⟨_, status, headers, type, value, traceback, rfl, _⟩ := printed
    exact tuple _ _ _ _ _ rfl

theorem startResponse_succeeds_iff {r r' : Request} {args : List PyArg} {succeeded : Bool}
    (h : startResponse r args = .ok (r', succeeded)) : succeeded = true ↔ Accepts r args := by
  cases startResponse_outcome h with
  | success accepts _ _ => simp [accepts]
  | failure refuses _ => simp [refuses]

theorem FailedOn.state {r r' : Request} (h : FailedOn r r') : r'.state = r.state := by
  rcases h with rfl | rfl | ⟨_, rfl⟩ <;> rfl

theorem FailedOn.headers {r r' : Request} (h : FailedOn r r') (null : r.headers = .null) :
    r'.headers = .null := by
  rcases h with rfl | rfl | ⟨_, rfl⟩
  · exact null
  · exact null
  · rfl

theorem specialCaseStatus_frame (r : Request) : ∃ unknown,
    specialCaseStatus r = { r with state.responseLengthUnknown := unknown } := by
  unfold specialCaseStatus
  split
  next => exact ⟨false, rfl⟩
  next => exact ⟨_, rfl⟩

theorem decideKeepAlive_frame (r : Request) : ∃ chunked keepAlive,
    decideKeepAlive r = { r with state.chunkedResponse := chunked, state.keepAlive := keepAlive } := by
  unfold decideKeepAlive
  split
  next =>
    split
    next =>
      split
      next => exact ⟨_, _, rfl⟩
      next => exact ⟨_, _, rfl⟩
    next => exact ⟨_, _, rfl⟩
  next => exact ⟨_, _, rfl⟩

/-- The framing decision writes three flags and nothing else. -/
theorem chooseFraming_frame (r : Request) : ∃ unknown chunked keepAlive,
    chooseFraming r = { r with
      state.responseLengthUnknown := unknown
      state.chunkedResponse := chunked
      state.keepAlive := keepAlive } := by
  obtain ⟨unknown, hu⟩ := specialCaseStatus_frame r
  obtain ⟨chunked, keepAlive, hk⟩ := decideKeepAlive_frame (specialCaseStatus r)
  exact ⟨unknown, chunked, keepAlive, by rw [chooseFraming, hk, hu]⟩

theorem lastSucceeded_snoc (es : List ResponseEvent) (e : ResponseEvent) :
    lastSucceeded (es ++ [e]) =
      match e with | .call _ succeeded => succeeded | .serialised => lastSucceeded es := by
  simp [lastSucceeded, List.foldl_append]

theorem isNull_iff {headers : Headers} : headers.isNull = true ↔ headers = .null := by
  cases headers <;> simp [Headers.isNull]

theorem cleanHeaders_found {headers : PyArg} {fields : List (Bytes × Bytes)} {found : Bool}
    (h : cleanHeaders headers = some (fields, found)) : found = fields.any (isContentLength ·.1) := by
  cases headers with
  | list items =>
    simp only [cleanHeaders] at h
    split at h
    next =>
      obtain ⟨_, _, eq⟩ := Option.bind_eq_some_iff.mp h
      cases Option.some.inj eq
      rfl
    next => simp at h
  | _ => simp [cleanHeaders] at h

theorem ProtocolInv.success {es : List ResponseEvent} {r : Request} {args : List PyArg} {bytes : Bytes}
    {headers : PyArg} {fields : List (Bytes × Bytes)} {found : Bool} (long : 3 ≤ bytes.length)
    (clean : cleanHeaders headers = some (fields, found)) :
    ProtocolInv (es ++ [.call args true]) ((clearResponse r).accept bytes fields found) := by
  refine ⟨?_, ?_, fun _ => rfl, fun _ => ⟨bytes, rfl, long⟩, fun _ => ?_⟩
  · simp only [Request.accept, true_iff]
    exact ⟨args, by simp⟩
  · simp [Request.accept, Headers.isNull, lastSucceeded_snoc]
  · constructor
    · intro known
      have yes : found = true := by simpa [Request.accept] using known
      exact ⟨headers, fields, by rw [clean, yes], rfl⟩
    · rintro ⟨headers', fields', clean', eq⟩
      have same : fields = fields' := by simpa [Request.accept] using eq
      subst same
      have yes : found = true := (cleanHeaders_found clean).trans (cleanHeaders_found clean').symm
      simp [Request.accept, yes]

theorem ProtocolInv.failure {es : List ResponseEvent} {r r' : Request} {args : List PyArg}
    (inv : ProtocolInv es r) (failed : FailedOn (clearResponse r) r') :
    ProtocolInv (es ++ [.call args false]) r' := by
  have null : (clearResponse r).headers = .null := by
    unfold clearResponse
    split
    next => rfl
    next uncalled =>
      have never : ¬ r.headers.isNull = false := fun h => uncalled (inv.clear (inv.headers.mp h))
      exact isNull_iff.mp (by simpa using never)
  have null' := failed.headers null
  have same := failed.state
  refine ⟨?_, ?_, by simp [lastSucceeded_snoc], by simp [null', Headers.isNull], ?_⟩
  · rw [same, clearResponse_startResponseCalled, inv.called]
    simp [CallSucceeded]
  · simp [null', Headers.isNull, lastSucceeded_snoc]
  · intro open'
    have before : ResponseEvent.serialised ∉ es := fun h => open' (by simp [h])
    have unknown : r'.state.responseLengthUnknown = true := by
      rw [same]
      unfold clearResponse
      split
      next => rfl
      next uncalled =>
        have known : ¬ KnowsLength r := by
          rintro ⟨_, fields, _, eq⟩
          exact uncalled (inv.clear (inv.headers.mp (by rw [eq]; rfl)))
        simpa using mt (inv.length before).mp known
    simp [unknown, KnowsLength, null']

theorem ProtocolInv.serialised {es : List ResponseEvent} {r : Request} (inv : ProtocolInv es r) :
    ProtocolInv (es ++ [.serialised]) (serialise r) := by
  obtain ⟨unknown, chunked, keepAlive, h⟩ := chooseFraming_frame r
  have result : serialise r = { r with
      state.responseLengthUnknown := unknown
      state.chunkedResponse := chunked
      state.keepAlive := keepAlive
      state.wsgiCallDone := true } := by rw [serialise, h]
  rw [result]
  refine ⟨?_, ?_, ?_, inv.status, fun h => absurd (by simp) h⟩
  · exact inv.called.trans (by simp [CallSucceeded])
  · rw [lastSucceeded_snoc]
    exact inv.headers
  · rw [lastSucceeded_snoc]
    exact inv.clear

theorem ProtocolInv.step {es : List ResponseEvent} {r r' : Request} {e : ResponseEvent}
    (inv : ProtocolInv es r) (h : ResponseStep r e r') : ProtocolInv (es ++ [e]) r' := by
  cases e with
  | call args succeeded =>
    cases startResponse_outcome h with
    | success _ long clean => exact .success long clean
    | failure _ failed => exact inv.failure failed
  | serialised =>
    obtain ⟨_, rfl⟩ := h
    exact inv.serialised

theorem protocolInv_run {r0 r : Request} {es : List ResponseEvent} (start : Unanswered r0)
    (run : Run ResponseStep r0 es r) : ProtocolInv es r :=
  run.invariant_history ProtocolInv (fun _ _ _ _ inv h => inv.step h) start.protocolInv

/-- `start_response` is called with `args` and returns `None`. -/
def Succeeds (r : Request) (args : List PyArg) : Prop := ∃ r', startResponse r args = .ok (r', true)

theorem not_printsNoException {r : Request} {args : List PyArg} (given : ¬ HasExcInfo args) :
    ¬ PrintsNoException r args := by
  rintro ⟨_, _, _, type, value, traceback, rfl, _⟩
  exact given ⟨type, value, traceback, rfl⟩

/-- The `start_response` protocol. A call comes back, and succeeds exactly under the protocol's conditions, unless
it has `PyErr_Print` print something else than an exception: a well-formed call then does not succeed. -/
theorem start_response_protocol {r0 r : Request} {es : List ResponseEvent} (start : Unanswered r0)
    (run : Run ResponseStep r0 es r) :
    (∀ args, ((Succeeds r args ↔ WellFormedArgs args ∧ (HasExcInfo args ∧ r.state.wsgiCallDone = false ∨
        NoExcInfo args ∧ ¬ CallSucceeded es)) ↔ ¬ (WellFormedArgs args ∧ PrintsNoException r args)) ∧
      ((∃ r' succeeded, startResponse r args = .ok (r', succeeded)) ↔ ¬ PrintsNoException r args)) ∧
    (r.headers.isNull = false ↔ lastSucceeded es = true) ∧
    (r.headers.isNull = false → ∃ bytes, r.status = some bytes ∧ 3 ≤ bytes.length) ∧
    (.serialised ∉ es → (r.state.responseLengthUnknown = false ↔ KnowsLength r)) := by
  have inv := protocolInv_run start run
  refine ⟨fun args => ⟨?_, startResponse_returns_iff args⟩, inv.headers, inv.status, inv.length⟩
  rw [← inv.called, Bool.not_eq_true]
  change (Succeeds r args ↔ Accepts r args) ↔ _
  by_cases printed : PrintsNoException r args
  · -- the call does not come back, so it succeeds neither way
    have fails : ¬ Succeeds r args := fun ⟨r', h⟩ => (startResponse_returns_iff args).mp ⟨r', true, h⟩ printed
    have wellFormed : Accepts r args ↔ WellFormedArgs args := by
      obtain ⟨early, _, _, type, value, traceback, rfl, _⟩ := printed
      exact ⟨And.left, fun h => ⟨h, Or.inl ⟨⟨type, value, traceback, rfl⟩, early⟩⟩⟩
    simp [fails, wellFormed, printed]
  · obtain ⟨r', succeeded, h⟩ := (startResponse_returns_iff args).mpr printed
    have same : Succeeds r args ↔ succeeded = true := by simp [Succeeds, h]
    simp [same, startResponse_succeeds_iff h, printed]

def okArgs : List PyArg := [.str [50, 48, 48], .list []]

def freshRequest : Request := requestNew [] ⟨1, 1, .get, 0, true⟩

/-- After `start_response('200', [])` the headers are set and a second such call is refused. -/
theorem start_response_protocol_after_call :
    ∃ r, startResponse freshRequest okArgs = .ok (r, true) ∧ r.headers.isNull = false ∧
      ∃ r', startResponse r okArgs = .ok (r', false) := by
  have first : ∃ r, startResponse freshRequest okArgs = .ok (r, true) := ⟨_, rfl⟩
  obtain ⟨r, hr⟩ := first
  have run : Run ResponseStep freshRequest [.call okArgs true] r := .single hr
  have spec := start_response_protocol ⟨rfl, rfl, rfl, rfl⟩ run
  have noTuple : ¬ HasExcInfo okArgs := by
    rintro ⟨_, _, _, eq⟩
    cases eq
  have prints := not_printsNoException (r := r) noTuple
  obtain ⟨⟨iff, returns⟩, set, _⟩ := And.imp_left (fun calls => calls okArgs) spec
  obtain ⟨r', succeeded, h⟩ := returns.mpr prints
  have refused : ¬ Succeeds r okArgs := by
    rw [iff.mpr fun bad => prints bad.2]
    rintro ⟨_, ⟨tuple, _⟩ | ⟨_, never⟩⟩
    · exact noTuple tuple
    · exact never ⟨okArgs, by simp⟩
  cases succeeded with
  | true => exact absurd ⟨r', h⟩ refused
  | false => exact ⟨r, hr, set.mpr rfl, r', h⟩

/-- `start_response('200', [], (exc, ..., ...))` -/
def excInfoArgs (exc : PyArg) : List PyArg := [.str [50, 48, 48], .list [], .tuple [exc, .other, .other]]

/-- A well-formed call with a 3-tuple for `exc_info`, made before the headers are serialised, need not succeed:
`PyErr_Print` ends the process where the tuple describes a `SystemExit`, and has no exception to print where it holds
`None`. -/
theorem exit_call_does_not_succeed :
    Unanswered freshRequest ∧ freshRequest.state.wsgiCallDone = false ∧
      (WellFormedArgs (excInfoArgs (.excType .systemExit)) ∧ HasExcInfo (excInfoArgs (.excType .systemExit)) ∧
        ¬ Succeeds freshRequest (excInfoArgs (.excType .systemExit))) ∧
      WellFormedArgs (excInfoArgs .none) ∧ HasExcInfo (excInfoArgs .none) ∧
        ¬ Succeeds freshRequest (excInfoArgs .none) := by
  have wellFormed : ∀ exc, WellFormedArgs (excInfoArgs exc) := fun exc =>
    ⟨_, _, _, rfl, by simp, ⟨_, rfl, by simp, by simp⟩, _, rfl, by simp⟩
  have exits : startResponse freshRequest (excInfoArgs (.excType .systemExit)) = .error .exit := rfl
  have crashes : startResponse freshRequest (excInfoArgs .none) = .error .undefinedBehaviour := rfl
  refine ⟨⟨rfl, rfl, rfl, rfl⟩, rfl, ⟨wellFormed _, ⟨_, _, _, rfl⟩, ?_⟩, wellFormed _, ⟨_, _, _, rfl⟩, ?_⟩
  · rintro ⟨r, h⟩
    cases exits.symm.trans h
  · rintro ⟨r, h⟩
    cases crashes.symm.trans h

end Bjoern
