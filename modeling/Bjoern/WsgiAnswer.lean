import Bjoern.ResponseFrames

namespace Bjoern

/-- The `bytes` that `wsgi_call_application` takes from a return value without iterating it. -/
def PyValue.bytestring : PyValue → Option Bytes
  | .list [some data] _ _ => some data
  | .bytes data => some data
  | _ => none

/-- The `__next__` calls of an iterable. -/
def PyValue.steps (v : PyValue) : PyIter :=
  match v.getIter.result with
  | .ok steps => steps
  | .error _ => []

/-- The non-empty items of a return value, in order. -/
def PyValue.items (v : PyValue) : List Bytes :=
  match v.bytestring with
  | some data => if data = [] then [] else [data]
  | none => bodyItems v.steps

/-- Whether the iteration of a return value ends without an exception or a non-bytes item. -/
def PyValue.ending (v : PyValue) : Bool := v.bytestring.isSome || endsNormally v.steps

theorem retvalBranch_eq (r : Request) (v : PyValue) :
    retvalBranch r v =
      match v.bytestring with
      | some data => .bytestring data
      | none => if !r.state.responseLengthUnknown && v.hasDescriptor then .file else .generic := by
  unfold retvalBranch PyValue.bytestring
  split <;> simp_all

theorem retvalBranch_bytestring {r : Request} {v : PyValue} {data : Bytes}
    (h : retvalBranch r v = .bytestring data) : v.bytestring = some data := by
  rw [retvalBranch_eq] at h
  split at h
  next eq => cases h; exact eq
  next => split at h <;> cases h

theorem retvalBranch_file {r : Request} {v : PyValue} :
    retvalBranch r v = .file ↔ v.hasDescriptor = true ∧ r.state.responseLengthUnknown = false := by
  constructor
  · intro h
    rw [retvalBranch_eq] at h
    split at h
    next => cases h
    next =>
      split at h
      next cond => simpa [and_comm] using cond
      next => cases h
  · rintro ⟨descriptor, known⟩
    cases v with
    | fileWrapper w => simp [retvalBranch, known, descriptor]
    | _ => cases descriptor

theorem retvalBranch_generic {r : Request} {v : PyValue} (h : retvalBranch r v = .generic) :
    v.bytestring = none := by
  rw [retvalBranch_eq] at h
  split at h
  next => cases h
  next eq => exact eq

/-- What taking the return value leaves alone. -/
structure TakeFrame (c c' : Conn) : Prop where
  parser : c'.parser = c.parser
  evWatcher : c'.evWatcher = c.evWatcher
  errorCode : c'.state.errorCode = c.state.errorCode
  parseFinished : c'.state.parseFinished = c.state.parseFinished
  wsgiCallDone : c'.state.wsgiCallDone = c.state.wsgiCallDone
  keepAlive : c'.state.keepAlive = c.state.keepAlive
  chunkedResponse : c'.state.chunkedResponse = c.state.chunkedResponse
  expectContinue : c'.state.expectContinue = c.state.expectContinue
  currentChunk : c'.currentChunk = c.currentChunk
  currentChunkP : c'.currentChunkP = c.currentChunkP
  sent : c'.sent = c.sent
  environs : c'.environs = c.environs
  metrics : c'.metrics = c.metrics
  iterLog : ∃ n, c'.iterLog = c.iterLog ++ List.replicate n .next

/-- What `wsgi_call_application` leaves alone. -/
structure CallFrame (c c' : Conn) : Prop where
  parser : c'.parser = c.parser
  evWatcher : c'.evWatcher = c.evWatcher
  errorCode : c'.state.errorCode = c.state.errorCode
  parseFinished : c'.state.parseFinished = c.state.parseFinished
  expectContinue : c'.state.expectContinue = c.state.expectContinue
  sent : c'.sent = c.sent
  environs : c'.environs = c.environs ++ [c.headers]
  metrics : c'.metrics = c.metrics
  iterLog : ∃ n, c'.iterLog = c.iterLog ++ List.replicate n .next

/-- The `start_response` calls of the application make `r` of the request. -/
def CallsMade (c : Conn) (app : PyCall PyValue) (r : Request) : Prop :=
  runStartResponses { c.toRequest with headers := .null } app.startResponses = .ok r

/-- The connection when the application is back. -/
def Conn.entered (c : Conn) (r : Request) : Conn :=
  { c with toRequest := r, environs := c.environs ++ [c.headers] }

/-- The ways `takeRetval` comes back, from a connection `c` on which the application returned. -/
inductive Taken (c : Conn) (retval : PyValue) : Conn → Option (Option Bytes) → Prop
  | bytestring {data} : retvalBranch c.toRequest retval = .bytestring data →
      Taken c retval { c with iterable := none, iterator := none } (some (if data = [] then none else some data))
  | file : retvalBranch c.toRequest retval = .file →
      Taken c retval { c with iterable := some retval, iterator := none } (some none)
  | notIterable {exc status headers unknown called} : retvalBranch c.toRequest retval = .generic →
      retval.getIter.result = .error exc →
      Taken c retval
        { c with
          toRequest := { c.toRequest.withResponse status headers unknown called with
            iterable := some retval
            iterator := none }
          pyErr := some exc } none
  | generic {steps status headers unknown called c' chunk} : retvalBranch c.toRequest retval = .generic →
      retval.getIter.result = .ok steps →
      NextOutcome
        { c with
          toRequest := { c.toRequest.withResponse status headers unknown called with
            iterable := some retval
            iterator := some steps } } steps c' chunk →
      Taken c retval c' (if chunk.isNone && c'.pyErr.isSome then none else some chunk)

theorem takeRetval_taken {c c' : Conn} {retval : PyValue} {chunk : Option (Option Bytes)}
    (h : takeRetval c retval = .ok (c', chunk)) : Taken c retval c' chunk := by
  unfold takeRetval at h
  split at h
  next data branch =>
    cases h
    exact .bytestring branch
  next branch =>
    cases h
    exact .file branch
  next branch =>
    obtain ⟨mid, hm, h⟩ := bind_ok h
    obtain ⟨status, headers, unknown, called, rfl⟩ := callStartResponses_frame hm
    split at h
    next exc failed =>
      cases h
      exact .notIterable branch failed
    next steps got =>
      obtain ⟨⟨last, first⟩, hn, h⟩ := bind_ok h
      have taken := Taken.generic branch got (nextChunkLoop_outcome hn)
      dsimp only at h
      split at h
      next cond =>
        cases h
        rw [if_pos cond] at taken
        exact taken
      next cond =>
        cases h
        rw [if_neg cond] at taken
        exact taken

theorem Taken.frame {c c' : Conn} {retval : PyValue} {chunk : Option (Option Bytes)}
    (h : Taken c retval c' chunk) : TakeFrame c c' := by
  have nothing : c.iterLog = c.iterLog ++ List.replicate 0 .next := by simp
  cases h with
  | bytestring _ => exact ⟨rfl, rfl, rfl, rfl, rfl, rfl, rfl, rfl, rfl, rfl, rfl, rfl, rfl, 0, nothing⟩
  | file _ => exact ⟨rfl, rfl, rfl, rfl, rfl, rfl, rfl, rfl, rfl, rfl, rfl, rfl, rfl, 0, nothing⟩
  | notIterable _ _ => exact ⟨rfl, rfl, rfl, rfl, rfl, rfl, rfl, rfl, rfl, rfl, rfl, rfl, rfl, 0, nothing⟩
  | generic _ _ next =>
    cases next with
    | @chunk n => exact ⟨rfl, rfl, rfl, rfl, rfl, rfl, rfl, rfl, rfl, rfl, rfl, rfl, rfl, n, rfl⟩
    | @stopped n => exact ⟨rfl, rfl, rfl, rfl, rfl, rfl, rfl, rfl, rfl, rfl, rfl, rfl, rfl, n, rfl⟩
    | @failed n => exact ⟨rfl, rfl, rfl, rfl, rfl, rfl, rfl, rfl, rfl, rfl, rfl, rfl, rfl, n, rfl⟩

theorem Taken.clientAddr {c c' : Conn} {retval : PyValue} {chunk : Option (Option Bytes)}
    (h : Taken c retval c' chunk) : c'.clientAddr = c.clientAddr := by
  cases h with
  | bytestring => rfl
  | file => rfl
  | notIterable => rfl
  | generic _ _ next => cases next <;> rfl

/-- The framed first chunk behind the header block; `none` where framing it overruns the buffer. -/
def encodeFirst (chunked : Bool) : Option Bytes → Option Bytes
  | none => some []
  | some chunk => if chunked then wrapHttpChunkCruftAround chunk else some chunk

/-- `c` with the header block and the framed first chunk `data` as its current chunk. -/
def Conn.installed (c : Conn) (data : Bytes) : Conn :=
  { c with
    toRequest := { chooseFraming c.toRequest with
      currentChunk := .owned (wsgiGetheaders (chooseFraming c.toRequest) ++ data)
      currentChunkP := 0
      state.wsgiCallDone := true } }

theorem installResponse_def (c : Conn) (first : Option Bytes) : installResponse c first =
    match encodeFirst (chooseFraming c.toRequest).state.chunkedResponse first with
    | some data => .ok (c.installed data)
    | none => .error (.undefinedBehaviour, { c with toRequest := chooseFraming c.toRequest }) := by
  unfold installResponse
  cases first with
  | none => simp [encodeFirst, Conn.installed]
  | some chunk =>
    dsimp only [encodeFirst]
    split
    next =>
      cases wrapHttpChunkCruftAround chunk with
      | some wrapped => rfl
      | none => rfl
    next => rfl

theorem installResponse_eq {c c' : Conn} {first : Option Bytes} (h : installResponse c first = .ok c') :
    ∃ data, encodeFirst (chooseFraming c.toRequest).state.chunkedResponse first = some data ∧
      c' = c.installed data := by
  rw [installResponse_def] at h
  split at h
  next data framed =>
    cases h
    exact ⟨data, framed, rfl⟩
  next => cases h

/-- How `wsgi_call_application` comes back: with the exception of the application, with that of
`takeRetval`, because the headers are not set, or with a response installed. -/
inductive AppOutcome (c : Conn) (r : Request) (app : PyCall PyValue) : Conn → Bool → Prop
  | raised {exc} : app.result = .error exc → AppOutcome c r app { c.entered r with pyErr := some exc } false
  | refused {retval c'} : app.result = .ok retval → Taken (c.entered r) retval c' none →
      AppOutcome c r app c' false
  | notStarted {retval c' first} : app.result = .ok retval → Taken (c.entered r) retval c' (some first) →
      c'.headers = .null → AppOutcome c r app { c' with pyErr := some .other } false
  | answered {retval c' first data} : app.result = .ok retval → Taken (c.entered r) retval c' (some first) →
      c'.headers ≠ .null → encodeFirst (chooseFraming c'.toRequest).state.chunkedResponse first = some data →
      AppOutcome c r app (c'.installed data) true

theorem wsgiCallApplication_outcome {c c' : Conn} {app : PyCall PyValue} {answered : Bool}
    (h : wsgiCallApplication c app = .ok (c', answered)) :
    ∃ r, CallsMade c app r ∧ AppOutcome c r app c' answered := by
  obtain ⟨mid, hm, h⟩ := bind_ok h
  unfold callStartResponses at hm
  split at hm
  next r calls =>
    cases hm
    refine ⟨r, calls, ?_⟩
    split at h
    next exc raised =>
      cases h
      exact .raised raised
    next retval returned =>
      obtain ⟨⟨last, first⟩, ht, h⟩ := bind_ok h
      have taken : Taken (c.entered r) retval last first := takeRetval_taken ht
      dsimp only at h
      split at h
      next =>
        cases h
        exact .refused returned taken
      next first =>
        split at h
        next missing =>
          cases h
          exact .notStarted returned taken (isNull_iff.mp missing)
        next set =>
          obtain ⟨final, hi, h⟩ := bind_ok h
          cases h
          obtain ⟨data, hd, rfl⟩ := installResponse_eq hi
          exact .answered returned taken (fun missing => set (isNull_iff.mpr missing)) hd
  next => cases hm

theorem Conn.installed_frame (c : Conn) (data : Bytes) : ∃ unknown chunked keepAlive,
    c.installed data = { c with
      toRequest := { c.toRequest with
        currentChunk := .owned (wsgiGetheaders (chooseFraming c.toRequest) ++ data)
        currentChunkP := 0
        state.responseLengthUnknown := unknown
        state.chunkedResponse := chunked
        state.keepAlive := keepAlive
        state.wsgiCallDone := true } } := by
  obtain ⟨unknown, chunked, keepAlive, h⟩ := chooseFraming_frame c.toRequest
  refine ⟨unknown, chunked, keepAlive, ?_⟩
  rw [Conn.installed, h]

theorem CallsMade.frame {c : Conn} {app : PyCall PyValue} {r : Request} (calls : CallsMade c app r) :
    TakeFrame c { c with toRequest := r } := by
  obtain ⟨status, headers, unknown, called, rfl⟩ := runStartResponses_frame calls
  exact ⟨rfl, rfl, rfl, rfl, rfl, rfl, rfl, rfl, rfl, rfl, rfl, rfl, rfl, 0, by simp⟩

theorem TakeFrame.callFrame {c c' : Conn} {app : PyCall PyValue} {r : Request} (calls : CallsMade c app r)
    (f : TakeFrame (c.entered r) c') : CallFrame c c' := by
  have g := calls.frame
  exact ⟨f.parser.trans g.parser, f.evWatcher.trans g.evWatcher, f.errorCode.trans g.errorCode,
    f.parseFinished.trans g.parseFinished, f.expectContinue.trans g.expectContinue, f.sent, f.environs, f.metrics,
    f.iterLog⟩

theorem AppOutcome.frame {c c' : Conn} {app : PyCall PyValue} {r : Request} {answered : Bool}
    (calls : CallsMade c app r) (h : AppOutcome c r app c' answered) : CallFrame c c' := by
  cases h with
  | raised _ =>
    have g := calls.frame
    exact ⟨g.parser, g.evWatcher, g.errorCode, g.parseFinished, g.expectContinue, rfl, rfl, rfl,
      0, by simp [Conn.entered]⟩
  | refused _ taken => exact taken.frame.callFrame calls
  | notStarted _ taken _ =>
    have f := taken.frame.callFrame calls
    exact ⟨f.parser, f.evWatcher, f.errorCode, f.parseFinished, f.expectContinue, f.sent, f.environs, f.metrics,
      f.iterLog⟩
  | @answered _ mid _ data _ taken _ _ =>
    have f := taken.frame.callFrame calls
    obtain ⟨_, _, _, eq⟩ := mid.installed_frame data
    rw [eq]
    exact ⟨f.parser, f.evWatcher, f.errorCode, f.parseFinished, f.expectContinue, f.sent, f.environs, f.metrics,
      f.iterLog⟩

theorem AppOutcome.clientAddr {c c' : Conn} {app : PyCall PyValue} {r : Request} {answered : Bool}
    (calls : CallsMade c app r) (h : AppOutcome c r app c' answered) : c'.clientAddr = c.clientAddr := by
  obtain ⟨_, _, _, _, rfl⟩ := runStartResponses_frame calls
  cases h with
  | raised => rfl
  | refused _ taken => exact taken.clientAddr
  | notStarted _ taken => exact taken.clientAddr
  | @answered _ mid _ data _ taken =>
    obtain ⟨_, _, _, eq⟩ := mid.installed_frame data
    rw [eq]
    exact taken.clientAddr

theorem CallsMade.unique {c : Conn} {app : PyCall PyValue} {r r' : Request} (calls : CallsMade c app r)
    (calls' : CallsMade c app r') : r' = r :=
  Except.ok.inj (calls'.symm.trans calls)

theorem Taken.file_branch {c c' : Conn} {v : PyValue} {chunk : Option (Option Bytes)} (taken : Taken c v c' chunk)
    (branch : retvalBranch c.toRequest v = .file) :
    c' = { c with iterable := some v, iterator := none } ∧ chunk = some none := by
  cases taken with
  | bytestring other =>
    rw [branch] at other
    cases other
  | file => exact ⟨rfl, rfl⟩
  | notIterable other =>
    rw [branch] at other
    cases other
  | generic other =>
    rw [branch] at other
    cases other

/-- The file branch of `wsgi_call_application` installs the header block alone, and no iterator. -/
theorem AppOutcome.file_branch {c c' : Conn} {r : Request} {app : PyCall PyValue} {v : PyValue}
    (h : AppOutcome c r app c' true) (returned : app.result = .ok v) (branch : retvalBranch r v = .file) :
    c'.pyErr = c.pyErr ∧ c'.iterable = some v ∧ c'.iterator = none ∧
      c'.currentChunk = .owned (wsgiGetheaders c'.toRequest) ∧ c'.currentChunkP = 0 := by
  cases h with
  | @answered retval mid first data got taken _ framed =>
    rw [returned] at got
    cases got
    obtain ⟨rfl, none⟩ := taken.file_branch branch
    cases none
    cases framed
    refine ⟨rfl, ?_, ?_, ?_, rfl⟩
    · obtain ⟨_, _, _, eq⟩ := Conn.installed_frame { c.entered r with iterable := some v, iterator := .none } []
      rw [eq]
    · obtain ⟨_, _, _, eq⟩ := Conn.installed_frame { c.entered r with iterable := some v, iterator := .none } []
      rw [eq]
    · simp only [Conn.installed, List.append_nil]
      rfl

end Bjoern
