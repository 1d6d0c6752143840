import Bjoern.StartResponseProtocol

namespace Bjoern

theorem bind_ok {ε α β : Type} {x : Except ε α} {f : α → Except ε β} {b : β}
    (h : (x >>= f) = .ok b) : ∃ a, x = .ok a ∧ f a = .ok b := by
  cases x with
  | error e => cases h
  | ok a => exact ⟨a, rfl, h⟩

@[simp] theorem ok_bind {ε α β : Type} (a : α) (f : α → Except ε β) : (Except.ok a >>= f) = f a := rfl

@[simp] theorem pure_ok {ε α : Type} (a : α) : (pure a : Except ε α) = .ok a := rfl

@[simp] theorem error_bind {ε α β : Type} (e : ε) (f : α → Except ε β) :
    (Except.error e >>= f) = .error e := rfl

/-- The places of a request that `start_response` writes. -/
def Request.withResponse (r : Request) (status : Option Bytes) (headers : Headers)
    (unknown called : Bool) : Request :=
  { r with
    status := status
    headers := headers
    state.responseLengthUnknown := unknown
    state.startResponseCalled := called }

theorem clearResponse_frame (r : Request) : ∃ status headers unknown called,
    clearResponse r = r.withResponse status headers unknown called := by
  unfold clearResponse
  split
  next => exact ⟨none, .null, true, _, rfl⟩
  next => exact ⟨_, _, _, _, rfl⟩

theorem startResponse_frame {r r' : Request} {args : List PyArg} {succeeded : Bool}
    (h : startResponse r args = .ok (r', succeeded)) : ∃ status headers unknown called,
      r' = r.withResponse status headers unknown called := by
  obtain ⟨status, headers, unknown, called, eq⟩ := clearResponse_frame r
  cases startResponse_outcome h with
  | @success bytes _ fields found _ _ _ => exact ⟨some bytes, .response fields, !found, true, by rw [eq]; rfl⟩
  | failure _ failed =>
    rcases failed with rfl | rfl | ⟨bytes, rfl⟩
    · exact ⟨_, _, _, _, eq⟩
    · exact ⟨none, headers, unknown, called, by rw [eq]; rfl⟩
    · exact ⟨some bytes, .null, unknown, called, by rw [eq]; rfl⟩

theorem runStartResponses_frame {r r' : Request} {calls : List (List PyArg)}
    (h : runStartResponses r calls = .ok r') : ∃ status headers unknown called,
      r' = r.withResponse status headers unknown called := by
  induction calls generalizing r with
  | nil =>
    cases h
    exact ⟨_, _, _, _, rfl⟩
  | cons args rest ih =>
    obtain ⟨⟨mid, _⟩, hs, hr⟩ := bind_ok h
    obtain ⟨_, _, _, _, rfl⟩ := startResponse_frame hs
    obtain ⟨status, headers, unknown, called, rfl⟩ := ih hr
    exact ⟨status, headers, unknown, called, rfl⟩

/-- `r` with the response of `s`. -/
def Request.answeredLike (r s : Request) : Request :=
  r.withResponse s.status s.headers s.state.responseLengthUnknown s.state.startResponseCalled

theorem clearResponse_answeredLike (r s : Request) :
    clearResponse (r.answeredLike s) = r.answeredLike (clearResponse s) := by
  cases h : s.state.startResponseCalled <;> simp [clearResponse, Request.answeredLike, Request.withResponse, h]

theorem setResponse_answeredLike (r s : Request) (status headers : PyArg) :
    setResponse (r.answeredLike s) status headers =
      (r.answeredLike (setResponse s status headers).1, (setResponse s status headers).2) := by
  unfold setResponse
  split
  next => rfl
  next =>
    split
    next => rfl
    next => split <;> rfl

/-- `start_response` looks at nothing but the response and whether it is installed. -/
theorem startResponse_answeredLike {r s : Request} (same : r.state.wsgiCallDone = s.state.wsgiCallDone)
    (args : List PyArg) : startResponse (r.answeredLike s) args =
      (startResponse s args).map fun x => (r.answeredLike x.1, x.2) := by
  have called : (r.answeredLike (clearResponse s)).state.startResponseCalled =
    (clearResponse s).state.startResponseCalled := rfl
  have done : (r.answeredLike (clearResponse s)).state.wsgiCallDone = (clearResponse s).state.wsgiCallDone := by
    obtain ⟨_, _, _, _, eq⟩ := clearResponse_frame s
    rw [eq]
    exact same
  have withoutExcInfo : ∀ status headers,
      (if (clearResponse s).state.startResponseCalled then (r.answeredLike (clearResponse s), false)
        else setResponse (r.answeredLike (clearResponse s)) status headers) =
      (fun x : Request × Bool => (r.answeredLike x.1, x.2))
        (if (clearResponse s).state.startResponseCalled then (clearResponse s, false)
          else setResponse (clearResponse s) status headers) := by
    intro status headers
    split
    next => rfl
    next => exact setResponse_answeredLike _ _ _ _
  unfold startResponse
  simp only [clearResponse_answeredLike, called, done]
  split
  next => exact congrArg Except.ok (withoutExcInfo _ _)
  next => exact congrArg Except.ok (withoutExcInfo _ _)
  next =>
    split
    next => rfl
    next =>
      split
      next => exact congrArg Except.ok (setResponse_answeredLike _ _ _ _)
      next => rfl
      next => rfl
  next => rfl

theorem runStartResponses_answeredLike {r s : Request} (same : r.state.wsgiCallDone = s.state.wsgiCallDone)
    (calls : List (List PyArg)) :
    runStartResponses (r.answeredLike s) calls = (runStartResponses s calls).map r.answeredLike := by
  induction calls generalizing s with
  | nil => rfl
  | cons args rest ih =>
    simp only [runStartResponses, startResponse_answeredLike same]
    cases result : startResponse s args with
    | error halt => rfl
    | ok x =>
      obtain ⟨mid, succeeded⟩ := x
      obtain ⟨_, _, _, _, eq⟩ := startResponse_frame result
      refine ih ?_
      rw [eq]
      exact same

theorem runStartResponses_alike {r s r' : Request} {calls : List (List PyArg)} (alike : r.answeredLike s = r)
    (same : r.state.wsgiCallDone = s.state.wsgiCallDone) (h : runStartResponses r calls = .ok r') :
    ∃ s', runStartResponses s calls = .ok s' ∧ r' = r.answeredLike s' := by
  rw [← alike, runStartResponses_answeredLike same] at h
  cases result : runStartResponses s calls with
  | error halt =>
    rw [result] at h
    cases h
  | ok s' =>
    rw [result] at h
    cases h
    exact ⟨s', rfl, rfl⟩

/-- Once the headers are serialised, no call of `start_response` can end the process. -/
theorem runStartResponses_returns {r : Request} (done : r.state.wsgiCallDone = true)
    (calls : List (List PyArg)) : ∃ r', runStartResponses r calls = .ok r' := by
  induction calls generalizing r with
  | nil => exact ⟨r, rfl⟩
  | cons args rest ih =>
    have prints : ¬ PrintsNoException r args := by simp [PrintsNoException, done]
    obtain ⟨mid, succeeded, hs⟩ := (startResponse_returns_iff args).mpr prints
    obtain ⟨_, _, _, _, frame⟩ := startResponse_frame hs
    obtain ⟨r', hr⟩ := ih (r := mid) (by rw [frame]; exact done)
    exact ⟨r', by simp only [runStartResponses, hs]; exact hr⟩

theorem callStartResponses_frame {c c' : Conn} {calls : List (List PyArg)}
    (h : callStartResponses c calls = .ok c') : ∃ status headers unknown called,
      c' = { c with toRequest := c.toRequest.withResponse status headers unknown called } := by
  unfold callStartResponses at h
  split at h
  next r hr =>
    obtain ⟨status, headers, unknown, called, rfl⟩ := runStartResponses_frame hr
    exact ⟨status, headers, unknown, called, (Except.ok.inj h).symm⟩
  next => cases h

theorem callStartResponses_returns {c : Conn} (done : c.state.wsgiCallDone = true)
    (calls : List (List PyArg)) : ∃ c', callStartResponses c calls = .ok c' := by
  obtain ⟨r, hr⟩ := runStartResponses_returns done calls
  exact ⟨{ c with toRequest := r }, by simp only [callStartResponses, hr]⟩

/-- The non-empty `bytes` that an iterator gives before it ends or fails. -/
def bodyItems : PyIter → List Bytes
  | [] => []
  | step :: rest =>
    match step.result with
    | .ok (.bytes data) => if data = [] then bodyItems rest else data :: bodyItems rest
    | _ => []

/-- Whether an iterator ends with `StopIteration`, not with an exception or a non-bytes item. -/
def endsNormally : PyIter → Bool
  | [] => true
  | step :: rest =>
    match step.result with
    | .ok (.bytes _) => endsNormally rest
    | .ok .stop => true
    | _ => false

/-- After `StopIteration` there is nothing but `StopIteration`. -/
def StaysExhausted : PyIter → Prop
  | [] => True
  | step :: rest =>
    (step.result = .ok .stop → ∀ later ∈ rest, later.result = .ok .stop) ∧ StaysExhausted rest

theorem bodyItems_of_stopped {steps : PyIter} (h : ∀ step ∈ steps, step.result = .ok .stop) :
    bodyItems steps = [] := by
  cases steps with
  | nil => rfl
  | cons step rest => simp [bodyItems, h step (by simp)]

/-- `c` after `n` calls of `__next__`, with `rest` left to its iterator and `exc` pending. -/
def Conn.pull (c : Conn) (n : Nat) (rest : PyIter) (exc : Option PyExc) (status : Option Bytes)
    (headers : Headers) (unknown called : Bool) : Conn :=
  { c with
    toRequest := { c.toRequest.withResponse status headers unknown called with iterator := some rest }
    iterLog := c.iterLog ++ List.replicate n .next
    pyErr := exc }

section
variable (c : Conn) (n : Nat) (rest : PyIter) (exc : Option PyExc) (status : Option Bytes) (headers : Headers)
  (unknown called : Bool)

@[simp] theorem Conn.pull_pyErr : (c.pull n rest exc status headers unknown called).pyErr = exc := rfl

@[simp] theorem Conn.pull_iterator :
    (c.pull n rest exc status headers unknown called).iterator = some rest := rfl

@[simp] theorem Conn.pull_iterable :
    (c.pull n rest exc status headers unknown called).iterable = c.iterable := rfl

theorem Conn.pull_pull (more : Nat) (rest' : PyIter) (exc' : Option PyExc) (status' : Option Bytes) (headers' : Headers)
    (unknown' called' : Bool) :
    (c.pull n rest exc status headers unknown called).pull more rest' exc' status' headers' unknown' called' =
      c.pull (n + more) rest' exc' status' headers' unknown' called' := by
  simp [Conn.pull, Request.withResponse, ← List.replicate_append_replicate]

end

/-- What `wsgi_iterable_get_next_chunk` makes of the `__next__` calls that are left. -/
inductive NextOutcome (c : Conn) (steps : PyIter) : Conn → Option Bytes → Prop
  | chunk {n rest status headers unknown called data} : data ≠ [] →
      bodyItems steps = data :: bodyItems rest → endsNormally steps = endsNormally rest →
      (StaysExhausted steps → StaysExhausted rest) →
      NextOutcome c steps (c.pull n rest c.pyErr status headers unknown called) (some data)
  | stopped {n rest status headers unknown called} : bodyItems steps = [] → endsNormally steps = true →
      rest ⊆ steps → (StaysExhausted steps → bodyItems rest = [] ∧ endsNormally rest = true) →
      NextOutcome c steps (c.pull n rest c.pyErr status headers unknown called) none
  | failed {n rest exc status headers unknown called} : bodyItems steps = [] → endsNormally steps = false →
      NextOutcome c steps (c.pull n rest (some exc) status headers unknown called) none

theorem NextOutcome.skip {c c' : Conn} {step : PyCall IterItem} {rest : PyIter} {chunk : Option Bytes}
    {status : Option Bytes} {headers : Headers} {unknown called : Bool}
    (empty : step.result = .ok (.bytes []))
    (h : NextOutcome (c.pull 1 rest c.pyErr status headers unknown called) rest c' chunk) :
    NextOutcome c (step :: rest) c' chunk := by
  have items : bodyItems (step :: rest) = bodyItems rest := by simp [bodyItems, empty]
  have ending : endsNormally (step :: rest) = endsNormally rest := by simp [endsNormally, empty]
  cases h with
  | chunk ne hi he hs =>
    rw [Conn.pull_pull]
    exact .chunk ne (items.trans hi) (ending.trans he) (fun h => hs h.2)
  | stopped hi he sub hs =>
    rw [Conn.pull_pull]
    exact .stopped (items.trans hi) (ending.trans he) (List.subset_cons_of_subset step sub) (fun h => hs h.2)
  | failed hi he =>
    rw [Conn.pull_pull]
    exact .failed (items.trans hi) (ending.trans he)

theorem nextChunkLoop_outcome {c c' : Conn} {steps : PyIter} {chunk : Option Bytes}
    (h : nextChunkLoop c steps = .ok (c', chunk)) : NextOutcome c steps c' chunk := by
  induction steps generalizing c with
  | nil =>
    cases h
    exact .stopped (n := 1) rfl rfl (List.Subset.refl _) (fun _ => ⟨rfl, rfl⟩)
  | cons step rest ih =>
    obtain ⟨mid, hm, h⟩ := bind_ok h
    obtain ⟨status, headers, unknown, called, rfl⟩ := callStartResponses_frame hm
    dsimp only at h
    split at h
    next exc hr =>
      cases h
      exact .failed (n := 1) (by simp [bodyItems, hr]) (by simp [endsNormally, hr])
    next hr =>
      cases h
      refine .stopped (n := 1) (by simp [bodyItems, hr]) (by simp [endsNormally, hr])
        (List.subset_cons_self step rest) (fun stays => ?_)
      have later := stays.1 hr
      refine ⟨bodyItems_of_stopped later, ?_⟩
      cases rest with
      | nil => rfl
      | cons next tail => simp [endsNormally, later next (by simp)]
    next hr =>
      cases h
      exact .failed (n := 1) (by simp [bodyItems, hr]) (by simp [endsNormally, hr])
    next data hr =>
      split at h
      next empty =>
        subst data
        exact NextOutcome.skip hr (ih h)
      next ne =>
        cases h
        exact .chunk (n := 1) ne (by simp [bodyItems, hr, ne]) (by simp [endsNormally, hr]) (fun h => h.2)

theorem wsgiIterableGetNextChunk_loop {c : Conn} {steps : PyIter} (iterating : c.iterator = some steps) :
    wsgiIterableGetNextChunk c = nextChunkLoop c steps := by
  rw [wsgiIterableGetNextChunk, iterating, Option.getD_some]

theorem nextChunkLoop_returns {c : Conn} (done : c.state.wsgiCallDone = true) (steps : PyIter) :
    ∃ c' chunk, nextChunkLoop c steps = .ok (c', chunk) := by
  induction steps generalizing c with
  | nil => exact ⟨_, _, rfl⟩
  | cons step rest ih =>
    obtain ⟨mid, hm⟩ := callStartResponses_returns
      (c := { c with iterator := some rest, iterLog := c.iterLog ++ [.next] }) done step.startResponses
    obtain ⟨_, _, _, _, frame⟩ := callStartResponses_frame hm
    simp only [nextChunkLoop, hm, ok_bind]
    split
    next => exact ⟨_, _, rfl⟩
    next => exact ⟨_, _, rfl⟩
    next => exact ⟨_, _, rfl⟩
    next =>
      split
      next => exact ih (by rw [frame]; exact done)
      next => exact ⟨_, _, rfl⟩

end Bjoern
