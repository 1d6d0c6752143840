import Bjoern.FragmentedRequests

namespace Bjoern

open Runs

/-- `r` with other values in the places that the callbacks do not look at. -/
def Request.besides (r : Request) (p : HttpParser) (watcher : Watcher) (chunk : ChunkRef) (position : Int)
    (iterable : Option PyValue) : Request :=
  { r with
    parser.parser := p
    evWatcher := watcher
    currentChunk := chunk
    currentChunkP := position
    iterable := iterable }

/-- `r` without a pending expectation. -/
def Request.unexpecting (r : Request) : Request := { r with state.expectContinue := false }

section
variable (base : Environ) (r : Request) (parser : HttpParser) (callback : Callback)

/-- The callbacks take what they need of the parser as they find it, not as an earlier read left it. -/
theorem runCallback_besides (p : HttpParser) (watcher : Watcher) (chunk : ChunkRef) (position : Int)
    (iterable : Option PyValue) :
    runCallback base (r.besides p watcher chunk position iterable) parser callback =
      ((runCallback base r parser callback).1.besides p watcher chunk position iterable,
        (runCallback base r parser callback).2) := by
  cases callback with
  | messageBegin => rfl
  | path data =>
    simp only [runCallback, onPath_eq]
    split <;> rfl
  | queryString data => rfl
  | headerField data =>
    have start : startHeader (r.besides p watcher chunk position iterable).parser =
        { startHeader r.parser with parser := p } := by
      cases h : r.parser.lastCallWasHeaderValue <;> simp [startHeader, Request.besides, h]
    simp only [runCallback, onHeaderField, start]
    split
    next => rfl
    next => split <;> rfl
  | headerValue data =>
    have checks : checksExpectation (r.besides p watcher chunk position iterable) parser =
      checksExpectation r parser := rfl
    simp only [runCallback, onHeaderValue, checks]
    split
    next => split <;> rfl
    next => rfl
  | body data =>
    cases h : ((r.headers.getItem (ascii "wsgi.input")).isNone && parser.contentLength == 0) <;>
      simp [runCallback, onBody, Request.besides, h]
  | messageComplete => rfl

/-- A pending expectation makes a difference only where another one is looked at. -/
theorem runCallback_unexpecting (unlooked : ∀ value, callback = .headerValue value →
      checksExpectation r.unexpecting parser = false) :
    runCallback base r.unexpecting parser callback =
      ((runCallback base r parser callback).1.unexpecting, (runCallback base r parser callback).2) := by
  cases callback with
  | messageBegin => rfl
  | path data =>
    simp only [runCallback, onPath_eq]
    split <;> rfl
  | queryString data => rfl
  | headerField data =>
    have start : startHeader r.unexpecting.parser = startHeader r.parser := rfl
    simp only [runCallback, onHeaderField, start]
    split
    next => rfl
    next => split <;> rfl
  | headerValue data =>
    have without := unlooked data rfl
    have checks : checksExpectation r parser = false := by
      cases waits : r.state.expectContinue with
      | true => simp [checksExpectation, waits]
      | false =>
        rw [← without, checksExpectation, checksExpectation]
        simp [Request.unexpecting, waits]
    simp only [runCallback, onHeaderValue, without, checks]
    rfl
  | body data =>
    cases h : ((r.headers.getItem (ascii "wsgi.input")).isNone && parser.contentLength == 0) <;>
      simp [runCallback, onBody, Request.unexpecting, h]
  | messageComplete => rfl

end

theorem CallbackStep.besides {base : Environ} {quiet : Prop} {r r' : Request} {x : HttpParser × Callback}
    (step : CallbackStep base quiet r x r') (p : HttpParser) (watcher : Watcher) (chunk : ChunkRef) (position : Int)
    (iterable : Option PyValue) : CallbackStep base quiet (r.besides p watcher chunk position iterable) x
      (r'.besides p watcher chunk position iterable) := by
  refine ⟨?_, step.2.1, step.2.2⟩
  rw [runCallback_besides, step.1]

theorem besides_run {base : Environ} {quiet : Prop} {r r' : Request} {fired : List (HttpParser × Callback)}
    (run : Run (CallbackStep base quiet) r fired r') (p : HttpParser) (watcher : Watcher) (chunk : ChunkRef)
    (position : Int) (iterable : Option PyValue) :
    Run (CallbackStep base quiet) (r.besides p watcher chunk position iterable) fired
      (r'.besides p watcher chunk position iterable) := by
  induction run with
  | nil => exact .nil
  | cons step _ ih => exact .cons (step.besides p watcher chunk position iterable) ih

@[simp] theorem Request.unexpecting_expectContinue (r : Request) : r.unexpecting.state.expectContinue = false := rfl

theorem Request.unexpecting_eq {r : Request} (clear : r.state.expectContinue = false) : r.unexpecting = r := by
  rw [Request.unexpecting, ← clear]

/-- What happens without a pending expectation, and raises none, happens with one. -/
theorem CallbackStep.of_unexpecting {base : Environ} {r s : Request} {x : HttpParser × Callback}
    (step : CallbackStep base True r.unexpecting x s) :
    ∃ t, CallbackStep base True r x t ∧ t.unexpecting = s := by
  obtain ⟨parser, callback⟩ := x
  obtain ⟨result, noError, quiet⟩ := step
  have unlooked : ∀ value, callback = .headerValue value → checksExpectation r.unexpecting parser = false := by
    rintro value rfl
    by_contra looked
    have looked : checksExpectation r.unexpecting parser = true := by simpa using looked
    simp only [runCallback, onHeaderValue, looked, if_true] at result
    split at result
    next =>
      obtain ⟨rfl, _⟩ := Prod.mk.inj result
      exact absurd (quiet trivial rfl) (by simp)
    next =>
      obtain ⟨rfl, _⟩ := Prod.mk.inj result
      cases noError
  have same := runCallback_unexpecting base r parser callback unlooked
  dsimp only at result
  rw [result] at same
  obtain ⟨rfl, completes⟩ := Prod.mk.inj same
  refine ⟨(runCallback base r parser callback).1, ⟨Prod.ext rfl completes.symm, noError, ?_⟩, rfl⟩
  intro _ raised
  cases waits : r.state.expectContinue with
  | true => rfl
  | false =>
    rw [Request.unexpecting_eq waits] at result
    rw [result] at raised
    exact absurd raised (by simp)

theorem run_of_unexpecting {base : Environ} {r s : Request} {fired : List (HttpParser × Callback)}
    (run : Run (CallbackStep base True) r.unexpecting fired s) :
    ∃ t, Run (CallbackStep base True) r fired t ∧ t.unexpecting = s := by
  generalize start : r.unexpecting = r' at run
  induction run generalizing r with
  | nil => exact ⟨r, .nil, start⟩
  | cons step _ ih =>
    subst start
    obtain ⟨mid, step', eq⟩ := step.of_unexpecting
    obtain ⟨t, run', last⟩ := ih eq
    exact ⟨t, .cons step' run', last⟩

theorem requestParse_completed {base : Environ} {r r' : Request} {data : ReadData}
    (result : runCallbacks base r data.fired = (r', true)) (consumed : data.consumed = true) :
    requestParse base r data = { r' with parser.parser := data.parser } := by
  simp [requestParse, result, consumed]

theorem requestParse_of_run {base : Environ} {quiet : Prop} {r r' : Request} {data : ReadData}
    (run : Run (CallbackStep base quiet) r data.fired r') (consumed : data.consumed = true) :
    requestParse base r data = { r' with parser.parser := data.parser } :=
  requestParse_completed (runCallbacks_of_run run) consumed

theorem runCallback_unfinished (base : Environ) (r : Request) (parser : HttpParser) {callback : Callback}
    (more : callback ≠ .messageComplete) :
    (runCallback base r parser callback).1.state.parseFinished = r.state.parseFinished := by
  cases callback with
  | messageBegin => rfl
  | path data =>
    simp only [runCallback, onPath_eq]
    split <;> rfl
  | queryString data => rfl
  | headerField data =>
    simp only [runCallback, onHeaderField]
    split
    next => rfl
    next => split <;> rfl
  | headerValue data =>
    simp only [runCallback, onHeaderValue]
    split
    next => split <;> rfl
    next => rfl
  | body data =>
    simp only [runCallback, onBody]
    split <;> rfl
  | messageComplete => exact absurd rfl more

theorem runCallbacks_cons {base : Environ} {r : Request} {x : HttpParser × Callback}
    (completes : (runCallback base r x.1 x.2).2 = true) (rest : List (HttpParser × Callback)) :
    runCallbacks base r (x :: rest) = runCallbacks base (runCallback base r x.1 x.2).1 rest := by
  rw [runCallbacks]
  split
  next result => rw [result]
  next result => simp [result] at completes

theorem runCallbacks_unfinished (base : Environ) (r : Request) {fired : List (HttpParser × Callback)}
    (more : ∀ x ∈ fired, x.2 ≠ .messageComplete) :
    (runCallbacks base r fired).1.state.parseFinished = r.state.parseFinished := by
  induction fired generalizing r with
  | nil => rfl
  | cons x rest ih =>
    have first := runCallback_unfinished base r x.1 (more x (by simp))
    rw [runCallbacks]
    split
    next result =>
      rw [result] at first
      exact (ih _ fun y member => more y (List.mem_cons_of_mem _ member)).trans first
    next result =>
      rw [result] at first
      exact first

theorem unfinished_run {base : Environ} {quiet : Prop} {r r' : Request} {fired : List (HttpParser × Callback)}
    (run : Run (CallbackStep base quiet) r fired r') (more : ∀ x ∈ fired, x.2 ≠ .messageComplete) :
    r'.state.parseFinished = r.state.parseFinished := by
  have unfinished := runCallbacks_unfinished base r more
  rw [runCallbacks_of_run run] at unfinished
  exact unfinished

theorem quiet_run {base : Environ} {quiet : Prop} {r r' : Request} {fired : List (HttpParser × Callback)}
    (run : Run (CallbackStep base quiet) r fired r') (still : quiet) (clear : r.state.expectContinue = false) :
    r'.state.expectContinue = false := by
  induction run with
  | nil => exact clear
  | cons step _ ih =>
    refine ih ?_
    by_contra raised
    have before := step.2.2 still (by simpa using raised)
    rw [clear] at before
    cases before

theorem noError_run {base : Environ} {quiet : Prop} {r r' : Request} {fired : List (HttpParser × Callback)}
    (run : Run (CallbackStep base quiet) r fired r') (noError : r.state.errorCode = none) :
    r'.state.errorCode = none := by
  induction run with
  | nil => exact noError
  | cons step _ ih => exact ih step.2.1

/-- From `on_message_begin` on, the request has its dictionary. -/
theorem runCallback_begun (base : Environ) {r : Request} (parser : HttpParser) {callback : Callback}
    (begun : (∃ d, r.headers = .environ d) ∨ callback = .messageBegin) :
    ∃ d, (runCallback base r parser callback).1.headers = .environ d := by
  by_cases begins : callback = .messageBegin
  · rw [begins]
    exact ⟨.empty, rfl⟩
  · obtain ⟨d, headers⟩ := begun.resolve_right begins
    cases callback with
    | messageBegin => exact absurd rfl begins
    | path data =>
      simp only [runCallback, onPath_eq]
      split
      next => exact ⟨_, congrArg (Headers.modify _) headers⟩
      next => exact ⟨d, headers⟩
    | queryString data => exact ⟨_, congrArg (Headers.modify _) headers⟩
    | headerField data =>
      have same : (onHeaderField r data).1.headers = r.headers := by
        unfold onHeaderField
        dsimp only
        split
        next => rfl
        next => split <;> rfl
      exact ⟨d, same.trans headers⟩
    | headerValue data =>
      obtain ⟨_, _, _, set, _⟩ := onHeaderValue_spec r parser data
      simp only [runCallback, set, headers]
      split <;> exact ⟨_, rfl⟩
    | body data =>
      simp only [runCallback, onBody]
      split
      next => exact ⟨d, headers⟩
      next => exact ⟨_, congrArg (Headers.modify _) headers⟩
    | messageComplete => exact ⟨_, congrArg (Headers.modify _) headers⟩

theorem runCallbacks_begun {base : Environ} {r r' : Request} {fired : List (HttpParser × Callback)}
    (completed : runCallbacks base r fired = (r', true))
    (begun : (∃ d, r.headers = .environ d) ∨ .messageBegin ∈ fired.map Prod.snd) : ∃ d, r'.headers = .environ d := by
  induction fired generalizing r with
  | nil =>
    cases completed
    exact begun.resolve_right (by simp)
  | cons x rest ih =>
    rw [List.map_cons, List.mem_cons, ← or_assoc] at begun
    rw [runCallbacks] at completed
    split at completed
    next mid step =>
      refine ih completed (begun.imp_left fun earlier => ?_)
      have first := runCallback_begun base x.1 (earlier.imp_right Eq.symm)
      rw [step] at first
      exact first
    next => cases completed

/-- Nothing of a response is there yet. -/
structure Untouched (c : Conn) : Prop extends Grounded c where
  keepAlive : c.state.keepAlive = false
  chunkedResponse : c.state.chunkedResponse = false
  wsgiCallDone : c.state.wsgiCallDone = false
  iterable : c.iterable = none
  iterator : c.iterator = none

theorem Untouched.parsed {base : Environ} {c : Conn} {data : ReadData} (h : Untouched c)
    (parses : Parses base c data) : Untouched (c.parsed base data) := by
  have f := (c.parsed_frame base data).request
  exact ⟨(h.toGrounded.parsed parses).2, f.keepAlive.trans h.keepAlive, f.chunkedResponse.trans h.chunkedResponse,
    f.wsgiCallDone.trans h.wsgiCallDone, f.iterable.trans h.iterable, f.iterator.trans h.iterator⟩

/-- The bytes on their way, the watcher and the interim flag do not count as touching the request. -/
theorem Untouched.besides {c : Conn} (h : Untouched c) (watcher : Watcher) (chunk : ChunkRef) (position : Int)
    (sent : Bytes) (expects : Bool) (metrics : List Metric) : Untouched
      { c with
        evWatcher := watcher
        currentChunk := chunk
        currentChunkP := position
        sent := sent
        state.expectContinue := expects
        metrics := metrics } :=
  ⟨⟨h.idle, h.unanswered⟩, h.keepAlive, h.chunkedResponse, h.wsgiCallDone, h.iterable, h.iterator⟩

theorem Untouched.count {c : Conn} (h : Untouched c) (metric : Metric) : Untouched (c.count metric) :=
  h.besides _ _ _ _ _ _

/-- A callback that may raise an expectation, which is gone before the next. -/
def RaisingStep (base : Environ) (r : Request) (x : HttpParser × Callback) (r' : Request) : Prop :=
  ∃ t, CallbackStep base False r x t ∧ r' = t.unexpecting

/-- The callbacks `left` run through from `r` on. Only one of them raises an expectation, and none if the one of
the request is `spent`. -/
inductive Hears (base : Environ) (spent : Bool) (r : Request) (left : List (HttpParser × Callback))
    (r' : Request) : Prop
  | quiet : Run (CallbackStep base True) r.unexpecting left r' → Hears base spent r left r'
  | once : spent = false → r.state.expectContinue = false →
      OneOff (CallbackStep base True) (RaisingStep base) r left r' → Hears base spent r left r'

theorem CallbackStep.loosen {base : Environ} {r r' : Request} {x : HttpParser × Callback}
    (step : CallbackStep base True r x r') : CallbackStep base False r x r' :=
  ⟨step.1, step.2.1, fun none => none.elim⟩

theorem loosen_run {base : Environ} {r r' : Request} {fired : List (HttpParser × Callback)}
    (run : Run (CallbackStep base True) r fired r') : Run (CallbackStep base False) r fired r' :=
  run.mono fun _ _ _ step => step.loosen

/-- What the callbacks before a cut really do, and what is left of them. -/
theorem raising_run {base : Environ} {r s : Request} {fired : List (HttpParser × Callback)}
    (run : OneOff (CallbackStep base True) (RaisingStep base) r fired s) :
    ∃ t, Run (CallbackStep base False) r fired t ∧ t.unexpecting = s := by
  induction run with
  | here step tail =>
    obtain ⟨mid, first, rfl⟩ := step
    obtain ⟨t, second, last⟩ := run_of_unexpecting tail
    exact ⟨t, .cons first (loosen_run second), last⟩
  | later step _ ih =>
    obtain ⟨t, second, last⟩ := ih
    exact ⟨t, .cons step.loosen second, last⟩

theorem Hears.split {base : Environ} {spent : Bool} {r r' : Request} {fired rest : List (HttpParser × Callback)}
    (h : Hears base spent r (fired ++ rest) r') : ∃ t, Run (CallbackStep base False) r fired t ∧
      (spent = true → r.state.expectContinue = false → t.state.expectContinue = false) ∧
      Hears base (spent || t.state.expectContinue) t rest r' := by
  cases h with
  | quiet run =>
    obtain ⟨s, first, second⟩ := run.split
    obtain ⟨t, run', rfl⟩ := run_of_unexpecting first
    exact ⟨t, loosen_run run', fun _ clear => quiet_run run' trivial clear, .quiet second⟩
  | once fresh clear run =>
    obtain ⟨s, ⟨first, second⟩ | ⟨first, second⟩⟩ := run.split
    · have still := quiet_run first trivial clear
      exact ⟨s, loosen_run first, fun _ _ => still, .once (by rw [fresh, still]; rfl) still second⟩
    · obtain ⟨t, run', rfl⟩ := raising_run first
      refine ⟨t, run', fun spent => ?_, .quiet second⟩
      cases fresh.symm.trans spent

theorem RaisingStep.besides {base : Environ} {r r' : Request} {x : HttpParser × Callback}
    (step : RaisingStep base r x r') (p : HttpParser) (watcher : Watcher) (chunk : ChunkRef) (position : Int)
    (iterable : Option PyValue) : RaisingStep base (r.besides p watcher chunk position iterable) x
      (r'.besides p watcher chunk position iterable) := by
  obtain ⟨t, step, rfl⟩ := step
  exact ⟨_, step.besides p watcher chunk position iterable, rfl⟩

theorem Hears.besides {base : Environ} {spent : Bool} {r r' : Request} {left : List (HttpParser × Callback)}
    (h : Hears base spent r left r') (p : HttpParser) (watcher : Watcher) (chunk : ChunkRef) (position : Int)
    (iterable : Option PyValue) : Hears base spent (r.besides p watcher chunk position iterable) left
      (r'.besides p watcher chunk position iterable) := by
  cases h with
  | quiet run => exact .quiet (besides_run run p watcher chunk position iterable)
  | once fresh clear run =>
    refine .once fresh clear ?_
    clear clear
    induction run with
    | here step tail => exact .here (step.besides _ _ _ _ _) (besides_run tail _ _ _ _ _)
    | later step _ ih => exact .later (step.besides _ _ _ _ _) ih

/-- The callbacks of `q` that are still to come are `left`. -/
structure Receiving (base : Environ) (spent : Bool) (q : HttpRequest) (d : Environ)
    (left : List (HttpParser × Callback)) (c : Conn) : Prop where
  reading : c.evWatcher = .reading
  untouched : Untouched c
  noError : c.state.errorCode = none
  unfinished : c.state.parseFinished = false
  some : left ≠ []
  ends : ∀ x ∈ left.dropLast, x.2 ≠ .messageComplete
  hears : ∃ r', Hears base spent c.toRequest left r' ∧ Complete base q d c.clientAddr r'

theorem Receiving.count {base : Environ} {spent : Bool} {q : HttpRequest} {d : Environ}
    {left : List (HttpParser × Callback)} {c : Conn} (h : Receiving base spent q d left c) (metric : Metric) :
    Receiving base spent q d left (c.count metric) :=
  ⟨h.reading, h.untouched.count metric, h.noError, h.unfinished, h.some, h.ends, h.hears⟩

/-- A read that brings a part of the request leaves the rest to come. -/
theorem Receiving.part {base : Environ} {spent : Bool} {q : HttpRequest} {d : Environ}
    {rest : List (HttpParser × Callback)} {c : Conn} {data : ReadData}
    (h : Receiving base spent q d (data.fired ++ rest) c) (parses : Parses base c data)
    (consumed : data.consumed = true) (more : rest ≠ []) :
    Receiving base (spent || (c.parsed base data).state.expectContinue) q d rest (c.parsed base data) ∧
      (spent = true → c.state.expectContinue = false → (c.parsed base data).state.expectContinue = false) := by
  obtain ⟨r', hears, complete⟩ := h.hears
  obtain ⟨mid, first, quiet, second⟩ := hears.split
  have toRequest : (c.parsed base data).toRequest = { mid with parser.parser := data.parser } := by
    rw [(h.untouched.toGrounded.parsed parses).1]
    exact requestParse_of_run first consumed
  have frame := (c.parsed_frame base data).request
  have flag : (c.parsed base data).state.expectContinue = mid.state.expectContinue := by rw [toRequest]
  have address : (c.parsed base data).clientAddr = c.clientAddr := frame.clientAddr
  have before : ∀ x ∈ data.fired, x.2 ≠ .messageComplete := by
    intro x member
    exact h.ends x (by rw [List.dropLast_append_of_ne_nil more]; exact List.mem_append_left _ member)
  rw [flag]
  refine ⟨⟨frame.evWatcher.trans h.reading, h.untouched.parsed parses, ?_, ?_, more, ?_, ?_⟩, quiet⟩
  · have noError := noError_run first h.noError
    rw [toRequest]
    exact noError
  · have unfinished := (unfinished_run first before).trans h.unfinished
    rw [toRequest]
    exact unfinished
  · intro x member
    exact h.ends x (by rw [List.dropLast_append_of_ne_nil more]; exact List.mem_append_right _ member)
  · rw [address, toRequest]
    exact ⟨_, second.besides data.parser mid.evWatcher mid.currentChunk mid.currentChunkP mid.iterable,
      complete.headers, complete.finished, complete.noError⟩

/-- The read that brings the end of the request completes it. -/
theorem Receiving.whole {base : Environ} {spent : Bool} {q : HttpRequest} {d : Environ} {c : Conn} {data : ReadData}
    (h : Receiving base spent q d data.fired c) (parses : Parses base c data) (consumed : data.consumed = true) :
    Complete base q d c.clientAddr (c.parsed base data).toRequest := by
  obtain ⟨r', hears, complete⟩ := h.hears
  rw [← List.append_nil data.fired] at hears
  obtain ⟨mid, first, _, second⟩ := hears.split
  have toRequest : (c.parsed base data).toRequest = { mid with parser.parser := data.parser } := by
    rw [(h.untouched.toGrounded.parsed parses).1]
    exact requestParse_of_run first consumed
  have last : r' = mid.unexpecting := by
    cases second with
    | quiet run =>
      cases run
      rfl
    | once _ _ run => exact absurd rfl run.ne_nil
  rw [toRequest]
  rw [last] at complete
  exact ⟨complete.headers, complete.finished, complete.noError⟩

theorem Pieces.callbacks_eq {q : HttpRequest} (pieces : Pieces q) : ∃ before,
    pieces.callbacks = before ++ [.messageComplete] ∧ .messageComplete ∉ before := by
  refine ⟨.messageBegin :: (pieces.path.map .path ++ (pieces.query.map .queryString ++
    (pieces.headers.flatMap headerCallbacks ++ pieces.body.map .body))), ?_, ?_⟩
  · simp [Pieces.callbacks, Pieces.afterPath]
  · simp [headerCallbacks]

/-- The callbacks of a request end with `on_message_complete`, which is called once. -/
theorem Fires.split {q : HttpRequest} {pieces : Pieces q} {fired : List (HttpParser × Callback)}
    (fires : Fires q pieces fired) : ∃ before parser, fired = before ++ [(parser, .messageComplete)] ∧
      ∀ x ∈ before, x.2 ≠ .messageComplete := by
  obtain ⟨before, shape, none⟩ := pieces.callbacks_eq
  obtain ⟨first, last, eq, hb, hl⟩ := List.map_eq_append_iff.mp (fires.1.trans shape)
  obtain ⟨⟨parser, callback⟩, rest, rfl, rfl, tail⟩ := List.map_eq_cons_iff.mp hl
  obtain rfl := List.map_eq_nil_iff.mp tail
  refine ⟨first, parser, eq, fun x member complete => none ?_⟩
  rw [← hb, ← complete]
  exact List.mem_map_of_mem member

theorem Fires.ends {q : HttpRequest} {pieces : Pieces q} {fired : List (HttpParser × Callback)}
    (fires : Fires q pieces fired) : fired ≠ [] ∧ ∀ x ∈ fired.dropLast, x.2 ≠ .messageComplete := by
  obtain ⟨before, parser, rfl, none⟩ := fires.split
  rw [List.dropLast_concat]
  exact ⟨by simp, none⟩

/-- One header is called `Expect`, and its value comes in one piece. -/
def Pieces.Expects {q : HttpRequest} (pieces : Pieces q) : Prop :=
  ∃ before names after, pieces.headers = before ++ (names, [ascii "100-continue"]) :: after ∧
    nameKey names.flatten = ascii "HTTP_EXPECT" ∧ ∀ h ∈ before ++ after, nameKey h.1.flatten ≠ ascii "HTTP_EXPECT"

theorem clientAddr_run {base : Environ} {quiet : Prop} {r r' : Request} {fired : List (HttpParser × Callback)}
    (run : Run (CallbackStep base quiet) r fired r') : r'.clientAddr = r.clientAddr := by
  have frame := runCallbacks_frame base r fired
  rw [runCallbacks_of_run run] at frame
  exact frame.clientAddr

/-- The callbacks of a whole request without an `Expect` header, from a request that was reset. -/
theorem Fires.quiet_run (base : Environ) {q : HttpRequest} {pieces : Pieces q} {d : Environ} {r : Request}
    {fired : List (HttpParser × Callback)} (fires : Fires q pieces fired) (reset : requestReset r = r)
    (decodes : addPath .empty pieces.path = some d) (noExpect : q.NoExpect) :
    ∃ r', Run (CallbackStep base True) r fired r' ∧ Complete base q d r.clientAddr r' :=
  fires.meets_run base reset decodes (noExpect.meets True pieces)

theorem Between.unexpecting {d : Environ} {r : Request} (h : Between d r) : Between d r.unexpecting :=
  ⟨h.headers, h.last, h.noError⟩

theorem unlooked {q : HttpRequest} {h : List Bytes × List Bytes} (other : nameKey h.1.flatten ≠ ascii "HTTP_EXPECT") :
    MeetsExpectations True q h :=
  fun looks => absurd looks.2.1 other

/-- The callbacks up to the name of the `Expect` header. -/
theorem expectation_run (base : Environ) {q : HttpRequest} {pieces : Pieces q} {d : Environ} {r : Request}
    {before after : List (List Bytes × List Bytes)} {names values : List Bytes} {fired : List (HttpParser × Callback)}
    (reset : requestReset r = r) (decodes : addPath .empty pieces.path = some d)
    (headers : pieces.headers = before ++ (names, values) :: after)
    (others : ∀ h ∈ before, nameKey h.1.flatten ≠ ascii "HTTP_EXPECT")
    (hf : fired.map Prod.snd = .messageBegin :: (pieces.path.map .path ++ (pieces.query.map .queryString ++
      (before.flatMap headerCallbacks ++ names.map .headerField))))
    (snapshots : ∀ x ∈ fired, Snapshot q x) :
    ∃ r', Run (CallbackStep base True) r fired r' ∧
      InName (addHeaders (addQuery d q.query) (before.map fun h => (h.1.flatten, h.2.flatten))) names.flatten r' ∧
      r'.clientAddr = r.clientAddr := by
  obtain ⟨⟨parser, callback⟩, rest, rfl, rfl, hw⟩ := List.map_eq_cons_iff.mp hf
  obtain ⟨walked, rest, rfl, hp, hw⟩ := List.map_eq_append_iff.mp hw
  obtain ⟨queried, rest, rfl, hq, hw⟩ := List.map_eq_append_iff.mp hw
  obtain ⟨first, named, rfl, hb, hn⟩ := List.map_eq_append_iff.mp hw
  have full := pieces.headers_full
  rw [headers] at full
  obtain ⟨name, names, rfl⟩ := List.exists_cons_of_ne_nil (full (names, values) (by simp)).1
  obtain ⟨⟨parser', callback'⟩, named, rfl, rfl, more⟩ := List.map_eq_cons_iff.mp hn
  obtain ⟨r₁, step₁, in₁, sameAddr⟩ := begin_step base True reset parser
  obtain ⟨r₂, run₂, in₂⟩ := in₁.path_run base True decodes hp
  obtain ⟨r₃, run₃, in₃⟩ := in₂.query_run base True pieces.query_full hq
  obtain ⟨r₄, run₄, in₄⟩ := in₃.headers_run base True (q := q)
    (fun h member => full h (by simp [member])) (fun h member => unlooked (others h member)) hb
    (fun x member => snapshots x (by simp [member]))
  obtain ⟨r₅, step₅, in₅⟩ := in₄.name_step base True parser' name
  obtain ⟨r₆, run₆, in₆⟩ := in₅.names_run base True more
  have run := Run.cons step₁ (run₂.append (run₃.append (run₄.append (.cons step₅ run₆))))
  rw [pieces.query_join] at in₆
  exact ⟨r₆, run, in₆, clientAddr_run run⟩

/-- The callbacks of one with an `Expect` header. -/
theorem Fires.raising_run (base : Environ) {q : HttpRequest} {pieces : Pieces q} {d : Environ} {r : Request}
    {fired : List (HttpParser × Callback)} (fires : Fires q pieces fired) (reset : requestReset r = r)
    (decodes : addPath .empty pieces.path = some d) (expects : pieces.Expects) :
    ∃ r', OneOff (CallbackStep base True) (RaisingStep base) r fired r' ∧ Complete base q d r.clientAddr r' := by
  obtain ⟨before, names, after, headers, key, others⟩ := expects
  obtain ⟨hf, snapshots⟩ := fires
  have shape : pieces.callbacks = (.messageBegin :: (pieces.path.map .path ++ (pieces.query.map .queryString ++
      (before.flatMap headerCallbacks ++ names.map .headerField)))) ++ (.headerValue (ascii "100-continue") ::
        (after.flatMap headerCallbacks ++ (pieces.body.map .body ++ [.messageComplete]))) := by
    simp [Pieces.callbacks, Pieces.afterPath, headers, headerCallbacks]
  rw [shape] at hf
  obtain ⟨reached, rest, rfl, hr, hw⟩ := List.map_eq_append_iff.mp hf
  obtain ⟨⟨parser, callback⟩, tail, rfl, rfl, following⟩ := List.map_eq_cons_iff.mp hw
  obtain ⟨last, ended, rfl, ha, he⟩ := List.map_eq_append_iff.mp following
  have full := pieces.headers_full
  rw [headers] at full
  have fresh : d (ascii "wsgi.input") = Option.none := (addPath_input decodes).trans rfl
  obtain ⟨r₁, run₁, in₁, sameAddr⟩ := expectation_run base reset decodes headers
    (fun h member => others h (by simp [member])) hr (fun x member => snapshots x (by simp [member]))
  obtain ⟨r₂, step₂, in₂⟩ := in₁.value_step base False (q := q) (ascii "100-continue")
    (snapshots (parser, .headerValue (ascii "100-continue")) (by simp)) (fun _ => ⟨id, by decide⟩)
  obtain ⟨r₃, run₃, in₃⟩ := in₂.between.unexpecting.headers_run base True (q := q)
    (fun h member => full h (by simp [member])) (fun h member => unlooked (others h (by simp [member]))) ha
    (fun x member => snapshots x (by simp [member]))
  have dict : addHeaders (addHeader (addHeaders (addQuery d q.query)
      (before.map fun h => (h.1.flatten, h.2.flatten))) names.flatten (ascii "100-continue"))
      (after.map fun h => (h.1.flatten, h.2.flatten)) = addHeaders (addQuery d q.query) q.headers := by
    rw [← pieces.headers_join, headers]
    simp [addHeaders, List.foldl_append]
  rw [dict] at in₃
  obtain ⟨r₄, run₄, complete⟩ := in₃.end_run base True pieces fresh he
    (fun x member => snapshots x (by simp [member]))
  have address : r₃.clientAddr = r.clientAddr :=
    (clientAddr_run run₃).trans ((clientAddr_run (.single step₂)).trans sameAddr)
  rw [address] at complete
  have raised : RaisingStep base r₁ (parser, .headerValue (ascii "100-continue")) r₂.unexpecting := ⟨r₂, step₂, rfl⟩
  exact ⟨r₄, OneOff.prepend run₁ (.here raised (run₃.append run₄)), complete⟩

/-- A connection between requests, as `ev_io_on_request` and the end of a kept response leave it. -/
structure Ready (c : Conn) : Prop where
  reading : c.evWatcher = .reading
  reset : requestReset c.toRequest = c.toRequest
  idle : c.pyErr = none

theorem evIoOnRequest_ready (clientAddr : Bytes) (parser : HttpParser) : Ready (evIoOnRequest clientAddr parser) :=
  ⟨rfl, rfl, rfl⟩

theorem Kept.ready {c c' : Conn} (kept : Kept c c') : Ready c' := by
  refine ⟨?_, ?_, kept.idle⟩
  · rw [kept.request]
  · rw [kept.request]
    rfl

theorem Ready.untouched {c : Conn} (ready : Ready c) : Untouched c := by
  have reset := ready.reset
  have headers : c.headers = .null := by
    rw [← reset]
    rfl
  refine ⟨⟨ready.idle, by simp [headers]⟩, ?_, ?_, ?_, ?_, ?_⟩ <;> rw [← reset] <;> rfl

theorem Ready.flags {c : Conn} (ready : Ready c) : c.state.errorCode = none ∧ c.state.parseFinished = false ∧
    c.state.expectContinue = false ∧ c.currentChunkP = 0 := by
  have reset := ready.reset
  refine ⟨?_, ?_, ?_, ?_⟩ <;> rw [← reset] <;> rfl

theorem Ready.receiving {base : Environ} {q : HttpRequest} {pieces : Pieces q} {d : Environ} {c : Conn}
    {fired : List (HttpParser × Callback)} (ready : Ready c) (fires : Fires q pieces fired)
    (decodes : addPath .empty pieces.path = some d) (asks : q.NoExpect ∨ pieces.Expects) :
    Receiving base false q d fired c := by
  obtain ⟨noError, unfinished, clear, _⟩ := ready.flags
  refine ⟨ready.reading, ready.untouched, noError, unfinished, fires.ends.1, fires.ends.2, ?_⟩
  rcases asks with none | expects
  · obtain ⟨r', run, complete⟩ := fires.quiet_run base ready.reset decodes none
    exact ⟨r', .quiet (by rw [Request.unexpecting_eq clear]; exact run), complete⟩
  · obtain ⟨r', run, complete⟩ := fires.raising_run base ready.reset decodes expects
    exact ⟨r', .once rfl clear run, complete⟩

/-- The events of a connection on which the callbacks `left` are still to come: every read that gets bytes
takes some of them. -/
inductive Feeds (base : Environ) : Conn × List (HttpParser × Callback) → Event →
    Conn × List (HttpParser × Callback) → Prop
  | bytes {c c' e data left rest} : e.result = .bytes data → data.consumed = true → left = data.fired ++ rest →
      Step base c (.read e) c' → Feeds base (c, left) (.read e) (c', rest)
  | noBytes {c c' e left} : (∀ data, e.result ≠ .bytes data) → Step base c (.read e) c' →
      Feeds base (c, left) (.read e) (c', left)
  | write {c c' w left} : Step base c (.write w) c' → Feeds base (c, left) (.write w) (c', left)

theorem Step.unique {base : Environ} {c c' d : Conn} {event : Event} (step : Step base c event c')
    (again : Step base c event d) : c' = d :=
  Except.ok.inj (step.2.symm.trans again.2)

theorem Feeds.unique (base : Environ) (s : Conn × List (HttpParser × Callback)) (event : Event)
    (t u : Conn × List (HttpParser × Callback)) (step : Feeds base s event t) (again : Feeds base s event u) :
    t = u := by
  cases step with
  | bytes bytes _ split step =>
    cases again with
    | bytes bytes' _ split' step' =>
      cases bytes.symm.trans bytes'
      obtain rfl := List.append_cancel_left (split.symm.trans split')
      rw [step.unique step']
    | noBytes none => exact absurd bytes (none _)
  | noBytes none step =>
    cases again with
    | bytes bytes => exact absurd bytes (none _)
    | noBytes _ step' => rw [step.unique step']
  | write step =>
    cases again with
    | write step' => rw [step.unique step']

/-- A read without bytes leaves the connection as it is, or closes it. -/
theorem evIoOnRead_noBytes {base : Environ} {c c' : Conn} {e : ReadEvent} (h : evIoOnRead base c e = .ok c')
    (idle : c.pyErr = none) (none : ∀ data, e.result ≠ .bytes data) :
    c' = c.count .reqActive ∨ ∃ metric, Closed (c.count metric) c' := by
  have outcome := evIoOnRead_outcome h
  cases outcome with
  | again => exact Or.inl rfl
  | @closed metric last _ closing =>
    have closed := closeConnection_cleaned (c := c.count metric) idle
    rw [closing] at closed
    have concluded := closed.of_ok.2
    exact Or.inr ⟨metric, concluded.evWatcher, concluded.idle, concluded.sent, concluded.environs, concluded.iterLog⟩
  | waiting bytes => exact absurd bytes (none _)
  | interim bytes => exact absurd bytes (none _)
  | rejected bytes => exact absurd bytes (none _)
  | answered bytes => exact absurd bytes (none _)
  | failed bytes => exact absurd bytes (none _)

end Bjoern
