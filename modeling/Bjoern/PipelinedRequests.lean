import Bjoern.EnvironKeys
import Bjoern.ErrorResponses
import Bjoern.FragmentedPath
import Bjoern.InterimResponse

namespace Bjoern

open Runs PercentCoding

/-- The path as one piece. -/
def HttpRequest.wholePath (q : HttpRequest) : List Bytes := if q.path = [] then [] else [q.path]

/-- The environ that the request alone determines. -/
def HttpRequest.ownEnviron (q : HttpRequest) (base : Environ) (clientAddr : Bytes) : Headers :=
  .environ (q.dictionary base clientAddr q.wholePath)

theorem addPath_nonempty {d d' : Environ} {pieces : List Bytes} (decodes : addPath d pieces = some d') :
    ∀ piece ∈ pieces, piece ≠ [] := by
  induction pieces generalizing d with
  | nil => simp
  | cons piece rest ih =>
    unfold addPath at decodes
    split at decodes
    next path hd =>
      rintro part (_ | ⟨_, member⟩)
      · rintro rfl
        cases hd
      · exact ih decodes part member
    next => cases decodes

/-- Pieces that are all decoded give what the whole path gives. -/
theorem Pieces.addPath_whole {q : HttpRequest} (pieces : Pieces q) {d : Environ}
    (decodes : addPath .empty pieces.path = some d) : addPath .empty q.wholePath = some d := by
  have nonempty := addPath_nonempty decodes
  have formed := wellFormed_of_addPath nonempty decodes
  have join := pieces.path_join
  cases parts : pieces.path with
  | nil =>
    rw [parts] at decodes join
    have empty : q.path = [] := join.symm
    rw [HttpRequest.wholePath, if_pos empty]
    exact decodes
  | cons piece rest =>
    rw [parts] at decodes join nonempty formed
    obtain ⟨s, hs, eq⟩ := addPath_decoded (by simp) fun part member => ⟨nonempty part member, formed part member⟩
    have some' : q.path ≠ [] := by
      rw [← join, List.flatten_cons]
      exact fun none => nonempty piece (by simp) (List.append_eq_nil_iff.mp none).1
    rw [join] at hs
    rw [HttpRequest.wholePath, if_neg some', addPath_cons (by rw [decodePath_eq some', hs.decode_eq])]
    exact eq.symm.trans decodes

theorem runCallbacks_ownEnviron (base : Environ) {q : HttpRequest} {pieces : Pieces q} {r : Request}
    {fired : List (HttpParser × Callback)} (reset : requestReset r = r) (fires : Fires q pieces fired)
    (completes : (runCallbacks base r fired).2 = true) :
    (runCallbacks base r fired).1.headers = q.ownEnviron base r.clientAddr := by
  obtain ⟨headers, ok⟩ := runCallbacks_dictionary base reset fires
  obtain ⟨d, decodes⟩ := Option.isSome_iff_exists.mp (ok.symm.trans completes)
  rw [headers, HttpRequest.ownEnviron, HttpRequest.dictionary, HttpRequest.dictionary, decodes,
    pieces.addPath_whole decodes]

theorem runCallbacks_complete (base : Environ) (r : Request) (before : List (HttpParser × Callback))
    (parser : HttpParser) (completes : (runCallbacks base r (before ++ [(parser, .messageComplete)])).2 = true) :
    (runCallbacks base r (before ++ [(parser, .messageComplete)])).1.state.parseFinished = true := by
  induction before generalizing r with
  | nil => rfl
  | cons x rest ih =>
    rw [List.cons_append, runCallbacks] at completes ⊢
    split at completes
    next r' result => exact ih r' completes
    next => cases completes

/-- A request with the callbacks for it. -/
structure Sent where
  q : HttpRequest
  pieces : Pieces q
  fired : List (HttpParser × Callback)
  fires : Fires q pieces fired

def endsMessage (x : HttpParser × Callback) : Bool := x.2 = .messageComplete

theorem countP_endsMessage {fired : List (HttpParser × Callback)} (none : ∀ x ∈ fired, x.2 ≠ .messageComplete) :
    fired.countP endsMessage = 0 := by
  rw [List.countP_eq_zero]
  simpa [endsMessage] using none

theorem Sent.countP_fired (s : Sent) : s.fired.countP endsMessage = 1 := by
  obtain ⟨before, parser, eq, none⟩ := s.fires.split
  rw [eq, List.countP_append, countP_endsMessage none]
  simp [endsMessage]

/-- Requests that are sent back to back on the connection `start`. -/
structure Pipeline where
  base : Environ
  start : Conn
  requests : List Sent
  ready : Ready start

namespace Pipeline

def callbacks (requests : List Sent) : List (HttpParser × Callback) := requests.flatMap Sent.fired

/-- The requests whose end has been read when the callbacks `left` are still to come. -/
def ended (x : Pipeline) (left : List (HttpParser × Callback)) : List Sent :=
  x.requests.take (x.requests.length - left.countP endsMessage)

/-- One call for each of the requests `done`, in order, with the environ that the request alone determines. -/
def calls (x : Pipeline) (done : List Sent) : List Headers :=
  x.start.environs ++ done.map fun s => s.q.ownEnviron x.base x.start.clientAddr

/-- A read ends at the latest where a request ends. There the read is admitted, and no expectation stands where it is
answered. -/
def Separate : Conn × List (HttpParser × Callback) → Event → Prop
  | (c, _), .read e => Unawaited c (.read e) ∧ ∀ data, e.result = .bytes data →
      (∀ y ∈ data.fired.dropLast, y.2 ≠ .messageComplete) ∧
      ((∃ y ∈ data.fired, y.2 = .messageComplete) → Admits c.toRequest data)
  | _, .write _ => True

variable {x : Pipeline}

theorem countP_callbacks (requests : List Sent) : (callbacks requests).countP endsMessage = requests.length := by
  induction requests with
  | nil => rfl
  | cons s rest ih =>
    rw [callbacks, List.flatMap_cons, List.countP_append, s.countP_fired]
    simp only [callbacks] at ih
    rw [ih, List.length_cons]
    omega

theorem ended_eq {done rest : List Sent} {left : List (HttpParser × Callback)} (split : x.requests = done ++ rest)
    (count : left.countP endsMessage = rest.length) : x.ended left = done := by
  rw [ended, split, count, List.length_append, Nat.add_sub_cancel, List.take_left]

theorem ended_append {fired : List (HttpParser × Callback)} (none : ∀ y ∈ fired, y.2 ≠ .messageComplete)
    (rest : List (HttpParser × Callback)) : x.ended (fired ++ rest) = x.ended rest := by
  rw [ended, ended, List.countP_append, countP_endsMessage none, Nat.zero_add]

/-- In `r`, the requests `done` are read, and a part of the next may be. -/
inductive Reads (x : Pipeline) (done : List Sent) : Request → List (HttpParser × Callback) → Prop
  | midway {r r₀ t s rest read cur} : x.requests = done ++ s :: rest → s.fired = read ++ cur →
      (∀ y ∈ read, y.2 ≠ .messageComplete) → requestReset r₀ = r₀ → r₀.clientAddr = x.start.clientAddr →
      runCallbacks x.base r₀ read = (t, true) → SameReading t r → Reads x done r (cur ++ callbacks rest)
  | drained {r} : x.requests = done → Reads x done r []

theorem Reads.ended {done : List Sent} {r : Request} {left : List (HttpParser × Callback)} (h : x.Reads done r left) :
    x.ended left = done := by
  cases h with
  | @midway _ _ s rest read cur split shape unended =>
    refine ended_eq split ?_
    have whole := s.countP_fired
    rw [shape, List.countP_append, countP_endsMessage unended, Nat.zero_add] at whole
    rw [List.countP_append, countP_callbacks, whole, List.length_cons, Nat.add_comm]
  | drained all => exact ended_eq (all.trans (List.append_nil _).symm) rfl

theorem Reads.same {done : List Sent} {r r' : Request} {left : List (HttpParser × Callback)} (h : x.Reads done r left)
    (same : SameReading r r') : x.Reads done r' left := by
  cases h with
  | midway split shape unended reset addr read like =>
    exact .midway split shape unended reset addr read (like.trans same)
  | drained all => exact .drained all

/-- A request that was reset is ready for the next of the requests. -/
theorem Reads.fresh {done rest : List Sent} {r : Request} (reset : requestReset r = r)
    (addr : r.clientAddr = x.start.clientAddr) (split : x.requests = done ++ rest) :
    x.Reads done r (callbacks rest) := by
  cases rest with
  | nil => exact .drained (by simpa using split)
  | cons s rest =>
    have here : x.Reads done r (s.fired ++ callbacks rest) :=
      .midway split (List.nil_append _).symm (by simp) reset addr rfl ⟨rfl, rfl, rfl, rfl, rfl⟩
    exact here

/-- What one read takes of the requests. -/
inductive Taken (x : Pipeline) (done : List Sent) (r : Request) (fired rest : List (HttpParser × Callback)) : Prop
  | part : (∀ y ∈ fired, y.2 ≠ .messageComplete) →
      ((runCallbacks x.base r fired).2 = true → x.Reads done (runCallbacks x.base r fired).1 rest) →
      x.ended rest = done →
      Taken x done r fired rest
  | whole {s later before parser} : x.requests = done ++ s :: later → rest = callbacks later →
      r.clientAddr = x.start.clientAddr → fired = before ++ [(parser, .messageComplete)] →
      (∀ y ∈ fired, Snapshot s.q y) →
      ((runCallbacks x.base r fired).2 = true →
        (runCallbacks x.base r fired).1.headers = s.q.ownEnviron x.base x.start.clientAddr) → Taken x done r fired rest

theorem unread_eq {s : Sent} {read cur : List (HttpParser × Callback)} (shape : s.fired = read ++ cur)
    (unended : ∀ y ∈ read, y.2 ≠ .messageComplete) : ∃ before parser,
    cur = before ++ [(parser, .messageComplete)] ∧ ∀ y ∈ before, y.2 ≠ .messageComplete := by
  obtain ⟨before, parser, eq, none⟩ := s.fires.split
  rcases List.append_eq_append_iff.mp (shape.symm.trans eq) with ⟨more, rfl, last⟩ | ⟨more, rfl, last⟩
  · exact ⟨more, parser, last, fun y member => none y (List.mem_append_right _ member)⟩
  · cases more with
    | nil => exact ⟨[], parser, last.symm, by simp⟩
    | cons y more =>
      obtain ⟨rfl, _⟩ := List.cons.inj last
      exact absurd rfl (unended (parser, .messageComplete) (by simp))

theorem Reads.take {done : List Sent} {r : Request} {fired rest : List (HttpParser × Callback)}
    (h : x.Reads done r (fired ++ rest)) (separate : ∀ y ∈ fired.dropLast, y.2 ≠ .messageComplete) :
    x.Taken done r fired rest := by
  have all := h.ended
  generalize eq : fired ++ rest = left at h
  cases h with
  | @midway r₀ t s later read cur split shape unended reset addr reads like =>
    obtain ⟨before, parser, rfl, none⟩ := unread_eq shape unended
    obtain ⟨ok, same⟩ := like.run x.base fired
    have further : runCallbacks x.base r₀ (read ++ fired) = runCallbacks x.base t fired :=
      runCallbacks_append reads fired
    have address : r.clientAddr = x.start.clientAddr := by
      have frame := runCallbacks_frame x.base r₀ read
      rw [reads] at frame
      exact like.clientAddr.symm.trans (frame.clientAddr.trans addr)
    have finish : rest = callbacks later → fired = before ++ [(parser, .messageComplete)] →
        x.Taken done r fired rest := by
      intro hr hf
      subst hf
      have snapshots : ∀ y ∈ before ++ [(parser, .messageComplete)], Snapshot s.q y := by
        intro y member
        exact s.fires.2 y (by rw [shape]; exact List.mem_append_right _ member)
      refine .whole split hr address rfl snapshots fun completes => ?_
      have whole := runCallbacks_ownEnviron x.base reset s.fires
      rw [shape, further, addr] at whole
      exact same.headers.symm.trans (whole (ok.trans completes))
    rcases List.append_eq_append_iff.mp eq with ⟨more, split', tail⟩ | ⟨more, rfl, tail⟩
    · rcases List.eq_nil_or_concat more with rfl | ⟨more, y, rfl⟩
      · rw [List.append_nil] at split'
        exact finish tail split'.symm
      · have shape' : s.fired = read ++ fired ++ more.concat y := by rw [shape, split', List.append_assoc]
        rw [List.concat_eq_append, ← List.append_assoc] at split'
        obtain ⟨rfl, _⟩ := List.append_inj' split' rfl
        have unended' : ∀ y ∈ fired, y.2 ≠ .messageComplete := fun y member => none y (List.mem_append_left _ member)
        refine .part unended' (fun completes => ?_) ((ended_append unended' rest).symm.trans all)
        have reads' : runCallbacks x.base r₀ (read ++ fired) = ((runCallbacks x.base t fired).1, true) := by
          rw [further]
          exact Prod.ext rfl (ok.trans completes)
        rw [tail]
        refine .midway split shape' (fun y member => ?_) reset addr reads' same
        rcases List.mem_append.mp member with member | member
        · exact unended y member
        · exact unended' y member
    · cases more with
      | nil => exact finish tail.symm (List.append_nil _)
      | cons y more =>
        refine absurd rfl (separate (parser, .messageComplete) ?_)
        rw [List.dropLast_append_of_ne_nil (by simp)]
        simp
  | drained drained =>
    obtain ⟨rfl, rfl⟩ := List.append_eq_nil_iff.mp eq
    exact .part (by simp) (fun _ => .drained drained) all

/-- Where the connection is with the requests. -/
inductive Stage (x : Pipeline) : Conn × List (HttpParser × Callback) → Prop
  | reading {c left done} : c.evWatcher = .reading → Untouched c → c.state.errorCode = none →
      c.state.parseFinished = false → x.Reads done c.toRequest left → c.environs = x.calls done → Stage x (c, left)
  | asking {c left done} : c.evWatcher = .writing → Untouched c → c.state.errorCode = none →
      c.state.parseFinished = false → c.state.expectContinue = true → x.Reads done c.toRequest left →
      c.environs = x.calls done → Stage x (c, left)
  | answering {c done rest} : c.evWatcher = .writing → c.pyErr = none → c.state.expectContinue = false →
      c.clientAddr = x.start.clientAddr → x.requests = done ++ rest → c.environs = x.calls done →
      Stage x (c, callbacks rest)
  | refusing {c left} : c.evWatcher = .writing → Untouched c → c.state.expectContinue = false →
      c.environs = x.calls (x.ended left) → Stage x (c, left)
  | concluded {c left} : c.evWatcher = .closed → c.environs = x.calls (x.ended left) → Stage x (c, left)

theorem Stage.environs {c : Conn} {left : List (HttpParser × Callback)} (h : x.Stage (c, left)) :
    c.environs = x.calls (x.ended left) := by
  cases h with
  | reading _ _ _ _ reads environs => rw [reads.ended, environs]
  | asking _ _ _ _ _ reads environs => rw [reads.ended, environs]
  | answering _ _ _ _ split environs => rw [ended_eq split (countP_callbacks _), environs]
  | refusing _ _ _ environs => exact environs
  | concluded _ environs => exact environs

theorem calls_append (done : List Sent) (s : Sent) :
    x.calls (done ++ [s]) = x.calls done ++ [s.q.ownEnviron x.base x.start.clientAddr] := by
  simp [calls]

/-- A read without an error leaves the request as its callbacks made it. -/
theorem parsed_kept {base : Environ} {c : Conn} {data : ReadData} (parses : Parses base c data)
    (noError : (c.parsed base data).state.errorCode = none) : (runCallbacks base c.toRequest data.fired).2 = true ∧
      (c.parsed base data).state = (runCallbacks base c.toRequest data.fired).1.state ∧
      SameReading (runCallbacks base c.toRequest data.fired).1 (c.parsed base data).toRequest := by
  obtain ⟨completes, _, eq⟩ := parses.completed noError
  rw [eq]
  exact ⟨completes, rfl, rfl, rfl, rfl, rfl, rfl⟩

/-- Where no expectation stands when a read is answered, the interim flag is down. -/
theorem unawaited_clear {base : Environ} {c : Conn} {e : ReadEvent} {data : ReadData} (untouched : Untouched c)
    (noError : c.state.errorCode = none) (unfinished : c.state.parseFinished = false)
    (unawaited : Unawaited c (.read e)) (bytes : e.result = .bytes data) (parses : Parses base c data)
    (answers : (c.parsed base data).state.errorCode ≠ none ∨ (c.parsed base data).state.parseFinished = true) :
    (c.parsed base data).state.expectContinue = false := by
  have eq := (untouched.toGrounded.parsed parses).1
  rw [eq] at answers ⊢
  exact unawaited.clear bytes noError unfinished answers

/-- A read that is admitted, of callbacks for a request, brings no error. -/
theorem admitted {base : Environ} {q : HttpRequest} {c : Conn} {data : ReadData} (untouched : Untouched c)
    (noError : c.state.errorCode = none) (parses : Parses base c data) (admits : Admits c.toRequest data)
    (snapshots : ∀ y ∈ data.fired, Snapshot q y) : (c.parsed base data).state.errorCode = none := by
  have completes : (runCallbacks base c.toRequest data.fired).2 = true := by
    refine runCallbacks_completes base c.toRequest admits.decodes ?_
    rintro ⟨parser, callback⟩ member body rfl
    exact snapshots _ member
  have eq := (untouched.toGrounded.parsed parses).1
  rw [eq, requestParse_completed (Prod.ext rfl completes) admits.consumed]
  exact (expectation_flags noError completes).1.mpr admits.unrefused

/-- A read that brings no end of a request. -/
theorem Stage.readPart {c c' : Conn} {e : ReadEvent} {data : ReadData} {done : List Sent}
    {rest : List (HttpParser × Callback)} (reading : c.evWatcher = .reading) (untouched : Untouched c)
    (noError : c.state.errorCode = none) (unfinished : c.state.parseFinished = false)
    (environs : c.environs = x.calls done) (unended : ∀ y ∈ data.fired, y.2 ≠ .messageComplete)
    (all : x.ended rest = done)
    (reaches : (runCallbacks x.base c.toRequest data.fired).2 = true →
      x.Reads done (runCallbacks x.base c.toRequest data.fired).1 rest)
    (unawaited : Unawaited c (.read e)) (bytes : e.result = .bytes data) (step : evIoOnRead x.base c e = .ok c') :
    x.Stage (c', rest) := by
  have parses := evIoOnRead_parses step bytes
  have frame := c.parsed_frame x.base data
  have untouched' := untouched.parsed parses
  have environs' := (c.parsed_environs x.base data).trans environs
  rcases (evIoOnRead_outcome step).of_bytes bytes with ⟨code, failed, rfl⟩ | ⟨noError', unfinished', clear, rfl⟩ |
    ⟨noError', unfinished', asks, rfl⟩ | ⟨noError', finished, _⟩
  · have clear := unawaited_clear untouched noError unfinished unawaited bytes parses (Or.inl (by simp [failed]))
    refine .refusing rfl (untouched'.besides _ _ _ _ _ _) clear ?_
    rw [all]
    exact environs'
  · obtain ⟨completes, _, same⟩ := parsed_kept parses noError'
    exact .reading (frame.request.evWatcher.trans reading) (untouched'.count _) noError' unfinished'
      ((reaches completes).same { same with }) environs'
  · obtain ⟨completes, _, same⟩ := parsed_kept parses noError'
    exact .asking rfl (untouched'.besides _ _ _ _ _ _) noError' unfinished' asks
      ((reaches completes).same { same with }) environs'
  · obtain ⟨_, state, _⟩ := parsed_kept parses noError'
    rw [state, runCallbacks_unfinished x.base c.toRequest unended] at finished
    cases unfinished.symm.trans finished

/-- A read that brings the end of the request `s`, and nothing behind it. -/
theorem Stage.readWhole {c c' : Conn} {e : ReadEvent} {data : ReadData} {done later : List Sent} {s : Sent}
    {before : List (HttpParser × Callback)} {parser : HttpParser} (untouched : Untouched c)
    (noError : c.state.errorCode = none) (unfinished : c.state.parseFinished = false)
    (environs : c.environs = x.calls done) (split : x.requests = done ++ s :: later)
    (address : c.clientAddr = x.start.clientAddr) (hf : data.fired = before ++ [(parser, .messageComplete)])
    (snapshots : ∀ y ∈ data.fired, Snapshot s.q y)
    (own : (runCallbacks x.base c.toRequest data.fired).2 = true →
      (runCallbacks x.base c.toRequest data.fired).1.headers = s.q.ownEnviron x.base x.start.clientAddr)
    (admits : Admits c.toRequest data) (unawaited : Unawaited c (.read e)) (bytes : e.result = .bytes data)
    (step : evIoOnRead x.base c e = .ok c') : x.Stage (c', callbacks later) := by
  have parses := evIoOnRead_parses step bytes
  have frame := c.parsed_frame x.base data
  have noError' := admitted untouched noError parses admits snapshots
  obtain ⟨completes, state, same⟩ := parsed_kept parses noError'
  have finished : (c.parsed x.base data).state.parseFinished = true := by
    rw [hf] at completes
    rw [state, hf]
    exact runCallbacks_complete x.base c.toRequest before parser completes
  obtain ⟨called, answered, call, result⟩ := (evIoOnRead_outcome step).finished bytes noError' finished
  obtain ⟨r, made, outcome⟩ := wsgiCallApplication_outcome call
  have called' := outcome.frame made
  have environs' : called.environs = x.calls (done ++ [s]) := by
    have before' : ((c.parsed x.base data).count .reqSuccessRead).environs = c.environs := c.parsed_environs x.base data
    rw [called'.environs, before', calls_append, ← own completes, same.headers, environs]
    rfl
  have address' : called.clientAddr = x.start.clientAddr :=
    (outcome.clientAddr made).trans (frame.request.clientAddr.trans address)
  have unexpected := unawaited_clear untouched noError unfinished unawaited bytes parses (Or.inr finished)
  have clear := called'.expectContinue.trans unexpected
  have split' : x.requests = done ++ [s] ++ later := by rw [split, List.append_assoc, List.singleton_append]
  rcases result with ⟨rfl, rfl⟩ | ⟨rfl, rfl⟩
  · exact .answering rfl (outcome.idle (untouched.parsed parses).idle) clear address' split' environs'
  · exact .answering rfl rfl clear address' split' environs'

theorem Stage.read {c c' : Conn} {e : ReadEvent} {data : ReadData} {rest : List (HttpParser × Callback)}
    (h : x.Stage (c, data.fired ++ rest)) (separate : Separate (c, data.fired ++ rest) (.read e))
    (bytes : e.result = .bytes data) (step : Step x.base c (.read e) c') : x.Stage (c', rest) := by
  obtain ⟨reading, step⟩ := step
  obtain ⟨unawaited, ends⟩ := separate
  obtain ⟨ends, admits⟩ := ends data bytes
  generalize hl : data.fired ++ rest = left at h
  cases h with
  | asking writing => cases writing.symm.trans reading
  | answering writing => cases writing.symm.trans reading
  | refusing writing => cases writing.symm.trans reading
  | concluded closed => cases closed.symm.trans reading
  | reading _ untouched noError unfinished reads environs =>
    subst hl
    cases reads.take ends with
    | part unended reaches all =>
      exact .readPart reading untouched noError unfinished environs unended all reaches unawaited bytes step
    | @whole s _ _ parser split hr address hf snapshots own =>
      rw [hr]
      have member : (parser, .messageComplete) ∈ data.fired := by simp [hf]
      have admits := admits ⟨_, member, rfl⟩
      exact .readWhole untouched noError unfinished environs split address hf snapshots own admits unawaited bytes step

theorem Stage.noBytes {c c' : Conn} {e : ReadEvent} {left : List (HttpParser × Callback)} (h : x.Stage (c, left))
    (none : ∀ data, e.result ≠ .bytes data) (step : Step x.base c (.read e) c') : x.Stage (c', left) := by
  obtain ⟨reading, step⟩ := step
  have environs := h.environs
  cases h with
  | asking writing => cases writing.symm.trans reading
  | answering writing => cases writing.symm.trans reading
  | refusing writing => cases writing.symm.trans reading
  | concluded closed => cases closed.symm.trans reading
  | reading _ untouched noError unfinished reads done =>
    rcases evIoOnRead_noBytes step untouched.idle none with rfl | ⟨metric, closed⟩
    · exact .reading reading (untouched.count _) noError unfinished reads done
    · exact .concluded closed.evWatcher (closed.environs.trans environs)

theorem Stage.write {c c' : Conn} {w : WriteEvent} {left : List (HttpParser × Callback)} (h : x.Stage (c, left))
    (step : Step x.base c (.write w) c') : x.Stage (c', left) := by
  obtain ⟨writing, step⟩ := step
  have all := h.environs
  obtain ⟨sameAddr, sameEnvirons⟩ := evIoOnWrite_environs step
  cases h with
  | reading reading => cases reading.symm.trans writing
  | concluded closed => cases closed.symm.trans writing
  | asking _ untouched noError unfinished asks reads environs =>
    obtain ⟨⟨mid, state⟩, hm, step⟩ := bind_ok step
    obtain ⟨_, chunk, position, sent, rfl⟩ := writeResponse_untouched untouched hm
    dsimp only at step
    rw [asks] at step
    cases step
    exact .reading rfl (untouched.besides _ _ _ _ _ _) noError unfinished
      (reads.same ⟨rfl, rfl, rfl, rfl, rfl⟩) environs
  | @answering _ done rest _ idle clear address split environs =>
    have address' := sameAddr.trans address
    have environs' := sameEnvirons.trans environs
    cases evIoOnWrite_outcome idle step with
    | more frame _ =>
      exact .answering (frame.evWatcher.trans writing) (frame.idle idle)
        (frame.expectContinue.trans clear) address' split environs'
    | kept _ _ _ kept =>
      have ready := kept.ready
      obtain ⟨noError, unfinished, _, _⟩ := ready.flags
      exact .reading ready.reading ready.untouched noError unfinished (Reads.fresh ready.reset address' split) environs'
    | closed _ _ closed => exact .concluded closed.evWatcher (sameEnvirons.trans all)
    | interim _ expects => cases expects.symm.trans clear
  | refusing _ untouched clear environs =>
    have environs' := sameEnvirons.trans environs
    cases evIoOnWrite_outcome untouched.idle step with
    | more frame _ =>
      exact .refusing (frame.evWatcher.trans writing) ((untouched.write frame).count _)
        (frame.expectContinue.trans clear) environs'
    | kept frame _ keep => cases keep.symm.trans (frame.keepAlive untouched.keepAlive)
    | closed _ _ closed => exact .concluded closed.evWatcher environs'
    | interim _ expects => cases expects.symm.trans clear

theorem Stage.step {s s' : Conn × List (HttpParser × Callback)} {event : Event} (h : x.Stage s)
    (step : Guarded Separate (Feeds x.base) s event s') : x.Stage s' := by
  obtain ⟨separate, step⟩ := step
  cases step with
  | bytes bytes _ split step =>
    subst split
    exact h.read separate bytes step
  | noBytes none step => exact h.noBytes none step
  | write step => exact h.write step

theorem Stage.start : x.Stage (x.start, callbacks x.requests) := by
  obtain ⟨noError, unfinished, _, _⟩ := x.ready.flags
  have reads : x.Reads [] x.start.toRequest (callbacks x.requests) := Reads.fresh x.ready.reset rfl rfl
  exact .reading x.ready.reading x.ready.untouched noError unfinished reads (by simp [calls])

end Pipeline

def plainGet (path : Bytes) : HttpRequest := ⟨http11Get, path, [], [], []⟩

def sentGet (path : Bytes) : Sent := ⟨plainGet path, (plainGet path).whole, _, Pieces.fires _ (Or.inr rfl)⟩

def twoGets : Pipeline := ⟨.empty, freshConn, [sentGet (ascii "/a"), sentGet (ascii "/b")], evIoOnRequest_ready _ _⟩

/-- A read that brings the callbacks `fired`. -/
def readOf (fired : List (HttpParser × Callback)) : ReadEvent := ⟨.bytes ⟨fired, http11Get, true⟩, returning oneItem⟩

end Bjoern
