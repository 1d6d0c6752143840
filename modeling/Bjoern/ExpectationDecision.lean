import Bjoern.ErrorResponses
import Bjoern.InterimResponse

namespace Bjoern

open Runs

/-- A value that `on_header_value` lets pass is a prefix of `100-continue`, or that with a NUL behind it. -/
theorem meetsExpectation_iff {value : Bytes} : meetsExpectation value = true ↔
    value <+: ascii "100-continue" ∨ ascii "100-continue" ++ [0] <+: value := by
  have spec : strnEq id value (ascii "100-continue") value.length = true ↔
      value.map id <+: (ascii "100-continue").map id ∨ (ascii "100-continue").map id ++ [0] <+: value.map id :=
    strnEq_length_iff (fun _ => Iff.rfl) (by decide)
  simpa [meetsExpectation, strncmpEq] using spec

/-- A request on the connection `start` with one header called `Expect`, and the callbacks of its head: `ahead`
up to that header's value, `valued` for the pieces of the value, `behind` for the headers that follow. -/
structure ExpectingHead where
  base : Environ
  start : Conn
  q : HttpRequest
  pieces : Pieces q
  d : Environ
  before : List (List Bytes × List Bytes)
  names : List Bytes
  first : Bytes
  later : List Bytes
  after : List (List Bytes × List Bytes)
  ahead : List (HttpParser × Callback)
  valued : List (HttpParser × Callback)
  behind : List (HttpParser × Callback)
  ready : Ready start
  decodes : addPath .empty pieces.path = some d
  headers : pieces.headers = before ++ (names, first :: later) :: after
  looks : LooksAtExpectation q.parser names.flatten
  others : ∀ h ∈ before ++ after, nameKey h.1.flatten ≠ ascii "HTTP_EXPECT"
  ahead_eq : ahead.map Prod.snd = .messageBegin :: (pieces.path.map .path ++ (pieces.query.map .queryString ++
    (before.flatMap headerCallbacks ++ names.map .headerField)))
  valued_eq : valued.map Prod.snd = (first :: later).map .headerValue
  behind_eq : behind.map Prod.snd = after.flatMap headerCallbacks
  snapshots : ∀ x ∈ ahead ++ (valued ++ behind), Snapshot q x

namespace ExpectingHead

def value (x : ExpectingHead) : Bytes := (x.first :: x.later).flatten

def fired (x : ExpectingHead) : List (HttpParser × Callback) := x.ahead ++ (x.valued ++ x.behind)

/-- With the callbacks `left` to come, the value has begun. -/
def Begun (x : ExpectingHead) (left : List (HttpParser × Callback)) : Prop :=
  left.length < (x.valued ++ x.behind).length

/-- The value has begun and not ended. -/
def Inside (x : ExpectingHead) (left : List (HttpParser × Callback)) : Prop :=
  x.Begun left ∧ x.behind.length < left.length

end ExpectingHead

/-- The connection has turned to writing `100 Continue`. -/
def Asks : Conn × List (HttpParser × Callback) → Prop
  | (c, _) => c.evWatcher = .writing ∧ c.state.expectContinue = true ∧ c.currentChunk = .owned continueMessage

def Refused : Conn × List (HttpParser × Callback) → Prop
  | (c, _) => c.state.errorCode = some .expectationFailed

def Callback.OfHeader : Callback → Prop
  | .headerField _ => True
  | .headerValue _ => True
  | _ => False

/-- An expectation is looked at while there is neither one nor an error. -/
def Undecided (r : Request) : Prop := r.state.expectContinue = false ∧ r.state.errorCode = none

theorem decided_step (base : Environ) {r : Request} (decided : ¬ Undecided r) (parser : HttpParser)
    {callback : Callback} (ofHeader : callback.OfHeader) : (runCallback base r parser callback).2 = true ∧
      (runCallback base r parser callback).1.state = r.state := by
  cases callback with
  | headerField data =>
    simp only [runCallback, onHeaderField]
    split
    next => exact ⟨rfl, rfl⟩
    next => split <;> exact ⟨rfl, rfl⟩
  | headerValue data =>
    obtain ⟨completes, _, _, _, state⟩ := onHeaderValue_spec r parser data
    have skips : checksExpectation r parser = false := by
      by_contra checks
      simp only [checksExpectation, Bool.not_eq_false, Bool.and_eq_true, Bool.not_eq_true', Bool.or_eq_false_iff,
        Option.isSome_eq_false_iff, Option.isNone_iff_eq_none] at checks
      exact decided checks.1.1.2
    rw [skips] at state
    exact ⟨completes, state⟩
  | messageBegin => exact ofHeader.elim
  | path data => exact ofHeader.elim
  | queryString data => exact ofHeader.elim
  | body data => exact ofHeader.elim
  | messageComplete => exact ofHeader.elim

/-- After the decision the callbacks for headers leave the flags as they are. -/
theorem decided_run (base : Environ) {r : Request} (decided : ¬ Undecided r) {fired : List (HttpParser × Callback)}
    (ofHeaders : ∀ x ∈ fired, x.2.OfHeader) : (runCallbacks base r fired).2 = true ∧
      (runCallbacks base r fired).1.state = r.state := by
  induction fired generalizing r with
  | nil => exact ⟨rfl, rfl⟩
  | cons x rest ih =>
    obtain ⟨completes, state⟩ := decided_step base decided x.1 (ofHeaders x (by simp))
    have still : ¬ Undecided (runCallback base r x.1 x.2).1 := by rw [Undecided, state]; exact decided
    obtain ⟨completes', state'⟩ := ih still (fun y member => ofHeaders y (List.mem_cons_of_mem _ member))
    have step : runCallbacks base r (x :: rest) = runCallbacks base (runCallback base r x.1 x.2).1 rest :=
      runCallbacks_cons completes rest
    rw [step]
    exact ⟨completes', state'.trans state⟩

theorem Untouched.closeConnection {c c' : Conn} (h : Untouched c) (closing : closeConnection c = .ok c') :
    c' = { c with evWatcher := .closed } := by
  have none : ({ c with evWatcher := .closed } : Conn).iterable.map PyValue.closeMethod = Option.none := by
    simp [h.iterable]
  unfold Bjoern.closeConnection requestClean at closing
  rw [none] at closing
  exact (Except.ok.inj closing).symm

namespace ExpectingHead

variable (x : ExpectingHead)

/-- The next callback hands over a piece of the value. -/
structure AtValue (r : Request) : Prop where
  headers : ∃ d, r.headers = .environ d
  key : KeyReady r.parser x.names.flatten
  noError : r.state.errorCode = none

/-- What of the request the callbacks `left` still find in `r`, whatever its flags. -/
inductive Awaits (r : Request) : List (HttpParser × Callback) → Prop
  | value {r' way pieces} : Run (CallbackStep x.base True) r.unexpecting way r' → x.AtValue r' → pieces <:+ x.valued →
      pieces ≠ [] → (way = [] ∨ pieces = x.valued) → Awaits r (way ++ (pieces ++ x.behind))
  | behind {r' left} : Run (CallbackStep x.base True) r.unexpecting left r' → left <:+ x.behind → Awaits r left

variable {x}

theorem valued_ofHeader : ∀ y ∈ x.valued ++ x.behind, y.2.OfHeader := by
  intro y member
  rcases List.mem_append.mp member with member | member
  · have part : y.2 ∈ (x.first :: x.later).map Callback.headerValue := x.valued_eq ▸ List.mem_map_of_mem member
    obtain ⟨_, _, eq⟩ := List.mem_map.mp part
    rw [← eq]
    trivial
  · have part : y.2 ∈ x.after.flatMap headerCallbacks := x.behind_eq ▸ List.mem_map_of_mem member
    obtain ⟨h, _, part⟩ := List.mem_flatMap.mp part
    rcases List.mem_append.mp part with part | part
    · obtain ⟨_, _, eq⟩ := List.mem_map.mp part
      rw [← eq]
      trivial
    · obtain ⟨_, _, eq⟩ := List.mem_map.mp part
      rw [← eq]
      trivial

/-- The headers behind the value raise no expectation. -/
theorem behind_run {d : Environ} {r : Request} (between : Between d r) :
    ∃ r', Run (CallbackStep x.base True) r x.behind r' := by
  have full := x.pieces.headers_full
  rw [x.headers] at full
  obtain ⟨r', run, _⟩ := between.headers_run x.base True (q := x.q) (fun h member => full h (by simp [member]))
    (fun h member => unlooked (x.others h (by simp [member]))) x.behind_eq
    (fun y member => x.snapshots y (by simp [member]))
  exact ⟨r', run⟩

theorem fired_ahead : x.Awaits x.start.toRequest x.fired := by
  have untouched := x.ready.flags
  obtain ⟨r', run, reached, _⟩ := expectation_run x.base x.ready.reset x.decodes x.headers
    (fun h member => x.others h (by simp [member])) x.ahead_eq (fun y member => x.snapshots y (by simp [member]))
  have at' : x.AtValue r' := ⟨⟨_, reached.headers⟩, reached.key, reached.noError⟩
  refine .value ?_ at' (List.suffix_refl _) ?_ (Or.inr rfl)
  · rw [Request.unexpecting_eq untouched.2.2.1]
    exact run
  · intro none
    have eq := x.valued_eq
    rw [none] at eq
    cases eq

theorem Awaits.besides {r : Request} {left : List (HttpParser × Callback)} (h : x.Awaits r left) (p : HttpParser)
    (watcher : Watcher) (chunk : ChunkRef) (position : Int) (iterable : Option PyValue) :
    x.Awaits (r.besides p watcher chunk position iterable) left := by
  cases h with
  | value run reached part some first =>
    exact .value (besides_run run p watcher chunk position iterable) ⟨reached.1, reached.2, reached.3⟩ part some first
  | behind run part => exact .behind (besides_run run p watcher chunk position iterable) part

theorem Awaits.unexpecting {r : Request} {left : List (HttpParser × Callback)} (h : x.Awaits r left) :
    x.Awaits r.unexpecting left := by
  cases h with
  | value run reached part some first => exact .value run reached part some first
  | behind run part => exact .behind run part

theorem AtValue.step {r : Request} (h : x.AtValue r) (parser : HttpParser) (value : Bytes)
    (version : parser.httpMajor = x.q.parser.httpMajor ∧ parser.httpMinor = x.q.parser.httpMinor) :
    (onHeaderValue r parser value).2 = true ∧
      (onHeaderValue r parser value).1.state =
        (if r.state.expectContinue then r.state
        else if meetsExpectation value then { r.state with expectContinue := true }
        else { r.state with errorCode := some .expectationFailed }) ∧
      ((onHeaderValue r parser value).1.state.errorCode = none → x.AtValue (onHeaderValue r parser value).1 ∧
        ∃ d, Between d (onHeaderValue r parser value).1) := by
  obtain ⟨d, headers⟩ := h.headers
  obtain ⟨completes, parser_eq, _, _, state⟩ := onHeaderValue_spec r parser value
  have checks := checksExpectation_iff parser h.key h.noError
  have looks : LooksAtExpectation parser x.names.flatten := by
    have looks := x.looks
    unfold LooksAtExpectation at looks ⊢
    rw [version.1, version.2]
    exact looks
  have headers' : (onHeaderValue r parser value).1.headers = .environ (addHeader d x.names.flatten value) :=
    onHeaderValue_headers headers h.key
  refine ⟨completes, ?_, fun noError => ⟨⟨⟨_, headers'⟩, by rw [parser_eq]; exact h.key, noError⟩, _, headers',
    ?_, noError⟩⟩
  · rw [state]
    cases waits : r.state.expectContinue with
    | true => simp [show ¬ checksExpectation r parser = true by simp [checks, waits]]
    | false => simp [show checksExpectation r parser = true by simp [checks, waits, looks]]
  · rw [parser_eq]

theorem valued_head {y : HttpParser × Callback} {rest pieces : List (HttpParser × Callback)} (eq : pieces = y :: rest)
    (part : pieces <:+ x.valued) : (∃ value, y.2 = .headerValue value) ∧ y ∈ x.valued := by
  have member : y ∈ x.valued := part.subset (by simp [eq])
  have among : y.2 ∈ (x.first :: x.later).map Callback.headerValue := x.valued_eq ▸ List.mem_map_of_mem member
  obtain ⟨value, _, eq⟩ := List.mem_map.mp among
  exact ⟨⟨value, eq.symm⟩, member⟩

theorem Awaits.of_pieces {r : Request} {pieces : List (HttpParser × Callback)} (reached : x.AtValue r)
    {d : Environ} (between : Between d r) (part : pieces <:+ x.valued) : x.Awaits r (pieces ++ x.behind) := by
  cases pieces with
  | nil =>
    obtain ⟨r', run⟩ := behind_run (x := x) between.unexpecting
    exact .behind run (List.suffix_refl _)
  | cons y rest =>
    have still : x.AtValue r.unexpecting := ⟨reached.1, reached.2, reached.3⟩
    have here : x.Awaits r ([] ++ (y :: rest ++ x.behind)) := .value .nil still part (by simp) (Or.inl rfl)
    exact here

theorem valued_ne_nil : x.valued ≠ [] := by
  intro none
  have eq := x.valued_eq
  rw [none] at eq
  cases eq

theorem Awaits.asked_step {r : Request} {y : HttpParser × Callback} {rest : List (HttpParser × Callback)}
    (h : x.Awaits r (y :: rest)) (asked : r.state.expectContinue = true) :
    x.Awaits (runCallback x.base r y.1 y.2).1 rest := by
  generalize eq : y :: rest = left at h
  cases h with
  | @value r' way pieces run reached part some first =>
    cases way with
    | nil =>
      cases run
      obtain ⟨z, pieces, rfl⟩ := List.exists_cons_of_ne_nil some
      obtain ⟨rfl, rfl⟩ := List.cons.inj eq
      obtain ⟨⟨value, shape⟩, member⟩ := valued_head rfl part
      obtain ⟨parser, callback⟩ := y
      subst shape
      have at' : x.AtValue r := ⟨reached.1, reached.2, reached.3⟩
      obtain ⟨_, state, next⟩ := at'.step parser value
        (x.snapshots (parser, .headerValue value) (by simp [member]))
      rw [if_pos asked] at state
      obtain ⟨still, d, between⟩ := next (by rw [state]; exact reached.noError)
      exact .of_pieces still between ((List.suffix_cons _ _).trans part)
    | cons z way =>
      obtain ⟨rfl, rfl⟩ := List.cons.inj eq
      cases run with
      | cons step tail =>
        obtain ⟨t, taken, rfl⟩ := step.of_unexpecting
        rw [taken.1]
        exact .value tail reached part some (Or.inr (first.resolve_left (by simp)))
  | behind run part =>
    subst eq
    cases run with
    | cons step tail =>
      obtain ⟨t, taken, rfl⟩ := step.of_unexpecting
      rw [taken.1]
      exact .behind tail ((List.suffix_cons _ _).trans part)

theorem Awaits.asked_run {r : Request} {fired rest : List (HttpParser × Callback)} (h : x.Awaits r (fired ++ rest))
    (ofHeaders : ∀ y ∈ fired, y.2.OfHeader) (asked : r.state.expectContinue = true) :
    x.Awaits (runCallbacks x.base r fired).1 rest := by
  induction fired generalizing r with
  | nil => exact h
  | cons y later ih =>
    have decided : ¬ Undecided r := by simp [Undecided, asked]
    obtain ⟨completes, state⟩ := decided_step x.base decided y.1 (ofHeaders y (by simp))
    have next : x.Awaits (runCallback x.base r y.1 y.2).1 (later ++ rest) := h.asked_step asked
    rw [runCallbacks_cons completes]
    exact ih next (fun z member => ofHeaders z (List.mem_cons_of_mem _ member)) (by rw [state]; exact asked)

/-- What the callbacks `fired` of one read make of a request without a decision. -/
inductive Heard (x : ExpectingHead) (fired rest : List (HttpParser × Callback)) (t : Request) : Prop
  | quiet : Undecided t → x.Awaits t rest → (x.Begun rest → x.Begun (fired ++ rest)) →
      (x.Inside (fired ++ rest) → fired = []) → Heard x fired rest t
  | looked {way parser value later} : fired = way ++ (parser, .headerValue value) :: later → x.Begun rest →
      (¬ x.Begun (fired ++ rest) ∧ value = x.first ∨ x.Inside (fired ++ rest) ∧ way = []) →
      (if meetsExpectation value then t.state.expectContinue = true ∧ t.state.errorCode = none ∧ x.Awaits t rest
        else t.state.expectContinue = false ∧ t.state.errorCode = some .expectationFailed) →
      Heard x fired rest t

theorem Undecided.of_run {base : Environ} {r r' : Request} {fired : List (HttpParser × Callback)}
    (undecided : Undecided r) (run : Run (CallbackStep base True) r fired r') : Undecided r' :=
  ⟨quiet_run run trivial undecided.1, noError_run run undecided.2⟩

theorem Awaits.quiet {r r' : Request} {fired rest pieces way : List (HttpParser × Callback)} (undecided : Undecided r)
    (run : Run (CallbackStep x.base True) r (fired ++ way) r') (reached : x.AtValue r') (part : pieces <:+ x.valued)
    (some : pieces ≠ []) (first : fired ++ way = [] ∨ pieces = x.valued) (eq : rest = way ++ (pieces ++ x.behind)) :
    (runCallbacks x.base r fired).2 = true ∧ x.Heard fired rest (runCallbacks x.base r fired).1 := by
  obtain ⟨t, taken, left⟩ := run.split
  have still := Undecided.of_run undecided taken
  rw [runCallbacks_of_run taken]
  refine ⟨rfl, .quiet still ?_ ?_ ?_⟩
  · rw [eq]
    refine .value (by rw [Request.unexpecting_eq still.1]; exact left) reached part some (first.imp_left ?_)
    exact fun none => (List.append_eq_nil_iff.mp none).2
  · rcases first with none | rfl
    · simp [(List.append_eq_nil_iff.mp none).1]
    · intro begun
      simp only [Begun, eq, List.length_append] at begun
      omega
  · rcases first with none | rfl
    · exact fun _ => (List.append_eq_nil_iff.mp none).1
    · intro inside
      have begun := inside.1
      simp only [Begun, eq, List.length_append] at begun
      omega

/-- The piece at which an expectation is looked at decides, and the rest of the read does not change that. -/
theorem AtValue.decides {r : Request} (h : x.AtValue r) (undecided : Undecided r) {parser : HttpParser} {value : Bytes}
    {pieces later rest : List (HttpParser × Callback)} (part : (parser, .headerValue value) :: pieces <:+ x.valued)
    (split : pieces ++ x.behind = later ++ rest) {t : Request}
    (result : (runCallbacks x.base r ((parser, .headerValue value) :: later)).1 = t) :
    (runCallbacks x.base r ((parser, .headerValue value) :: later)).2 = true ∧
      if meetsExpectation value then t.state.expectContinue = true ∧ t.state.errorCode = none ∧ x.Awaits t rest
      else t.state.expectContinue = false ∧ t.state.errorCode = some .expectationFailed := by
  have member : (parser, Callback.headerValue value) ∈ x.valued := part.subset (by simp)
  obtain ⟨completes, state, next⟩ := h.step parser value
    (x.snapshots (parser, .headerValue value) (by simp [member]))
  rw [if_neg (by simp [undecided.1])] at state
  have ofHeaders : ∀ w ∈ later, w.2.OfHeader := by
    intro w among
    have among : w ∈ pieces ++ x.behind := split ▸ List.mem_append_left _ among
    refine valued_ofHeader (x := x) w ?_
    rcases List.mem_append.mp among with among | among
    · exact List.mem_append_left _ (part.subset (List.mem_cons_of_mem _ among))
    · exact List.mem_append_right _ among
  have decided : ¬ Undecided (onHeaderValue r parser value).1 := by
    unfold Undecided
    rw [state]
    split <;> simp
  obtain ⟨completes', state'⟩ := decided_run x.base decided ofHeaders
  have step : runCallbacks x.base r ((parser, .headerValue value) :: later) =
      runCallbacks x.base (onHeaderValue r parser value).1 later :=
    runCallbacks_cons (x := (parser, .headerValue value)) completes later
  rw [step] at result ⊢
  subst result
  refine ⟨completes', ?_⟩
  rw [state']
  split
  next meets =>
    rw [if_pos meets] at state
    have noError : (onHeaderValue r parser value).1.state.errorCode = none := by
      rw [state]
      exact undecided.2
    have asked : (onHeaderValue r parser value).1.state.expectContinue = true := by rw [state]
    obtain ⟨still, d, between⟩ := next noError
    have more : x.Awaits (onHeaderValue r parser value).1 (later ++ rest) := by
      rw [← split]
      exact .of_pieces still between ((List.suffix_cons _ _).trans part)
    exact ⟨asked, noError, more.asked_run ofHeaders asked⟩
  next fails =>
    rw [if_neg fails] at state
    rw [state]
    exact ⟨undecided.1, rfl⟩

/-- The piece that is looked at is the first of the value or the first of the read. -/
theorem looked_position {parser : HttpParser} {value : Bytes} {way pieces : List (HttpParser × Callback)}
    (part : (parser, .headerValue value) :: pieces <:+ x.valued)
    (first : way = [] ∨ (parser, .headerValue value) :: pieces = x.valued) :
    ¬ x.Begun (way ++ ((parser, .headerValue value) :: pieces ++ x.behind)) ∧ value = x.first ∨
      x.Inside (way ++ ((parser, .headerValue value) :: pieces ++ x.behind)) ∧ way = [] := by
  by_cases whole : (parser, Callback.headerValue value) :: pieces = x.valued
  · refine Or.inl ⟨?_, ?_⟩
    · rw [whole]
      simp [Begun]
    · have shape := x.valued_eq
      rw [← whole] at shape
      exact Callback.headerValue.inj (List.cons.inj shape).1
  · obtain rfl := first.resolve_right whole
    have shorter := Nat.lt_of_le_of_ne part.length_le fun same => whole (part.eq_of_length same)
    refine Or.inr ⟨⟨?_, ?_⟩, rfl⟩
    · simp only [Begun, List.length_append, List.nil_append] at shorter ⊢
      omega
    · simp only [List.nil_append, List.length_append, List.length_cons]
      omega

theorem begun_of_piece {y : HttpParser × Callback} {pieces later rest : List (HttpParser × Callback)}
    (part : y :: pieces <:+ x.valued) (split : pieces ++ x.behind = later ++ rest) : x.Begun rest := by
  have sizes := congrArg List.length split
  have bound := part.length_le
  simp only [List.length_append, List.length_cons] at sizes bound
  simp only [Begun, List.length_append]
  omega

/-- A read either leaves the request undecided or decides on one piece of the value. -/
theorem Awaits.read {r : Request} {fired rest : List (HttpParser × Callback)} (h : x.Awaits r (fired ++ rest))
    (undecided : Undecided r) :
    (runCallbacks x.base r fired).2 = true ∧ x.Heard fired rest (runCallbacks x.base r fired).1 := by
  generalize eq : fired ++ rest = left at h
  cases h with
  | @value r' way pieces run reached part some first =>
    rw [Request.unexpecting_eq undecided.1] at run
    rcases List.append_eq_append_iff.mp eq with ⟨way', rfl, split⟩ | ⟨taken, rfl, split⟩
    · exact Awaits.quiet undecided run reached part some first split
    · obtain ⟨y, pieces, rfl⟩ := List.exists_cons_of_ne_nil some
      cases taken with
      | nil =>
        rw [List.append_nil] at eq ⊢
        have run : Run (CallbackStep x.base True) r (way ++ []) r' := by simpa using run
        exact Awaits.quiet undecided run reached part some (by simpa using first) split.symm
      | cons z later =>
        obtain ⟨rfl, tail⟩ := List.cons.inj split
        obtain ⟨⟨value, shape⟩, _⟩ := valued_head rfl part
        obtain ⟨parser, callback⟩ := y
        subst shape
        rw [runCallbacks_append (runCallbacks_of_run run)]
        obtain ⟨completes, decision⟩ := reached.decides (Undecided.of_run undecided run) part tail rfl
        refine ⟨completes, .looked rfl (begun_of_piece part tail) ?_ decision⟩
        rw [eq]
        exact looked_position part first
  | behind run part =>
    subst eq
    rw [Request.unexpecting_eq undecided.1] at run
    obtain ⟨t, taken, tail⟩ := run.split
    have still := Undecided.of_run undecided taken
    rw [runCallbacks_of_run taken]
    have bound := part.length_le
    have some : 0 < x.valued.length := List.length_pos_iff.mpr valued_ne_nil
    refine ⟨rfl, .quiet still (.behind (by rw [Request.unexpecting_eq still.1]; exact tail)
      ((List.suffix_append _ _).trans part)) (fun _ => ?_) (fun inside => ?_)⟩
    · simp only [Begun, List.length_append] at bound ⊢
      omega
    · have after := inside.2
      omega

theorem Heard.besides {fired rest : List (HttpParser × Callback)} {t : Request} (h : x.Heard fired rest t)
    (p : HttpParser) (watcher : Watcher) (chunk : ChunkRef) (position : Int) (iterable : Option PyValue) :
    x.Heard fired rest (t.besides p watcher chunk position iterable) := by
  cases h with
  | quiet undecided awaits begun inside =>
    exact .quiet undecided (awaits.besides p watcher chunk position iterable) begun inside
  | looked shape begun position decision =>
    refine .looked shape begun position ?_
    split
    next meets =>
      rw [if_pos meets] at decision
      exact ⟨decision.1, decision.2.1, decision.2.2.besides _ _ _ _ _⟩
    next fails =>
      rw [if_neg fails] at decision
      exact decision

theorem fired_incomplete : ∀ y ∈ x.fired, y.2 ≠ .messageComplete := by
  intro y member complete
  have part : y.2 ∈ x.fired.map Prod.snd := List.mem_map_of_mem member
  simp [fired, x.ahead_eq, x.valued_eq, x.behind_eq, headerCallbacks, complete] at part

/-- Where the connection is with the head of the request. -/
inductive Stage (x : ExpectingHead) : Conn × List (HttpParser × Callback) → Prop
  | waiting {c left} : c.evWatcher = .reading → Untouched c → Undecided c.toRequest → c.state.parseFinished = false →
      left <:+ x.fired → x.Awaits c.toRequest left → Stage x (c, left)
  | asking {c left} : Asks (c, left) → x.Begun left → Untouched c → c.state.errorCode = none →
      c.state.parseFinished = false →
      left <:+ x.fired → x.Awaits c.toRequest left → Stage x (c, left)
  | refusing {c left} : Refused (c, left) → Untouched c → c.evWatcher = .writing → c.state.expectContinue = false →
      Stage x (c, left)
  | concluded {c left} : c.evWatcher = .closed → Stage x (c, left)

theorem Stage.read {c c' : Conn} {e : ReadEvent} {data : ReadData} {rest : List (HttpParser × Callback)}
    (h : x.Stage (c, data.fired ++ rest)) (bytes : e.result = .bytes data) (consumed : data.consumed = true)
    (step : Step x.base c (.read e) c') :
    x.Heard data.fired rest c'.toRequest ∧ x.Stage (c', rest) ∧ c'.evWatcher ≠ .closed ∧ c'.sent = c.sent ∧
      c'.currentChunkP = c.currentChunkP := by
  obtain ⟨reading, step⟩ := step
  generalize hl : data.fired ++ rest = left at h
  cases h with
  | asking asks => cases asks.1.symm.trans reading
  | refusing _ _ writing => cases writing.symm.trans reading
  | concluded closed => cases closed.symm.trans reading
  | waiting _ untouched undecided unfinished part awaits =>
    subst hl
    obtain ⟨completes, heard⟩ := awaits.read undecided
    generalize result : runCallbacks x.base c.toRequest data.fired = outcome at completes heard
    obtain ⟨t, _⟩ := outcome
    obtain rfl := completes
    have parses := evIoOnRead_parses step bytes
    have toRequest : (c.parsed x.base data).toRequest = { t with parser.parser := data.parser } := by
      rw [(untouched.toGrounded.parsed parses).1]
      exact requestParse_completed result consumed
    have unfinished' : (c.parsed x.base data).state.parseFinished = false := by
      have same := runCallbacks_unfinished x.base c.toRequest
        (fun y member => fired_incomplete (x := x) y (part.subset (List.mem_append_left rest member)))
      rw [result] at same
      rw [toRequest]
      exact same.trans unfinished
    have untouched := untouched.parsed parses
    have part : rest <:+ x.fired := (List.suffix_append _ _).trans part
    have heard : x.Heard data.fired rest (c.parsed x.base data).toRequest := by
      rw [toRequest]
      exact heard.besides data.parser t.evWatcher t.currentChunk t.currentChunkP t.iterable
    have frame := (c.parsed_frame x.base data).request
    have sent := c.parsed_sent x.base data
    rcases (evIoOnRead_outcome step).of_bytes bytes with ⟨code, failed, rfl⟩ | ⟨noError, _, clear, rfl⟩ |
      ⟨noError, _, asks, rfl⟩ | ⟨_, finished, _⟩
    · refine ⟨heard.besides _ .writing (.owned (httpErrorMessages code)) _ _, ?_⟩
      cases heard with
      | quiet undecided => cases failed.symm.trans undecided.2
      | looked _ _ _ decision =>
        split at decision
        next => cases failed.symm.trans decision.2.1
        next =>
          exact ⟨.refusing decision.2
            (untouched.besides _ _ _ _ _ _) rfl decision.1,
              (fun closed => by cases closed), sent, frame.currentChunkP⟩
    · refine ⟨heard, ?_⟩
      cases heard with
      | quiet undecided awaits =>
        have still := frame.evWatcher.trans reading
        exact ⟨.waiting still (untouched.count _) undecided unfinished' part awaits,
          (fun closed => by cases closed.symm.trans still), sent, frame.currentChunkP⟩
      | looked _ _ _ decision =>
        split at decision
        next => cases clear.symm.trans decision.1
        next => cases noError.symm.trans decision.2
    · refine ⟨heard.besides _ .writing (.owned continueMessage) _ _, ?_⟩
      cases heard with
      | quiet undecided => cases asks.symm.trans undecided.1
      | looked _ begun _ decision =>
        split at decision
        next =>
          exact ⟨.asking ⟨rfl, asks, rfl⟩ begun
            (untouched.besides _ _ _ _ _ _) noError unfinished' part
            (decision.2.2.besides _ .writing (.owned continueMessage) _ _), (fun closed => by cases closed), sent,
              frame.currentChunkP⟩
        next => cases asks.symm.trans decision.1
    · cases unfinished'.symm.trans finished

theorem Stage.noBytes {c c' : Conn} {e : ReadEvent} {left : List (HttpParser × Callback)} (h : x.Stage (c, left))
    (none : ∀ data, e.result ≠ .bytes data) (step : Step x.base c (.read e) c') :
    x.Stage (c', left) ∧ c'.state = c.state ∧ c'.sent = c.sent ∧ c'.currentChunkP = c.currentChunkP := by
  obtain ⟨reading, step⟩ := step
  cases h with
  | asking asks => cases asks.1.symm.trans reading
  | refusing _ _ writing => cases writing.symm.trans reading
  | concluded closed => cases closed.symm.trans reading
  | waiting _ untouched undecided unfinished part awaits =>
    cases evIoOnRead_outcome step with
    | again => exact ⟨.waiting reading (untouched.count _) undecided unfinished part awaits, rfl, rfl, rfl⟩
    | closed _ closing =>
      obtain rfl := (untouched.count _).closeConnection closing
      exact ⟨.concluded rfl, rfl, rfl, rfl⟩
    | waiting bytes => exact absurd bytes (none _)
    | interim bytes => exact absurd bytes (none _)
    | rejected bytes => exact absurd bytes (none _)
    | answered bytes => exact absurd bytes (none _)
    | failed bytes => exact absurd bytes (none _)

/-- A write sends the interim message on, and then reads again, or the refusal. -/
theorem Stage.write {c c' : Conn} {w : WriteEvent} {left : List (HttpParser × Callback)} (h : x.Stage (c, left))
    (step : Step x.base c (.write w) c') : x.Stage (c', left) ∧
      (Asks (c, left) ∧ c'.state.errorCode = none ∨
        Refused (c, left) ∧ c'.evWatcher ≠ .reading ∧ ¬ Asks (c', left)) := by
  obtain ⟨writing, step⟩ := step
  cases h with
  | waiting reading => cases reading.symm.trans writing
  | concluded closed => cases closed.symm.trans writing
  | asking asks _ untouched noError unfinished part awaits =>
    obtain ⟨mid, _, sends, rfl⟩ := evIoOnWrite_expecting untouched asks.2.1 step
    obtain ⟨chunk, position, sent, rfl⟩ := doSendChunk_untouched untouched sends
    have rest := (awaits.besides c.parser.parser .reading chunk position c.iterable).unexpecting
    exact ⟨.waiting rfl (untouched.besides _ _ _ _ _ _)
      ⟨rfl, noError⟩ unfinished part rest, Or.inl ⟨asks, noError⟩⟩
  | refusing refuses untouched _ clear =>
    cases evIoOnWrite_outcome untouched.idle step with
    | @more mid frame _ =>
      have clear' := frame.expectContinue.trans clear
      refine ⟨.refusing (frame.errorCode.trans refuses) ((untouched.write frame).count _)
        (frame.evWatcher.trans writing) clear', Or.inr ⟨refuses, ?_, fun asks => ?_⟩⟩
      · intro reading
        cases reading.symm.trans (frame.evWatcher.trans writing)
      · cases asks.2.1.symm.trans clear'
    | kept frame _ keep => cases keep.symm.trans (frame.keepAlive untouched.keepAlive)
    | closed _ _ closed =>
      refine ⟨.concluded closed.evWatcher, Or.inr ⟨refuses, ?_, fun asks => ?_⟩⟩
      · intro reading
        cases reading.symm.trans closed.evWatcher
      · cases asks.1.symm.trans closed.evWatcher
    | interim _ expects => cases expects.symm.trans clear

theorem Stage.step {s s' : Conn × List (HttpParser × Callback)} {event : Event} (h : x.Stage s)
    (step : Feeds x.base s event s') : x.Stage s' := by
  cases step with
  | bytes bytes consumed split step =>
    subst split
    exact (h.read bytes consumed step).2.1
  | noBytes none step => exact (h.noBytes none step).1
  | write step => exact (h.write step).1

/-- The interim message has been sent. -/
def Answered (x : ExpectingHead) (c : Conn) : Prop := x.start.sent ++ continueMessage <+: c.sent

/-- The value has begun, and the connection has gone on without the interim message. -/
def Unanswered (x : ExpectingHead) : Conn × List (HttpParser × Callback) → Prop
  | (c, left) => x.Begun left ∧ c.evWatcher ≠ .writing ∧ ¬ x.Answered c

/-- A read that begins inside the value begins with a piece that passes, and the first write of the interim message
accepts all of it. -/
def Heeds (x : ExpectingHead) : Conn × List (HttpParser × Callback) → Event → Prop
  | (_, left), .read e => x.Inside left → ∀ data parser piece later, e.result = .bytes data →
      data.fired = (parser, .headerValue piece) :: later → meetsExpectation piece = true
  | (c, left), .write w => Asks (c, left) → ¬ x.Answered c → ∃ n, w.result = .room n ∧ continueMessage.length ≤ n

/-- The run over `events` that leaves the callbacks `left` decides by the value alone: it answers `100 Continue`
if that is `100-continue`, and refuses any other. -/
def Decides (x : ExpectingHead) (events : List Event) (left : List (HttpParser × Callback)) : Prop :=
  (x.value = ascii "100-continue" →
    ¬ Passes (Feeds x.base) Refused (x.start, x.fired) events ∧
      ¬ Passes (Feeds x.base) x.Unanswered (x.start, x.fired) events ∧
      (x.Begun left → Passes (Feeds x.base) Asks (x.start, x.fired) events)) ∧
  (x.value ≠ ascii "100-continue" →
    ¬ Passes (Feeds x.base) Asks (x.start, x.fired) events ∧
      (x.Begun left → Passes (Feeds x.base) Refused (x.start, x.fired) events))

theorem Stage.begun {s : Conn × List (HttpParser × Callback)} (h : x.Stage s) (asks : Asks s) : x.Begun s.2 := by
  cases h with
  | waiting reading => cases asks.1.symm.trans reading
  | asking _ begun => exact begun
  | refusing _ _ _ clear => cases asks.2.1.symm.trans clear
  | concluded closed => cases asks.1.symm.trans closed

theorem begun_step {s t : Conn × List (HttpParser × Callback)} {event : Event} (begun : x.Begun s.2)
    (step : Feeds x.base s event t) : x.Begun t.2 := by
  cases step with
  | bytes _ _ split =>
    have sizes := congrArg List.length split
    simp only [Begun, List.length_append] at begun sizes ⊢
    omega
  | noBytes => exact begun
  | write => exact begun

theorem Stage.start : x.Stage (x.start, x.fired) := by
  obtain ⟨noError, unfinished, clear, _⟩ := x.ready.flags
  exact .waiting x.ready.reading x.ready.untouched ⟨clear, noError⟩ unfinished (List.suffix_refl _) fired_ahead

theorem not_begun_fired : ¬ x.Begun x.fired := by
  simp [Begun, fired]

/-- The read that brings the first piece of the value decides on it. -/
theorem decision_of_begun {events : List Event} {c : Conn} {left : List (HttpParser × Callback)}
    (run : Run (Feeds x.base) (x.start, x.fired) events (c, left)) (begun : x.Begun left) :
    Passes (Feeds x.base) (if meetsExpectation x.first then Asks else Refused) (x.start, x.fired) events := by
  obtain ⟨js, event, ks, t, t', rfl, reaches, early, step, begins⟩ :=
    run.crosses (P := fun s => x.Begun s.2) not_begun_fired begun
  have stage := reaches.invariant x.Stage (fun _ _ _ stage step => stage.step step) Stage.start
  refine .of_step reaches step ?_
  cases step with
  | noBytes => exact absurd begins early
  | write => exact absurd begins early
  | bytes bytes consumed split step =>
    subst split
    obtain ⟨heard, stage', opened⟩ := stage.read bytes consumed step
    cases heard with
    | quiet _ _ begun => exact absurd (begun begins) early
    | looked _ _ position decision =>
      rcases position with ⟨_, rfl⟩ | ⟨inside, _⟩
      · split at decision
        next meets =>
          rw [if_pos meets]
          cases stage' with
          | waiting _ _ undecided => cases decision.1.symm.trans undecided.1
          | asking asks => exact asks
          | refusing _ _ _ clear => cases decision.1.symm.trans clear
          | concluded closed => exact absurd closed opened.1
        next fails =>
          rw [if_neg fails]
          exact decision.2
      · exact absurd inside.1 early

/-- Nothing is refused, and the interim message is sent, or to be sent, or not asked for yet. -/
structure Accepts (x : ExpectingHead) (s : Conn × List (HttpParser × Callback)) : Prop where
  stage : x.Stage s
  unrefused : ¬ Refused s
  sent : x.Answered s.1 ∨ s.1.sent = x.start.sent ∧ s.1.currentChunkP = 0 ∧ (x.Begun s.2 → Asks s)

theorem Accepts.answered {s : Conn × List (HttpParser × Callback)} (h : x.Accepts s) : ¬ x.Unanswered s := by
  rintro ⟨begun, other, unanswered⟩
  rcases h.sent with answered | ⟨_, _, asks⟩
  · exact unanswered answered
  · exact other (asks begun).1

theorem Accepts.read {c c' : Conn} {e : ReadEvent} {data : ReadData} {rest : List (HttpParser × Callback)}
    (meets : meetsExpectation x.first = true) (h : x.Accepts (c, data.fired ++ rest))
    (heeds : x.Heeds (c, data.fired ++ rest) (.read e)) (bytes : e.result = .bytes data)
    (consumed : data.consumed = true) (step : Step x.base c (.read e) c') : x.Accepts (c', rest) := by
  obtain ⟨heard, stage, _, sent, position⟩ := h.stage.read bytes consumed step
  have early : x.Answered c ∨ c.sent = x.start.sent ∧ c.currentChunkP = 0 ∧ ¬ x.Begun (data.fired ++ rest) := by
    refine h.sent.imp_right fun ⟨same, start, asks⟩ => ⟨same, start, fun begun => ?_⟩
    cases (asks begun).1.symm.trans step.1
  cases heard with
  | quiet undecided _ begun =>
    refine ⟨stage, (fun refused => by cases refused.symm.trans undecided.2), ?_⟩
    rw [Answered, sent, position]
    exact early.imp_right fun ⟨same, start, early⟩ => ⟨same, start, fun begins => absurd (begun begins) early⟩
  | @looked way parser value later shape _ place decision =>
    have passes : meetsExpectation value = true := by
      rcases place with ⟨_, rfl⟩ | ⟨inside, rfl⟩
      · exact meets
      · exact heeds inside _ _ _ _ bytes shape
    rw [if_pos passes] at decision
    refine ⟨stage, (fun refused => by cases refused.symm.trans decision.2.1), ?_⟩
    rw [Answered, sent, position]
    refine early.imp_right fun ⟨same, start, _⟩ => ⟨same, start, fun _ => ?_⟩
    cases stage with
    | waiting _ _ undecided => cases decision.1.symm.trans undecided.1
    | asking asks => exact asks
    | refusing refused => cases refused.symm.trans decision.2.1
    | concluded closed => contradiction

theorem Accepts.noBytes {c c' : Conn} {e : ReadEvent} {left : List (HttpParser × Callback)} (h : x.Accepts (c, left))
    (none : ∀ data, e.result ≠ .bytes data) (step : Step x.base c (.read e) c') : x.Accepts (c', left) := by
  obtain ⟨stage, state, sent, position⟩ := h.stage.noBytes none step
  refine ⟨stage, fun refused => h.unrefused ((congrArg RequestState.errorCode state).symm.trans refused), ?_⟩
  rw [Answered, sent, position]
  refine h.sent.imp_right fun ⟨same, start, asks⟩ => ⟨same, start, fun begun => ?_⟩
  cases (asks begun).1.symm.trans step.1

theorem Accepts.write {c c' : Conn} {w : WriteEvent} {left : List (HttpParser × Callback)} (h : x.Accepts (c, left))
    (heeds : x.Heeds (c, left) (.write w)) (step : Step x.base c (.write w) c') : x.Accepts (c', left) := by
  obtain ⟨stage, ⟨asks, noError⟩ | ⟨refused, _⟩⟩ := h.stage.write step
  · refine ⟨stage, (fun refused => by cases refused.symm.trans noError), Or.inl ?_⟩
    have untouched : Untouched c := by
      cases h.stage with
      | waiting reading => cases reading.symm.trans asks.1
      | asking _ _ untouched => exact untouched
      | refusing refused => exact absurd refused h.unrefused
      | concluded closed => cases closed.symm.trans asks.1
    by_cases answered : x.Answered c
    · obtain ⟨mid, _, sends, rfl⟩ := evIoOnWrite_expecting untouched asks.2.1 step.2
      have more : c.sent <+: mid.sent := doSendChunk_sent sends
      exact answered.trans more
    · obtain ⟨same, start, _⟩ := h.sent.resolve_left answered
      rcases interim_sent untouched asks.2.1 asks.2.2 start step.2 with ⟨_, sent, _⟩ | ⟨short, _⟩
      · exact ⟨[], by rw [sent, same, List.append_nil]⟩
      · exact absurd (heeds asks answered) short
  · exact absurd refused h.unrefused

theorem Accepts.step (meets : meetsExpectation x.first = true) {s s' : Conn × List (HttpParser × Callback)}
    {event : Event} (h : x.Accepts s) (step : Guarded x.Heeds (Feeds x.base) s event s') : x.Accepts s' := by
  obtain ⟨heeds, step⟩ := step
  cases step with
  | bytes bytes consumed split step =>
    subst split
    exact h.read meets heeds bytes consumed step
  | noBytes none step => exact h.noBytes none step
  | write step => exact h.write heeds step

theorem Accepts.start : x.Accepts (x.start, x.fired) := by
  obtain ⟨noError, _, _, position⟩ := x.ready.flags
  refine ⟨Stage.start, (fun refused => by cases refused.symm.trans noError), Or.inr ⟨rfl, position, fun begun => ?_⟩⟩
  exact absurd begun not_begun_fired

/-- No refusal, and the interim message is sent, as long as every piece that is looked at passes and the message is
accepted. -/
theorem accepts_of_run (meets : meetsExpectation x.first = true) {events : List Event}
    {s : Conn × List (HttpParser × Callback)} (run : Run (Guarded x.Heeds (Feeds x.base)) (x.start, x.fired) events s) :
    ¬ Passes (Feeds x.base) Refused (x.start, x.fired) events ∧
      ¬ Passes (Feeds x.base) x.Unanswered (x.start, x.fired) events :=
  ⟨run.passes_not (Feeds.unique x.base) (fun _ _ _ inv step => inv.step meets step) (fun _ inv => inv.unrefused)
      Accepts.start,
    run.passes_not (Feeds.unique x.base) (fun _ _ _ inv step => inv.step meets step) (fun _ inv => inv.answered)
      Accepts.start⟩

/-- No interim message before the value. -/
theorem not_asked_early {events : List Event} {s : Conn × List (HttpParser × Callback)} (early : ¬ x.Begun s.2)
    (run : Run (Feeds x.base) (x.start, x.fired) events s) :
    ¬ Passes (Feeds x.base) Asks (x.start, x.fired) events := by
  rintro ⟨js, t, ⟨ks, rfl⟩, first, asks⟩
  have stage := first.invariant x.Stage (fun _ _ _ stage step => stage.step step) Stage.start
  obtain ⟨t', first', rest⟩ := run.split
  obtain rfl := first.unique (Feeds.unique x.base) first'
  exact early (rest.invariant (fun s => x.Begun s.2) (fun _ _ _ => begun_step) (stage.begun asks))

/-- No interim message if the first piece is refused. -/
theorem not_asked (fails : meetsExpectation x.first = false) {events : List Event}
    {s : Conn × List (HttpParser × Callback)} (run : Run (Feeds x.base) (x.start, x.fired) events s) :
    ¬ Passes (Feeds x.base) Asks (x.start, x.fired) events := by
  have run : Run (Guarded (fun _ _ => True) (Feeds x.base)) (x.start, x.fired) events s :=
    run.mono fun _ _ _ step => ⟨trivial, step⟩
  have excludes : ∀ s, x.Stage s ∧ ¬ Asks s ∧ (s.1.evWatcher = .reading → ¬ x.Begun s.2) → ¬ Asks s :=
    fun _ inv => inv.2.1
  refine run.passes_not (Feeds.unique x.base) ?_ excludes
    ⟨Stage.start, fun asks => (by cases asks.1.symm.trans x.ready.reading), fun _ => not_begun_fired⟩
  · rintro s event s' ⟨stage, quiet, early⟩ ⟨_, step⟩
    have next := stage.step step
    refine ⟨next, ?_⟩
    cases step with
    | bytes bytes consumed split step =>
      subst split
      have early := early step.1
      obtain ⟨heard, _⟩ := stage.read bytes consumed step
      cases heard with
      | quiet undecided _ begun =>
        refine ⟨fun asks => ?_, fun _ begins => early (begun begins)⟩
        cases asks.2.1.symm.trans undecided.1
      | looked _ _ position decision =>
        obtain ⟨_, rfl⟩ := position.resolve_right fun inside => early inside.1.1
        rw [if_neg (by simp [fails])] at decision
        refine ⟨fun asks => ?_, fun reading => ?_⟩
        · cases asks.2.1.symm.trans decision.1
        · cases next with
          | waiting _ _ undecided => cases decision.2.symm.trans undecided.2
          | asking asks => cases asks.1.symm.trans reading
          | refusing _ _ writing => cases writing.symm.trans reading
          | concluded closed => cases closed.symm.trans reading
    | noBytes none step =>
      refine ⟨fun asks => ?_, fun _ => early step.1⟩
      have waits := asks.2.1
      rw [(stage.noBytes none step).2.1] at waits
      cases stage with
      | waiting _ _ undecided => cases waits.symm.trans undecided.1
      | asking asks => exact quiet asks
      | refusing _ _ writing => cases writing.symm.trans step.1
      | concluded closed => cases closed.symm.trans step.1
    | write step =>
      rcases (stage.write step).2 with ⟨asks, _⟩ | ⟨_, other, still⟩
      · exact absurd asks quiet
      · exact ⟨still, fun reading => absurd reading other⟩

/-- A step that does not heed is a read that is cut inside the value, which sets the refusal, or a write that does not
send the interim message. -/
theorem unheeded {events later : List Event} {event : Event} {s t : Conn × List (HttpParser × Callback)}
    (meets : meetsExpectation x.first = true)
    (run : Run (Guarded x.Heeds (Feeds x.base)) (x.start, x.fired) events s) (unheeded : ¬ x.Heeds s event)
    (step : Feeds x.base s event t) : Passes (Feeds x.base) Refused (x.start, x.fired) (events ++ event :: later) ∨
      Passes (Feeds x.base) x.Unanswered (x.start, x.fired) (events ++ event :: later) := by
  have accepts := run.invariant x.Accepts (fun _ _ _ inv step => inv.step meets step) Accepts.start
  have reaches : Run (Feeds x.base) (x.start, x.fired) events s := run.mono fun _ _ _ h => h.2
  have next := accepts.stage.step step
  cases step with
  | noBytes none => exact absurd (fun _ data _ _ _ bytes => absurd bytes (none data)) unheeded
  | @write c c' w left step =>
    simp only [Heeds, Classical.not_imp] at unheeded
    obtain ⟨asks, unanswered, short⟩ := unheeded
    obtain ⟨same, start, _⟩ := accepts.sent.resolve_left unanswered
    have begun := accepts.stage.begun asks
    have untouched : Untouched c := by
      cases accepts.stage with
      | waiting reading => cases reading.symm.trans asks.1
      | asking _ _ untouched => exact untouched
      | refusing refused => exact absurd refused accepts.unrefused
      | concluded closed => cases closed.symm.trans asks.1
    obtain ⟨_, sent⟩ := (interim_sent untouched asks.2.1 asks.2.2 start step.2).resolve_left fun whole => short whole.1
    obtain ⟨_, _, _, resumed⟩ := evIoOnWrite_expecting untouched asks.2.1 step.2
    refine Or.inr (.of_step reaches (.write step) ⟨begun, (by rw [resumed]; simp [Conn.resumed, startReading]), ?_⟩)
    intro answered
    have same : c.sent = x.start.sent := same
    have length := answered.length_le
    rw [List.length_append, ← same] at length
    omega
  | bytes bytes consumed split step =>
    subst split
    obtain ⟨heard, _⟩ := accepts.stage.read bytes consumed step
    refine Or.inl (.of_step reaches (.bytes bytes consumed rfl step) ?_)
    simp only [Heeds, Classical.not_imp, not_forall] at unheeded
    obtain ⟨inside, data, parser, piece, later, bytes', shape, fails⟩ := unheeded
    cases bytes.symm.trans bytes'
    cases heard with
    | quiet _ _ _ empty =>
      rw [empty inside] at shape
      cases shape
    | looked shape' _ position decision =>
      rcases position with ⟨early, _⟩ | ⟨_, rfl⟩
      · exact absurd inside.1 early
      · obtain ⟨first, _⟩ := List.cons.inj (shape.symm.trans shape')
        cases first
        rw [if_neg fails] at decision
        exact decision.2

theorem meets_first (whole : x.value = ascii "100-continue") : meetsExpectation x.first = true := by
  refine meetsExpectation_iff.mpr (Or.inl ?_)
  rw [← whole]
  exact List.prefix_append _ _

/-- Exactly when the decision on an `Expect` header depends on its value alone. -/
theorem expectation_decided {events : List Event} {c : Conn} {left : List (HttpParser × Callback)}
    (run : Run (Feeds x.base) (x.start, x.fired) events (c, left)) : x.Decides events left ↔
      (x.value = ascii "100-continue" → Run (Guarded x.Heeds (Feeds x.base)) (x.start, x.fired) events (c, left)) ∧
      (x.value ≠ ascii "100-continue" → x.Begun left → meetsExpectation x.first = false) := by
  constructor
  · rintro ⟨accepts, refuses⟩
    refine ⟨fun whole => ?_, fun other begun => ?_⟩
    · obtain ⟨unrefused, answered, _⟩ := accepts whole
      rcases run.guarded_or x.Heeds with guarded | ⟨js, event, ks, t, t', rfl, reaches, fails, step⟩
      · exact guarded
      · rcases unheeded (meets_first whole) reaches fails step with refused | unanswered
        · exact absurd refused unrefused
        · exact absurd unanswered answered
    · by_contra meets
      have asks := decision_of_begun run begun
      rw [if_pos (by simpa using meets)] at asks
      exact (refuses other).1 asks
  · rintro ⟨guarded, fails⟩
    refine ⟨fun whole => ?_, fun other => ⟨?_, fun begun => ?_⟩⟩
    · obtain ⟨unrefused, answered⟩ := accepts_of_run (meets_first whole) (guarded whole)
      refine ⟨unrefused, answered, fun begun => ?_⟩
      have asks := decision_of_begun run begun
      rwa [if_pos (meets_first whole)] at asks
    · by_cases begun : x.Begun left
      · exact not_asked (fails other begun) run
      · exact not_asked_early begun run
    · have refused := decision_of_begun run begun
      rwa [if_neg (by simp [fails other begun])] at refused

end ExpectingHead

/-- `POST /` with the value `v` in its `Expect` header. -/
def postExpecting (v : Bytes) : HttpRequest := ⟨http11Post, ascii "/", [], [(ascii "Expect", v)], ascii "hi"⟩

/-- The value of the header in the pieces `first` and `later`. -/
def expectPieces (first : Bytes) (later : List Bytes) : Pieces (postExpecting (first :: later).flatten) where
  path := [ascii "/"]
  query := []
  headers := [([ascii "Expect"], first :: later)]
  body := wholePieces.body
  path_join := wholePieces.path_join
  query_join := rfl
  query_full := by decide
  headers_join := rfl
  headers_full := by
    intro h member
    rw [List.mem_singleton.mp member]
    exact ⟨List.cons_ne_nil _ _, List.cons_ne_nil _ _⟩
  body_join := wholePieces.body_join
  body_full := wholePieces.body_full

/-- The head of such a request on a new connection. -/
def headExpecting (first : Bytes) (later : List Bytes) : ExpectingHead where
  base := .empty
  start := evIoOnRequest [] http11Post
  q := postExpecting (first :: later).flatten
  pieces := expectPieces first later
  d := setOrAppendHeader (ascii "PATH_INFO") (ascii "/") .empty
  before := []
  names := [ascii "Expect"]
  first := first
  later := later
  after := []
  ahead := [(http11Post, .messageBegin), (http11Post, .path (ascii "/")), (http11Post, .headerField (ascii "Expect"))]
  valued := (first :: later).map fun piece => (http11Post, .headerValue piece)
  behind := []
  ready := evIoOnRequest_ready [] http11Post
  decodes := rfl
  headers := rfl
  looks := ⟨by decide, by decide, Nat.one_pos, Nat.one_pos⟩
  others := by simp
  ahead_eq := rfl
  valued_eq := by simp
  behind_eq := rfl
  snapshots := by simp [Snapshot, postExpecting]

/-- One read brings the head. -/
def headRead (first : Bytes) (later : List Bytes) : ReadEvent :=
  ⟨.bytes ⟨(headExpecting first later).fired, http11Post, true⟩, returning oneItem⟩

/-- The head comes in one read and a write sends the interim message. -/
theorem headExpecting_run (first : Bytes) (later : List Bytes) {c c' : Conn}
    (read : Step .empty (evIoOnRequest [] http11Post) (.read (headRead first later)) c)
    (write : Step .empty c (.write (accepts 25)) c') :
    Run (Feeds .empty) (evIoOnRequest [] http11Post, (headExpecting first later).fired)
      [.read (headRead first later), .write (accepts 25)] (c', []) :=
  .cons (.bytes rfl rfl (List.append_nil _).symm read) (.single (.write write))

/-- The value comes in two pieces, and the client gets the interim message. -/
theorem expectation_decided_split : ∃ c,
    Run (Feeds .empty) (evIoOnRequest [] http11Post, (headExpecting (ascii "100-") [ascii "continue"]).fired)
      [.read (headRead (ascii "100-") [ascii "continue"]), .write (accepts 25)] (c, []) ∧
    c.sent = continueMessage ∧ c.evWatcher = .reading ∧
    (headExpecting (ascii "100-") [ascii "continue"]).Decides
      [.read (headRead (ascii "100-") [ascii "continue"]), .write (accepts 25)] [] := by
  have run := headExpecting_run (ascii "100-") [ascii "continue"] ⟨rfl, rfl⟩ ⟨rfl, rfl⟩
  refine ⟨_, run, rfl, rfl, ?_⟩
  refine (ExpectingHead.expectation_decided (x := headExpecting (ascii "100-") [ascii "continue"]) run).mpr
    ⟨fun _ => ?_, fun other => absurd (by decide) other⟩
  refine .cons ⟨fun inside => absurd inside.1 ExpectingHead.not_begun_fired, .bytes rfl rfl rfl ⟨rfl, rfl⟩⟩ ?_
  exact .single ⟨fun _ _ => ⟨25, rfl, by decide⟩, .write ⟨rfl, rfl⟩⟩

/-- `Expect: 100-con` is answered like `Expect: 100-continue`. -/
theorem prefix_of_expectation_answered : (headExpecting (ascii "100-con") []).value ≠ ascii "100-continue" ∧
    ∃ c, Run (Feeds .empty) (evIoOnRequest [] http11Post, (headExpecting (ascii "100-con") []).fired)
      [.read (headRead (ascii "100-con") []), .write (accepts 25)] (c, []) ∧ c.sent = continueMessage ∧
      ¬ Refused (c, []) ∧
      ¬ (headExpecting (ascii "100-con") []).Decides
        [.read (headRead (ascii "100-con") []), .write (accepts 25)] [] := by
  have other : (headExpecting (ascii "100-con") []).value ≠ ascii "100-continue" := by decide
  have run := headExpecting_run (ascii "100-con") [] ⟨rfl, rfl⟩ ⟨rfl, rfl⟩
  refine ⟨other, _, run, rfl, nofun, fun decides => ?_⟩
  exact (decides.2 other).1 ⟨[_], _, ⟨[_], rfl⟩, .single (.bytes rfl rfl rfl ⟨rfl, rfl⟩), rfl, rfl, rfl⟩

end Bjoern
