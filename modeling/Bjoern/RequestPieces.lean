import Bjoern.ReadStep
import Bjoern.Runs

namespace Bjoern

open Runs

/-- A request: what `http_parser` knows of it when it is complete, and its parts as they were sent. -/
structure HttpRequest where
  parser : HttpParser
  path : Bytes
  query : Bytes
  headers : List (Bytes × Bytes)
  body : Bytes

/-- The pieces in which the callbacks hand over a request. -/
structure Pieces (q : HttpRequest) where
  path : List Bytes
  query : List Bytes
  headers : List (List Bytes × List Bytes)
  body : List Bytes
  path_join : path.flatten = q.path
  query_join : query.flatten = q.query
  query_full : ∀ piece ∈ query, piece ≠ []
  headers_join : headers.map (fun h => (h.1.flatten, h.2.flatten)) = q.headers
  headers_full : ∀ h ∈ headers, h.1 ≠ [] ∧ h.2 ≠ []
  body_join : body.flatten = q.body
  body_full : ∀ piece ∈ body, piece ≠ []

/-- Every part of the request in one piece. -/
def HttpRequest.whole (q : HttpRequest) : Pieces q where
  path := [q.path]
  query := if q.query = [] then [] else [q.query]
  headers := q.headers.map fun h => ([h.1], [h.2])
  body := if q.body = [] then [] else [q.body]
  path_join := by simp
  query_join := by split <;> simp_all
  query_full := by split <;> simp_all
  headers_join := by simp [Function.comp_def]
  headers_full := by
    intro h member
    obtain ⟨_, _, rfl⟩ := List.mem_map.mp member
    simp
  body_join := by split <;> simp_all
  body_full := by split <;> simp_all

def headerCallbacks (h : List Bytes × List Bytes) : List Callback :=
  h.1.map .headerField ++ h.2.map .headerValue

/-- The callbacks after those for the path. -/
def Pieces.afterPath {q : HttpRequest} (pieces : Pieces q) : List Callback :=
  pieces.query.map .queryString ++ (pieces.headers.flatMap headerCallbacks ++
    (pieces.body.map .body ++ [.messageComplete]))

def Pieces.callbacks {q : HttpRequest} (pieces : Pieces q) : List Callback :=
  .messageBegin :: (pieces.path.map .path ++ pieces.afterPath)

/-- What a callback finds in the parser: the version from the request line on, a length or chunks where
there is a body, and the whole request at its end. -/
def Snapshot (q : HttpRequest) : HttpParser × Callback → Prop
  | (parser, .headerValue _) => parser.httpMajor = q.parser.httpMajor ∧ parser.httpMinor = q.parser.httpMinor
  | (parser, .body _) => parser.contentLength ≠ 0
  | (parser, .messageComplete) => parser.httpMinor = q.parser.httpMinor ∧ parser.method = q.parser.method
  | _ => True

/-- `fired` are the callbacks for the request `q`, handed over in `pieces`. -/
def Fires (q : HttpRequest) (pieces : Pieces q) (fired : List (HttpParser × Callback)) : Prop :=
  fired.map Prod.snd = pieces.callbacks ∧ ∀ x ∈ fired, Snapshot q x

/-- The key of a header in the environ. -/
def nameKey (name : Bytes) : Bytes := ascii "HTTP_" ++ name.map processFieldByte

/-- A header with an underscore in its name is dropped. -/
def addHeader (d : Environ) (name value : Bytes) : Environ :=
  if charByte '_' ∈ name then d else setOrAppendHeader (nameKey name) value d

def addHeaders (d : Environ) (headers : List (Bytes × Bytes)) : Environ :=
  headers.foldl (fun d h => addHeader d h.1 h.2) d

def addQuery (d : Environ) (query : Bytes) : Environ :=
  if query = [] then d else setOrAppendHeader (ascii "QUERY_STRING") query d

def addBody (d : Environ) (body : Bytes) : Environ :=
  if body = [] then d else d.setItem (ascii "wsgi.input") (.bytesIo body body.length)

/-- `unquote_url_inplace` on a piece of the path, `none` where `on_path` stops the parser. -/
def decodePath (piece : Bytes) : Option Bytes :=
  match unquoteUrlInplace piece piece.length with
  | some (buf, len) => if len = 0 then none else some (buf.take len)
  | none => none

def addPath : Environ → List Bytes → Option Environ
  | d, [] => some d
  | d, piece :: rest =>
    match decodePath piece with
    | some path => addPath (setOrAppendHeader (ascii "PATH_INFO") path d) rest
    | none => none

/-- The environ of a request whose path gave the dictionary `d`. -/
def HttpRequest.environ (q : HttpRequest) (base : Environ) (clientAddr : Bytes) (d : Environ) : Environ :=
  finishEnviron base clientAddr q.parser (addBody (addHeaders (addQuery d q.query) q.headers) q.body)

/-- The expectation of a header of this name is looked at. -/
def LooksAtExpectation (parser : HttpParser) (name : Bytes) : Prop :=
  charByte '_' ∉ name ∧ nameKey name = ascii "HTTP_EXPECT" ∧ 0 < parser.httpMajor ∧ 0 < parser.httpMinor

@[simp] theorem setOrAppendHeader_append (k v more : Bytes) (d : Environ) :
    setOrAppendHeader k more (setOrAppendHeader k v d) = setOrAppendHeader k (v ++ more) d := by
  unfold setOrAppendHeader
  cases h : d k with
  | none => simp [Environ.setItem]
  | some value => cases value <;> simp [Environ.setItem]

theorem addHeader_append (d : Environ) (name value more : Bytes) :
    addHeader (addHeader d name value) name more = addHeader d name (value ++ more) := by
  unfold addHeader
  split <;> simp

/-- A callback returns 0 without an error; under `quiet` it raises no expectation. -/
def CallbackStep (base : Environ) (quiet : Prop) (r : Request) (x : HttpParser × Callback) (r' : Request) : Prop :=
  runCallback base r x.1 x.2 = (r', true) ∧ r'.state.errorCode = none ∧
    (quiet → r'.state.expectContinue = true → r.state.expectContinue = true)

theorem runCallbacks_of_run {base : Environ} {quiet : Prop} {r r' : Request}
    {fired : List (HttpParser × Callback)} (run : Run (CallbackStep base quiet) r fired r') :
    runCallbacks base r fired = (r', true) := by
  induction run with
  | nil => rfl
  | @cons s t u x rest step _ ih =>
    simp only [runCallbacks, step.1]
    exact ih

theorem runCallbacks_append {base : Environ} {r r' : Request} {first : List (HttpParser × Callback)}
    (completed : runCallbacks base r first = (r', true)) (rest : List (HttpParser × Callback)) :
    runCallbacks base r (first ++ rest) = runCallbacks base r' rest := by
  induction first generalizing r with
  | nil =>
    cases completed
    rfl
  | cons x more ih =>
    simp only [List.cons_append, runCallbacks] at completed ⊢
    split at completed
    next mid step => exact ih completed
    next => cases completed

/-- The key of the header being read is known, or dropped. -/
def KeyReady (p : BjParser) (name : Bytes) : Prop :=
  if charByte '_' ∈ name then p.invalidHeader = true
  else p.invalidHeader = false ∧ p.field = some (nameKey name)

/-- In the middle of reading a request, after a header or before the first, with the dictionary `d`. -/
structure Between (d : Environ) (r : Request) : Prop where
  headers : r.headers = .environ d
  last : r.parser.lastCallWasHeaderValue = true
  noError : r.state.errorCode = none

/-- In the middle of a header name, of which the bytes `seen` have come. -/
structure InName (d : Environ) (seen : Bytes) (r : Request) : Prop where
  headers : r.headers = .environ d
  last : r.parser.lastCallWasHeaderValue = false
  key : KeyReady r.parser seen
  noError : r.state.errorCode = none

/-- What a piece of a name leaves depends on the bytes that have come, not on how they came. -/
theorem onHeaderField_ready {r : Request} {seen : Bytes} (piece : Bytes) (key : KeyReady (startHeader r.parser) seen)
    (last : (startHeader r.parser).lastCallWasHeaderValue = false) : ∃ p,
    onHeaderField r piece = ({ r with parser := p }, true) ∧ KeyReady p (seen ++ piece) ∧
      p.lastCallWasHeaderValue = false := by
  unfold onHeaderField
  unfold KeyReady at key ⊢
  by_cases dropped : charByte '_' ∈ seen
  · rw [if_pos dropped] at key
    refine ⟨startHeader r.parser, by simp [key], ?_, last⟩
    rw [if_pos (List.mem_append_left _ dropped)]
    exact key
  · rw [if_neg dropped] at key
    by_cases drops : charByte '_' ∈ piece
    · refine ⟨{ startHeader r.parser with invalidHeader := true }, by simp [key.1, drops], ?_, last⟩
      rw [if_pos (List.mem_append_right _ drops)]
    · refine ⟨{ startHeader r.parser with
        field := (startHeader r.parser).field.map (· ++ piece.map processFieldByte) }, by simp [key.1, drops], ?_, last⟩
      rw [if_neg (by simp [dropped, drops])]
      refine ⟨key.1, ?_⟩
      simp [key.2, nameKey]

theorem startHeader_fresh {p : BjParser} (last : p.lastCallWasHeaderValue = true) :
    KeyReady (startHeader p) [] ∧ (startHeader p).lastCallWasHeaderValue = false := by
  simp [startHeader, last, KeyReady, nameKey]

theorem startHeader_started {p : BjParser} (last : p.lastCallWasHeaderValue = false) : startHeader p = p := by
  simp [startHeader, last]

theorem Between.name_step (base : Environ) (quiet : Prop) {d : Environ} {r : Request} (h : Between d r)
    (parser : HttpParser) (piece : Bytes) : ∃ r', CallbackStep base quiet r (parser, .headerField piece) r' ∧
      InName d piece r' := by
  obtain ⟨key, last⟩ := startHeader_fresh h.last
  obtain ⟨p, step, key', last'⟩ := onHeaderField_ready piece key last
  exact ⟨_, ⟨step, h.noError, fun _ raised => raised⟩, h.headers, last', key', h.noError⟩

theorem InName.name_step (base : Environ) (quiet : Prop) {d : Environ} {r : Request} {seen : Bytes}
    (h : InName d seen r) (parser : HttpParser) (piece : Bytes) : ∃ r',
    CallbackStep base quiet r (parser, .headerField piece) r' ∧ InName d (seen ++ piece) r' := by
  have started := startHeader_started h.last
  obtain ⟨p, step, key, last⟩ := onHeaderField_ready (r := r) piece (by rw [started]; exact h.key)
    (by rw [started]; exact h.last)
  exact ⟨_, ⟨step, h.noError, fun _ raised => raised⟩, h.headers, last, key, h.noError⟩

theorem InName.names_run (base : Environ) (quiet : Prop) {d : Environ} {r : Request} {seen : Bytes}
    {names : List Bytes} {fired : List (HttpParser × Callback)} (h : InName d seen r)
    (hf : fired.map Prod.snd = names.map .headerField) : ∃ r',
    Run (CallbackStep base quiet) r fired r' ∧ InName d (seen ++ names.flatten) r' := by
  induction names generalizing r seen fired with
  | nil =>
    obtain rfl := List.map_eq_nil_iff.mp hf
    exact ⟨r, .nil, by simpa using h⟩
  | cons piece rest ih =>
    obtain ⟨⟨parser, callback⟩, later, rfl, rfl, tail⟩ := List.map_eq_cons_iff.mp hf
    obtain ⟨mid, step, reached⟩ := h.name_step base quiet parser piece
    obtain ⟨last, run, done⟩ := ih reached tail
    exact ⟨last, .cons step run, by simpa using done⟩

/-- In the middle of the value of a header, of which the bytes `seen` have come. -/
structure InValue (q : HttpRequest) (d : Environ) (name seen : Bytes) (r : Request) : Prop where
  headers : r.headers = .environ (addHeader d name seen)
  last : r.parser.lastCallWasHeaderValue = true
  key : KeyReady r.parser name
  noError : r.state.errorCode = none
  waits : LooksAtExpectation q.parser name → r.state.expectContinue = true

theorem InValue.between {q : HttpRequest} {d : Environ} {name seen : Bytes} {r : Request}
    (h : InValue q d name seen r) : Between (addHeader d name seen) r :=
  ⟨h.headers, h.last, h.noError⟩

theorem checksExpectation_iff {r : Request} (parser : HttpParser) {name : Bytes} (key : KeyReady r.parser name)
    (noError : r.state.errorCode = none) : checksExpectation r parser = true ↔
      LooksAtExpectation parser name ∧ r.state.expectContinue = false := by
  unfold checksExpectation LooksAtExpectation
  unfold KeyReady at key
  by_cases dropped : charByte '_' ∈ name
  · rw [if_pos dropped] at key
    simp [key, dropped]
  · rw [if_neg dropped] at key
    simp only [key, noError, dropped]
    simp
    tauto

theorem onHeaderValue_headers {r : Request} {parser : HttpParser} {d : Environ} {name value : Bytes}
    (headers : r.headers = .environ d) (key : KeyReady r.parser name) :
    (onHeaderValue r parser value).1.headers = .environ (addHeader d name value) := by
  obtain ⟨_, _, _, set, _⟩ := onHeaderValue_spec r parser value
  rw [set]
  unfold KeyReady at key
  unfold addHeader
  split at key
  next dropped => simp [key, headers, dropped]
  next kept => simp [key.1, key.2, headers, kept, Headers.modify]

theorem onHeaderValue_flags (r : Request) (parser : HttpParser) (value : Bytes)
    (meets : checksExpectation r parser = true → meetsExpectation value = true) :
    (onHeaderValue r parser value).2 = true ∧
      (onHeaderValue r parser value).1.parser = { r.parser with lastCallWasHeaderValue := true } ∧
      (onHeaderValue r parser value).1.state =
        { r.state with expectContinue := r.state.expectContinue || checksExpectation r parser } := by
  obtain ⟨completes, left, _, _, state⟩ := onHeaderValue_spec r parser value
  refine ⟨completes, left, state.trans ?_⟩
  split
  next checks =>
    rw [if_pos (meets checks)]
    simp [checks]
  next skips => simp [skips]

theorem value_step (base : Environ) (quiet : Prop) {q : HttpRequest} {d d' : Environ} {name value : Bytes}
    {r : Request} {parser : HttpParser} (headers : r.headers = .environ d)
    (merged : addHeader d name value = d') (key : KeyReady r.parser name)
    (noError : r.state.errorCode = none)
    (version : parser.httpMajor = q.parser.httpMajor ∧ parser.httpMinor = q.parser.httpMinor)
    (meets : LooksAtExpectation q.parser name → r.state.expectContinue = false →
      ¬ quiet ∧ meetsExpectation value = true) : ∃ r',
    CallbackStep base quiet r (parser, .headerValue value) r' ∧ r'.headers = .environ d' ∧
      r'.parser.lastCallWasHeaderValue = true ∧ KeyReady r'.parser name ∧ r'.state.errorCode = none ∧
      (LooksAtExpectation q.parser name → r'.state.expectContinue = true) := by
  have looks : LooksAtExpectation parser name ↔ LooksAtExpectation q.parser name := by
    simp [LooksAtExpectation, version]
  have checks := checksExpectation_iff parser key noError
  rw [looks] at checks
  obtain ⟨completes, parser_eq, state_eq⟩ := onHeaderValue_flags r parser value
    (fun h => (meets (checks.mp h).1 (checks.mp h).2).2)
  have noError' : (onHeaderValue r parser value).1.state.errorCode = none := by rw [state_eq]; exact noError
  refine ⟨(onHeaderValue r parser value).1, ⟨Prod.ext rfl completes, noError', ?_⟩, ?_, ?_, ?_, noError', ?_⟩
  · intro still raised
    rw [state_eq] at raised
    rcases Bool.or_eq_true_iff.mp raised with before | now
    · exact before
    · exact absurd still (meets (checks.mp now).1 (checks.mp now).2).1
  · rw [onHeaderValue_headers headers key, merged]
  · rw [parser_eq]
  · rw [parser_eq]
    exact key
  · intro expected
    rw [state_eq]
    cases waiting : r.state.expectContinue with
    | true => rfl
    | false => simpa using checks.mpr ⟨expected, waiting⟩

theorem InName.value_step (base : Environ) (quiet : Prop) {q : HttpRequest} {d : Environ} {name : Bytes}
    {r : Request} {parser : HttpParser} (h : InName d name r) (value : Bytes)
    (version : parser.httpMajor = q.parser.httpMajor ∧ parser.httpMinor = q.parser.httpMinor)
    (meets : LooksAtExpectation q.parser name → ¬ quiet ∧ meetsExpectation value = true) : ∃ r',
    CallbackStep base quiet r (parser, .headerValue value) r' ∧ InValue q d name value r' := by
  obtain ⟨r', step, headers, last, key, noError, waits⟩ := Bjoern.value_step base quiet (q := q)
    h.headers rfl h.key h.noError version (fun looks _ => meets looks)
  exact ⟨r', step, headers, last, key, noError, waits⟩

theorem InValue.value_step (base : Environ) (quiet : Prop) {q : HttpRequest} {d : Environ} {name seen : Bytes}
    {r : Request} {parser : HttpParser} (h : InValue q d name seen r) (value : Bytes)
    (version : parser.httpMajor = q.parser.httpMajor ∧ parser.httpMinor = q.parser.httpMinor) : ∃ r',
    CallbackStep base quiet r (parser, .headerValue value) r' ∧ InValue q d name (seen ++ value) r' := by
  obtain ⟨r', step, headers, last, key, noError, waits⟩ := Bjoern.value_step base quiet (q := q)
    h.headers (addHeader_append d name seen value) h.key h.noError version
    (fun looks waiting => absurd (h.waits looks) (by simp [waiting]))
  exact ⟨r', step, headers, last, key, noError, waits⟩

theorem InValue.values_run (base : Environ) (quiet : Prop) {q : HttpRequest} {d : Environ} {name seen : Bytes}
    {r : Request} {values : List Bytes} {fired : List (HttpParser × Callback)} (h : InValue q d name seen r)
    (hf : fired.map Prod.snd = values.map .headerValue) (snapshots : ∀ x ∈ fired, Snapshot q x) : ∃ r',
    Run (CallbackStep base quiet) r fired r' ∧ InValue q d name (seen ++ values.flatten) r' := by
  induction values generalizing r seen fired with
  | nil =>
    obtain rfl := List.map_eq_nil_iff.mp hf
    exact ⟨r, .nil, by simpa using h⟩
  | cons piece rest ih =>
    obtain ⟨⟨parser, callback⟩, later, rfl, rfl, tail⟩ := List.map_eq_cons_iff.mp hf
    obtain ⟨mid, step, reached⟩ := h.value_step base quiet piece
      (snapshots (parser, .headerValue piece) (by simp))
    obtain ⟨last, run, done⟩ := ih reached tail (fun x member => snapshots x (List.mem_cons_of_mem _ member))
    exact ⟨last, .cons step run, by simpa using done⟩

/-- The first piece of the value of an `Expect` header is what `on_header_value` compares. -/
def MeetsExpectations (quiet : Prop) (q : HttpRequest) (h : List Bytes × List Bytes) : Prop :=
  LooksAtExpectation q.parser h.1.flatten → ¬ quiet ∧ ∀ value ∈ h.2.head?, meetsExpectation value = true

theorem Between.header_run (base : Environ) (quiet : Prop) {q : HttpRequest} {d : Environ} {r : Request}
    {h : List Bytes × List Bytes} {fired : List (HttpParser × Callback)} (start : Between d r)
    (full : h.1 ≠ [] ∧ h.2 ≠ []) (meets : MeetsExpectations quiet q h)
    (hf : fired.map Prod.snd = headerCallbacks h) (snapshots : ∀ x ∈ fired, Snapshot q x) : ∃ r',
    Run (CallbackStep base quiet) r fired r' ∧ Between (addHeader d h.1.flatten h.2.flatten) r' := by
  obtain ⟨names, values⟩ := h
  obtain ⟨named, valued, rfl, hn, hv⟩ := List.map_eq_append_iff.mp hf
  obtain ⟨name, names, rfl⟩ := List.exists_cons_of_ne_nil full.1
  obtain ⟨value, values, rfl⟩ := List.exists_cons_of_ne_nil full.2
  obtain ⟨⟨parser, callback⟩, named, rfl, rfl, more_names⟩ := List.map_eq_cons_iff.mp hn
  obtain ⟨⟨parser', callback'⟩, valued, rfl, rfl, more_values⟩ := List.map_eq_cons_iff.mp hv
  obtain ⟨r₁, step₁, in₁⟩ := start.name_step base quiet parser name
  obtain ⟨r₂, run₂, in₂⟩ := in₁.names_run base quiet more_names
  obtain ⟨r₃, step₃, in₃⟩ := in₂.value_step base quiet (q := q) value
    (snapshots (parser', .headerValue value) (by simp)) (fun looks => by
      obtain ⟨loud, all⟩ := meets (by simpa using looks)
      exact ⟨loud, all value rfl⟩)
  obtain ⟨r₄, run₄, in₄⟩ := in₃.values_run base quiet more_values
    (fun x member => snapshots x (by simp [member]))
  refine ⟨r₄, (Run.cons step₁ run₂).append (.cons step₃ run₄), ?_⟩
  simpa using in₄.between

theorem Between.headers_run (base : Environ) (quiet : Prop) {q : HttpRequest} {d : Environ} {r : Request}
    {headers : List (List Bytes × List Bytes)} {fired : List (HttpParser × Callback)} (start : Between d r)
    (full : ∀ h ∈ headers, h.1 ≠ [] ∧ h.2 ≠ []) (meets : ∀ h ∈ headers, MeetsExpectations quiet q h)
    (hf : fired.map Prod.snd = headers.flatMap headerCallbacks) (snapshots : ∀ x ∈ fired, Snapshot q x) : ∃ r',
    Run (CallbackStep base quiet) r fired r' ∧
      Between (addHeaders d (headers.map fun h => (h.1.flatten, h.2.flatten))) r' := by
  induction headers generalizing r d fired with
  | nil =>
    obtain rfl := List.map_eq_nil_iff.mp hf
    exact ⟨r, .nil, start⟩
  | cons h rest ih =>
    obtain ⟨first, later, rfl, hf, tail⟩ := List.map_eq_append_iff.mp hf
    obtain ⟨mid, run, reached⟩ := start.header_run base quiet (full h (by simp)) (meets h (by simp)) hf
      (fun x member => snapshots x (List.mem_append_left _ member))
    obtain ⟨last, run', done⟩ := ih reached (fun h member => full h (List.mem_cons_of_mem _ member))
      (fun h member => meets h (List.mem_cons_of_mem _ member)) tail
      (fun x member => snapshots x (List.mem_append_right _ member))
    exact ⟨last, run.append run', done⟩

theorem onPath_eq (r : Request) (piece : Bytes) : onPath r piece =
    match decodePath piece with
    | some path => ({ r with headers := r.headers.modify (setOrAppendHeader (ascii "PATH_INFO") path) }, true)
    | none => (r, false) := by
  unfold onPath decodePath
  cases unquoteUrlInplace piece piece.length with
  | none => rfl
  | some unquoted =>
    dsimp only
    split <;> rfl

theorem Between.path_step (base : Environ) (quiet : Prop) {d : Environ} {r : Request} {piece path : Bytes}
    (h : Between d r) (decodes : decodePath piece = some path) (parser : HttpParser) : ∃ r',
    CallbackStep base quiet r (parser, .path piece) r' ∧
      Between (setOrAppendHeader (ascii "PATH_INFO") path d) r' := by
  refine ⟨{ r with headers := .environ (setOrAppendHeader (ascii "PATH_INFO") path d) },
    ⟨?_, h.noError, fun _ raised => raised⟩,
    rfl, h.last, h.noError⟩
  simp [runCallback, onPath_eq, decodes, h.headers, Headers.modify]

theorem Between.path_run (base : Environ) (quiet : Prop) {d d' : Environ} {r : Request} {path : List Bytes}
    {fired : List (HttpParser × Callback)} (start : Between d r) (decodes : addPath d path = some d')
    (hf : fired.map Prod.snd = path.map .path) : ∃ r',
    Run (CallbackStep base quiet) r fired r' ∧ Between d' r' := by
  induction path generalizing r d fired with
  | nil =>
    obtain rfl := List.map_eq_nil_iff.mp hf
    cases decodes
    exact ⟨r, .nil, start⟩
  | cons piece rest ih =>
    obtain ⟨⟨parser, callback⟩, later, rfl, rfl, tail⟩ := List.map_eq_cons_iff.mp hf
    unfold addPath at decodes
    split at decodes
    next decoded hd =>
      obtain ⟨mid, step, reached⟩ := start.path_step base quiet hd parser
      obtain ⟨last, run, done⟩ := ih reached decodes tail
      exact ⟨last, .cons step run, done⟩
    next => cases decodes

theorem addQuery_append (d : Environ) {piece : Bytes} (full : piece ≠ []) (rest : Bytes) :
    addQuery (setOrAppendHeader (ascii "QUERY_STRING") piece d) rest = addQuery d (piece ++ rest) := by
  unfold addQuery
  rw [if_neg (show ¬ piece ++ rest = [] by simp [full])]
  split
  next empty => rw [empty, List.append_nil]
  next => simp

theorem Between.query_step (base : Environ) (quiet : Prop) {d : Environ} {r : Request} (h : Between d r)
    (parser : HttpParser) (piece : Bytes) : ∃ r', CallbackStep base quiet r (parser, .queryString piece) r' ∧
      Between (setOrAppendHeader (ascii "QUERY_STRING") piece d) r' := by
  refine ⟨{ r with headers := .environ (setOrAppendHeader (ascii "QUERY_STRING") piece d) },
    ⟨?_, h.noError, fun _ raised => raised⟩, rfl, h.last, h.noError⟩
  simp [runCallback, onQueryString, h.headers, Headers.modify]

theorem Between.query_run (base : Environ) (quiet : Prop) {d : Environ} {r : Request} {query : List Bytes}
    {fired : List (HttpParser × Callback)} (start : Between d r) (full : ∀ piece ∈ query, piece ≠ [])
    (hf : fired.map Prod.snd = query.map .queryString) : ∃ r',
    Run (CallbackStep base quiet) r fired r' ∧ Between (addQuery d query.flatten) r' := by
  induction query generalizing r d fired with
  | nil =>
    obtain rfl := List.map_eq_nil_iff.mp hf
    exact ⟨r, .nil, start⟩
  | cons piece rest ih =>
    obtain ⟨⟨parser, callback⟩, later, rfl, rfl, tail⟩ := List.map_eq_cons_iff.mp hf
    obtain ⟨mid, step, reached⟩ := start.query_step base quiet parser piece
    obtain ⟨last, run, done⟩ := ih reached (fun piece member => full piece (List.mem_cons_of_mem _ member)) tail
    rw [addQuery_append d (full piece (by simp))] at done
    exact ⟨last, .cons step run, done⟩

/-- A piece of the body goes behind the ones that came before. -/
theorem bodyWrite_addBody {d : Environ} (fresh : d (ascii "wsgi.input") = none) {piece : Bytes} (full : piece ≠ [])
    (seen : Bytes) : bodyWrite piece (addBody d seen) = addBody d (seen ++ piece) := by
  unfold addBody
  rw [if_neg (show ¬ seen ++ piece = [] by simp [full])]
  split
  next empty => simp [bodyWrite, fresh, bytesIoWrite, empty, Environ.setItem]
  next =>
    have nothing : seen.drop (seen.length + piece.length) = [] := List.drop_eq_nil_of_le (by omega)
    simp [bodyWrite, bytesIoWrite, Environ.setItem, nothing]

theorem Between.body_step (base : Environ) (quiet : Prop) {d : Environ} {seen piece : Bytes} {r : Request}
    {parser : HttpParser} (h : Between (addBody d seen) r) (fresh : d (ascii "wsgi.input") = none)
    (full : piece ≠ []) (length : parser.contentLength ≠ 0) : ∃ r',
    CallbackStep base quiet r (parser, .body piece) r' ∧ Between (addBody d (seen ++ piece)) r' := by
  refine ⟨{ r with
    headers := .environ (addBody d (seen ++ piece))
    state := { r.state with expectContinue := false } }, ⟨?_, h.noError, fun _ raised => by cases raised⟩, rfl, h.last,
    h.noError⟩
  simp [runCallback, onBody, length, h.headers, Headers.modify, bodyWrite_addBody fresh full]

theorem Between.body_run (base : Environ) (quiet : Prop) {q : HttpRequest} {d : Environ} (seen : Bytes) {r : Request}
    {body : List Bytes} {fired : List (HttpParser × Callback)} (start : Between (addBody d seen) r)
    (fresh : d (ascii "wsgi.input") = none) (full : ∀ piece ∈ body, piece ≠ [])
    (hf : fired.map Prod.snd = body.map .body) (snapshots : ∀ x ∈ fired, Snapshot q x) : ∃ r',
    Run (CallbackStep base quiet) r fired r' ∧ Between (addBody d (seen ++ body.flatten)) r' := by
  induction body generalizing r seen fired with
  | nil =>
    obtain rfl := List.map_eq_nil_iff.mp hf
    exact ⟨r, .nil, by simpa using start⟩
  | cons piece rest ih =>
    obtain ⟨⟨parser, callback⟩, later, rfl, rfl, tail⟩ := List.map_eq_cons_iff.mp hf
    obtain ⟨mid, step, reached⟩ := start.body_step base quiet fresh (full piece (by simp))
      (snapshots (parser, .body piece) (by simp))
    obtain ⟨last, run, done⟩ := ih _ reached
      (fun piece member => full piece (List.mem_cons_of_mem _ member)) tail
      (fun x member => snapshots x (List.mem_cons_of_mem _ member))
    exact ⟨last, .cons step run, by simpa using done⟩

theorem finishEnviron_congr (base : Environ) (clientAddr : Bytes) {parser parser' : HttpParser} (d : Environ)
    (minor : parser.httpMinor = parser'.httpMinor) (method : parser.method = parser'.method) :
    finishEnviron base clientAddr parser d = finishEnviron base clientAddr parser' d := by
  simp only [finishEnviron, minor, method]

theorem Between.complete_step (base : Environ) (quiet : Prop) {q : HttpRequest} {d : Environ} {r : Request}
    {parser : HttpParser} (h : Between d r) (snapshot : Snapshot q (parser, .messageComplete)) :
    CallbackStep base quiet r (parser, .messageComplete)
      { r with
        headers := .environ (finishEnviron base r.clientAddr q.parser d)
        state := { r.state with parseFinished := true } } := by
  refine ⟨?_, h.noError, fun _ raised => raised⟩
  simp [runCallback, onMessageComplete, h.headers, Headers.modify,
    finishEnviron_congr base r.clientAddr d snapshot.1 snapshot.2]

theorem setOrAppendHeader_other {k key : Bytes} (other : key ≠ k) (val : Bytes) (d : Environ) :
    setOrAppendHeader k val d key = d key := by
  have same : ∀ v, d.setItem k v key = d key := fun v => Function.update_of_ne other _ _
  unfold setOrAppendHeader
  cases d k with
  | none => exact same _
  | some value => cases value <;> exact same _

/-- No header has the key of the body. -/
theorem input_ne_nameKey (name : Bytes) : ascii "wsgi.input" ≠ nameKey name := by
  intro h
  have heads := congrArg List.head? h
  have first : (nameKey name).head? = (ascii "HTTP_").head? := rfl
  rw [first] at heads
  exact absurd heads (by decide)

theorem addHeaders_input (d : Environ) (headers : List (Bytes × Bytes)) :
    addHeaders d headers (ascii "wsgi.input") = d (ascii "wsgi.input") := by
  induction headers generalizing d with
  | nil => rfl
  | cons h rest ih =>
    show addHeaders (addHeader d h.1 h.2) rest (ascii "wsgi.input") = _
    rw [ih, addHeader]
    split
    next => rfl
    next => exact setOrAppendHeader_other (input_ne_nameKey h.1) _ _

theorem addQuery_other {k : Bytes} (other : k ≠ ascii "QUERY_STRING") (d : Environ) (query : Bytes) :
    addQuery d query k = d k := by
  unfold addQuery
  split
  next => rfl
  next => exact setOrAppendHeader_other other _ _

theorem addQuery_input (d : Environ) (query : Bytes) :
    addQuery d query (ascii "wsgi.input") = d (ascii "wsgi.input") := addQuery_other (by decide) d query

theorem addPath_other {d d' : Environ} {path : List Bytes} {k : Bytes} (other : k ≠ ascii "PATH_INFO")
    (h : addPath d path = some d') : d' k = d k := by
  induction path generalizing d with
  | nil =>
    cases h
    rfl
  | cons piece rest ih =>
    unfold addPath at h
    split at h
    next => exact (ih h).trans (setOrAppendHeader_other other _ _)
    next => cases h

theorem addPath_input {d d' : Environ} {path : List Bytes} (h : addPath d path = some d') :
    d' (ascii "wsgi.input") = d (ascii "wsgi.input") := addPath_other (by decide) h

/-- The environ of a request that was read completely. -/
structure Complete (base : Environ) (q : HttpRequest) (d : Environ) (clientAddr : Bytes) (r : Request) : Prop where
  headers : r.headers = .environ (q.environ base clientAddr d)
  finished : r.state.parseFinished = true
  noError : r.state.errorCode = none

/-- The body and the end of a request, after its headers. -/
theorem Between.end_run (base : Environ) (quiet : Prop) {q : HttpRequest} (pieces : Pieces q) {d : Environ}
    {r : Request} {fired : List (HttpParser × Callback)}
    (start : Between (addHeaders (addQuery d q.query) q.headers) r) (fresh : d (ascii "wsgi.input") = none)
    (hf : fired.map Prod.snd = pieces.body.map .body ++ [.messageComplete]) (snapshots : ∀ x ∈ fired, Snapshot q x) :
    ∃ r', Run (CallbackStep base quiet) r fired r' ∧ Complete base q d r.clientAddr r' := by
  obtain ⟨carried, rest, rfl, hb, hc⟩ := List.map_eq_append_iff.mp hf
  obtain ⟨⟨parser, callback⟩, rest, rfl, rfl, hn⟩ := List.map_eq_cons_iff.mp hc
  obtain rfl := List.map_eq_nil_iff.mp hn
  have unread : addHeaders (addQuery d q.query) q.headers (ascii "wsgi.input") = none := by
    rw [addHeaders_input, addQuery_input, fresh]
  obtain ⟨mid, run, reached⟩ := Between.body_run base quiet (q := q) [] start unread pieces.body_full hb
    (fun x member => snapshots x (by simp [member]))
  rw [List.nil_append, pieces.body_join] at reached
  have step := reached.complete_step base quiet (q := q)
    (snapshots (parser, .messageComplete) (by simp))
  have frame := runCallbacks_frame base r carried
  rw [runCallbacks_of_run run] at frame
  refine ⟨_, run.append (.single step), ?_, rfl, step.2.1⟩
  rw [← frame.clientAddr]
  rfl

/-- Whatever the pieces, the callbacks after those for the path make the environ of the request. -/
theorem Between.afterPath_run (base : Environ) (quiet : Prop) {q : HttpRequest} {pieces : Pieces q} {d : Environ}
    {r : Request} {fired : List (HttpParser × Callback)} (start : Between d r)
    (fresh : d (ascii "wsgi.input") = none) (meets : ∀ h ∈ pieces.headers, MeetsExpectations quiet q h)
    (hf : fired.map Prod.snd = pieces.afterPath) (snapshots : ∀ x ∈ fired, Snapshot q x) : ∃ r',
    Run (CallbackStep base quiet) r fired r' ∧ Complete base q d r.clientAddr r' := by
  obtain ⟨queried, rest, rfl, hq, hf⟩ := List.map_eq_append_iff.mp hf
  obtain ⟨named, rest, rfl, hh, hf⟩ := List.map_eq_append_iff.mp hf
  obtain ⟨r₁, run₁, in₁⟩ := start.query_run base quiet pieces.query_full hq
  obtain ⟨r₂, run₂, in₂⟩ := in₁.headers_run base quiet (q := q) pieces.headers_full meets hh
    (fun x member => snapshots x (by simp [member]))
  rw [pieces.query_join, pieces.headers_join] at in₂
  obtain ⟨r₃, run₃, complete⟩ := in₂.end_run base quiet pieces fresh hf
    (fun x member => snapshots x (by simp [member]))
  have frame := runCallbacks_frame base r (queried ++ named)
  rw [runCallbacks_of_run (run₁.append run₂)] at frame
  rw [frame.clientAddr] at complete
  exact ⟨r₃, run₁.append (run₂.append run₃), complete⟩

end Bjoern
