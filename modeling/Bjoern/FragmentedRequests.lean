import Bjoern.RequestPieces

namespace Bjoern

open Runs

/-- What `on_path` has made of the pieces before one that it cannot decode. -/
def stoppedPath : Environ → List Bytes → Environ
  | d, [] => d
  | d, piece :: rest =>
    match decodePath piece with
    | some path => stoppedPath (setOrAppendHeader (ascii "PATH_INFO") path d) rest
    | none => d

theorem Between.path_stops (base : Environ) {d : Environ} {r : Request} {path : List Bytes}
    {fired : List (HttpParser × Callback)} (start : Between d r) (fails : addPath d path = none)
    (hf : fired.map Prod.snd = path.map .path) (rest : List (HttpParser × Callback)) : ∃ r',
    runCallbacks base r (fired ++ rest) = (r', false) ∧ r'.headers = .environ (stoppedPath d path) := by
  induction path generalizing r d fired with
  | nil => cases fails
  | cons piece more ih =>
    obtain ⟨⟨parser, callback⟩, later, rfl, rfl, tail⟩ := List.map_eq_cons_iff.mp hf
    unfold addPath at fails
    split at fails
    next decoded hd =>
      obtain ⟨mid, step, reached⟩ := start.path_step base True hd parser
      obtain ⟨last, stops, headers⟩ := ih reached fails tail
      refine ⟨last, ?_, by rw [headers, stoppedPath, hd]⟩
      simp only [List.cons_append, runCallbacks, step.1]
      exact stops
    next hd =>
      refine ⟨r, ?_, by rw [start.headers, stoppedPath, hd]⟩
      simp [runCallbacks, runCallback, onPath_eq, hd]

/-- A request as `Request_reset` leaves it is ready for the first callback. -/
theorem begin_step (base : Environ) (quiet : Prop) {r : Request} (reset : requestReset r = r) (parser : HttpParser) :
    ∃ r', CallbackStep base quiet r (parser, .messageBegin) r' ∧ Between .empty r' ∧
      r'.clientAddr = r.clientAddr := by
  rw [← reset]
  exact ⟨_, ⟨rfl, rfl, fun _ raised => raised⟩, ⟨rfl, rfl, rfl⟩, rfl⟩

/-- No header of the request is called `Expect`. -/
def HttpRequest.NoExpect (q : HttpRequest) : Prop := ∀ h ∈ q.headers, nameKey h.1 ≠ ascii "HTTP_EXPECT"

theorem HttpRequest.NoExpect.meets {q : HttpRequest} (none : q.NoExpect) (quiet : Prop) (pieces : Pieces q) :
    ∀ h ∈ pieces.headers, MeetsExpectations quiet q h := by
  intro h member looks
  have part : (h.1.flatten, h.2.flatten) ∈ q.headers := by
    rw [← pieces.headers_join]
    exact List.mem_map_of_mem member
  exact absurd looks.2.1 (none _ part)

/-- The dictionary that the callbacks leave for a request whose path comes in the pieces `path`. -/
def HttpRequest.dictionary (q : HttpRequest) (base : Environ) (clientAddr : Bytes) (path : List Bytes) : Environ :=
  match addPath .empty path with
  | some d => q.environ base clientAddr d
  | none => stoppedPath .empty path

/-- The callbacks of a whole request of which the path decodes, from a request that was reset. -/
theorem Fires.meets_run (base : Environ) {q : HttpRequest} {pieces : Pieces q} {d : Environ} {r : Request}
    {fired : List (HttpParser × Callback)} (fires : Fires q pieces fired) (reset : requestReset r = r)
    (decodes : addPath .empty pieces.path = some d) (meets : ∀ h ∈ pieces.headers, MeetsExpectations True q h) :
    ∃ r', Run (CallbackStep base True) r fired r' ∧ Complete base q d r.clientAddr r' := by
  obtain ⟨hf, snapshots⟩ := fires
  obtain ⟨⟨parser, callback⟩, rest, rfl, rfl, after⟩ := List.map_eq_cons_iff.mp hf
  obtain ⟨walked, rest, rfl, hp, after⟩ := List.map_eq_append_iff.mp after
  obtain ⟨r₁, step, in₁, sameAddr⟩ := begin_step base True reset parser
  obtain ⟨r₂, run₂, in₂⟩ := in₁.path_run base True decodes hp
  have fresh : d (ascii "wsgi.input") = none := (addPath_input decodes).trans rfl
  obtain ⟨r₃, run₃, complete⟩ := in₂.afterPath_run base True fresh meets after
    (fun x member => snapshots x (by simp [member]))
  have frame := runCallbacks_frame base r₁ walked
  rw [runCallbacks_of_run run₂] at frame
  refine ⟨r₃, .cons step (run₂.append run₃), ?_⟩
  rw [frame.clientAddr, sameAddr] at complete
  exact complete

/-- The callbacks for a request, in whatever pieces, from a request that was reset. -/
theorem runCallbacks_meets (base : Environ) {q : HttpRequest} {pieces : Pieces q} {r : Request}
    {fired : List (HttpParser × Callback)} (reset : requestReset r = r)
    (meets : ∀ h ∈ pieces.headers, MeetsExpectations True q h) (fires : Fires q pieces fired) :
    (runCallbacks base r fired).1.headers = .environ (q.dictionary base r.clientAddr pieces.path) ∧
      (runCallbacks base r fired).2 = (addPath .empty pieces.path).isSome := by
  cases decodes : addPath .empty pieces.path with
  | some d =>
    obtain ⟨r', run, complete⟩ := fires.meets_run base reset decodes meets
    rw [runCallbacks_of_run run]
    refine ⟨?_, rfl⟩
    rw [complete.headers, HttpRequest.dictionary, decodes]
  | none =>
    obtain ⟨⟨parser, callback⟩, rest, rfl, rfl, after⟩ := List.map_eq_cons_iff.mp fires.1
    obtain ⟨walked, rest, rfl, hp, _⟩ := List.map_eq_append_iff.mp after
    obtain ⟨r₁, step, in₁, _⟩ := begin_step base True reset parser
    obtain ⟨r₂, stops, headers⟩ := in₁.path_stops base decodes hp rest
    have result : runCallbacks base r ((parser, .messageBegin) :: (walked ++ rest)) = (r₂, false) := by
      simp only [runCallbacks, step.1]
      exact stops
    rw [result]
    refine ⟨?_, rfl⟩
    rw [headers, HttpRequest.dictionary, decodes]

theorem replaceKey_other {oldKey newKey key : Bytes} (old : key ≠ oldKey) (new : key ≠ newKey) (d : Environ) :
    replaceKey oldKey newKey d key = d key := by
  unfold replaceKey
  cases d oldKey with
  | none => rfl
  | some value => exact (Function.update_of_ne new _ _).trans (Function.update_of_ne old _ _)

theorem finishEnviron_input {base : Environ} (free : base (ascii "wsgi.input") = none) (clientAddr : Bytes)
    (parser : HttpParser) (d : Environ) : finishEnviron base clientAddr parser d (ascii "wsgi.input") =
      rewindInput d (ascii "wsgi.input") := by
  have others : ∀ d', d' (ascii "wsgi.input") = d (ascii "wsgi.input") →
      (rewindInput d').merge base (ascii "wsgi.input") = rewindInput d (ascii "wsgi.input") := by
    intro d' same
    simp only [Environ.merge, free, Option.none_or, rewindInput, same]
    cases d (ascii "wsgi.input") with
    | none => simp [Environ.setItem]
    | some value => cases value <;> simp [Environ.setItem]
  refine others _ ?_
  simp only [Environ.setItem]
  rw [Function.update_of_ne (by decide), Function.update_of_ne (by decide), Function.update_of_ne (by decide),
    replaceKey_other (by decide) (by decide), replaceKey_other (by decide) (by decide)]

/-- The input of an application is the whole body, at its start. -/
theorem HttpRequest.environ_input {base : Environ} (free : base (ascii "wsgi.input") = none) (q : HttpRequest)
    (clientAddr : Bytes) {d : Environ} (fresh : d (ascii "wsgi.input") = none) :
    q.environ base clientAddr d (ascii "wsgi.input") = some (.bytesIo q.body 0) := by
  have unread : addHeaders (addQuery d q.query) q.headers (ascii "wsgi.input") = none := by
    rw [addHeaders_input, addQuery_input, fresh]
  rw [HttpRequest.environ, finishEnviron_input free]
  unfold addBody
  split
  next empty => simp [rewindInput, unread, empty, Environ.setItem]
  next => simp [rewindInput, Environ.setItem]

/-- The request without the headers whose names have an underscore. -/
def HttpRequest.withoutUnderscores (q : HttpRequest) : HttpRequest :=
  { q with headers := q.headers.filter fun h => charByte '_' ∉ h.1 }

theorem addHeaders_withoutUnderscores (d : Environ) (headers : List (Bytes × Bytes)) :
    addHeaders d (headers.filter fun h => charByte '_' ∉ h.1) = addHeaders d headers := by
  induction headers generalizing d with
  | nil => rfl
  | cons h rest ih =>
    by_cases dropped : charByte '_' ∈ h.1
    · rw [List.filter_cons_of_neg (by simpa using dropped), ih]
      show _ = addHeaders (addHeader d h.1 h.2) rest
      rw [addHeader, if_pos dropped]
    · rw [List.filter_cons_of_pos (by simpa using dropped)]
      exact ih (addHeader d h.1 h.2)

theorem HttpRequest.NoExpect.filtered {q : HttpRequest} (none : q.NoExpect) : q.withoutUnderscores.NoExpect :=
  fun h member => none h (List.mem_of_mem_filter member)

theorem HttpRequest.dictionary_withoutUnderscores (q : HttpRequest) (base : Environ) (clientAddr : Bytes)
    (path : List Bytes) :
    q.withoutUnderscores.dictionary base clientAddr path = q.dictionary base clientAddr path := by
  simp only [HttpRequest.dictionary, HttpRequest.environ, HttpRequest.withoutUnderscores,
    addHeaders_withoutUnderscores]

/-- However the names, values, query string and body of a request come in pieces, the callbacks build the
same dictionary. Its `wsgi.input` gives the whole body, and it is that of the request without the headers
that have an underscore in their names. -/
theorem environ_of_pieces (base : Environ) {q : HttpRequest} {f g : Pieces q} {r : Request}
    {fired fired' : List (HttpParser × Callback)} (reset : requestReset r = r) (noExpect : q.NoExpect)
    (samePath : f.path = g.path) (hf : Fires q f fired) (hg : Fires q g fired') :
    (runCallbacks base r fired).1.headers = (runCallbacks base r fired').1.headers ∧
    (runCallbacks base r fired).2 = (runCallbacks base r fired').2 ∧
    (base (ascii "wsgi.input") = none → (runCallbacks base r fired).2 = true →
      (runCallbacks base r fired).1.headers.getItem (ascii "wsgi.input") = some (.bytesIo q.body 0)) ∧
    ∀ (k : Pieces q.withoutUnderscores) (others : List (HttpParser × Callback)), k.path = f.path →
      Fires q.withoutUnderscores k others →
      (runCallbacks base r others).1.headers = (runCallbacks base r fired).1.headers := by
  obtain ⟨first, ok⟩ := runCallbacks_meets base reset (noExpect.meets True f) hf
  obtain ⟨second, ok'⟩ := runCallbacks_meets base reset (noExpect.meets True g) hg
  rw [← samePath] at second ok'
  refine ⟨first.trans second.symm, ok.trans ok'.symm, ?_, ?_⟩
  · intro free completed
    obtain ⟨d, decodes⟩ := Option.isSome_iff_exists.mp (ok.symm.trans completed)
    have fresh : d (ascii "wsgi.input") = none := (addPath_input decodes).trans rfl
    rw [first, HttpRequest.dictionary, decodes]
    exact q.environ_input free r.clientAddr fresh
  · intro k others path hk
    obtain ⟨third, _⟩ := runCallbacks_meets base reset (noExpect.filtered.meets True k) hk
    rw [third, first, path, q.dictionary_withoutUnderscores]

def baseKeys : List Bytes := [ascii "wsgi.file_wrapper", ascii "SCRIPT_NAME", ascii "wsgi.version",
  ascii "wsgi.input_terminated", ascii "wsgi.url_scheme", ascii "wsgi.errors", ascii "wsgi.multithread",
  ascii "wsgi.multiprocess", ascii "wsgi.run_once", ascii "SERVER_NAME", ascii "SERVER_PORT"]

theorem wsgiBaseDict_other (host port : Option Bytes) {k : Bytes} (other : k ∉ baseKeys) :
    wsgiBaseDict host port k = none := by
  simp only [baseKeys, List.mem_cons, List.not_mem_nil, or_false, not_or] at other
  simp only [wsgiBaseDict, Environ.setItem, Function.update_apply, other, if_false]
  rfl

theorem wsgiBaseDict_input (host port : Option Bytes) : wsgiBaseDict host port (ascii "wsgi.input") = none :=
  wsgiBaseDict_other host port (by decide)

def http11Post : HttpParser := ⟨1, 1, .other (ascii "POST"), 2, true⟩

/-- `POST /?x=1` with a header, one that is dropped, and a body of two bytes. -/
def postRequest : HttpRequest :=
  ⟨http11Post, ascii "/", ascii "x=1", [(ascii "X-A", ascii "v"), (ascii "a_b", [])], ascii "hi"⟩

def wholePieces : Pieces postRequest where
  path := [ascii "/"]
  query := [ascii "x=1"]
  headers := [([ascii "X-A"], [ascii "v"]), ([ascii "a_b"], [[]])]
  body := [ascii "hi"]
  path_join := rfl
  query_join := rfl
  query_full := by decide
  headers_join := rfl
  headers_full := by decide
  body_join := rfl
  body_full := by decide

def smallPieces : Pieces postRequest where
  path := [ascii "/"]
  query := [ascii "x", ascii "=1"]
  headers := [([ascii "X-", ascii "A"], [[], ascii "v"]), ([ascii "a", ascii "_b"], [[]])]
  body := [ascii "h", ascii "i"]
  path_join := rfl
  query_join := rfl
  query_full := by decide
  headers_join := rfl
  headers_full := by decide
  body_join := rfl
  body_full := by decide

def Pieces.fired {q : HttpRequest} (pieces : Pieces q) : List (HttpParser × Callback) :=
  pieces.callbacks.map fun callback => (q.parser, callback)

theorem Pieces.fires {q : HttpRequest} (pieces : Pieces q) (length : q.parser.contentLength ≠ 0 ∨ pieces.body = []) :
    Fires q pieces pieces.fired := by
  refine ⟨by simp [Pieces.fired, Function.comp_def], ?_⟩
  intro x member
  obtain ⟨callback, among, rfl⟩ := List.mem_map.mp member
  cases callback with
  | body data =>
    rcases length with some | none
    · exact some
    · simp [Pieces.callbacks, Pieces.afterPath, headerCallbacks, none] at among
  | _ => simp [Snapshot]

theorem environ_of_pieces_post :
    (runCallbacks (wsgiBaseDict none none) freshRequest wholePieces.fired).1.headers =
      (runCallbacks (wsgiBaseDict none none) freshRequest smallPieces.fired).1.headers ∧
    (runCallbacks (wsgiBaseDict none none) freshRequest wholePieces.fired).1.headers.getItem (ascii "wsgi.input") =
      some (.bytesIo (ascii "hi") 0) := by
  have noExpect : postRequest.NoExpect := by
    unfold HttpRequest.NoExpect
    decide
  have spec := environ_of_pieces (wsgiBaseDict none none) (r := freshRequest) rfl noExpect
    (show wholePieces.path = smallPieces.path from rfl) (wholePieces.fires (Or.inl (by decide)))
    (smallPieces.fires (Or.inl (by decide)))
  exact ⟨spec.1, spec.2.2.1 (wsgiBaseDict_input none none) (by decide)⟩

end Bjoern
