import Bjoern.FragmentedRequests

namespace Bjoern

/-- Two requests that agree in all that the callbacks make the dictionary from: the flags are not among it. -/
structure SameReading (r r' : Request) : Prop where
  headers : r.headers = r'.headers
  field : r.parser.field = r'.parser.field
  last : r.parser.lastCallWasHeaderValue = r'.parser.lastCallWasHeaderValue
  invalid : r.parser.invalidHeader = r'.parser.invalidHeader
  clientAddr : r.clientAddr = r'.clientAddr

theorem SameReading.symm {r r' : Request} (h : SameReading r r') : SameReading r' r :=
  ⟨h.headers.symm, h.field.symm, h.last.symm, h.invalid.symm, h.clientAddr.symm⟩

theorem SameReading.trans {r s t : Request} (h : SameReading r s) (h' : SameReading s t) : SameReading r t :=
  ⟨h.headers.trans h'.headers, h.field.trans h'.field, h.last.trans h'.last, h.invalid.trans h'.invalid,
    h.clientAddr.trans h'.clientAddr⟩

/-- The snapshot with a version that knows no expectations. -/
def withoutExpectation : HttpParser × Callback → HttpParser × Callback
  | (parser, .headerValue data) => ({ parser with httpMajor := 0 }, .headerValue data)
  | x => x

theorem onBody_reading (r : Request) (parser : HttpParser) (data : Bytes) :
    (onBody r parser data).2 = !((r.headers.getItem (ascii "wsgi.input")).isNone && parser.contentLength == 0) ∧
      (onBody r parser data).1.parser = r.parser ∧ (onBody r parser data).1.clientAddr = r.clientAddr ∧
      (onBody r parser data).1.headers =
        bif (r.headers.getItem (ascii "wsgi.input")).isNone && parser.contentLength == 0 then r.headers
        else r.headers.modify (bodyWrite data) := by
  unfold onBody
  dsimp only
  split
  next missing =>
    rw [missing]
    exact ⟨rfl, rfl, rfl, rfl⟩
  next present =>
    rw [Bool.eq_false_iff.mpr present]
    exact ⟨rfl, rfl, rfl, rfl⟩

theorem startHeader_reading {r r' : Request} (same : SameReading r r') :
    (startHeader r.parser).field = (startHeader r'.parser).field ∧
      (startHeader r.parser).lastCallWasHeaderValue = (startHeader r'.parser).lastCallWasHeaderValue ∧
      (startHeader r.parser).invalidHeader = (startHeader r'.parser).invalidHeader := by
  unfold startHeader
  rw [same.last]
  split
  next => exact ⟨rfl, rfl, rfl⟩
  next => exact ⟨same.field, same.last, same.invalid⟩

/-- What a callback makes of the dictionary does not depend on the flags, nor on the version that a value finds. -/
theorem SameReading.callback (base : Environ) {r r' : Request} (same : SameReading r r') (x : HttpParser × Callback) :
    (runCallback base r x.1 x.2).2 = (runCallback base r' (withoutExpectation x).1 (withoutExpectation x).2).2 ∧
      SameReading (runCallback base r x.1 x.2).1
        (runCallback base r' (withoutExpectation x).1 (withoutExpectation x).2).1 := by
  obtain ⟨parser, callback⟩ := x
  cases callback with
  | messageBegin => exact ⟨rfl, rfl, same.field, same.last, same.invalid, same.clientAddr⟩
  | path data =>
    simp only [withoutExpectation, runCallback, onPath_eq]
    split
    next => exact ⟨rfl, by rw [same.headers], same.field, same.last, same.invalid, same.clientAddr⟩
    next => exact ⟨rfl, same⟩
  | queryString data =>
    exact ⟨rfl, by simp only [withoutExpectation, runCallback, onQueryString, same.headers], same.field, same.last,
      same.invalid, same.clientAddr⟩
  | headerField data =>
    obtain ⟨field, last, invalid⟩ := startHeader_reading same
    simp only [withoutExpectation, runCallback, onHeaderField, invalid]
    split
    next => exact ⟨rfl, same.headers, field, last, invalid, same.clientAddr⟩
    next =>
      split
      next => exact ⟨rfl, same.headers, field, last, rfl, same.clientAddr⟩
      next => exact ⟨rfl, same.headers, by rw [field], last, rfl, same.clientAddr⟩
  | headerValue data =>
    obtain ⟨ok, left, addr, set, _⟩ := onHeaderValue_spec r parser data
    obtain ⟨ok', left', addr', set', _⟩ := onHeaderValue_spec r' { parser with httpMajor := 0 } data
    refine ⟨ok.trans ok'.symm, ?_, ?_, ?_, ?_, addr.trans (same.clientAddr.trans addr'.symm)⟩
    · refine set.trans (Eq.trans ?_ set'.symm)
      rw [same.invalid, same.field, same.headers]
    · exact (congrArg BjParser.field left).trans (same.field.trans (congrArg BjParser.field left').symm)
    · exact (congrArg BjParser.lastCallWasHeaderValue left).trans (congrArg BjParser.lastCallWasHeaderValue left').symm
    · exact (congrArg BjParser.invalidHeader left).trans
        (same.invalid.trans (congrArg BjParser.invalidHeader left').symm)
  | body data =>
    obtain ⟨ok, left, addr, set⟩ := onBody_reading r parser data
    obtain ⟨ok', left', addr', set'⟩ := onBody_reading r' parser data
    refine ⟨?_, ?_, ?_, ?_, ?_, addr.trans (same.clientAddr.trans addr'.symm)⟩
    · exact ok.trans (by rw [same.headers]; exact ok'.symm)
    · exact set.trans (by rw [same.headers]; exact set'.symm)
    · exact (congrArg BjParser.field left).trans (same.field.trans (congrArg BjParser.field left').symm)
    · exact (congrArg BjParser.lastCallWasHeaderValue left).trans
        (same.last.trans (congrArg BjParser.lastCallWasHeaderValue left').symm)
    · exact (congrArg BjParser.invalidHeader left).trans
        (same.invalid.trans (congrArg BjParser.invalidHeader left').symm)
  | messageComplete =>
    exact ⟨rfl, by simp only [withoutExpectation, runCallback, onMessageComplete, same.headers, same.clientAddr],
      same.field, same.last, same.invalid, same.clientAddr⟩

theorem SameReading.callbacks (base : Environ) {r r' : Request} (same : SameReading r r')
    (fired : List (HttpParser × Callback)) :
    (runCallbacks base r fired).2 = (runCallbacks base r' (fired.map withoutExpectation)).2 ∧
      SameReading (runCallbacks base r fired).1 (runCallbacks base r' (fired.map withoutExpectation)).1 := by
  induction fired generalizing r r' with
  | nil => exact ⟨rfl, same⟩
  | cons x rest ih =>
    obtain ⟨ok, same'⟩ := same.callback base x
    rw [List.map_cons]
    simp only [runCallbacks]
    generalize runCallback base r x.1 x.2 = one at ok same' ⊢
    generalize runCallback base r' (withoutExpectation x).1 (withoutExpectation x).2 = two at ok same' ⊢
    obtain ⟨mid, good⟩ := one
    obtain ⟨mid', good'⟩ := two
    obtain rfl : good = good' := ok
    cases good with
    | true => exact ih same'
    | false => exact ⟨rfl, same'⟩

/-- The same callbacks make the same of two requests that differ in their flags. -/
theorem SameReading.run (base : Environ) {r r' : Request} (same : SameReading r r')
    (fired : List (HttpParser × Callback)) : (runCallbacks base r fired).2 = (runCallbacks base r' fired).2 ∧
      SameReading (runCallbacks base r fired).1 (runCallbacks base r' fired).1 := by
  obtain ⟨ok, left⟩ := same.callbacks base fired
  obtain ⟨ok', left'⟩ := SameReading.callbacks base (r := r') ⟨rfl, rfl, rfl, rfl, rfl⟩ fired
  exact ⟨ok.trans ok'.symm, left.trans left'.symm⟩

/-- The request as a client of an older version would have sent it. -/
def HttpRequest.withoutVersion (q : HttpRequest) : HttpRequest :=
  { q with parser := { q.parser with httpMajor := 0 } }

def Pieces.withoutVersion {q : HttpRequest} (pieces : Pieces q) : Pieces q.withoutVersion where
  path := pieces.path
  query := pieces.query
  headers := pieces.headers
  body := pieces.body
  path_join := pieces.path_join
  query_join := pieces.query_join
  query_full := pieces.query_full
  headers_join := pieces.headers_join
  headers_full := pieces.headers_full
  body_join := pieces.body_join
  body_full := pieces.body_full

theorem Fires.withoutVersion {q : HttpRequest} {pieces : Pieces q} {fired : List (HttpParser × Callback)}
    (fires : Fires q pieces fired) : Fires q.withoutVersion pieces.withoutVersion (fired.map withoutExpectation) := by
  have callback : ∀ x : HttpParser × Callback, (withoutExpectation x).2 = x.2 := by
    rintro ⟨parser, callback⟩
    cases callback <;> rfl
  refine ⟨?_, ?_⟩
  · rw [List.map_map]
    exact (List.map_congr_left fun x _ => callback x).trans fires.1
  · intro x member
    obtain ⟨y, among, rfl⟩ := List.mem_map.mp member
    have snapshot := fires.2 y among
    obtain ⟨parser, callback⟩ := y
    cases callback with
    | headerValue data => exact ⟨rfl, snapshot.2⟩
    | _ => exact snapshot

/-- The callbacks for a request, in whatever pieces and whatever it expects, build its dictionary. -/
theorem runCallbacks_dictionary (base : Environ) {q : HttpRequest} {pieces : Pieces q} {r : Request}
    {fired : List (HttpParser × Callback)} (reset : requestReset r = r) (fires : Fires q pieces fired) :
    (runCallbacks base r fired).1.headers = .environ (q.dictionary base r.clientAddr pieces.path) ∧
      (runCallbacks base r fired).2 = (addPath .empty pieces.path).isSome := by
  have meets : ∀ h ∈ pieces.withoutVersion.headers, MeetsExpectations True q.withoutVersion h := by
    intro h _ looks
    exact absurd looks.2.2.1 (Nat.lt_irrefl 0)
  obtain ⟨headers, completed⟩ := runCallbacks_meets base reset meets fires.withoutVersion
  obtain ⟨ok, same⟩ := SameReading.callbacks base (r := r) ⟨rfl, rfl, rfl, rfl, rfl⟩ fired
  exact ⟨same.headers.trans headers, ok.trans completed⟩

/-- What `_set_or_append_header` makes of an entry. -/
def appendTo : Option EnvVal → Bytes → Option EnvVal
  | some (.str old), val => some (.str (old ++ val))
  | _, val => some (.str val)

theorem setOrAppendHeader_self (k val : Bytes) (d : Environ) : setOrAppendHeader k val d k = appendTo (d k) val := by
  unfold setOrAppendHeader
  cases d k with
  | none => exact Function.update_self ..
  | some value => cases value <;> exact Function.update_self ..

theorem appendTo_values {values : List Bytes} (some' : values ≠ []) :
    values.foldl appendTo none = some (.str values.flatten) := by
  have more : ∀ (rest : List Bytes) (old : Bytes),
      rest.foldl appendTo (some (.str old)) = some (.str (old ++ rest.flatten)) := by
    intro rest
    induction rest with
    | nil => simp
    | cons value rest ih =>
      intro old
      rw [List.foldl_cons, appendTo, ih, List.flatten_cons, List.append_assoc]
  obtain ⟨value, rest, rfl⟩ := List.exists_cons_of_ne_nil some'
  exact more rest value

/-- The values of the headers that are stored under a key. -/
def valuesUnder (k : Bytes) (headers : List (Bytes × Bytes)) : List Bytes :=
  (headers.filter fun h => charByte '_' ∉ h.1 ∧ nameKey h.1 = k).map Prod.snd

theorem addHeaders_apply (d : Environ) (headers : List (Bytes × Bytes)) (k : Bytes) :
    addHeaders d headers k = (valuesUnder k headers).foldl appendTo (d k) := by
  induction headers generalizing d with
  | nil => rfl
  | cons h rest ih =>
    show addHeaders (addHeader d h.1 h.2) rest k = _
    rw [ih, addHeader]
    by_cases dropped : charByte '_' ∈ h.1
    · simp [dropped, valuesUnder]
    · rw [if_neg dropped]
      by_cases here : nameKey h.1 = k
      · subst here
        rw [setOrAppendHeader_self]
        simp [dropped, valuesUnder]
      · simp [here, valuesUnder, setOrAppendHeader_other (Ne.symm here)]

theorem prefix_nameKey (name : Bytes) : ascii "HTTP_" <+: nameKey name := List.prefix_append _ _

/-- Only keys that begin with `HTTP_` are those of headers. -/
theorem valuesUnder_other {k : Bytes} (other : ¬ ascii "HTTP_" <+: k) (headers : List (Bytes × Bytes)) :
    valuesUnder k headers = [] := by
  refine List.map_eq_nil_iff.mpr (List.filter_eq_nil_iff.mpr fun h _ => ?_)
  rw [decide_eq_true_eq]
  rintro ⟨_, rfl⟩
  exact other (prefix_nameKey h.1)

theorem replaceKey_apply (oldKey newKey : Bytes) (d : Environ) (k : Bytes) : replaceKey oldKey newKey d k =
    if k = newKey then (d oldKey).or (d k) else if k = oldKey then none else d k := by
  unfold replaceKey
  cases source : d oldKey with
  | none =>
    split
    next => rfl
    next =>
      split
      next old => exact old ▸ source
      next => rfl
  | some value => simp only [Environ.setItem, Environ.delItem, Function.update_apply, Option.some_or]

theorem replaceKey_agree {oldKey newKey k : Bytes} {d d' : Environ} (source : k = newKey → d oldKey = d' oldKey)
    (same : d k = d' k) : replaceKey oldKey newKey d k = replaceKey oldKey newKey d' k := by
  rw [replaceKey_apply, replaceKey_apply, same]
  split
  next new => rw [source new]
  next => rfl

theorem setItem_agree {k : Bytes} {d d' : Environ} (same : d k = d' k) (key : Bytes) (value : EnvVal) :
    d.setItem key value k = d'.setItem key value k := by
  rw [Environ.setItem, Environ.setItem, Function.update_apply, Function.update_apply, same]

theorem rewindInput_apply (d : Environ) (k : Bytes) : rewindInput d k =
    if k = ascii "wsgi.input" then
      match d k with
      | some (.bytesIo content _) => some (.bytesIo content 0)
      | _ => some (.bytesIo [] 0)
    else d k := by
  by_cases input : k = ascii "wsgi.input"
  · subst input
    unfold rewindInput
    cases d (ascii "wsgi.input") with
    | none => simp [Environ.setItem]
    | some value => cases value <;> simp [Environ.setItem]
  · rw [if_neg input]
    unfold rewindInput
    cases d (ascii "wsgi.input") with
    | none => exact Function.update_of_ne input _ _
    | some value => cases value <;> exact Function.update_of_ne input _ _

theorem rewindInput_agree {k : Bytes} {d d' : Environ} (same : d k = d' k) : rewindInput d k = rewindInput d' k := by
  rw [rewindInput_apply, rewindInput_apply, same]

/-- An entry of the final dictionary depends on the one before and, where `on_message_complete` renames, on the
one that it is made from. -/
theorem finishEnviron_agree (base : Environ) (clientAddr : Bytes) {parser parser' : HttpParser} {d d' : Environ}
    {k : Bytes} (minor : parser.httpMinor = parser'.httpMinor) (method : parser.method = parser'.method)
    (length : k = ascii "CONTENT_LENGTH" → d (ascii "HTTP_CONTENT_LENGTH") = d' (ascii "HTTP_CONTENT_LENGTH"))
    (type : k = ascii "CONTENT_TYPE" → d (ascii "HTTP_CONTENT_TYPE") = d' (ascii "HTTP_CONTENT_TYPE"))
    (same : d k = d' k) :
    finishEnviron base clientAddr parser d k = finishEnviron base clientAddr parser' d' k := by
  have type' : k = ascii "CONTENT_TYPE" →
      replaceKey (ascii "HTTP_CONTENT_LENGTH") (ascii "CONTENT_LENGTH") d (ascii "HTTP_CONTENT_TYPE") =
        replaceKey (ascii "HTTP_CONTENT_LENGTH") (ascii "CONTENT_LENGTH") d' (ascii "HTTP_CONTENT_TYPE") := by
    intro renamed
    rw [replaceKey_other (by decide) (by decide), replaceKey_other (by decide) (by decide)]
    exact type renamed
  have renamed := replaceKey_agree type' (replaceKey_agree length same)
  rw [finishEnviron_congr base clientAddr d minor method]
  exact congrArg (Option.or (base k))
    (rewindInput_agree (setItem_agree (setItem_agree (setItem_agree renamed _ _) _ _) _ _))

/-- Where nothing but the two renamings and the base dictionary have a say. -/
theorem finishEnviron_apply (base : Environ) (clientAddr : Bytes) (parser : HttpParser) (d : Environ) {k : Bytes}
    (own : k ∉ [ascii "SERVER_PROTOCOL", ascii "REQUEST_METHOD", ascii "REMOTE_ADDR", ascii "wsgi.input"]) :
    finishEnviron base clientAddr parser d k =
      (base k).or (replaceKey (ascii "HTTP_CONTENT_TYPE") (ascii "CONTENT_TYPE")
        (replaceKey (ascii "HTTP_CONTENT_LENGTH") (ascii "CONTENT_LENGTH") d) k) := by
  simp only [List.mem_cons, List.not_mem_nil, or_false, not_or] at own
  obtain ⟨protocol, method, addr, input⟩ := own
  refine congrArg (Option.or (base k)) ?_
  rw [rewindInput_apply, if_neg input]
  exact (Function.update_of_ne addr _ _).trans
    ((Function.update_of_ne method _ _).trans (Function.update_of_ne protocol _ _))

/-- No key of a header is in the base dictionary. -/
theorem wsgiBaseDict_nameKey (host port : Option Bytes) {k : Bytes} (key : ascii "HTTP_" <+: k) :
    wsgiBaseDict host port k = none := by
  refine wsgiBaseDict_other host port fun member => ?_
  have free : ∀ k ∈ baseKeys, ¬ ascii "HTTP_" <+: k := by decide
  exact free k member key

end Bjoern
