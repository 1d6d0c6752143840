import Bjoern.EnvironKeys

namespace Bjoern

theorem fieldBytes : charByte 'A' = 65 ∧ charByte 'Z' = 90 ∧ charByte 'a' = 97 ∧ charByte 'z' = 122 ∧
    charByte '-' = 45 ∧ charByte '_' = 95 := by decide

theorem processFieldByte_lower (c : UInt8) : processFieldByte (asciiLower c) = processFieldByte c := by
  unfold processFieldByte asciiLower
  simp only [fieldBytes]
  grind

/-- Without the underscore, the loop of `on_header_field` forgets only the case. -/
theorem asciiLower_of_field {a b : UInt8} (kept : a ≠ charByte '_') (kept' : b ≠ charByte '_')
    (same : processFieldByte a = processFieldByte b) : asciiLower a = asciiLower b := by
  unfold processFieldByte at same
  unfold asciiLower
  simp only [fieldBytes] at *
  grind

theorem map_processFieldByte_iff {n m : Bytes} (kept : charByte '_' ∉ n) (kept' : charByte '_' ∉ m) :
    n.map processFieldByte = m.map processFieldByte ↔ SameName n m := by
  constructor
  · intro same
    induction n generalizing m with
    | nil =>
      obtain rfl := List.map_eq_nil_iff.mp same.symm
      rfl
    | cons a n ih =>
      obtain ⟨b, m', rfl, here, rest⟩ := List.map_eq_cons_iff.mp same.symm
      simp only [List.mem_cons, not_or] at kept kept'
      have first := asciiLower_of_field (Ne.symm kept.1) (Ne.symm kept'.1) here.symm
      have later := ih kept.2 kept'.2 rest.symm
      unfold SameName at later ⊢
      rw [List.map_cons, List.map_cons, first, later]
  · intro same
    have upper : ∀ s : Bytes, s.map processFieldByte = (s.map asciiLower).map processFieldByte := by
      intro s
      rw [List.map_map]
      exact List.map_congr_left fun c _ => (processFieldByte_lower c).symm
    rw [upper n, upper m, show n.map asciiLower = m.map asciiLower from same]

theorem nameKey_eq_iff {n m : Bytes} (kept : charByte '_' ∉ n) (kept' : charByte '_' ∉ m) :
    nameKey n = nameKey m ↔ SameName n m := by
  rw [nameKey, nameKey, List.append_cancel_left_eq]
  exact map_processFieldByte_iff kept kept'

theorem names_ready (base : Environ) {r : Request} {seen : Bytes} {names : List Bytes}
    {fired : List (HttpParser × Callback)} (key : KeyReady r.parser seen)
    (last : r.parser.lastCallWasHeaderValue = false)
    (hf : fired.map Prod.snd = names.map .headerField) :
    ∃ p, runCallbacks base r fired = ({ r with parser := p }, true) ∧ KeyReady p (seen ++ names.flatten) := by
  induction names generalizing r seen fired with
  | nil =>
    obtain rfl := List.map_eq_nil_iff.mp hf
    exact ⟨r.parser, rfl, by simpa using key⟩
  | cons piece rest ih =>
    obtain ⟨⟨parser, callback⟩, later, rfl, rfl, tail⟩ := List.map_eq_cons_iff.mp hf
    have started := startHeader_started last
    obtain ⟨p, step, key', last'⟩ := onHeaderField_ready (r := r) piece (by rw [started]; exact key)
      (by rw [started]; exact last)
    obtain ⟨p', run, key''⟩ := ih (r := { r with parser := p }) key' last' tail
    refine ⟨p', ?_, by simpa using key''⟩
    simp only [runCallbacks, runCallback, step]
    exact run

theorem value_stored (base : Environ) {r : Request} {d : Environ} {name : Bytes} (value : Bytes) (parser : HttpParser)
    (key : KeyReady r.parser name) (headers : r.headers = .environ d) : ∃ r',
    runCallback base r parser (.headerValue value) = (r', true) ∧ KeyReady r'.parser name ∧
      r'.headers = .environ (addHeader d name value) := by
  obtain ⟨ok, left, _, _, _⟩ := onHeaderValue_spec r parser value
  refine ⟨(onHeaderValue r parser value).1, Prod.ext rfl ok, ?_, onHeaderValue_headers headers key⟩
  rw [left]
  exact key

theorem values_stored (base : Environ) {r : Request} {d : Environ} {name seen : Bytes} {values : List Bytes}
    {fired : List (HttpParser × Callback)} (key : KeyReady r.parser name)
    (headers : r.headers = .environ (addHeader d name seen)) (hf : fired.map Prod.snd = values.map .headerValue) :
    (runCallbacks base r fired).1.headers = .environ (addHeader d name (seen ++ values.flatten)) := by
  induction values generalizing r seen fired with
  | nil =>
    obtain rfl := List.map_eq_nil_iff.mp hf
    simpa [runCallbacks] using headers
  | cons value rest ih =>
    obtain ⟨⟨parser, callback⟩, later, rfl, rfl, tail⟩ := List.map_eq_cons_iff.mp hf
    obtain ⟨mid, step, key', headers'⟩ := value_stored base value parser key headers
    rw [addHeader_append] at headers'
    simp only [runCallbacks, step]
    rw [ih key' headers' tail]
    simp

/-- A header goes into the dictionary under its key, whatever its pieces, the flags and the version; with an
underscore in its name it leaves no trace. -/
theorem header_stored (base : Environ) {r : Request} {d : Environ} {h : List Bytes × List Bytes}
    {fired : List (HttpParser × Callback)} (headers : r.headers = .environ d)
    (begins : r.parser.lastCallWasHeaderValue = true) (full : h.1 ≠ [] ∧ h.2 ≠ [])
    (hf : fired.map Prod.snd = headerCallbacks h) :
    (runCallbacks base r fired).1.headers = .environ (addHeader d h.1.flatten h.2.flatten) := by
  obtain ⟨names, values⟩ := h
  obtain ⟨named, valued, rfl, hn, hv⟩ := List.map_eq_append_iff.mp hf
  obtain ⟨name, names, rfl⟩ := List.exists_cons_of_ne_nil full.1
  obtain ⟨value, values, rfl⟩ := List.exists_cons_of_ne_nil full.2
  obtain ⟨⟨parser, callback⟩, named, rfl, rfl, more_names⟩ := List.map_eq_cons_iff.mp hn
  obtain ⟨⟨parser', callback'⟩, valued, rfl, rfl, more_values⟩ := List.map_eq_cons_iff.mp hv
  obtain ⟨fresh, started⟩ := startHeader_fresh begins
  obtain ⟨p₁, first, key₁, last₁⟩ := onHeaderField_ready name fresh started
  obtain ⟨p₂, named_run, key₂⟩ := names_ready base (r := { r with parser := p₁ }) key₁ last₁ more_names
  obtain ⟨r₃, step, key₃, headers₃⟩ := value_stored base (r := { r with parser := p₂ }) value parser' key₂ headers
  have run : runCallbacks base r ((parser, .headerField name) :: named ++ (parser', .headerValue value) :: valued) =
      runCallbacks base r₃ valued := by
    have head : runCallbacks base r ((parser, .headerField name) :: named) = ({ r with parser := p₂ }, true) := by
      simp only [runCallbacks, runCallback, first]
      exact named_run
    rw [runCallbacks_append head]
    simp only [runCallbacks, step]
  rw [run, values_stored base key₃ headers₃ more_values]
  simp

/-- The entries that the server makes and no header does. -/
def ServerKey (k : Bytes) : Prop :=
  k ∈ [ascii "PATH_INFO", ascii "QUERY_STRING", ascii "REQUEST_METHOD", ascii "SERVER_PROTOCOL", ascii "SERVER_NAME",
    ascii "SERVER_PORT", ascii "SCRIPT_NAME", ascii "REMOTE_ADDR"] ∨ ascii "wsgi." <+: k ∧ k ≠ ascii "wsgi.input"

theorem ServerKey.free {k : Bytes} (h : ServerKey k) : ¬ ascii "HTTP_" <+: k ∧ k ≠ ascii "CONTENT_LENGTH" ∧
    k ≠ ascii "CONTENT_TYPE" ∧ k ≠ ascii "wsgi.input" := by
  rcases h with listed | ⟨⟨rest, rfl⟩, other⟩
  · revert k
    decide
  · have first : ∀ s : Bytes, (ascii "wsgi." ++ rest).head? = s.head? → s.head? = some (charByte 'w') :=
      fun s same => same.symm
    refine ⟨?_, fun same => ?_, fun same => ?_, other⟩
    · rintro ⟨more, same⟩
      have clash : some (charByte 'H') = some (charByte 'w') :=
        first (ascii "HTTP_" ++ more) (congrArg List.head? same.symm)
      exact absurd clash (by decide)
    · exact absurd (first _ (congrArg List.head? same)) (by decide)
    · exact absurd (first _ (congrArg List.head? same)) (by decide)

/-- Two requests in pieces that differ at most in their headers and bodies. -/
structure Alike {q q' : HttpRequest} (f : Pieces q) (f' : Pieces q') : Prop where
  path : f.path = f'.path
  query : q.query = q'.query
  minor : q.parser.httpMinor = q'.parser.httpMinor
  method : q.parser.method = q'.parser.method

/-- The dictionary of a request before `on_message_complete`. -/
def HttpRequest.unfinished (q : HttpRequest) (d : Environ) : Environ :=
  addBody (addHeaders (addQuery d q.query) q.headers) q.body

theorem addBody_agree {k : Bytes} {d d' : Environ} (same : d k = d' k) (body : Bytes) :
    addBody d body k = addBody d' body k := by
  unfold addBody
  split
  next => exact same
  next => exact setItem_agree same _ _

theorem HttpRequest.unfinished_other (q : HttpRequest) (d : Environ) {k : Bytes} (other : ¬ ascii "HTTP_" <+: k)
    (input : k ≠ ascii "wsgi.input") : q.unfinished d k = addQuery d q.query k := by
  have headers : addHeaders (addQuery d q.query) q.headers k = addQuery d q.query k := by
    rw [addHeaders_apply, valuesUnder_other other]
    rfl
  unfold HttpRequest.unfinished addBody
  split
  next => exact headers
  next => exact (Function.update_of_ne input _ _).trans headers

theorem valuesUnder_insert {k : Bytes} {h : Bytes × Bytes} (other : charByte '_' ∈ h.1 ∨ nameKey h.1 ≠ k)
    (before after : List (Bytes × Bytes)) : valuesUnder k (before ++ h :: after) = valuesUnder k (before ++ after) := by
  have skipped : ¬ (charByte '_' ∉ h.1 ∧ nameKey h.1 = k) := by tauto
  simp [valuesUnder, List.filter_append, List.filter_cons_of_neg, skipped]

/-- The two keys that `on_message_complete` renames are gone. -/
theorem finishEnviron_renamed (host port : Option Bytes) (clientAddr : Bytes) (parser : HttpParser) (d : Environ) :
    finishEnviron (wsgiBaseDict host port) clientAddr parser d (ascii "HTTP_CONTENT_LENGTH") = none ∧
      finishEnviron (wsgiBaseDict host port) clientAddr parser d (ascii "HTTP_CONTENT_TYPE") = none := by
  constructor
  · rw [finishEnviron_apply _ _ _ _ (by decide), wsgiBaseDict_nameKey host port (by decide),
      replaceKey_other (by decide) (by decide), replaceKey_apply, if_neg (by decide), if_pos rfl]
    rfl
  · rw [finishEnviron_apply _ _ _ _ (by decide), wsgiBaseDict_nameKey host port (by decide), replaceKey_apply,
      if_neg (by decide), if_pos rfl]
    rfl

/-- A header changes the entry of its key, or the one that its key is renamed to. -/
structure Reaches (name k : Bytes) : Prop where
  kept : charByte '_' ∉ name
  key : ascii "HTTP_" <+: k ∧ k = nameKey name ∨
    k = ascii "CONTENT_LENGTH" ∧ SameName name (ascii "Content-Length") ∨
    k = ascii "CONTENT_TYPE" ∧ SameName name (ascii "Content-Type")

/-- Where a header does not reach, the final dictionary is that of the request without it. -/
theorem finishEnviron_insert (base : Environ) (clientAddr : Bytes) {q q' : HttpRequest} (d : Environ)
    {before after : List (Bytes × Bytes)} {h : Bytes × Bytes} (minor : q.parser.httpMinor = q'.parser.httpMinor)
    (method : q.parser.method = q'.parser.method) (query : q.query = q'.query) (body : q.body = q'.body)
    (longer : q.headers = before ++ h :: after) (shorter : q'.headers = before ++ after) {k : Bytes}
    (unreached : ¬ Reaches h.1 k) : q.environ base clientAddr d k = q'.environ base clientAddr d k := by
  have agree : ∀ k', (charByte '_' ∉ h.1 → nameKey h.1 ≠ k') → q.unfinished d k' = q'.unfinished d k' := by
    intro k' other
    have without : charByte '_' ∈ h.1 ∨ nameKey h.1 ≠ k' := by tauto
    rw [HttpRequest.unfinished, HttpRequest.unfinished, body]
    apply addBody_agree
    rw [addHeaders_apply, addHeaders_apply, query, longer, shorter, valuesUnder_insert without]
  refine finishEnviron_agree base clientAddr minor method ?_ ?_ (agree k ?_)
  · rintro rfl
    refine agree _ fun kept same => unreached ⟨kept, Or.inr (Or.inl ⟨rfl, ?_⟩)⟩
    exact (nameKey_eq_iff kept (by decide)).mp (same.trans (by decide))
  · rintro rfl
    refine agree _ fun kept same => unreached ⟨kept, Or.inr (Or.inr ⟨rfl, ?_⟩)⟩
    exact (nameKey_eq_iff kept (by decide)).mp (same.trans (by decide))
  · rintro kept rfl
    exact unreached ⟨kept, Or.inl ⟨prefix_nameKey h.1, rfl⟩⟩

theorem finishEnviron_server (base : Environ) (clientAddr : Bytes) {q q' : HttpRequest} (d : Environ)
    (minor : q.parser.httpMinor = q'.parser.httpMinor) (method : q.parser.method = q'.parser.method)
    (query : q.query = q'.query) {k : Bytes} (server : ServerKey k) :
    q.environ base clientAddr d k = q'.environ base clientAddr d k := by
  obtain ⟨other, length, type, input⟩ := server.free
  refine finishEnviron_agree base clientAddr minor method (fun same => absurd same length)
    (fun same => absurd same type) ?_
  have unread := q.unfinished_other d other input
  rw [query, ← q'.unfinished_other d other input] at unread
  exact unread

/-- Two names without an underscore share a key only if they are the same name, a header changes nothing but the
entry of its key, a name with an underscore nothing at all, and the entries of the server are the same whatever the
headers are. -/
theorem headers_cannot_spoof (host port : Option Bytes) {q q' : HttpRequest} {f : Pieces q} {f' : Pieces q'}
    {r : Request} {fired fired' : List (HttpParser × Callback)} (reset : requestReset r = r) (alike : Alike f f')
    (hf : Fires q f fired) (hf' : Fires q' f' fired')
    (completed : (runCallbacks (wsgiBaseDict host port) r fired).2 = true) :
    (∀ n m : Bytes, charByte '_' ∉ n → charByte '_' ∉ m → (nameKey n = nameKey m ↔ SameName n m)) ∧
    (∀ (s : Request) (d : Environ) (h : List Bytes × List Bytes) (header : List (HttpParser × Callback)),
      s.headers = .environ d → s.parser.lastCallWasHeaderValue = true → h.1 ≠ [] ∧ h.2 ≠ [] →
      header.map Prod.snd = headerCallbacks h →
      (runCallbacks (wsgiBaseDict host port) s header).1.headers =
        .environ (if charByte '_' ∈ h.1.flatten then d
          else setOrAppendHeader (nameKey h.1.flatten) h.2.flatten d)) ∧
    (∀ (before after : List (Bytes × Bytes)) (h : Bytes × Bytes), q.headers = before ++ h :: after →
      q'.headers = before ++ after → q.body = q'.body → ∀ k,
      (runCallbacks (wsgiBaseDict host port) r fired).1.headers.getItem k ≠
        (runCallbacks (wsgiBaseDict host port) r fired').1.headers.getItem k → Reaches h.1 k) ∧
    (runCallbacks (wsgiBaseDict host port) r fired).1.headers.getItem (ascii "HTTP_CONTENT_LENGTH") = none ∧
    (runCallbacks (wsgiBaseDict host port) r fired).1.headers.getItem (ascii "HTTP_CONTENT_TYPE") = none ∧
    ∀ k, ServerKey k → (runCallbacks (wsgiBaseDict host port) r fired).1.headers.getItem k =
      (runCallbacks (wsgiBaseDict host port) r fired').1.headers.getItem k := by
  obtain ⟨first, ok⟩ := runCallbacks_dictionary (wsgiBaseDict host port) reset hf
  obtain ⟨second, _⟩ := runCallbacks_dictionary (wsgiBaseDict host port) reset hf'
  obtain ⟨d, decodes⟩ := Option.isSome_iff_exists.mp (ok.symm.trans completed)
  have one : q.dictionary (wsgiBaseDict host port) r.clientAddr f.path =
      q.environ (wsgiBaseDict host port) r.clientAddr d := by rw [HttpRequest.dictionary, decodes]
  have two : q'.dictionary (wsgiBaseDict host port) r.clientAddr f'.path =
      q'.environ (wsgiBaseDict host port) r.clientAddr d := by rw [HttpRequest.dictionary, ← alike.path, decodes]
  rw [one] at first
  rw [two] at second
  rw [first, second]
  obtain ⟨length, type⟩ := finishEnviron_renamed host port r.clientAddr q.parser (q.unfinished d)
  refine ⟨fun n m => nameKey_eq_iff, ?_, ?_, length, type, fun k server => ?_⟩
  · intro s d' h header headers begins full hh
    exact header_stored _ headers begins full hh
  · intro before after h longer shorter body k differ
    by_contra unreached
    exact differ (finishEnviron_insert _ _ d alike.minor alike.method alike.query body longer shorter unreached)
  · exact finishEnviron_server _ _ d alike.minor alike.method alike.query server

def bareRequest : HttpRequest := { postRequest with headers := [] }

def barePieces : Pieces bareRequest :=
  { wholePieces with headers := [], headers_join := rfl, headers_full := by decide }

theorem headers_cannot_spoof_post :
    (runCallbacks (wsgiBaseDict none none) freshRequest wholePieces.fired).1.headers.getItem
      (ascii "HTTP_CONTENT_LENGTH") = none ∧
    ∀ k, ServerKey k → (runCallbacks (wsgiBaseDict none none) freshRequest wholePieces.fired).1.headers.getItem k =
      (runCallbacks (wsgiBaseDict none none) freshRequest barePieces.fired).1.headers.getItem k := by
  have alike : Alike wholePieces barePieces := ⟨rfl, rfl, rfl, rfl⟩
  obtain ⟨_, _, _, length, _, server⟩ := headers_cannot_spoof none none
    (show requestReset freshRequest = freshRequest from rfl) alike
    (wholePieces.fires (Or.inl (by decide))) (barePieces.fires (Or.inl (by decide))) (by decide)
  exact ⟨length, server⟩

end Bjoern
