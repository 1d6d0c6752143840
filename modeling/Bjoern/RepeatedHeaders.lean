import Bjoern.HeaderIsolation

namespace Bjoern

/-- The values of the headers of a name, in order. -/
def valuesNamed (name : Bytes) (headers : List (Bytes × Bytes)) : List Bytes :=
  (headers.filter fun h => SameName h.1 name).map Prod.snd

/-- The key of a header in the final dictionary. -/
def environKey (name : Bytes) : Bytes :=
  if SameName name (ascii "Content-Length") then ascii "CONTENT_LENGTH"
  else if SameName name (ascii "Content-Type") then ascii "CONTENT_TYPE"
  else nameKey name

theorem asciiLower_underscore (c : UInt8) : asciiLower c = charByte '_' ↔ c = charByte '_' := by
  unfold asciiLower
  simp only [fieldBytes]
  grind

theorem SameName.underscore {n m : Bytes} (same : SameName n m) : charByte '_' ∈ n ↔ charByte '_' ∈ m := by
  have lower : ∀ s : Bytes, charByte '_' ∈ s ↔ charByte '_' ∈ s.map asciiLower := by
    intro s
    rw [List.mem_map]
    constructor
    · intro member
      exact ⟨_, member, (asciiLower_underscore _).mpr rfl⟩
    · rintro ⟨c, member, eq⟩
      exact (asciiLower_underscore c).mp eq ▸ member
  rw [lower n, lower m, show n.map asciiLower = m.map asciiLower from same]

theorem valuesUnder_nameKey {name : Bytes} (kept : charByte '_' ∉ name) (headers : List (Bytes × Bytes)) :
    valuesUnder (nameKey name) headers = valuesNamed name headers := by
  unfold valuesUnder valuesNamed
  congr 1
  refine List.filter_congr fun h _ => ?_
  rw [decide_eq_decide]
  constructor
  · rintro ⟨other, same⟩
    exact (nameKey_eq_iff other kept).mp same
  · intro same
    have other : charByte '_' ∉ h.1 := fun member => kept (same.underscore.mp member)
    exact ⟨other, (nameKey_eq_iff other kept).mpr same⟩

theorem nameKey_ne_listed (keys : List Bytes) (other : ∀ k ∈ keys, ¬ ascii "HTTP_" <+: k) (name : Bytes) :
    nameKey name ∉ keys :=
  fun member => other _ member (prefix_nameKey name)

/-- The final entry of a header is the one that its callbacks made. -/
theorem finishEnviron_environKey (host port : Option Bytes) (clientAddr : Bytes) (parser : HttpParser) {d : Environ}
    {name : Bytes} (kept : charByte '_' ∉ name) {value : EnvVal} (made : d (nameKey name) = some value) :
    finishEnviron (wsgiBaseDict host port) clientAddr parser d (environKey name) = some value := by
  unfold environKey
  split
  next length =>
    have key : nameKey name = ascii "HTTP_CONTENT_LENGTH" := (nameKey_eq_iff kept (by decide)).mpr length
    rw [finishEnviron_apply _ _ _ _ (by decide), wsgiBaseDict_other host port (by decide),
      replaceKey_other (by decide) (by decide), replaceKey_apply, if_pos rfl, ← key, made]
    rfl
  next notLength =>
    split
    next type =>
      have key : nameKey name = ascii "HTTP_CONTENT_TYPE" := (nameKey_eq_iff kept (by decide)).mpr type
      rw [finishEnviron_apply _ _ _ _ (by decide), wsgiBaseDict_other host port (by decide), replaceKey_apply,
        if_pos rfl, replaceKey_other (by decide) (by decide), ← key, made]
      rfl
    next notType =>
      have length : nameKey name ≠ ascii "HTTP_CONTENT_LENGTH" :=
        fun same => notLength ((nameKey_eq_iff kept (by decide)).mp (same.trans (by decide)))
      have type : nameKey name ≠ ascii "HTTP_CONTENT_TYPE" :=
        fun same => notType ((nameKey_eq_iff kept (by decide)).mp (same.trans (by decide)))
      have free := nameKey_ne_listed [ascii "CONTENT_LENGTH", ascii "CONTENT_TYPE"] (by decide) name
      simp only [List.mem_cons, List.not_mem_nil, or_false, not_or] at free
      rw [finishEnviron_apply _ _ _ _ (nameKey_ne_listed _ (by decide) name),
        wsgiBaseDict_nameKey host port (prefix_nameKey name), replaceKey_other type free.2,
        replaceKey_other length free.1, made]
      rfl

/-- The final entry of a header that occurs is all its values in a row. -/
theorem HttpRequest.environ_values (host port : Option Bytes) (q : HttpRequest) (clientAddr : Bytes) {d : Environ}
    {path : List Bytes} (decodes : addPath .empty path = some d) {name : Bytes} (kept : charByte '_' ∉ name)
    (occurs : valuesNamed name q.headers ≠ []) :
    q.environ (wsgiBaseDict host port) clientAddr d (environKey name) =
      some (.str (valuesNamed name q.headers).flatten) := by
  refine finishEnviron_environKey host port clientAddr q.parser kept ?_
  have free := nameKey_ne_listed [ascii "PATH_INFO", ascii "QUERY_STRING", ascii "wsgi.input"] (by decide) name
  simp only [List.mem_cons, List.not_mem_nil, or_false, not_or] at free
  have headers : addHeaders (addQuery d q.query) q.headers (nameKey name) =
      some (.str (valuesNamed name q.headers).flatten) := by
    rw [addHeaders_apply, valuesUnder_nameKey kept, addQuery_other free.2.1, addPath_other free.1 decodes]
    exact appendTo_values occurs
  unfold addBody
  split
  next => exact headers
  next => exact (Function.update_of_ne free.2.2 _ _).trans headers

theorem runCallbacks_values (host port : Option Bytes) {q : HttpRequest} {f : Pieces q} {r : Request}
    {fired : List (HttpParser × Callback)} (reset : requestReset r = r) (hf : Fires q f fired)
    (completed : (runCallbacks (wsgiBaseDict host port) r fired).2 = true) {name : Bytes}
    (kept : charByte '_' ∉ name) (occurs : valuesNamed name q.headers ≠ []) :
    (runCallbacks (wsgiBaseDict host port) r fired).1.headers.getItem (environKey name) =
      some (.str (valuesNamed name q.headers).flatten) := by
  obtain ⟨first, ok⟩ := runCallbacks_dictionary (wsgiBaseDict host port) reset hf
  obtain ⟨d, decodes⟩ := Option.isSome_iff_exists.mp (ok.symm.trans completed)
  rw [first, HttpRequest.dictionary, decodes]
  exact q.environ_values host port r.clientAddr decodes kept occurs

/-- The lists are different ways to cut the same bytes. -/
def Recut (values values' : List Bytes) : Prop := values ≠ values' ∧ values.flatten = values'.flatten

/-- Two heads with different values for a header get different entries unless the values are the same bytes, cut in
another way: nothing marks where the value of one header ends and that of the next begins. -/
theorem repeated_headers (host port : Option Bytes) {q q' : HttpRequest} {f : Pieces q} {f' : Pieces q'}
    {r r' : Request} {fired fired' : List (HttpParser × Callback)} (reset : requestReset r = r)
    (reset' : requestReset r' = r') (hf : Fires q f fired) (hf' : Fires q' f' fired')
    (completed : (runCallbacks (wsgiBaseDict host port) r fired).2 = true)
    (completed' : (runCallbacks (wsgiBaseDict host port) r' fired').2 = true) {name : Bytes}
    (kept : charByte '_' ∉ name) (occurs : valuesNamed name q.headers ≠ [])
    (occurs' : valuesNamed name q'.headers ≠ []) :
    (valuesNamed name q.headers ≠ valuesNamed name q'.headers →
      (runCallbacks (wsgiBaseDict host port) r fired).1.headers.getItem (environKey name) ≠
        (runCallbacks (wsgiBaseDict host port) r' fired').1.headers.getItem (environKey name)) ↔
    ¬ Recut (valuesNamed name q.headers) (valuesNamed name q'.headers) := by
  rw [runCallbacks_values host port reset hf completed kept occurs,
    runCallbacks_values host port reset' hf' completed' kept occurs', Recut, not_and]
  refine imp_congr_right fun _ => not_congr ?_
  rw [Option.some.injEq, EnvVal.str.injEq]

/-- `GET /` with the headers of a list, each handed over whole. -/
def getWith (headers : List (Bytes × Bytes)) : HttpRequest := ⟨⟨1, 1, .get, 0, true⟩, ascii "/", [], headers, []⟩

def getPieces (headers : List (Bytes × Bytes)) : Pieces (getWith headers) := (getWith headers).whole

theorem freshRequest_reset : requestReset freshRequest = freshRequest := rfl

theorem getPieces_fires (headers : List (Bytes × Bytes)) :
    Fires (getWith headers) (getPieces headers) (getPieces headers).fired :=
  (getPieces headers).fires (Or.inr rfl)

/-- `X: a` and `X: b` give another entry than `X: a` and `X: c`. -/
theorem repeated_headers_twice :
    (runCallbacks (wsgiBaseDict none none) freshRequest
        (getPieces [(ascii "X", ascii "a"), (ascii "X", ascii "b")]).fired).1.headers.getItem (ascii "HTTP_X") ≠
      (runCallbacks (wsgiBaseDict none none) freshRequest
        (getPieces [(ascii "X", ascii "a"), (ascii "X", ascii "c")]).fired).1.headers.getItem (ascii "HTTP_X") := by
  have kept : charByte '_' ∉ ascii "X" := by decide
  have spec := repeated_headers none none freshRequest_reset freshRequest_reset
    (getPieces_fires [(ascii "X", ascii "a"), (ascii "X", ascii "b")])
    (getPieces_fires [(ascii "X", ascii "a"), (ascii "X", ascii "c")]) (by decide) (by decide) kept
    (by decide) (by decide)
  exact spec.mpr (fun recut => absurd recut.2 (by decide)) (by decide)

/-- `X: a` and `X: b` give the entry that `X: ab` gives. -/
theorem repeated_header_merged :
    valuesNamed (ascii "X") (getWith [(ascii "X", ascii "a"), (ascii "X", ascii "b")]).headers =
      [ascii "a", ascii "b"] ∧
    valuesNamed (ascii "X") (getWith [(ascii "X", ascii "ab")]).headers = [ascii "ab"] ∧
    (runCallbacks (wsgiBaseDict none none) freshRequest
        (getPieces [(ascii "X", ascii "a"), (ascii "X", ascii "b")]).fired).1.headers.getItem (ascii "HTTP_X") =
      (runCallbacks (wsgiBaseDict none none) freshRequest
        (getPieces [(ascii "X", ascii "ab")]).fired).1.headers.getItem (ascii "HTTP_X") := by
  have kept : charByte '_' ∉ ascii "X" := by decide
  have two := runCallbacks_values none none freshRequest_reset
    (getPieces_fires [(ascii "X", ascii "a"), (ascii "X", ascii "b")]) (by decide) kept (by decide)
  have one := runCallbacks_values none none freshRequest_reset (getPieces_fires [(ascii "X", ascii "ab")]) (by decide)
    kept (by decide)
  exact ⟨by decide, by decide, two.trans one.symm⟩

end Bjoern
