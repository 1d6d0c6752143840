import Bjoern.ResponseHeaders
import Bjoern.ChunkDelivery

namespace Bjoern

/-- The names that `clean_headers` takes for `Content-Length`. -/
theorem isContentLength_iff {name : Bytes} : isContentLength name = true ↔
    name.map asciiLower <+: (ascii "Content-Length").map asciiLower ∨
      (ascii "Content-Length").map asciiLower ++ [0] <+: name.map asciiLower :=
  strnEq_length_iff asciiLower_zero (by decide)

theorem SameName.isContentLength {name : Bytes} (same : SameName name (ascii "Content-Length")) :
    isContentLength name = true := by
  have whole : name.map asciiLower = (ascii "Content-Length").map asciiLower := same
  exact isContentLength_iff.mpr (Or.inl (whole ▸ List.prefix_refl _))

def HasContentLength (fields : List (Bytes × Bytes)) : Prop := ∃ h ∈ fields, SameName h.1 (ascii "Content-Length")

/-- The status begins with 204 or 304. -/
def NoBodyStatus (r : Request) : Prop :=
  (r.status.getD []).take 3 = ascii "204" ∨ (r.status.getD []).take 3 = ascii "304"

/-- A client that keeps the connection sees in the header block where the response ends. -/
structure TellsItsEnd (r : Request) : Prop where
  kept : Appends r keepAliveField →
    Appends r chunkedField ∨ HasContentLength r.headers.responseFields ∨ NoBodyStatus r
  unchunked : HasContentLength r.headers.responseFields → ¬ Appends r chunkedField

theorem specialCaseStatus_unknown (r : Request) : (specialCaseStatus r).state.responseLengthUnknown = true ↔
    r.state.responseLengthUnknown = true ∧ ¬ NoBodyStatus r := by
  unfold specialCaseStatus
  split
  next special => simp [NoBodyStatus, special]
  next plain => simp [NoBodyStatus, plain]

/-- The flags that `chooseFraming` sets on a request that was reset. -/
theorem chooseFraming_flags {r : Request} (reset : r.state.chunkedResponse = false) :
    ((chooseFraming r).state.chunkedResponse = true → (chooseFraming r).state.keepAlive = true ∧
      r.state.responseLengthUnknown = true ∧ ¬ NoBodyStatus r) ∧
    ((chooseFraming r).state.keepAlive = true → r.parser.parser.keepAlive = true ∧
      ((chooseFraming r).state.chunkedResponse = false → ¬ (r.state.responseLengthUnknown = true ∧ ¬ NoBodyStatus r))) ∧
    (r.parser.parser.keepAlive = true → ¬ (r.state.responseLengthUnknown = true ∧ ¬ NoBodyStatus r) →
      (chooseFraming r).state.keepAlive = true ∧ (chooseFraming r).state.chunkedResponse = false) := by
  obtain ⟨unknown, special⟩ := specialCaseStatus_frame r
  have parser : (specialCaseStatus r).parser = r.parser := by rw [special]
  have reset' : (specialCaseStatus r).state.chunkedResponse = false := by rw [special]; exact reset
  rw [← specialCaseStatus_unknown, chooseFraming, decideKeepAlive, parser]
  split
  next keep =>
    split
    next unknown =>
      split
      next => simp [keep, unknown]
      next => simp [keep, unknown, reset']
    next known => simp [keep, known, reset']
  next close => simp [close, reset']

theorem tellsItsEnd_iff {r : Request} : TellsItsEnd r ↔
    (r.state.keepAlive = true →
      r.state.chunkedResponse = true ∨ HasContentLength r.headers.responseFields ∨ NoBodyStatus r) ∧
    (HasContentLength r.headers.responseFields → ¬ (r.state.keepAlive = true ∧ r.state.chunkedResponse = true)) := by
  rw [← appends_chunked, ← appends_keepAlive]
  refine ⟨fun h => ⟨fun keep => ?_, h.unchunked⟩, fun h => ⟨fun keep => ?_, h.2⟩⟩
  · exact (h.kept keep).imp_left fun line => (appends_chunked.mp line).2
  · exact (h.1 keep).imp_left fun flag => appends_chunked.mpr ⟨appends_keepAlive.mp keep, flag⟩

/-- The framing of a response is chosen for a request `r` with its status and headers. -/
theorem wsgiCallApplication_framing {c c' : Conn} {app : PyCall PyValue}
    (answered : wsgiCallApplication c app = .ok (c', true)) : ∃ r : Request,
    r.parser = c.parser ∧ c'.parser = c.parser ∧ r.state.chunkedResponse = c.state.chunkedResponse ∧
      (chooseFraming r).state.keepAlive = c'.state.keepAlive ∧
      (chooseFraming r).state.chunkedResponse = c'.state.chunkedResponse ∧
      (NoBodyStatus r ↔ NoBodyStatus c'.toRequest) ∧
      (r.state.responseLengthUnknown = true ↔ ∀ h ∈ c'.headers.responseFields, isContentLength h.1 = false) := by
  obtain ⟨mid, data, framed, started, parser, chunked, rfl⟩ := wsgiCallApplication_framed answered
  obtain ⟨null⟩ | ⟨_, fields, set, length⟩ := framed
  · exact absurd null started
  obtain ⟨_, _, _, frame⟩ := mid.installed_frame data
  have headers : (mid.installed data).headers.responseFields = fields := by rw [frame, set]; rfl
  refine ⟨mid.toRequest, parser, by rw [frame]; exact parser, chunked, rfl, rfl, by rw [frame]; rfl, ?_⟩
  rw [headers, length]
  simp

/-- A kept-alive response tells where it ends if and only if the client does not want the connection kept, the status
is 204 or 304, a field is called `Content-Length`, or none has a name that `clean_headers` takes for it. -/
theorem kept_response_ends {c c' : Conn} {app : PyCall PyValue} (reset : c.state.chunkedResponse = false)
    (answered : wsgiCallApplication c app = .ok (c', true)) :
    TellsItsEnd c'.toRequest ↔
      c.parser.parser.keepAlive = false ∨ NoBodyStatus c'.toRequest ∨ HasContentLength c'.headers.responseFields ∨
        ∀ h ∈ c'.headers.responseFields, isContentLength h.1 = false := by
  obtain ⟨r, parser, _, chunked, keepAlive, chunks, status, unknown⟩ := wsgiCallApplication_framing answered
  obtain ⟨chunkedOnly, keptOnly, kept⟩ := chooseFraming_flags (chunked.trans reset)
  rw [chunks, keepAlive, unknown, status] at chunkedOnly
  rw [chunks, keepAlive, unknown, status, parser] at keptOnly kept
  have none : HasContentLength c'.headers.responseFields →
      ¬ ∀ h ∈ c'.headers.responseFields, isContentLength h.1 = false := by
    rintro ⟨h, member, same⟩ without
    cases same.isContentLength.symm.trans (without h member)
  rw [tellsItsEnd_iff]
  constructor
  · rintro ⟨ends, _⟩
    by_contra fails
    simp only [not_or, Bool.not_eq_false] at fails
    obtain ⟨wanted, body, noLength, taken⟩ := fails
    obtain ⟨keep, plain⟩ := kept wanted fun h => taken h.1
    rcases ends keep with chunked | found | special
    · cases plain.symm.trans chunked
    · exact noLength found
    · exact body special
  · intro condition
    refine ⟨fun keep => ?_, fun found line => none found (chunkedOnly line.2).2.1⟩
    obtain ⟨wanted, known⟩ := keptOnly keep
    cases flag : c'.state.chunkedResponse with
    | true => exact Or.inl rfl
    | false =>
      rcases condition with unwanted | special | found | without
      · cases wanted.symm.trans unwanted
      · exact Or.inr (Or.inr special)
      · exact Or.inr (Or.inl found)
      · exact Or.inr (Or.inr (by_contra fun body => known flag ⟨without, body⟩))

/-- `start_response('200', [('Content-Type', 'a')])` -/
def typeArgs : List PyArg :=
  [.str [50, 48, 48], .list [.tuple [.str ((ascii "Content-Type").map UInt8.toNat), .str [97]]]]

/-- A response with a header that is no content length. -/
theorem kept_response_ends_chunked : ∃ c, wsgiCallApplication freshConn ⟨[typeArgs], .ok oneItem⟩ = .ok (c, true) ∧
    Appends c.toRequest keepAliveField ∧ TellsItsEnd c.toRequest := by
  have answered : wsgiCallApplication freshConn ⟨[typeArgs], .ok oneItem⟩ = .ok (_, true) := rfl
  refine ⟨_, answered, appends_keepAlive.mpr rfl, (kept_response_ends rfl answered).mpr ?_⟩
  exact Or.inr (Or.inr (Or.inr (by decide)))

/-- `start_response('200', [('Content', '3')])` -/
def contentArgs : List PyArg :=
  [.str [50, 48, 48], .list [.tuple [.str ((ascii "Content").map UInt8.toNat), .str [51]]]]

/-- A header called `Content` counts as a content length: the connection is kept, and no header and no framing tell
where the response ends. -/
theorem endless_kept_response : ∃ c, wsgiCallApplication freshConn ⟨[contentArgs], .ok oneItem⟩ = .ok (c, true) ∧
    ¬ TellsItsEnd c.toRequest := by
  refine ⟨_, rfl, fun tells => ?_⟩
  rcases tells.kept (appends_keepAlive.mpr rfl) with chunked | ⟨h, member, same⟩ | special | special
  · cases (appends_chunked.mp chunked).2
  · have only : h ∈ [(ascii "Content", ascii "3")] := member
    rw [List.mem_singleton.mp only] at same
    revert same
    unfold SameName
    decide
  · revert special
    decide
  · revert special
    decide

end Bjoern
