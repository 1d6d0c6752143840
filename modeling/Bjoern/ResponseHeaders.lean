import Bjoern.WsgiAnswer

namespace Bjoern

/-- The lines that `wsgi_getheaders` puts behind those of the application. -/
def serverFields (r : Request) : List (Bytes × Bytes) :=
  if r.state.keepAlive then
    (ascii "Connection", ascii "Keep-Alive") ::
      (if r.state.chunkedResponse then [(ascii "Transfer-Encoding", ascii "chunked")] else [])
  else [(ascii "Connection", ascii "close")]

def headerLine (h : Bytes × Bytes) : Bytes := h.1 ++ ascii ": " ++ h.2

def statusLine (r : Request) : Bytes := ascii "HTTP/1.1 " ++ r.status.getD []

/-- The header block is the status line, the lines of the application and those of the server. -/
theorem wsgiGetheaders_eq (r : Request) : wsgiGetheaders r = statusLine r ++
    ((r.headers.responseFields ++ serverFields r).flatMap (fun h => ascii "\r\n" ++ headerLine h) ++
    ascii "\r\n\r\n") := by
  have app : r.headers.responseFields.flatMap (fun h => ascii "\r\n" ++ h.1 ++ ascii ": " ++ h.2) =
      r.headers.responseFields.flatMap (fun h => ascii "\r\n" ++ headerLine h) := by simp [headerLine]
  have server : (serverFields r).flatMap (fun h => ascii "\r\n" ++ headerLine h) =
      if r.state.keepAlive then
        ascii "\r\nConnection: Keep-Alive" ++
          (if r.state.chunkedResponse then ascii "\r\nTransfer-Encoding: chunked" else [])
      else ascii "\r\nConnection: close" := by
    unfold serverFields
    split
    next =>
      split
      next => decide
      next => decide
    next => decide
  rw [List.flatMap_append, server, ← app, wsgiGetheaders, statusLine]
  simp only [List.append_assoc]

/-- Behind the lines of the application, the header block has this line. -/
def Appends (r : Request) (h : Bytes × Bytes) : Prop :=
  ∃ server, wsgiGetheaders r =
      statusLine r ++ (r.headers.responseFields.flatMap (fun h => ascii "\r\n" ++ headerLine h) ++
        (server ++ ascii "\r\n\r\n")) ∧
    ascii "\r\n" ++ headerLine h <:+: server

theorem appends_iff {r : Request} {h : Bytes × Bytes} : Appends r h ↔
    ascii "\r\n" ++ headerLine h <:+: (serverFields r).flatMap (fun h => ascii "\r\n" ++ headerLine h) := by
  have block : wsgiGetheaders r =
      statusLine r ++ (r.headers.responseFields.flatMap (fun h => ascii "\r\n" ++ headerLine h) ++
        ((serverFields r).flatMap (fun h => ascii "\r\n" ++ headerLine h) ++ ascii "\r\n\r\n")) := by
    rw [wsgiGetheaders_eq, List.flatMap_append, List.append_assoc]
  constructor
  · rintro ⟨server, eq, line⟩
    have same := List.append_cancel_left (List.append_cancel_left (block.symm.trans eq))
    rwa [List.append_cancel_right same]
  · exact fun line => ⟨_, block, line⟩

def keepAliveField : Bytes × Bytes := (ascii "Connection", ascii "Keep-Alive")

def chunkedField : Bytes × Bytes := (ascii "Transfer-Encoding", ascii "chunked")

theorem appends_keepAlive {r : Request} : Appends r keepAliveField ↔ r.state.keepAlive = true := by
  rw [appends_iff, serverFields]
  cases r.state.keepAlive with
  | true =>
    rw [if_pos rfl, List.flatMap_cons]
    exact ⟨fun _ => rfl, fun _ => (List.prefix_append _ _).isInfix⟩
  | false =>
    rw [if_neg Bool.false_ne_true]
    exact ⟨fun line => absurd line.length_le (by decide), fun keep => by cases keep⟩

theorem appends_chunked {r : Request} :
    Appends r chunkedField ↔ r.state.keepAlive = true ∧ r.state.chunkedResponse = true := by
  rw [appends_iff, serverFields]
  cases r.state.keepAlive with
  | true =>
    cases r.state.chunkedResponse with
    | true =>
      rw [if_pos rfl, if_pos rfl, List.flatMap_cons, List.flatMap_singleton]
      exact ⟨fun _ => ⟨rfl, rfl⟩, fun _ => (List.suffix_append _ _).isInfix⟩
    | false =>
      rw [if_pos rfl, if_neg Bool.false_ne_true]
      exact ⟨fun line => absurd line.length_le (by decide), fun flags => by cases flags.2⟩
  | false =>
    rw [if_neg Bool.false_ne_true]
    exact ⟨fun line => absurd line.length_le (by decide), fun flags => by cases flags.1⟩

/-- The headers that are set come from `start_response`, which reported of them whether they have a content length. -/
def Framed (r : Request) : Prop :=
  r.headers = .null ∨ r.state.startResponseCalled = true ∧
    ∃ fields, r.headers = .response fields ∧ r.state.responseLengthUnknown = !fields.any (isContentLength ·.1)

theorem startResponse_framed {r r' : Request} {args : List PyArg} {succeeded : Bool} (framed : Framed r)
    (h : startResponse r args = .ok (r', succeeded)) : Framed r' := by
  cases startResponse_outcome h with
  | success _ _ clean =>
    refine Or.inr ⟨rfl, _, rfl, ?_⟩
    rw [← cleanHeaders_found clean]
    rfl
  | failure _ failed =>
    have null : (clearResponse r).headers = .null := by
      unfold clearResponse
      split
      next => rfl
      next uncalled =>
        rcases framed with null | ⟨called, _⟩
        · exact null
        · exact absurd called uncalled
    exact Or.inl (failed.headers null)

section

variable {P : Headers → RequestState → Prop}

/-- `start_response` keeps a property of the headers and the flags. -/
def KeptByStart (P : Headers → RequestState → Prop) : Prop :=
  ∀ r args r' succeeded, P r.headers r.state → startResponse r args = .ok (r', succeeded) → P r'.headers r'.state

theorem KeptByStart.run {r r' : Request} {calls : List (List PyArg)} (keeps : KeptByStart P)
    (own : P r.headers r.state) (h : runStartResponses r calls = .ok r') : P r'.headers r'.state := by
  induction calls generalizing r with
  | nil =>
    cases h
    exact own
  | cons args rest ih =>
    obtain ⟨⟨mid, succeeded⟩, hs, h⟩ := bind_ok h
    exact ih (keeps _ _ _ _ own hs) h

theorem KeptByStart.call {c c' : Conn} {calls : List (List PyArg)} (keeps : KeptByStart P)
    (own : P c.headers c.state) (h : callStartResponses c calls = .ok c') : P c'.headers c'.state := by
  unfold callStartResponses at h
  split at h
  next r hr =>
    cases h
    exact keeps.run own hr
  next => cases h

theorem KeptByStart.next {c c' : Conn} {steps : PyIter} {chunk : Option Bytes} (keeps : KeptByStart P)
    (own : P c.headers c.state) (h : nextChunkLoop c steps = .ok (c', chunk)) : P c'.headers c'.state := by
  induction steps generalizing c with
  | nil =>
    cases h
    exact own
  | cons step rest ih =>
    obtain ⟨mid, hm, h⟩ := bind_ok h
    have own' : P mid.headers mid.state := keeps.call (by exact own) hm
    split at h
    next =>
      cases h
      exact own'
    next =>
      cases h
      exact own'
    next =>
      cases h
      exact own'
    next =>
      split at h
      next => exact ih own' h
      next =>
        cases h
        exact own'

theorem KeptByStart.take {c c' : Conn} {retval : PyValue} {chunk : Option (Option Bytes)} (keeps : KeptByStart P)
    (own : P c.headers c.state) (h : takeRetval c retval = .ok (c', chunk)) : P c'.headers c'.state := by
  unfold takeRetval at h
  split at h
  next =>
    cases h
    exact own
  next =>
    cases h
    exact own
  next =>
    obtain ⟨mid, hm, h⟩ := bind_ok h
    have own' : P mid.headers mid.state := keeps.call (by exact own) hm
    split at h
    next =>
      cases h
      exact own'
    next =>
      obtain ⟨⟨last, first⟩, hn, h⟩ := bind_ok h
      have last' : P last.headers last.state := keeps.next (by exact own') hn
      dsimp only at h
      split at h
      next =>
        cases h
        exact last'
      next =>
        cases h
        exact last'

end

theorem framed_kept : KeptByStart fun headers state => headers = .null ∨ state.startResponseCalled = true ∧
    ∃ fields, headers = .response fields ∧ state.responseLengthUnknown = !fields.any (isContentLength ·.1) :=
  fun _ _ _ _ framed h => startResponse_framed framed h

/-- A response is installed on a request whose headers come from `start_response`. -/
theorem wsgiCallApplication_framed {c c' : Conn} {app : PyCall PyValue}
    (h : wsgiCallApplication c app = .ok (c', true)) :
    ∃ (mid : Conn) (data : Bytes), Framed mid.toRequest ∧ mid.headers ≠ .null ∧ mid.parser = c.parser ∧
      mid.state.chunkedResponse = c.state.chunkedResponse ∧ c' = mid.installed data := by
  obtain ⟨start, hs, h⟩ := bind_ok h
  have framed : Framed start.toRequest := framed_kept.call (Or.inl rfl) hs
  obtain ⟨_, _, _, _, rfl⟩ := callStartResponses_frame hs
  split at h
  next => cases h
  next retval _ =>
    obtain ⟨⟨mid, first⟩, ht, h⟩ := bind_ok h
    have frame := (takeRetval_taken ht).frame
    dsimp only at h
    split at h
    next => cases h
    next =>
      split at h
      next => cases h
      next set =>
        obtain ⟨final, hi, h⟩ := bind_ok h
        cases h
        obtain ⟨data, _, rfl⟩ := installResponse_eq hi
        exact ⟨mid, data, framed_kept.take framed ht, fun missing => set (isNull_iff.mpr missing), frame.parser,
          frame.chunkedResponse, rfl⟩

end Bjoern
