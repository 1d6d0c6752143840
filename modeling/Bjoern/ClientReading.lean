import Bjoern.HttpReading
import Bjoern.ResponseStream
import Bjoern.KeptResponses
import Bjoern.HeaderRoundTrip

namespace Bjoern

open Runs HttpReading

/-- The fields of a response, those of the application before those of the server. -/
def allFields (r : Request) : List (Bytes × Bytes) := r.headers.responseFields ++ serverFields r

/-- The body that a return value stands for; the descriptor of a file is at `pos`. -/
def PyValue.payload (v : PyValue) (pos : Nat) : Bytes :=
  match v with
  | .fileWrapper wrapper => if wrapper.fd = -1 then v.items.flatten else wrapper.content.drop pos
  | _ => v.items.flatten

def Conn.isHead (c : Conn) : Bool := c.parser.parser.method = .other (ascii "HEAD")

/-- What an application owes the client: header fields that stay apart, a final status, no transfer coding of its
own, the right length where it announces one, and no body where there is none. -/
structure Proper (head : Bool) (r : Request) (payload : Bytes) : Prop where
  unambiguous : Unambiguous r
  final : (r.status.getD []).head? ≠ some 49
  coding : ∀ h ∈ r.headers.responseFields, ¬ SameName h.1 (ascii "Transfer-Encoding")
  length : ¬ (head = true ∨ NoBodyStatus r) → ∀ h ∈ r.headers.responseFields, isContentLength h.1 = true →
    SameName h.1 (ascii "Content-Length") ∧ decimal h.2 = some payload.length
  bodyless : head = true ∨ NoBodyStatus r → payload = []
  announced : head = true → NoBodyStatus r ∨ ∃ h ∈ r.headers.responseFields, isContentLength h.1 = true

theorem lower_eq : HttpReading.lower = asciiLower := by
  funext c
  rfl

theorem wsgiGetheaders_block (r : Request) : wsgiGetheaders r = headBlock (statusLine r) (allFields r) := by
  have lines : ∀ (line : Bytes) (rest : List Bytes), line ++
      (rest.flatMap (fun l => ChunkedCoding.crlf ++ l) ++ (ChunkedCoding.crlf ++ ChunkedCoding.crlf)) =
      (line :: rest).flatMap (fun l => l ++ ChunkedCoding.crlf) ++ ChunkedCoding.crlf := by
    intro line rest
    induction rest generalizing line with
    | nil => simp
    | cons next rest ih =>
      rw [List.flatMap_cons, List.flatMap_cons, List.append_assoc, List.append_assoc, List.append_assoc,
        ← ih next]
      simp
  have field : (fun h : Bytes × Bytes => ascii "\r\n" ++ headerLine h) =
      (fun l => ChunkedCoding.crlf ++ l) ∘ fun f => f.1 ++ 58 :: 32 :: f.2 := by
    funext h
    have colon : ascii ": " = [58, 32] := by decide
    simp [headerLine, ascii_crlf, colon]
  have last : ascii "\r\n\r\n" = ChunkedCoding.crlf ++ ChunkedCoding.crlf := by decide
  rw [wsgiGetheaders_eq, headBlock, ← lines, field, last, List.flatMap_map]
  rfl

theorem Unambiguous.plain {r : Request} (h : Unambiguous r) : Plain (statusLine r) (allFields r) := by
  have fields : ∀ f ∈ allFields r, (NoLineBreak f.1 ∧ NoLineBreak f.2) ∧ NoColon f.1 := by
    intro f member
    rcases List.mem_append.mp member with app | server
    · exact ⟨⟨(h.names f app).1, h.values f app⟩, (h.names f app).2⟩
    · exact serverFields_unambiguous r f server
  have full : statusLine r ≠ [] := by
    intro empty
    have some := congrArg List.length empty
    simp [statusLine, ascii] at some
  refine ⟨full, statusLine_noLineBreak.mpr h.status, fun f member => ?_, fun f member => (fields f member).2⟩
  have line := headerLine_noLineBreak.mpr (fields f member).1
  have colon : ascii ": " = [58, 32] := by decide
  rw [headerLine, colon, List.append_assoc] at line
  exact line

theorem statusCode_eq (r : Request) : statusCode (statusLine r) = (r.status.getD []).take 3 := by
  have nine : (ascii "HTTP/1.1 ").length = 9 := by decide
  rw [statusCode, statusLine, ← nine, List.drop_left]

theorem statusCode_first (r : Request) : (statusCode (statusLine r)).head? = (r.status.getD []).head? := by
  rw [statusCode_eq]
  cases r.status.getD [] with
  | nil => rfl
  | cons c rest => rfl

theorem Proper.final_line {head : Bool} {r : Request} {payload : Bytes} (h : Proper head r payload) :
    ¬ Informational (statusLine r) := by
  rw [Informational, statusCode_first]
  exact h.final

theorem Proper.bodyless_iff {head : Bool} {r : Request} {payload : Bytes} (h : Proper head r payload) :
    Bodyless (statusLine r) ↔ NoBodyStatus r := by
  rw [Bodyless, statusCode_eq, NoBodyStatus]
  exact or_iff_right h.final_line

theorem bodyEnd_empty {head : Bool} {r : Request} {payload : Bytes} (h : Proper head r payload)
    (none : head = true ∨ NoBodyStatus r) : bodyEnd head (statusLine r) (allFields r) = .empty := by
  have none : head = true ∨ Bodyless (statusLine r) := none.imp_right h.bodyless_iff.mpr
  rw [bodyEnd, if_pos none]

/-- The application leaves the transfer coding to the server. -/
theorem Proper.coding_field {head : Bool} {r : Request} {payload : Bytes} (h : Proper head r payload) :
    fieldValue transferEncoding (allFields r) = fieldValue transferEncoding (serverFields r) := by
  have name : (ascii "Transfer-Encoding").map asciiLower = transferEncoding := by decide
  have none : r.headers.responseFields.find? (fun f => f.1.map lower = transferEncoding) = none := by
    rw [List.find?_eq_none]
    intro f member
    have other : ¬ f.1.map asciiLower = (ascii "Transfer-Encoding").map asciiLower := h.coding f member
    rw [name] at other
    simpa [lower_eq] using other
  rw [fieldValue, fieldValue, allFields, List.find?_append, none, Option.none_or]

/-- A kept response with chunks is read to its last chunk. -/
theorem chunked_read {head : Bool} {r : Request} {items : List Bytes} (h : Proper head r items.flatten)
    (keep : r.state.keepAlive = true) (chunked : r.state.chunkedResponse = true)
    (bodied : ¬ (head = true ∨ NoBodyStatus r)) (full : ∀ item ∈ items, item ≠ []) (rest : Bytes) :
    readResponse head (wsgiGetheaders r ++ encodeBody true items ++ rest) =
      some (⟨statusLine r, allFields r, items.flatten⟩, rest) := by
  have coding : fieldValue transferEncoding (allFields r) = some chunkedCoding := by
    rw [h.coding_field, serverFields, if_pos keep, if_pos chunked]
    decide
  have bodied : ¬ (head = true ∨ Bodyless (statusLine r)) := fun none => bodied (none.imp_right h.bodyless_iff.mp)
  have ends : bodyEnd head (statusLine r) (allFields r) = .chunked := by rw [bodyEnd, if_neg bodied, if_pos coding]
  rw [wsgiGetheaders_block]
  refine readResponse_written h.unambiguous.plain ?_
  rw [ends]
  exact readBody_chunked full rest

/-- A kept response without chunks is read by its length. -/
theorem unchunked_read {head : Bool} {r : Request} {payload : Bytes} (h : Proper head r payload)
    (chunked : r.state.chunkedResponse = false)
    (known : NoBodyStatus r ∨ ∃ f ∈ r.headers.responseFields, isContentLength f.1 = true) (rest : Bytes) :
    readResponse head (wsgiGetheaders r ++ payload ++ rest) = some (⟨statusLine r, allFields r, payload⟩, rest) := by
  rw [wsgiGetheaders_block]
  refine readResponse_written h.unambiguous.plain ?_
  by_cases none : head = true ∨ NoBodyStatus r
  · rw [bodyEnd_empty h none, h.bodyless none]
    rfl
  · have right := h.length none
    obtain ⟨f, member, length⟩ := known.resolve_left fun status => none (Or.inr status)
    have name : (ascii "Content-Length").map asciiLower = contentLength := by decide
    have same : ∀ f : Bytes × Bytes, f.1.map lower = contentLength ↔ SameName f.1 (ascii "Content-Length") := by
      intro f
      rw [SameName, name, lower_eq]
    have coding : fieldValue transferEncoding (allFields r) ≠ some chunkedCoding := by
      rw [h.coding_field, serverFields, chunked]
      split
      next => decide
      next => decide
    have value : ∃ v, fieldValue contentLength (allFields r) = some v ∧ decimal v = some payload.length := by
      have found : (r.headers.responseFields.find? fun f => f.1.map lower = contentLength).isSome := by
        rw [List.find?_isSome]
        exact ⟨f, member, decide_eq_true ((same f).mpr (right f member length).1)⟩
      obtain ⟨g, first⟩ := Option.isSome_iff_exists.mp found
      have among := List.mem_of_find?_eq_some first
      have named : SameName g.1 (ascii "Content-Length") := (same g).mp (by simpa using List.find?_some first)
      refine ⟨g.2, ?_, (right g among named.isContentLength).2⟩
      rw [fieldValue, allFields, List.find?_append, first]
      rfl
    obtain ⟨v, value, decimal⟩ := value
    have bodied : ¬ (head = true ∨ Bodyless (statusLine r)) := fun bare => none (bare.imp_right h.bodyless_iff.mp)
    have ends : bodyEnd head (statusLine r) (allFields r) = .length payload.length := by
      rw [bodyEnd, if_neg bodied, if_neg coding, value, Option.bind_some, decimal]
    rw [ends]
    exact readBody_length payload rest

/-- How the length of a kept response is told follows from its headers. -/
theorem kept_framing {c c' : Conn} {app : PyCall PyValue} (reset : c.state.chunkedResponse = false)
    (answered : wsgiCallApplication c app = .ok (c', true)) (keep : c'.state.keepAlive = true) :
    if c'.state.chunkedResponse then
      ¬ NoBodyStatus c'.toRequest ∧ ∀ f ∈ c'.headers.responseFields, isContentLength f.1 = false
    else NoBodyStatus c'.toRequest ∨ ∃ f ∈ c'.headers.responseFields, isContentLength f.1 = true := by
  obtain ⟨r, _, _, chunked, keepAlive, chunks, status, unknown⟩ := wsgiCallApplication_framing answered
  obtain ⟨chunkedOnly, keptOnly, _⟩ := chooseFraming_flags (chunked.trans reset)
  rw [chunks, status, unknown] at chunkedOnly
  rw [chunks, keepAlive, unknown, status] at keptOnly
  cases flag : c'.state.chunkedResponse with
  | true =>
    obtain ⟨_, without, bodied⟩ := chunkedOnly flag
    exact ⟨bodied, without⟩
  | false =>
    have known := (keptOnly keep).2 flag
    by_cases status : NoBodyStatus c'.toRequest
    · exact Or.inl status
    · refine Or.inr (by_contra fun none => known ⟨fun f member => ?_, status⟩)
      by_contra length
      exact none ⟨f, member, by simpa using length⟩

/-- A file is sent as it is. -/
theorem file_unchunked {c c' : Conn} {app : PyCall PyValue} {v : PyValue} (reset : c.state.chunkedResponse = false)
    (whole : AnswersWhole c app) (answered : wsgiCallApplication c app = .ok (c', true)) (returned : app.result = .ok v)
    (descriptor : v.hasDescriptor = true) : c'.state.chunkedResponse = false := by
  obtain ⟨r, made, outcome⟩ := wsgiCallApplication_outcome answered
  have started := whole r v made returned
  rw [if_pos descriptor] at started
  have branch : retvalBranch r v = .file := retvalBranch_file.mpr ⟨descriptor, started.2⟩
  cases outcome with
  | @answered retval mid first data got taken _ framed =>
    cases returned.symm.trans got
    obtain ⟨rfl, _⟩ := taken.file_branch branch
    have frame := made.frame
    have reset' : r.state.chunkedResponse = false := frame.chunkedResponse.trans reset
    have only := (chooseFraming_flags (r := { r with iterable := some v, iterator := none }) reset').1
    by_contra chunked
    obtain ⟨_, unknown, _⟩ := only (Bool.not_eq_false _ ▸ chunked)
    cases unknown.symm.trans started.2

theorem bodyItems_full (steps : PyIter) : ∀ item ∈ bodyItems steps, item ≠ [] := by
  induction steps with
  | nil => simp [bodyItems]
  | cons step rest ih =>
    unfold bodyItems
    split
    next data _ =>
      split
      next => exact ih
      next full =>
        intro item member
        rcases List.mem_cons.mp member with rfl | later
        · exact full
        · exact ih item later
    next => simp

theorem items_full (v : PyValue) : ∀ item ∈ v.items, item ≠ [] := by
  unfold PyValue.items
  split
  next data _ =>
    split
    next => simp
    next full =>
      intro item member
      exact List.mem_singleton.mp member ▸ full
  next => exact bodyItems_full _

theorem payload_direct {v : PyValue} (direct : v.hasDescriptor = false) (pos : Nat) :
    v.payload pos = v.items.flatten := by
  cases v with
  | fileWrapper wrapper =>
    have closed : wrapper.fd = -1 := by simpa [PyValue.hasDescriptor] using direct
    exact if_pos closed
  | _ => rfl

def Reply.Proper (r : Reply) : Prop := ∀ called v, wsgiCallApplication r.conn r.app = .ok (called, true) →
  r.app.result = .ok v → Bjoern.Proper r.conn.isHead called.toRequest (v.payload r.pos)

/-- What the application has answered. -/
def Reply.Shows (r : Reply) (response : Response) : Prop := ∃ called v,
  wsgiCallApplication r.conn r.app = .ok (called, true) ∧ r.app.result = .ok v ∧
    response = ⟨statusLine called.toRequest, allFields called.toRequest, v.payload r.pos⟩

/-- A client takes a proper reply for what the application has answered, and stops where it ends. -/
theorem Reply.read (r : Reply) (keep : r.keep = true) (proper : r.Proper) (rest : Bytes) : ∃ response,
    r.Shows response ∧ ¬ Informational response.line ∧
      readResponse r.conn.isHead (r.bytes ++ rest) = some (response, rest) := by
  obtain ⟨⟨conn, app, untouched, whole⟩, pos, bytes, kept, answer⟩ := r
  have reset : conn.state.chunkedResponse = false := untouched.chunkedResponse
  cases answer with
  | @items called v answered returned direct =>
    have owed : Bjoern.Proper conn.isHead called.toRequest (v.payload pos) := proper called v answered returned
    refine ⟨_, ⟨called, v, answered, returned, rfl⟩, owed.final_line, ?_⟩
    have framing := kept_framing reset answered keep
    rw [payload_direct direct] at owed ⊢
    cases flag : called.state.chunkedResponse with
    | true =>
      rw [if_pos flag] at framing
      have bodied : ¬ (conn.isHead = true ∨ NoBodyStatus called.toRequest) := by
        rintro (head | none)
        · rcases owed.announced head with none | ⟨f, member, length⟩
          · exact framing.1 none
          · cases (framing.2 f member).symm.trans length
        · exact framing.1 none
      show readResponse _ (wsgiGetheaders _ ++ encodeBody called.state.chunkedResponse v.items ++ rest) = _
      rw [flag]
      exact chunked_read owed keep flag bodied (items_full v) rest
    | false =>
      rw [if_neg (by simp [flag])] at framing
      show readResponse _ (wsgiGetheaders _ ++ encodeBody called.state.chunkedResponse v.items ++ rest) = _
      rw [flag]
      exact unchunked_read owed flag framing rest
  | @file called wrapper answered returned descriptor =>
    have owed : Bjoern.Proper conn.isHead called.toRequest (wrapper.content.drop pos) := by
      have owed := proper called _ answered returned
      rwa [PyValue.payload, if_neg descriptor] at owed
    have opened : (PyValue.fileWrapper wrapper).hasDescriptor = true := by
      simpa [PyValue.hasDescriptor] using descriptor
    have plain := file_unchunked reset whole answered returned opened
    have framing := kept_framing reset answered keep
    rw [if_neg (by simp [plain])] at framing
    refine ⟨_, ⟨called, _, answered, returned, rfl⟩, owed.final_line, ?_⟩
    rw [PyValue.payload, if_neg descriptor]
    exact unchunked_read owed plain framing rest
  | message => cases keep

def Message.replies : Message → List Reply
  | .reply r => [r]
  | _ => []

theorem continue_read (head : Bool) (rest : Bytes) :
    readResponse head (continueMessage ++ rest) = some (⟨ascii "HTTP/1.1 100 Continue", [], []⟩, rest) := by
  have block : continueMessage = headBlock (ascii "HTTP/1.1 100 Continue") [] ++ [] := by decide
  have plain : Plain (ascii "HTTP/1.1 100 Continue") [] := ⟨by decide, by decide, by simp, by simp⟩
  have bare : head = true ∨ Bodyless (ascii "HTTP/1.1 100 Continue") := Or.inr (by decide)
  rw [block]
  refine readResponse_written plain ?_
  rw [bodyEnd, if_pos bare]
  rfl

/-- Messages behind `k` interim ones are read as the replies among them. -/
theorem messages_read {past : List Message} (kept : ∀ m ∈ past, m.keep = true)
    (proper : ∀ r ∈ past.flatMap Message.replies, r.Proper) (tail : Bytes) (k : Nat) : ∃ responses left,
    readResponses ((past.flatMap Message.calls).map fun call => call.1.isHead)
      ((List.replicate k continueMessage).flatten ++ past.flatMap Message.bytes ++ tail) =
        some (responses, (List.replicate left continueMessage).flatten ++ tail) ∧
      List.Forall₂ Reply.Shows (past.flatMap Message.replies) responses := by
  induction past generalizing k with
  | nil => exact ⟨[], k, by simp [readResponses], .nil⟩
  | cons m past ih =>
    have kept' : ∀ m ∈ past, m.keep = true := fun m member => kept m (List.mem_cons_of_mem _ member)
    have proper' : ∀ r ∈ past.flatMap Message.replies, r.Proper := by
      intro r member
      exact proper r (List.mem_append_right m.replies member)
    cases m with
    | refusal code => cases kept _ List.mem_cons_self
    | interim =>
      obtain ⟨responses, left, read, shows⟩ := ih kept' proper' (k + 1)
      refine ⟨responses, left, ?_, shows⟩
      have next : (List.replicate (k + 1) continueMessage).flatten =
          (List.replicate k continueMessage).flatten ++ continueMessage := by
        rw [List.replicate_succ', List.flatten_append]
        simp
      rw [next, List.append_assoc (List.replicate k continueMessage).flatten] at read
      exact read
    | reply r =>
      obtain ⟨responses, left, read, shows⟩ := ih kept' proper' 0
      obtain ⟨response, shown, final, first⟩ := r.read (kept _ List.mem_cons_self)
        (proper r (List.mem_append_left _ (List.mem_singleton_self r)))
        (past.flatMap Message.bytes ++ tail)
      refine ⟨response :: responses, left, ?_, .cons shown shows⟩
      have split :
          (List.replicate k continueMessage).flatten ++ (Message.reply r :: past).flatMap Message.bytes ++ tail =
          (List.replicate k continueMessage).flatten ++ (r.bytes ++ (past.flatMap Message.bytes ++ tail)) := by
        simp [Message.bytes]
      have short : k ≤ (List.replicate k continueMessage).flatten.length := by
        have some : 0 < continueMessage.length := by decide
        rw [List.length_flatten, List.map_replicate, List.sum_replicate_nat]
        exact Nat.le_mul_of_pos_right k some
      have found : readFinal (((List.replicate k continueMessage).flatten ++
          (r.bytes ++ (past.flatMap Message.bytes ++ tail))).length + 1) r.conn.isHead
          ((List.replicate k continueMessage).flatten ++ (r.bytes ++ (past.flatMap Message.bytes ++ tail))) =
            some (response, past.flatMap Message.bytes ++ tail) := by
        refine readFinal_behind (continue_read _) (by decide) first final ?_
        rw [List.length_append]
        omega
      rw [split]
      exact readResponses_cons found read

theorem Dialogue.replies {events : List Event} {calls : List (Conn × PyCall PyValue)} {c : Conn} {past : List Message}
    {current : Option Message} {accepted : Bytes} (h : Dialogue events calls c past current accepted) :
    ∀ r ∈ past.flatMap Message.replies, (r.conn, r.app) ∈ calls := by
  intro r member
  obtain ⟨m, among, reply⟩ := List.mem_flatMap.mp member
  rw [← h.calls_eq, List.flatMap_append]
  refine List.mem_append_left _ (List.mem_flatMap.mpr ⟨m, among, ?_⟩)
  cases m with
  | reply s => exact List.mem_singleton.mp reply ▸ List.mem_singleton_self _
  | interim => cases reply
  | refusal => cases reply

/-- A request that is answered with one item. -/
def oneRequest : List Event := [.read ⟨.bytes getRequest, returning oneItem⟩, .write roomy, .write roomy]

theorem returning_oneItem_proper {r : Reply}
    (call : (r.conn, r.app) = ((freshConn.parsed .empty getRequest).count .reqSuccessRead, returning oneItem)) :
    r.Proper := by
  obtain ⟨conn, app⟩ := Prod.mk.inj call
  intro called v answered returned
  have answer : wsgiCallApplication ((freshConn.parsed .empty getRequest).count .reqSuccessRead) (returning oneItem) =
      .ok (_, true) := rfl
  rw [conn, app] at answered
  cases answer.symm.trans answered
  rw [app] at returned
  cases returned
  have none : ∀ P : Bytes × Bytes → Prop, ∀ h ∈ Headers.responseFields (.response []), P h := by
    intro P h member
    cases member
  have get : ¬ (r.conn.isHead = true ∨ (ascii "200").take 3 = ascii "204" ∨ (ascii "200").take 3 = ascii "304") := by
    rw [conn]
    decide
  exact ⟨⟨by decide, none _, none _⟩, by decide, none _, fun _ => none _, fun bare => absurd bare get,
    fun head => absurd (Or.inl head) get⟩

end Bjoern
