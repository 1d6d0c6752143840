import Bjoern.SendChunk
import Bjoern.ConnectionEnd
import Bjoern.WsgiAnswer

namespace Bjoern

open Runs

theorem ascii_crlf : ascii "\r\n" = ChunkedCoding.crlf := by decide

/-- Chunks below the size whose hexadecimal digits fill the buffer are encoded as they should be. -/
theorem wrapHttpChunkCruftAround_small {chunk : Bytes} (small : chunk.length < 2 ^ 28) :
    wrapHttpChunkCruftAround chunk = some (ChunkedCoding.chunk chunk) := by
  have same : chunk.length % 2 ^ 32 = chunk.length := Nat.mod_eq_of_lt (by omega)
  have digits : (ChunkedCoding.hex chunk.length).length ≤ 7 :=
    ChunkedCoding.hex_length_le (by decide) (by omega)
  have room : (ChunkedCoding.hex chunk.length ++ ascii "\r\n").length + 1 ≤ (ascii "ffffffff").length + 2 := by
    rw [List.length_append, show (ascii "\r\n").length = 2 from by decide,
      show (ascii "ffffffff").length = 8 from by decide]
    omega
  rw [ascii_crlf] at room
  simp only [wrapHttpChunkCruftAround, same, ascii_crlf, if_pos room, ChunkedCoding.chunk]

theorem chunk_ne_nil (data : Bytes) : ChunkedCoding.chunk data ≠ [] := by
  simp [ChunkedCoding.chunk, ChunkedCoding.crlf]

/-- The body of a response: its items one after the other, or chunk-encoded with the last chunk. -/
def encodeBody (chunked : Bool) (items : List Bytes) : Bytes :=
  if chunked then ChunkedCoding.chunks items ++ ChunkedCoding.terminator else items.flatten

def encodeItem (chunked : Bool) (item : Bytes) : Bytes :=
  if chunked then ChunkedCoding.chunk item else item

theorem encodeBody_cons (chunked : Bool) (item : Bytes) (items : List Bytes) :
    encodeBody chunked (item :: items) = encodeItem chunked item ++ encodeBody chunked items := by
  cases chunked <;> simp [encodeBody, encodeItem]

/-- The items that the response iterator of a connection still has to give. -/
def Conn.pendingItems (c : Conn) : List Bytes := bodyItems (c.iterator.getD [])

/-- Whether it will end without an exception or a non-bytes item. -/
def Conn.pendingEnd (c : Conn) : Bool := endsNormally (c.iterator.getD [])

/-- The unsent rest of `current_chunk`. -/
def Conn.chunkRest (c : Conn) : Bytes :=
  match c.currentChunk with
  | .owned data => data.drop c.currentChunkP.toNat
  | _ => []

/-- The bytes of the response that are not sent yet. -/
def Conn.owed (c : Conn) : Bytes := c.chunkRest ++ encodeBody c.state.chunkedResponse c.pendingItems

/-- What `on_write_chunk` leaves alone. -/
structure Frame (c c' : Conn) : Prop where
  parser : c'.parser = c.parser
  evWatcher : c'.evWatcher = c.evWatcher
  errorCode : c'.state.errorCode = c.state.errorCode
  parseFinished : c'.state.parseFinished = c.state.parseFinished
  wsgiCallDone : c'.state.wsgiCallDone = c.state.wsgiCallDone
  keepAlive : c'.state.keepAlive = c.state.keepAlive
  expectContinue : c'.state.expectContinue = c.state.expectContinue
  iterable : c'.iterable = c.iterable
  environs : c'.environs = c.environs
  metrics : c'.metrics = c.metrics
  iterLog : ∃ n, c'.iterLog = c.iterLog ++ List.replicate n .next

/-- A response on its way through `on_write_chunk`. -/
structure Responding (c : Conn) : Prop where
  idle : c.pyErr = none
  called : c.state.wsgiCallDone = true
  sending : ∃ data, SendingChunk c data
  small : ∀ item ∈ c.pendingItems, item.length < 2 ^ 28

theorem Responding.count {c : Conn} (h : Responding c) (metric : Metric) : Responding (c.count metric) := by
  obtain ⟨data, sending⟩ := h.sending
  exact ⟨h.idle, h.called, ⟨data, sending.count metric⟩, h.small⟩

theorem Responding.start {c : Conn} (h : Responding c) : Responding (startWriting c) := by
  obtain ⟨data, sending⟩ := h.sending
  exact ⟨h.idle, h.called, ⟨data, sending.chunk, sending.start, sending.inside⟩, h.small⟩

/-- Everything that one call of `on_write_chunk` without a fatal error can do: send bytes that were
owed, be done when nothing is owed any more, or give up where the iterable failed, with no item and at
most the last chunk missing. -/
inductive Progress (c : Conn) : Except Halted (Conn × RwState) → Prop
  | more {c' bs} : Frame c c' → Responding c' → c'.sent = c.sent ++ bs → bs ++ c'.owed = c.owed →
      c'.pendingEnd = c.pendingEnd →
      (c.pendingEnd = false → c'.state.chunkedResponse = c.state.chunkedResponse) →
      Progress c (.ok (c', .notYetDone))
  | done {c'} : Frame c c' → c'.pyErr = none → c'.sent = c.sent ++ c.owed → c.pendingEnd = true →
      Progress c (.ok (c', .done))
  | aborted {c' bs} : Frame c c' → c'.pyErr = none → c'.sent = c.sent ++ bs →
      bs ++ encodeBody c.state.chunkedResponse [] = c.owed → c.pendingEnd = false →
      Progress c (.ok (c', .aborted))
  | exited {c' bs} : Frame c c' → c'.sent = c.sent ++ bs →
      bs ++ encodeBody c.state.chunkedResponse [] = c.owed → c.pendingEnd = false →
      Progress c (.error (.exit, c'))

theorem Responding.sentPart {c : Conn} {data : Bytes} (h : Responding c) (sending : SendingChunk c data)
    {k : Nat} (hk : k < (data.drop c.currentChunkP.toNat).length) :
    Progress c (.ok (c.sentPart ((data.drop c.currentChunkP.toNat).take k), .notYetDone)) := by
  refine .more ⟨rfl, rfl, rfl, rfl, rfl, rfl, rfl, rfl, rfl, rfl, 0, by simp [Conn.sentPart]⟩
    ⟨h.idle, h.called, ⟨data, sending.sentPart hk⟩, h.small⟩ rfl ?_ rfl (fun _ => rfl)
  have before : c.chunkRest = data.drop c.currentChunkP.toNat := by simp only [Conn.chunkRest, sending.chunk]
  have after : (c.sentPart ((data.drop c.currentChunkP.toNat).take k)).chunkRest =
      data.drop (c.sentPart ((data.drop c.currentChunkP.toNat).take k)).currentChunkP.toNat := by
    simp only [Conn.chunkRest, Conn.sentPart, sending.chunk]
  rw [Conn.owed, after, ← List.append_assoc, sending.sentPart_rest hk, Conn.owed, before]
  rfl

theorem sendTerminatorChunk_progress {c d : Conn} {bs : Bytes} (frame : Frame c d) (idle : d.pyErr = none)
    (called : d.state.wsgiCallDone = true) (position : d.currentChunkP = 0) (empty : d.iterator = none)
    (flag : d.state.chunkedResponse = c.state.chunkedResponse) (sent : d.sent = c.sent ++ bs)
    (owed : bs ++ encodeBody c.state.chunkedResponse [] = c.owed) (ending : c.pendingEnd = true) :
    Progress c (.ok (sendTerminatorChunk d)) := by
  unfold sendTerminatorChunk
  split
  next chunked =>
    have frame' : Frame c { d with currentChunk := .owned (ascii "0\r\n\r\n"), state.chunkedResponse := false } :=
      { frame with }
    refine .more frame' ⟨idle, called, ⟨ascii "0\r\n\r\n", rfl, by simp [position], by simp [position]; decide⟩, ?_⟩
      sent ?_ ?_ (fun failing => absurd (failing.symm.trans ending) (by simp))
    · simp [Conn.pendingItems, empty, bodyItems]
    · rw [← owed, ← flag, chunked]
      simp [Conn.owed, Conn.chunkRest, position, Conn.pendingItems, empty, bodyItems, encodeBody,
        show ascii "0\r\n\r\n" = ChunkedCoding.terminator from by decide]
    · simpa [Conn.pendingEnd, empty, endsNormally] using ending.symm
  next plain =>
    have off : c.state.chunkedResponse = false := by rw [← flag]; simpa using plain
    have whole : bs = c.owed := by simpa [off, encodeBody] using owed
    exact .done frame idle (whole ▸ sent) ending

theorem installChunk_progress {c c' : Conn} {item bs : Bytes} (frame : Frame c c') (idle : c'.pyErr = none)
    (called : c'.state.wsgiCallDone = true) (position : c'.currentChunkP = 0) (ne : item ≠ [])
    (items : c.pendingItems = item :: c'.pendingItems) (small : ∀ i ∈ c.pendingItems, i.length < 2 ^ 28)
    (flag : c'.state.chunkedResponse = c.state.chunkedResponse) (sent : c'.sent = c.sent ++ bs)
    (owed : bs ++ encodeBody c.state.chunkedResponse c.pendingItems = c.owed)
    (ending : c'.pendingEnd = c.pendingEnd) :
    Progress c (.ok ({ c' with currentChunk := .owned (encodeItem c.state.chunkedResponse item) }, .notYetDone)) := by
  have frame' : Frame c { c' with currentChunk := .owned (encodeItem c.state.chunkedResponse item) } :=
    { frame with }
  have full : 0 < (encodeItem c.state.chunkedResponse item).length := by
    rw [List.length_pos_iff]
    unfold encodeItem
    split
    next => exact chunk_ne_nil item
    next => exact ne
  refine .more frame' ⟨idle, called, ⟨_, rfl, by simp [position], by simpa [position] using full⟩, ?_⟩ sent ?_ ending
    (fun _ => flag)
  · intro i hi
    exact small i (by rw [items]; exact List.mem_cons_of_mem _ hi)
  · rw [← owed, items, encodeBody_cons]
    simp [Conn.owed, Conn.chunkRest, position, Conn.pendingItems, flag]

/-- What `wsgi_iterable_get_next_chunk` leaves alone, once the chunk before is sent. -/
theorem pull_frame (c : Conn) (bs : Bytes) (n : Nat) (rest : PyIter) (exc : Option PyExc)
    (status : Option Bytes) (headers : Headers) (unknown called : Bool) :
    Frame c ((c.sentAll bs).pull n rest exc status headers unknown called) :=
  ⟨rfl, rfl, rfl, rfl, rfl, rfl, rfl, rfl, rfl, rfl, n, rfl⟩

theorem onWriteChunk_progress {c : Conn} {w : WriteEvent} (h : Responding c) (hw : ¬ Fatal w) :
    Progress c (onWriteChunk c w) := by
  obtain ⟨data, sending⟩ := h.sending
  have before : c.chunkRest = data.drop c.currentChunkP.toNat := by simp only [Conn.chunkRest, sending.chunk]
  unfold onWriteChunk
  rcases doSendChunk_cases sending hw with ⟨k, hk, step⟩ | step
  · rw [step]
    exact h.sentPart sending hk
  rw [step]
  have owed : ∀ items, c.pendingItems = items →
      data.drop c.currentChunkP.toNat ++ encodeBody c.state.chunkedResponse items = c.owed := by
    rintro items rfl
    rw [Conn.owed, before]
  simp only [ok_bind, Bool.false_eq_true, if_false]
  split
  next more =>
    obtain ⟨steps, hs⟩ := Option.isSome_iff_exists.mp more
    have hs : c.iterator = some steps := hs
    have items : c.pendingItems = bodyItems steps := by rw [Conn.pendingItems, hs]; rfl
    have ending : c.pendingEnd = endsNormally steps := by rw [Conn.pendingEnd, hs]; rfl
    have next := wsgiIterableGetNextChunk_loop (c := c.sentAll (data.drop c.currentChunkP.toNat)) hs
    obtain ⟨c', chunk, hn⟩ := nextChunkLoop_returns (c := c.sentAll (data.drop c.currentChunkP.toNat)) h.called steps
    rw [next, hn]
    cases nextChunkLoop_outcome hn with
    | @chunk n rest status headers unknown called item ne hi he _ =>
      have fits : item.length < 2 ^ 28 := h.small item (by rw [items, hi]; simp)
      have install := installChunk_progress (pull_frame c _ n rest c.pyErr status headers unknown called)
        h.idle h.called rfl ne (items.trans hi) h.small rfl rfl (owed _ rfl) (he.symm.trans ending.symm)
      cases chunked : c.state.chunkedResponse with
      | true =>
        rw [chunked] at install
        simpa [Conn.pull, Request.withResponse, Conn.sentAll, chunked, wrapHttpChunkCruftAround_small fits,
          encodeItem] using install
      | false =>
        rw [chunked] at install
        simpa [Conn.pull, Request.withResponse, Conn.sentAll, chunked, encodeItem] using install
    | @stopped n rest status headers unknown called hi he _ _ =>
      have last := sendTerminatorChunk_progress (c := c) (d := {
        (c.sentAll (data.drop c.currentChunkP.toNat)).pull n rest c.pyErr status headers unknown called with
          iterator := none })
        ⟨rfl, rfl, rfl, rfl, rfl, rfl, rfl, rfl, rfl, rfl, n, rfl⟩ h.idle h.called rfl rfl rfl
        rfl (owed [] (items.trans hi)) (ending.trans he)
      simpa [Conn.pull, Conn.sentAll, h.idle] using last
    | @failed n rest exc status headers unknown called hi he =>
      have frame : ∀ exc, Frame c
          ((c.sentAll (data.drop c.currentChunkP.toNat)).pull n rest exc status headers unknown called) :=
        fun exc => pull_frame c _ n rest exc status headers unknown called
      have last := owed [] (items.trans hi)
      have failing : c.pendingEnd = false := ending.trans he
      cases exc with
      | other => simpa [Conn.pull, pyErrPrint] using Progress.aborted (frame none) rfl rfl last failing
      | systemExit => simpa [Conn.pull, pyErrPrint] using Progress.exited (frame (some .systemExit)) rfl last failing
  next ended =>
    have empty : c.iterator = none := by simpa [Conn.sentAll] using ended
    exact sendTerminatorChunk_progress ⟨rfl, rfl, rfl, rfl, rfl, rfl, rfl, rfl, rfl, rfl, 0, by simp [Conn.sentAll]⟩
      h.idle h.called rfl empty rfl rfl (owed [] (by rw [Conn.pendingItems, empty]; rfl))
      (by rw [Conn.pendingEnd, empty]; rfl)

/-- The test at the top of `ev_io_on_write`. -/
def Conn.routesSendfile (c : Conn) : Bool := c.iterable.any PyValue.hasDescriptor

theorem writeResponse_chunk {c : Conn} (direct : c.routesSendfile = false) (w : WriteEvent) :
    writeResponse c w = onWriteChunk c w := by
  unfold writeResponse
  split
  next wrapper h =>
    have closed : wrapper.fd = -1 := by simpa [Conn.routesSendfile, h, PyValue.hasDescriptor] using direct
    simp [closed]
  next => rfl

theorem Taken.idle {c c' : Conn} {v : PyValue} {first : Option Bytes} (taken : Taken c v c' (some first))
    (idle : c.pyErr = none) : c'.pyErr = none ∧ ∀ data, first = some data → data ≠ [] := by
  generalize ho : some first = o at taken
  cases taken with
  | @bytestring data =>
    cases ho
    refine ⟨idle, ?_⟩
    split <;> simp_all
  | file =>
    cases ho
    exact ⟨idle, by simp⟩
  | notIterable => cases ho
  | generic _ _ next =>
    cases next with
    | chunk ne =>
      cases ho
      exact ⟨idle, by rintro _ ⟨⟩; exact ne⟩
    | stopped =>
      have last : first = none := by simpa [idle] using ho
      exact ⟨idle, by simp [last]⟩
    | failed =>
      rw [if_pos (by simp)] at ho
      cases ho

theorem AppOutcome.idle {c c' : Conn} {r : Request} {app : PyCall PyValue} (h : AppOutcome c r app c' true)
    (idle : c.pyErr = none) : c'.pyErr = none := by
  cases h with
  | answered _ taken => exact (taken.idle idle).1

/-- A taken return value is routed by its descriptor alone. -/
theorem Taken.routes {c c' : Conn} {v : PyValue} {first : Option Bytes} (taken : Taken c v c' (some first)) :
    c'.routesSendfile = v.hasDescriptor := by
  generalize ho : some first = o at taken
  cases taken with
  | bytestring branch =>
    have string := retvalBranch_bytestring branch
    cases v with
    | fileWrapper => cases string
    | _ => rfl
  | file => simp [Conn.routesSendfile]
  | notIterable => cases ho
  | generic _ _ next => cases next <;> simp [Conn.routesSendfile]

/-- The first chunk and what the iterator has left are the items of the return value. -/
theorem Taken.items {c c' : Conn} {v : PyValue} {first : Option Bytes} (taken : Taken c v c' (some first))
    (idle : c.pyErr = none) (direct : v.hasDescriptor = false) (stays : StaysExhausted v.steps) :
    first.toList ++ c'.pendingItems = v.items ∧ c'.pendingEnd = v.ending := by
  generalize ho : some first = o at taken
  cases taken with
  | @bytestring data branch =>
    cases ho
    have string := retvalBranch_bytestring branch
    constructor
    · simp only [PyValue.items, string, Conn.pendingItems]
      split <;> simp [bodyItems]
    · simp [PyValue.ending, string, Conn.pendingEnd, endsNormally]
  | file branch =>
    have descriptor := (retvalBranch_file.mp branch).1
    rw [direct] at descriptor
    cases descriptor
  | notIterable => cases ho
  | @generic steps _ _ _ _ _ chunk branch got next =>
    have string := retvalBranch_generic branch
    have steps_eq : v.steps = steps := by rw [PyValue.steps, got]
    have items_eq : v.items = bodyItems steps := by rw [PyValue.items, string, ← steps_eq]
    have ending_eq : v.ending = endsNormally steps := by rw [PyValue.ending, string, ← steps_eq]; rfl
    rw [steps_eq] at stays
    cases next with
    | chunk ne hi he hs =>
      cases ho
      exact ⟨by rw [items_eq, hi]; rfl, by rw [ending_eq, he]; rfl⟩
    | stopped hi he _ hs =>
      obtain ⟨nothing, normal⟩ := hs stays
      have last : first = none := by simpa [idle] using ho
      subst last
      refine ⟨?_, ?_⟩
      · rw [items_eq, hi]
        exact nothing
      · rw [ending_eq, he]
        exact normal
    | failed hi he =>
      rw [if_pos (by simp)] at ho
      cases ho

theorem wsgiGetheaders_length (r : Request) : 0 < (wsgiGetheaders r).length := by
  have scheme : (ascii "HTTP/1.1 ").length = 9 := by decide
  simp only [wsgiGetheaders, List.length_append, scheme]
  omega

/-- The complete response of a connection whose application returned `v`. -/
def Conn.responseBytes (c : Conn) (v : PyValue) : Bytes :=
  wsgiGetheaders c.toRequest ++ encodeBody c.state.chunkedResponse v.items

theorem encodeFirst_small {chunked : Bool} {chunk data : Bytes} (small : chunk.length < 2 ^ 28)
    (h : encodeFirst chunked (some chunk) = some data) : data = encodeItem chunked chunk := by
  cases chunked with
  | true => exact (Option.some.inj ((wrapHttpChunkCruftAround_small small).symm.trans h)).symm
  | false => exact (Option.some.inj h).symm

/-- An installed response owes its header block and the items that were taken and are left to take. -/
theorem AppOutcome.responding {c c' : Conn} {r : Request} {app : PyCall PyValue} {v : PyValue}
    (h : AppOutcome c r app c' true) (idle : c.pyErr = none) (returned : app.result = .ok v)
    (small : ∀ mid first, Taken (c.entered r) v mid (some first) →
      ∀ item ∈ first.toList ++ mid.pendingItems, item.length < 2 ^ 28) :
    ∃ mid first, Taken (c.entered r) v mid (some first) ∧ Responding c' ∧ c'.pendingEnd = mid.pendingEnd ∧
      c'.owed = wsgiGetheaders c'.toRequest ++
        encodeBody c'.state.chunkedResponse (first.toList ++ mid.pendingItems) := by
  cases h with
  | @answered retval mid first data got taken _ framed =>
    rw [returned] at got
    cases got
    obtain ⟨idle', ne⟩ := taken.idle idle
    have iterator : (mid.installed data).iterator = mid.iterator := by
      obtain ⟨_, _, _, eq⟩ := mid.installed_frame data
      rw [eq]
    have pending : (mid.installed data).pendingItems = mid.pendingItems := by
      rw [Conn.pendingItems, iterator]
      rfl
    have fits := small mid first taken
    have body : encodeBody (mid.installed data).state.chunkedResponse (first.toList ++ mid.pendingItems) =
        data ++ encodeBody (mid.installed data).state.chunkedResponse mid.pendingItems := by
      cases first with
      | none =>
        cases framed
        rfl
      | some chunk =>
        have flag : (chooseFraming mid.toRequest).state.chunkedResponse =
            (mid.installed data).state.chunkedResponse := rfl
        rw [flag] at framed
        rw [encodeFirst_small (fits chunk (by simp)) framed]
        exact encodeBody_cons _ chunk mid.pendingItems
    refine ⟨mid, first, taken, ⟨idle', rfl, ⟨_, rfl, Int.le_refl 0, ?_⟩, ?_⟩, ?_, ?_⟩
    · have full := wsgiGetheaders_length (chooseFraming mid.toRequest)
      simp only [Conn.installed, List.length_append]
      omega
    · rw [pending]
      intro item member
      exact fits item (List.mem_append_right _ member)
    · rw [Conn.pendingEnd, iterator]
      rfl
    · rw [Conn.owed, pending, body, ← List.append_assoc]
      rfl

/-- The writer routes an installed response by the descriptor of what the application returned. -/
theorem AppOutcome.routes {c c' : Conn} {r : Request} {app : PyCall PyValue} {v : PyValue}
    (h : AppOutcome c r app c' true) (returned : app.result = .ok v) : c'.routesSendfile = v.hasDescriptor := by
  cases h with
  | @answered retval mid first data got taken _ _ =>
    rw [returned] at got
    cases got
    obtain ⟨_, _, _, eq⟩ := mid.installed_frame data
    rw [← taken.routes, eq]
    rfl

/-- A response that began after the bytes `before` and is to send `whole`: one in `on_write_chunk`, or one
that is over, which without the interim flag `interim` is sent completely unless its iterable fails. -/
inductive Delivering (before whole : Bytes) (ending chunked interim : Bool) (c : Conn) : Prop
  | underway {accepted} (writing : c.evWatcher = .writing) (responding : Responding c)
      (sent : c.sent = before ++ accepted) (left : accepted ++ c.owed = whole) (ends : c.pendingEnd = ending)
        (direct : c.routesSendfile = false)
      (flag : c.state.expectContinue = interim) (framing : ending = false → c.state.chunkedResponse = chunked)
  | concluded {accepted} (stopped : c.evWatcher ≠ .writing) (sent : c.sent = before ++ accepted)
      (part : accepted <+: whole) (all : interim = false → accepted = whole ∨ ending = false)

theorem Delivering.accepted {before whole : Bytes} {ending chunked interim : Bool} {c : Conn}
    (h : Delivering before whole ending chunked interim c) :
    ∃ accepted, c.sent = before ++ accepted ∧ accepted <+: whole := by
  cases h with
  | underway _ _ sent left => exact ⟨_, sent, _, left⟩
  | concluded _ sent part => exact ⟨_, sent, part⟩

theorem Closed.delivering {before whole accepted : Bytes} {ending chunked interim : Bool} {c c' : Conn}
    (closed : Closed c c') (sent : c.sent = before ++ accepted) (part : accepted <+: whole)
    (all : interim = false → accepted = whole ∨ ending = false) :
    Delivering before whole ending chunked interim c' :=
  .concluded (by rw [closed.evWatcher]; decide) (closed.sent.trans sent) part all

theorem Kept.delivering {before whole accepted : Bytes} {ending chunked interim : Bool} {c c' : Conn}
    (kept : Kept c c') (sent : c.sent = before ++ accepted) (part : accepted <+: whole)
    (all : interim = false → accepted = whole ∨ ending = false) :
    Delivering before whole ending chunked interim c' :=
  .concluded (by rw [kept.request]; simp) (kept.sent.trans sent) part all

theorem Progress.sent {c c' : Conn} {state : RwState} (h : Progress c (.ok (c', state))) :
    ∃ bs, c'.sent = c.sent ++ bs ∧ bs <+: c.owed := by
  cases h with
  | more _ _ sent owed => exact ⟨_, sent, _, owed⟩
  | done _ _ sent => exact ⟨_, sent, List.prefix_refl _⟩
  | aborted _ _ sent owed => exact ⟨_, sent, _, owed⟩

theorem Progress.frame {c c' : Conn} {state : RwState} (h : Progress c (.ok (c', state))) : Frame c c' := by
  cases h with
  | more frame => exact frame
  | done frame => exact frame
  | aborted frame => exact frame

theorem Delivering.transmit {before whole : Bytes} {ending chunked interim : Bool} {c c' : Conn} {w : WriteEvent}
    (h : Delivering before whole ending chunked interim c) (step : Transmit c w c') :
    Delivering before whole ending chunked interim c' := by
  obtain ⟨writing, hw, step⟩ := step
  cases h with
  | concluded stopped => exact absurd writing stopped
  | @underway accepted on responding sent left ends direct flag framing =>
    obtain ⟨⟨mid, state⟩, hm, step⟩ := bind_ok step
    rw [writeResponse_chunk direct] at hm
    have progress := onWriteChunk_progress responding hw
    rw [hm] at progress
    have same : mid.state.expectContinue = interim := progress.frame.expectContinue.trans flag
    cases interim with
    | true =>
      obtain ⟨bs, more, part⟩ := progress.sent
      simp only [same] at step
      cases step
      have sent' : mid.sent = before ++ (accepted ++ bs) := by rw [more, sent, List.append_assoc]
      refine .concluded (by simp [startReading]) sent' ?_ (by simp)
      rw [← left]
      exact (List.prefix_append_right_inj accepted).mpr part
    | false =>
      have step : finishWrite mid state = .ok c' := by simpa [same] using step
      cases progress with
      | @more _ bs frame responding' more owed ends' unchanged =>
        cases step
        have route : mid.routesSendfile = false := by rw [Conn.routesSendfile, frame.iterable]; exact direct
        have sent' : mid.sent = before ++ (accepted ++ bs) := by rw [more, sent, List.append_assoc]
        refine .underway (frame.evWatcher.trans on) (responding'.count _) sent' ?_ (ends'.trans ends) route same
          (fun failing => (unchanged (ends.trans failing)).trans (framing failing))
        rw [← left, ← owed, List.append_assoc]
        rfl
      | done frame idle more _ =>
        have all : mid.sent = before ++ whole := by rw [more, sent, List.append_assoc, left]
        have finished := finishWrite_done idle
        rw [step] at finished
        have last := finished.of_ok.2
        split at last
        next => exact last.delivering all (List.prefix_refl _) (fun _ => Or.inl rfl)
        next => exact last.delivering all (List.prefix_refl _) (fun _ => Or.inl rfl)
      | @aborted _ bs frame idle more owed failing =>
        have part : mid.sent = before ++ (accepted ++ bs) := by rw [more, sent, List.append_assoc]
        have finished := finishWrite_aborted idle
        rw [step] at finished
        refine finished.of_ok.2.delivering part ⟨encodeBody c.state.chunkedResponse [], ?_⟩
          (fun _ => Or.inr (ends.symm.trans failing))
        rw [List.append_assoc, owed, left]

theorem Responding.delivering {c : Conn} {whole : Bytes} (responding : Responding c) (owed : c.owed = whole)
    (route : c.routesSendfile = false) :
    Delivering c.sent whole c.pendingEnd c.state.chunkedResponse c.state.expectContinue (startWriting c) := by
  have none : (startWriting c).sent = c.sent ++ [] := (List.append_nil _).symm
  exact .underway rfl responding.start none owed rfl route rfl (fun _ => rfl)

theorem AppOutcome.delivering {c c' : Conn} {r : Request} {app : PyCall PyValue} {v : PyValue}
    (h : AppOutcome c r app c' true) (idle : c.pyErr = none) (returned : app.result = .ok v)
    (direct : v.hasDescriptor = false) (stays : StaysExhausted v.steps)
    (small : ∀ item ∈ v.items, item.length < 2 ^ 28) :
    Delivering c'.sent (c'.responseBytes v) v.ending c'.state.chunkedResponse c'.state.expectContinue
      (startWriting c') := by
  obtain ⟨mid, first, taken, responding, ends, owed⟩ := h.responding idle returned (fun mid first taken => by
    rw [(taken.items idle direct stays).1]
    exact small)
  obtain ⟨items, ending⟩ := taken.items idle direct stays
  rw [← ending, ← ends]
  refine responding.delivering ?_ ((h.routes returned).trans direct)
  rw [owed, items]
  rfl

/-- Whatever the schedule of `write()` results, what is accepted is a prefix of the response, and the whole
response when `on_write_chunk` reports done. Only where the iterable fails does it stop before that, with
every item sent that came before. -/
theorem response_delivered {c₀ c c' : Conn} {app : PyCall PyValue} {v : PyValue} {writes : List WriteEvent}
    (idle : c₀.pyErr = none) (answered : wsgiCallApplication c₀ app = .ok (c, true))
    (returned : app.result = .ok v) (direct : v.hasDescriptor = false)
    (clear : c.state.expectContinue = false) (stays : StaysExhausted v.steps)
    (small : ∀ item ∈ v.items, item.length < 2 ^ 28) (run : Run Transmit (startWriting c) writes c') :
    (∃ accepted, c'.sent = c.sent ++ accepted ∧ accepted <+: c.responseBytes v ∧
      (c'.evWatcher = .writing ∨ accepted = c.responseBytes v ∨ v.ending = false)) ∧
    ∀ w, c'.evWatcher = .writing → ¬ Fatal w →
      writeResponse c' w = onWriteChunk c' w ∧
      (∀ last, onWriteChunk c' w = .ok (last, .done) → last.sent = c.sent ++ c.responseBytes v) ∧
      (∀ last, onWriteChunk c' w = .ok (last, .aborted) → v.ending = false ∧
        last.sent ++ encodeBody c.state.chunkedResponse [] = c.sent ++ c.responseBytes v) ∧
      ∀ halt last, onWriteChunk c' w = .error (halt, last) → halt = .exit ∧ v.ending = false := by
  obtain ⟨r, _, outcome⟩ := wsgiCallApplication_outcome answered
  have start := outcome.delivering idle returned direct stays small
  rw [clear] at start
  have reached := run.invariant
    (Delivering c.sent (c.responseBytes v) v.ending c.state.chunkedResponse false)
    (fun _ _ _ inv step => inv.transmit step) start
  cases reached with
  | concluded stopped sent part all =>
    exact ⟨⟨_, sent, part, Or.inr (all rfl)⟩, fun w writing => absurd writing stopped⟩
  | @underway accepted on responding sent left ends route _ framing =>
    refine ⟨⟨accepted, sent, ⟨_, left⟩, Or.inl on⟩, ?_⟩
    intro w writing hw
    have progress := onWriteChunk_progress responding hw
    refine ⟨writeResponse_chunk route w, ?_, ?_, ?_⟩
    · intro last h
      rw [h] at progress
      cases progress with
      | done _ _ more _ => rw [more, sent, List.append_assoc, left]
    · intro last h
      rw [h] at progress
      cases progress with
      | @aborted _ bs _ _ more owed failing =>
        have fails : v.ending = false := ends.symm.trans failing
        rw [framing fails] at owed
        refine ⟨fails, ?_⟩
        calc last.sent ++ encodeBody c.state.chunkedResponse []
            = c.sent ++ (accepted ++ (bs ++ encodeBody c.state.chunkedResponse [])) := by
              rw [more, sent]
              simp only [List.append_assoc]
          _ = c.sent ++ c.responseBytes v := by rw [owed, left]
    · intro halt last h
      rw [h] at progress
      cases progress with
      | exited _ _ _ failing => exact ⟨rfl, ends.symm.trans failing⟩

def freshConn : Conn := evIoOnRequest [] ⟨1, 1, .get, 0, true⟩

/-- An iterable of one item. -/
def oneItem : PyValue := .other ⟨[], .ok [⟨[], .ok (.bytes (ascii "hello"))⟩]⟩ .returns

def returning (v : PyValue) : PyCall PyValue := ⟨[okArgs], .ok v⟩

def accepts (n : Nat) : WriteEvent := ⟨.room n, 0, []⟩

/-- The header block and the item of `oneItem`. -/
def helloBytes : Bytes :=
  ascii "HTTP/1.1 200\r\nConnection: Keep-Alive\r\nTransfer-Encoding: chunked\r\n\r\n5\r\nhello\r\n"

/-- A chunked response of which `write()` takes nothing, then the header block and the item, then the terminator. -/
theorem response_delivered_hello : ∃ c c' last, wsgiCallApplication freshConn (returning oneItem) = .ok (c, true) ∧
    Run Transmit (startWriting c) [⟨.errno .eagain, 0, []⟩, accepts 1000] c' ∧ c'.sent = helloBytes ∧
    c'.sent <+: c.responseBytes oneItem ∧ onWriteChunk c' (accepts 100) = .ok (last, .done) ∧
    last.sent = helloBytes ++ ascii "0\r\n\r\n" ∧ last.sent = c.responseBytes oneItem := by
  have reach : ∃ c c' last, wsgiCallApplication freshConn (returning oneItem) = .ok (c, true) ∧
      Run Transmit (startWriting c) [⟨.errno .eagain, 0, []⟩, accepts 1000] c' ∧ c'.evWatcher = .writing ∧
      c'.sent = helloBytes ∧ onWriteChunk c' (accepts 100) = .ok (last, .done) ∧
      last.sent = helloBytes ++ ascii "0\r\n\r\n" ∧ c.sent = [] ∧ c.state.expectContinue = false :=
    ⟨_, _, _, rfl, .cons ⟨rfl, by decide, rfl⟩ (.single ⟨rfl, by decide, rfl⟩), rfl, by decide, rfl, by decide, rfl,
      rfl⟩
  obtain ⟨c, c', last, answered, run, writing, sent, concludes, bytes, none, clear⟩ := reach
  obtain ⟨⟨accepted, eq, part, _⟩, next⟩ := response_delivered rfl answered rfl rfl clear
    (by simp [StaysExhausted, oneItem, PyValue.steps, PyValue.getIter]) (by decide) run
  have whole := (next (accepts 100) writing (by decide)).2.1 last concludes
  rw [none, List.nil_append] at eq whole
  exact ⟨c, c', last, answered, run, sent, eq ▸ part, concludes, bytes, whole⟩

end Bjoern
