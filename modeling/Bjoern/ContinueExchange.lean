import Bjoern.Answering
import Bjoern.InterimResponse

namespace Bjoern

open Runs

/-- A connection on which a request `q` begins, with the dictionary `d` that its path gives. -/
structure Exchange where
  base : Environ
  q : HttpRequest
  d : Environ
  app : PyCall PyValue
  pos : Nat
  start : Conn

/-- The environ with which the application is to be called. -/
def Exchange.environ (x : Exchange) : Headers := .environ (x.q.environ x.base x.start.clientAddr x.d)

/-- Before the answer of `x` there is nothing, or the interim message. -/
def Prelude (pre : Bytes) : Prop := pre = [] ∨ pre = continueMessage

/-- The connection `call` on which the application is called, after the bytes `pre`. -/
structure Exchange.Calls (x : Exchange) (pre : Bytes) (call : Conn) : Prop where
  headers : call.headers = x.environ
  sent : call.sent = x.start.sent ++ pre
  environs : call.environs = x.start.environs

/-- The answer to the request is on its way behind `pre`, or all of it is sent and the connection kept or closed. -/
def Exchange.Answered (x : Exchange) (c : Conn) : Prop :=
  ∃ pre call R keep accepted, Prelude pre ∧ x.Calls pre call ∧ Answer call x.app x.pos R keep ∧
    c.environs = x.start.environs ++ [x.environ] ∧ c.sent = x.start.sent ++ pre ++ accepted ∧ accepted <+: R ∧
    (c.evWatcher = .writing ∨ accepted = R ∧ if keep then Ready c else c.evWatcher = .closed)

/-- Reads bring the request, whose application is `app`. No expectation stands behind the callbacks of the read that
completes it, and neither an interim message that is sent in part nor a fatal error occurs. -/
def Exchange.Heeds (x : Exchange) : Conn × List (HttpParser × Callback) → Event → Prop
  | (c, left), .read e => left ≠ [] ∧ e.app = x.app ∧ ∀ data, e.result = .bytes data →
      (∃ y ∈ data.fired, y.2 = .messageComplete) → ¬ Stands c.toRequest data.fired ∧ AnswersWhole c x.app
  | (c, _), .write w => ¬ Fatal w ∧
      (c.state.expectContinue = true → ∃ n, w.result = .room n ∧ continueMessage.length ≤ n) ∧
      (c.routesSendfile = true → Transfers x.pos c w)

/-- Where the connection is with the request. -/
inductive Exchange.Stage (x : Exchange) : Conn × List (HttpParser × Callback) → Prop
  | reading {c left spent pre} : Receiving x.base spent x.q x.d left c → c.state.expectContinue = false →
      c.currentChunkP = 0 → c.clientAddr = x.start.clientAddr → Prelude pre → (spent = false → pre = []) →
      c.sent = x.start.sent ++ pre → c.environs = x.start.environs → x.Stage (c, left)
  | interim {c left} : Interim x.base x.q x.d left c → c.currentChunkP = 0 → c.clientAddr = x.start.clientAddr →
      c.sent = x.start.sent → c.environs = x.start.environs → x.Stage (c, left)
  | lost {c left pre} : left ≠ [] → c.evWatcher = .closed → Prelude pre → c.sent = x.start.sent ++ pre →
      c.environs = x.start.environs → x.Stage (c, left)
  | answering {c pre call R keep} : Prelude pre → x.Calls pre call → Answer call x.app x.pos R keep →
      Answering (x.start.sent ++ pre) R keep x.pos c → c.environs = x.start.environs ++ [x.environ] →
      x.Stage (c, [])

theorem Exchange.Stage.read {x : Exchange} {c c' : Conn} {e : ReadEvent} {data : ReadData}
    {rest : List (HttpParser × Callback)} (h : x.Stage (c, data.fired ++ rest))
    (heeds : x.Heeds (c, data.fired ++ rest) (.read e)) (bytes : e.result = .bytes data)
    (consumed : data.consumed = true) (step : Step x.base c (.read e) c') : x.Stage (c', rest) := by
  obtain ⟨reading, step⟩ := step
  obtain ⟨unread, app, whole⟩ := heeds
  have frame := (c.parsed_frame x.base data).request
  have parses := evIoOnRead_parses step bytes
  generalize hl : data.fired ++ rest = left at h
  cases h with
  | interim interim => cases interim.writing.symm.trans reading
  | lost _ closed => cases closed.symm.trans reading
  | answering => simp [hl] at unread
  | @reading _ _ spent pre receiving clear position address prelude quiet sent environs =>
    subst hl
    by_cases more : rest = []
    · subst more
      rw [List.append_nil] at receiving
      have complete := receiving.whole parses consumed
      obtain ⟨unawaited, answers⟩ := whole data bytes (receiving.completes parses complete.finished)
      have up := receiving.unexpected parses complete.noError unawaited
      obtain ⟨called, answered, call, result⟩ :=
        (evIoOnRead_outcome step).finished bytes complete.noError complete.finished
      rw [app] at call
      have untouched := (receiving.untouched.parsed parses).count .reqSuccessRead
      obtain ⟨R, keep, answer, answering⟩ := Answering.start x.pos untouched up
        (frame.currentChunkP.trans position) (answers.parsed data) call
      rw [address] at complete
      have sent' : (c.parsed x.base data).sent = x.start.sent ++ pre := (c.parsed_sent x.base data).trans sent
      have environs' := (c.parsed_environs x.base data).trans environs
      have calls : x.Calls pre ((c.parsed x.base data).count .reqSuccessRead) := ⟨complete.headers, sent', environs'⟩
      rw [calls.sent] at answering
      obtain ⟨r, made, outcome⟩ := wsgiCallApplication_outcome call
      have called' := (outcome.frame made).environs
      rw [calls.headers, calls.environs] at called'
      rcases result with ⟨rfl, rfl⟩ | ⟨rfl, rfl⟩
      · exact .answering prelude calls answer answering called'
      · exact .answering prelude calls answer answering called'
    · have sent' : (c.parsed x.base data).sent = x.start.sent ++ pre := (c.parsed_sent x.base data).trans sent
      have environs' := (c.parsed_environs x.base data).trans environs
      rcases receiving.read bytes consumed more step with ⟨rfl, clear', next⟩ | ⟨rfl, fresh, interim⟩
      · exact .reading next clear' (frame.currentChunkP.trans position) (frame.clientAddr.trans address) prelude quiet
          sent' environs'
      · have unspent : spent = false := by simpa [clear] using fresh
        have plain : (c.parsed x.base data).sent = x.start.sent := by simpa [quiet unspent] using sent'
        exact .interim interim (frame.currentChunkP.trans position) (frame.clientAddr.trans address) plain environs'

theorem Exchange.Stage.noBytes {x : Exchange} {c c' : Conn} {e : ReadEvent} {left : List (HttpParser × Callback)}
    (h : x.Stage (c, left)) (unread : left ≠ []) (none : ∀ data, e.result ≠ .bytes data)
    (step : Step x.base c (.read e) c') : x.Stage (c', left) := by
  obtain ⟨reading, step⟩ := step
  cases h with
  | interim interim => cases interim.writing.symm.trans reading
  | lost _ closed => cases closed.symm.trans reading
  | answering => exact absurd rfl unread
  | reading receiving clear position address prelude quiet sent environs =>
    rcases evIoOnRead_noBytes step receiving.untouched.idle none with rfl | ⟨metric, closed⟩
    · exact .reading (receiving.count _) clear position address prelude quiet sent environs
    · exact .lost unread closed.evWatcher prelude (closed.sent.trans sent) (closed.environs.trans environs)

theorem Exchange.Stage.write {x : Exchange} {c c' : Conn} {w : WriteEvent} {left : List (HttpParser × Callback)}
    (h : x.Stage (c, left)) (heeds : x.Heeds (c, left) (.write w)) (step : Step x.base c (.write w) c') :
    x.Stage (c', left) := by
  obtain ⟨writing, step⟩ := step
  obtain ⟨hw, room, transfers⟩ := heeds
  cases h with
  | reading receiving => cases receiving.reading.symm.trans writing
  | lost _ closed => cases closed.symm.trans writing
  | interim interim position address sent environs =>
    obtain ⟨n, result, all⟩ := room interim.expects
    obtain ⟨receiving, clear, called⟩ := interim.write step
    obtain ⟨more, position'⟩ := interim.write_whole step position result all
    refine .reading receiving clear position' ((evIoOnWrite_environs step).1.trans address) (Or.inr rfl) (by simp) ?_
      (called.trans environs)
    rw [more, sent]
  | answering prelude environ answer answering environs =>
    exact .answering prelude environ answer (answering.transmit ⟨writing, hw, step⟩ transfers)
      ((evIoOnWrite_environs step).2.trans environs)

theorem Exchange.Stage.step {x : Exchange} {s s' : Conn × List (HttpParser × Callback)} {event : Event}
    (h : x.Stage s) (step : Guarded x.Heeds (Feeds x.base) s event s') : x.Stage s' := by
  obtain ⟨heeds, step⟩ := step
  cases step with
  | bytes bytes consumed split step =>
    subst split
    exact h.read heeds bytes consumed step
  | noBytes none step => exact h.noBytes heeds.1 none step
  | write step => exact h.write heeds step

/-- A request with an `Expect: 100-continue` header gets the complete answer of one call of the application, with
nothing or the complete interim message before it, and the connection reads on only when that is accepted. -/
theorem continue_exchange {x : Exchange} {pieces : Pieces x.q} {c : Conn} {fired left : List (HttpParser × Callback)}
    {events : List Event} (ready : Ready x.start) (fires : Fires x.q pieces fired)
    (decodes : addPath .empty pieces.path = some x.d) (expects : pieces.Expects)
    (run : Run (Guarded x.Heeds (Feeds x.base)) (x.start, fired) events (c, left)) :
    (left = [] → x.Answered c) ∧
    (left ≠ [] → c.environs = x.start.environs ∧ (∃ pre, Prelude pre ∧ c.sent = x.start.sent ++ pre) ∧
      ∀ w c', c.evWatcher = .writing → Guarded x.Heeds (Feeds x.base) (c, left) (.write w) (c', left) →
        c.sent = x.start.sent ∧ (c'.evWatcher = .reading → c'.sent = x.start.sent ++ continueMessage)) := by
  have start : x.Stage (x.start, fired) :=
    .reading (ready.receiving fires decodes (Or.inr expects)) ready.flags.2.2.1 ready.flags.2.2.2 rfl (Or.inl rfl)
      (fun _ => rfl) (by simp) rfl
  have reached := run.invariant x.Stage (fun _ _ _ stage step => stage.step step) start
  constructor
  · rintro rfl
    cases reached with
    | reading receiving => exact absurd rfl receiving.some
    | interim interim => exact absurd rfl interim.rest.some
    | lost unread => exact absurd rfl unread
    | answering prelude environ answer answering environs =>
      obtain ⟨accepted, sent, part, ends⟩ := answering.accepted
      exact ⟨_, _, _, _, accepted, prelude, environ, answer, environs, sent, part, ends⟩
  · intro unread
    cases reached with
    | @reading _ _ _ pre receiving _ _ _ prelude _ sent environs =>
      exact ⟨environs, ⟨pre, prelude, sent⟩, fun w c' writing => by cases receiving.reading.symm.trans writing⟩
    | interim interim position _ sent environs =>
      refine ⟨environs, ⟨[], Or.inl rfl, by simp [sent]⟩, fun w c' _ step => ⟨sent, fun _ => ?_⟩⟩
      obtain ⟨⟨_, room, _⟩, step⟩ := step
      obtain ⟨n, result, all⟩ := room interim.expects
      cases step with
      | write step => rw [(interim.write_whole step.2 position result all).1, sent]
    | @lost _ _ pre _ closed prelude sent environs =>
      exact ⟨environs, ⟨pre, prelude, sent⟩, fun w c' writing => by cases closed.symm.trans writing⟩
    | answering => exact absurd rfl unread

/-- `POST /` with an expectation and a body of two bytes. -/
def expectingPost : HttpRequest :=
  ⟨http11Post, ascii "/", [], [(ascii "Expect", ascii "100-continue")], ascii "hi"⟩

def expectingPieces : Pieces expectingPost := expectingPost.whole

theorem expectingPieces_expects : expectingPieces.Expects := ⟨[], _, [], rfl, rfl, by simp⟩

def rootPath : Environ := setOrAppendHeader (ascii "PATH_INFO") (ascii "/") .empty

/-- The reads of `expectingPost`: the headers, and the body behind them. -/
def expectingReads : ReadEvent × ReadEvent :=
  (⟨.bytes ⟨expectingPieces.fired.take 4, http11Post, true⟩, returning oneItem⟩,
    ⟨.bytes ⟨expectingPieces.fired.drop 4, http11Post, true⟩, returning oneItem⟩)

theorem expectingReads_headers : ∀ y ∈ expectingPieces.fired.take 4, y.2 ≠ .messageComplete := by
  decide

theorem expectingReads_body (r : Request) : ¬ Stands r (expectingPieces.fired.drop 4) := by
  have rest : expectingPieces.fired.drop 4 = [(http11Post, .body (ascii "hi")), (http11Post, .messageComplete)] := rfl
  rw [rest]
  intro stands
  obtain ⟨_, noBody⟩ := stands.stood (by simp)
  exact noBody (http11Post, .body (ascii "hi")) (by simp) _ rfl

theorem returning_oneItem_answersWhole (c : Conn) : AnswersWhole c (returning oneItem) := by
  rintro r v _ ⟨⟩
  exact ⟨by simp [StaysExhausted, oneItem, PyValue.steps, PyValue.getIter], by decide, Or.inl rfl⟩

/-- A `POST /` whose application answers with one item. -/
def expectingExchange : Exchange := ⟨.empty, expectingPost, rootPath, returning oneItem, 0, freshConn⟩

/-- The interim message is sent between the two reads. -/
theorem continue_exchange_post : ∃ c, Run (Step .empty) freshConn
      [.read expectingReads.1, .write (accepts 25), .read expectingReads.2, .write (accepts 1000),
        .write (accepts 1000)] c ∧
      c.sent = continueMessage ++ ascii
        "HTTP/1.1 200\r\nConnection: Keep-Alive\r\nTransfer-Encoding: chunked\r\n\r\n5\r\nhello\r\n0\r\n\r\n" ∧
      expectingExchange.Answered c ∧ c.evWatcher = .reading := by
  have answered : ∀ c, Run (Guarded expectingExchange.Heeds (Feeds .empty)) (freshConn, expectingPieces.fired)
      [.read expectingReads.1, .write (accepts 25), .read expectingReads.2, .write (accepts 1000),
        .write (accepts 1000)] (c, []) → expectingExchange.Answered c := fun c run =>
    (continue_exchange (evIoOnRequest_ready [] http11Get) (expectingPieces.fires (Or.inl (by decide))) rfl
      expectingPieces_expects run).1 rfl
  refine ⟨_, .cons ⟨rfl, rfl⟩ (.cons ⟨rfl, rfl⟩ (.cons ⟨rfl, rfl⟩ (.cons ⟨rfl, rfl⟩ (.single ⟨rfl, rfl⟩)))),
    by decide, answered _ ?_, rfl⟩
  refine .cons (t := (_, expectingPieces.fired.drop 4)) ⟨⟨by decide, rfl, ?_⟩, .bytes rfl rfl rfl ⟨rfl, rfl⟩⟩ ?_
  · rintro _ ⟨⟩ ⟨y, member, complete⟩
    exact absurd complete (expectingReads_headers y member)
  refine .cons ⟨⟨by decide, fun _ => ⟨25, rfl, by decide⟩, nofun⟩, .write ⟨rfl, rfl⟩⟩ ?_
  refine .cons (t := (_, [])) ⟨⟨by decide, rfl, ?_⟩, .bytes rfl rfl rfl ⟨rfl, rfl⟩⟩ ?_
  · rintro _ ⟨⟩ _
    exact ⟨expectingReads_body _, returning_oneItem_answersWhole _⟩
  refine .cons ⟨⟨by decide, nofun, nofun⟩, .write ⟨rfl, rfl⟩⟩ ?_
  exact .single ⟨⟨by decide, nofun, nofun⟩, .write ⟨rfl, rfl⟩⟩

/-- `GET /` with an expectation. -/
def expectingGet : HttpRequest := ⟨http11Get, ascii "/", [], [(ascii "Expect", ascii "100-continue")], []⟩

def bodilessPieces : Pieces expectingGet := expectingGet.whole

/-- All of `expectingGet` comes in one read. -/
def expectingGetRead : ReadEvent := ⟨.bytes ⟨bodilessPieces.fired, http11Get, true⟩, returning oneItem⟩

/-- The first write of the response counts as one of an interim message: the connection goes back to reading, and
the last chunk is never sent. -/
theorem response_cut_short : bodilessPieces.Expects ∧ Fires expectingGet bodilessPieces bodilessPieces.fired ∧
    ∃ c, Run (Feeds .empty) (freshConn, bodilessPieces.fired) [.read expectingGetRead, .write (accepts 1000)] (c, []) ∧
      c.evWatcher = .reading ∧
      c.sent = ascii "HTTP/1.1 200\r\nConnection: Keep-Alive\r\nTransfer-Encoding: chunked\r\n\r\n5\r\nhello\r\n" ∧
      ¬ Exchange.Answered ⟨.empty, expectingGet, rootPath, returning oneItem, 0, freshConn⟩ c := by
  refine ⟨⟨[], _, [], rfl, rfl, by simp⟩, bodilessPieces.fires (Or.inr rfl), _,
    .cons (t := (_, [])) (.bytes rfl rfl rfl ⟨rfl, rfl⟩) (.single (.write ⟨rfl, rfl⟩)), rfl, by decide, ?_⟩
  rintro ⟨pre, call, R, keep, accepted, _, _, _, _, _, _, writing | ⟨_, ends⟩⟩
  · cases writing
  · cases keep with
    | true =>
      have unfinished := (show Ready _ from ends).flags.2.1
      cases unfinished
    | false => cases show _ = Watcher.closed from ends

end Bjoern
