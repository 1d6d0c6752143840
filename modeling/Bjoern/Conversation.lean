import Bjoern.ClientReading
import Bjoern.EnvironComplete
import Bjoern.PipelinedRequests
import Mathlib.Data.List.Forall2

namespace Bjoern

open Runs HttpReading

theorem forall₂_map_iff {α β γ : Type} {f : α → γ} {g : β → γ} {xs : List α} {ys : List β} :
    List.Forall₂ (fun a b => f a = g b) xs ys ↔ xs.map f = ys.map g := by
  rw [← List.forall₂_eq_eq_eq, List.forall₂_map_left_iff, List.forall₂_map_right_iff]

/-- What is paired with the elements of one list is paired with each other. -/
theorem forall₂_through {α β γ : Type} {R : α → β → Prop} {S : α → γ → Prop} {xs : List α} {ys : List β} {zs : List γ}
    (h : List.Forall₂ R xs ys) (h' : List.Forall₂ S xs zs) :
    List.Forall₂ (fun y z => ∃ x ∈ xs, R x y ∧ S x z) ys zs := by
  induction h generalizing zs with
  | nil =>
    cases h'
    exact .nil
  | cons related _ ih =>
    cases h' with
    | cons related' rest' =>
      refine .cons ⟨_, List.mem_cons_self, related, related'⟩ ((ih rest').imp ?_)
      rintro y z ⟨x, member, both⟩
      exact ⟨x, List.mem_cons_of_mem _ member, both⟩

def HttpRequest.isHead (q : HttpRequest) : Bool := q.parser.method = .other (ascii "HEAD")

/-- The environ has the method that the parser is left with. -/
def NamesMethod (c : Conn) : Prop :=
  c.headers.getItem (ascii "REQUEST_METHOD") = some (.str c.parser.parser.method.str)

theorem HttpMethod.str_head (method : HttpMethod) : method.str = ascii "HEAD" ↔ method = .other (ascii "HEAD") := by
  cases method with
  | get => decide
  | other str => simp [HttpMethod.str]

theorem finishEnviron_method {base : Environ} (free : base (ascii "REQUEST_METHOD") = none) (clientAddr : Bytes)
    (parser : HttpParser) (d : Environ) :
    finishEnviron base clientAddr parser d (ascii "REQUEST_METHOD") = some (.str parser.method.str) := by
  rw [finishEnviron]
  exact (rewindInput_merge free (by decide)).trans rfl

/-- The pieces of a path put nothing else into the dictionary. -/
theorem stoppedPath_method (path : List Bytes) (d : Environ) :
    stoppedPath d path (ascii "REQUEST_METHOD") = d (ascii "REQUEST_METHOD") := by
  induction path generalizing d with
  | nil => rfl
  | cons piece rest ih =>
    rw [stoppedPath]
    cases decodePath piece with
    | some path => exact (ih _).trans (setOrAppendHeader_other (by decide) _ d)
    | none => rfl

/-- A request whose environ has a method at all has its own. -/
theorem HttpRequest.ownEnviron_method {q : HttpRequest} {base : Environ} {clientAddr : Bytes} {v : EnvVal}
    (free : base (ascii "REQUEST_METHOD") = none)
    (found : (q.ownEnviron base clientAddr).getItem (ascii "REQUEST_METHOD") = some v) :
    v = .str q.parser.method.str := by
  have found : q.dictionary base clientAddr q.wholePath (ascii "REQUEST_METHOD") = some v := found
  unfold HttpRequest.dictionary at found
  cases decodes : addPath .empty q.wholePath with
  | some d =>
    rw [decodes] at found
    exact Option.some.inj (found.symm.trans (finishEnviron_method free clientAddr q.parser _))
  | none =>
    rw [decodes] at found
    have nothing : stoppedPath .empty q.wholePath (ascii "REQUEST_METHOD") = none := stoppedPath_method _ _
    cases nothing.symm.trans found

theorem NamesMethod.of_own {q : HttpRequest} {base : Environ} {clientAddr : Bytes} {c : Conn} (h : NamesMethod c)
    (free : base (ascii "REQUEST_METHOD") = none) (own : c.headers = q.ownEnviron base clientAddr) :
    c.isHead = q.isHead := by
  rw [NamesMethod, own] at h
  have same := EnvVal.str.inj (HttpRequest.ownEnviron_method free h)
  have head : c.parser.parser.method = .other (ascii "HEAD") ↔ q.parser.method = .other (ascii "HEAD") := by
    rw [← HttpMethod.str_head, ← HttpMethod.str_head, same]
  exact decide_eq_decide.mpr head

/-- The parser is left with the method of a request that ends in a read. -/
def KeepsMethod : Event → Prop
  | .read e => ∀ data, e.result = .bytes data → ∀ y ∈ data.fired, y.2 = .messageComplete →
      data.parser.method = y.1.method
  | .write _ => True

namespace Pipeline

variable {x : Pipeline}

/-- Requests and answers alternate, and the client and the application keep to what the server relies on. -/
def Conversing (x : Pipeline) (s : Conn × List (HttpParser × Callback)) (event : Event) : Prop :=
  Separate s event ∧ Attended x.base s.1 event ∧ KeepsMethod event

/-- The environ that a request ends with has the method of the last callback. -/
theorem runCallbacks_method {base : Environ} {r r' : Request} {before : List (HttpParser × Callback)}
    {parser : HttpParser} {d : Environ} (free : base (ascii "REQUEST_METHOD") = none)
    (completed : runCallbacks base r (before ++ [(parser, .messageComplete)]) = (r', true))
    (made : r'.headers = .environ d) : d (ascii "REQUEST_METHOD") = some (.str parser.method.str) := by
  obtain ⟨_, last⟩ := runCallbacks_snoc (congrArg Prod.snd completed)
  rw [last] at completed
  cases completed
  generalize (runCallbacks base r before).1 = mid at made
  have made : mid.headers.modify (finishEnviron base mid.clientAddr parser) = .environ d := made
  cases start : mid.headers with
  | null => rw [start] at made; cases made
  | response fields => rw [start] at made; cases made
  | environ begun =>
    rw [start] at made
    cases made
    exact finishEnviron_method free mid.clientAddr parser begun

/-- A read that ends a request leaves the parser with the method of its environ. -/
theorem Stage.readEnds {c : Conn} {e : ReadEvent} {data : ReadData} {rest : List (HttpParser × Callback)}
    (h : x.Stage (c, data.fired ++ rest)) (free : x.base (ascii "REQUEST_METHOD") = none)
    (separate : Separate (c, data.fired ++ rest) (.read e)) (bytes : e.result = .bytes data)
    (keeps : KeepsMethod (.read e)) (reading : c.evWatcher = .reading) (parses : Parses x.base c data)
    (noError : (c.parsed x.base data).state.errorCode = none)
    (finished : (c.parsed x.base data).state.parseFinished = true) : NamesMethod (c.parsed x.base data) := by
  obtain ⟨completes, state, same⟩ := parsed_kept parses noError
  obtain ⟨_, _, left_with⟩ := parses.completed noError
  have parser_left : (c.parsed x.base data).parser.parser = data.parser := by rw [left_with]
  generalize hl : data.fired ++ rest = left at h
  cases h with
  | asking writing => cases writing.symm.trans reading
  | answering writing => cases writing.symm.trans reading
  | refusing writing => cases writing.symm.trans reading
  | concluded closed => cases closed.symm.trans reading
  | reading _ _ _ unfinished reads =>
    subst hl
    cases reads.take (separate.2 data bytes).1 with
    | part unended =>
      rw [state, runCallbacks_unfinished x.base c.toRequest unended] at finished
      cases unfinished.symm.trans finished
    | @whole s later before parser _ _ _ last _ own =>
      have member : (parser, Callback.messageComplete) ∈ data.fired := by simp [last]
      have method := keeps data bytes _ member rfl
      have made := own completes
      have ran : runCallbacks x.base c.toRequest (before ++ [(parser, .messageComplete)]) =
          ((runCallbacks x.base c.toRequest data.fired).1, true) := by
        rw [← last]
        exact Prod.ext rfl completes
      have named := runCallbacks_method free ran made
      rw [NamesMethod, ← same.headers, made, parser_left, method]
      exact named

/-- What the application is called with names the method that the parser is left with. -/
theorem Stage.namesMethod {s s' : Conn × List (HttpParser × Callback)} {event : Event} (h : x.Stage s)
    (free : x.base (ascii "REQUEST_METHOD") = none) (step : Guarded x.Conversing (Feeds x.base) s event s') :
    ∀ call ∈ s.1.calls x.base event, NamesMethod call.1 := by
  obtain ⟨⟨separate, _, keeps⟩, step⟩ := step
  intro call member
  cases step with
  | write => cases member
  | @noBytes c _ e _ none _ =>
    obtain ⟨result, app⟩ := e
    cases result with
    | bytes data => exact absurd rfl (none data)
    | _ => cases member
  | @bytes c c' e data left rest bytes consumed split step =>
    subst split
    rw [calls_of_bytes bytes] at member
    split at member
    next ends =>
      obtain ⟨noError, finished⟩ := ends
      rw [List.mem_singleton.mp member]
      exact h.readEnds free separate bytes keeps step.1 (evIoOnRead_parses step.2 bytes) noError finished
    next => cases member

theorem Conversing.attended {s s' : Conn × List (HttpParser × Callback)} {event : Event}
    (step : Guarded x.Conversing (Feeds x.base) s event s') :
    Guarded (Attended x.base) (Step x.base) s.1 event s'.1 := by
  obtain ⟨⟨_, attended, _⟩, step⟩ := step
  cases step with
  | bytes _ _ _ step => exact ⟨attended, step⟩
  | noBytes _ step => exact ⟨attended, step⟩
  | write step => exact ⟨attended, step⟩

/-- The calls so far name their methods. -/
structure Named (x : Pipeline) (past : List Event) (calls : List (Conn × PyCall PyValue))
    (s : Conn × List (HttpParser × Callback)) : Prop where
  stage : x.Stage s
  named : ∀ call ∈ calls, NamesMethod call.1

theorem Named.step {past : List Event} {calls : List (Conn × PyCall PyValue)}
    {s s' : Conn × List (HttpParser × Callback)} {event : Event} (h : x.Named past calls s)
    (free : x.base (ascii "REQUEST_METHOD") = none) (step : Guarded x.Conversing (Feeds x.base) s event s') :
    x.Named (past ++ [event]) (calls ++ s.1.calls x.base event) s' := by
  refine ⟨h.stage.step ⟨step.1.1, step.2⟩, fun call member => ?_⟩
  rcases List.mem_append.mp member with before | new
  · exact h.named call before
  · exact h.stage.namesMethod free step call new

/-- The calls of the application in a run are those for the requests that have ended. -/
theorem calls_of_requests {clientAddr : Bytes} {parser : HttpParser} {events : List Event}
    {calls : List (Conn × PyCall PyValue)} {c : Conn} {left : List (HttpParser × Callback)}
    (accepted : x.start = evIoOnRequest clientAddr parser) (free : x.base (ascii "REQUEST_METHOD") = none)
    (run : Traced (Guarded x.Conversing (Feeds x.base)) (fun s => Conn.calls x.base s.1)
      (x.start, callbacks x.requests) events calls (c, left)) :
    List.Forall₂ (fun call (s : Sent) => call.1.isHead = s.q.isHead ∧ call.1.headers = s.q.ownEnviron x.base clientAddr)
      calls (x.ended left) := by
  obtain ⟨stage, named⟩ := run.invariant_history x.Named (fun _ _ _ _ _ named step => named.step free step)
    (⟨Stage.start, by simp⟩ : x.Named [] [] _)
  have own : Traced (Guarded (Attended x.base) (Step x.base)) (Conn.calls x.base) x.start events calls c :=
    run.project Prod.fst (fun _ _ _ step => Conversing.attended step) fun _ _ => rfl
  rw [accepted] at own
  have environs := (telling_of_run own).2.2.symm.trans stage.environs
  rw [Pipeline.calls, accepted] at environs
  have paired : List.Forall₂ (fun (call : Conn × PyCall PyValue) (s : Sent) =>
      call.1.headers = s.q.ownEnviron x.base clientAddr) calls (x.ended left) := forall₂_map_iff.mpr environs
  refine ((List.forall₂_and_left _ _).mpr ⟨named, paired⟩).imp ?_
  rintro call s ⟨names, same⟩
  exact ⟨names.of_own free same, same⟩

end Pipeline

theorem Message.calls_replies (past : List Message) :
    past.flatMap Message.calls = (past.flatMap Message.replies).map fun r => (r.conn, r.app) := by
  rw [List.map_flatMap]
  refine List.flatMap_congr fun m _ => ?_
  cases m <;> rfl

/-- What a client and an application say to each other through the server: the client reads one response for each of
its requests that have ended, in order, which has what the application has answered when it was called with the
environ that this request alone determines. No other response comes, and when the server waits for a request, none is
missing. -/
theorem requests_answered {x : Pipeline} {clientAddr : Bytes} {parser : HttpParser} {events : List Event}
    {calls : List (Conn × PyCall PyValue)} {c : Conn} {left : List (HttpParser × Callback)}
    (accepted : x.start = evIoOnRequest clientAddr parser) (free : x.base (ascii "REQUEST_METHOD") = none)
    (run : Traced (Guarded x.Conversing (Feeds x.base)) (fun s => Conn.calls x.base s.1)
      (x.start, Pipeline.callbacks x.requests) events calls (c, left)) :
    ∃ past current part, Dialogue events calls c past current part ∧
      ((∀ r ∈ past.flatMap Message.replies, r.Proper) → ∃ answered responses waiting, answered <+: x.ended left ∧
        readResponses (answered.map fun s => s.q.isHead) c.sent =
          some (responses, (List.replicate waiting continueMessage).flatten ++ part) ∧
        List.Forall₂ (fun (s : Sent) response => ∃ r ∈ past.flatMap Message.replies,
          r.conn.headers = s.q.ownEnviron x.base clientAddr ∧ r.Shows response) answered responses ∧
        (c.evWatcher = .reading → answered = x.ended left ∧ part = [])) := by
  have own : Traced (Guarded (Attended x.base) (Step x.base)) (Conn.calls x.base) (evIoOnRequest clientAddr parser)
      events calls c :=
    accepted ▸ run.project Prod.fst (fun _ _ _ step => Pipeline.Conversing.attended step) fun _ _ => rfl
  obtain ⟨past, current, part, dialogue⟩ := (telling_of_run own).1.dialogue
  refine ⟨past, current, part, dialogue, fun proper => ?_⟩
  obtain ⟨responses, waiting, read, shows⟩ :=
    messages_read (fun m member => (dialogue.kept m member).1) proper part 0
  have all := Pipeline.calls_of_requests accepted free run
  have split := dialogue.calls_eq
  rw [List.flatMap_append] at split
  obtain ⟨answered, found⟩ : ∃ answered, answered = (x.ended left).take (past.flatMap Message.calls).length := ⟨_, rfl⟩
  have paired := List.forall₂_take (past.flatMap Message.calls).length all
  rw [← split, List.take_left, ← found] at paired
  have heads := forall₂_map_iff.mp (paired.imp fun _ _ h => h.1)
  refine ⟨answered, responses, waiting, found ▸ List.take_prefix _ _, ?_, ?_, fun reading => ?_⟩
  · rw [← heads, dialogue.sent_eq]
    exact read
  · rw [Message.calls_replies, List.forall₂_map_left_iff] at paired
    exact forall₂_through (paired.imp fun _ _ h => h.2) shows
  · have none := dialogue.reading reading
    have part_eq := dialogue.part
    rw [none] at split part_eq
    have whole : past.flatMap Message.calls = calls := by simpa using split
    refine ⟨found.trans (List.take_of_length_le ?_), by simpa using part_eq⟩
    rw [whole, all.length_eq]

theorem freshConn_ready : Ready freshConn := evIoOnRequest_ready [] http11Get

/-- A client that asks for `/` once. -/
def oneGet : Pipeline := ⟨.empty, freshConn, [sentGet (ascii "/")], freshConn_ready⟩

theorem requests_answered_one : ∃ calls c, Traced (Guarded oneGet.Conversing (Feeds .empty))
      (fun s => Conn.calls .empty s.1) (freshConn, Pipeline.callbacks oneGet.requests) oneRequest calls (c, []) ∧
    ∃ response left, readResponses [false] c.sent = some ([response], (List.replicate left continueMessage).flatten) ∧
      ∃ r : Reply, r.conn.headers = (plainGet (ascii "/")).ownEnviron .empty [] ∧ r.Shows response := by
  have run : ∃ calls c, Traced (Guarded oneGet.Conversing (Feeds .empty))
      (fun s => Conn.calls .empty s.1) (freshConn, Pipeline.callbacks oneGet.requests) oneRequest calls (c, []) ∧
      c.evWatcher = .reading ∧ ∀ call ∈ calls,
        call = ((freshConn.parsed .empty getRequest).count .reqSuccessRead, returning oneItem) := by
    have unnamed : ∀ x ∈ getRequest.fired, ∀ value, x.2 ≠ .headerValue value := by simp [getRequest]
    have separate : Pipeline.Separate (freshConn, Pipeline.callbacks oneGet.requests)
        (.read ⟨.bytes getRequest, returning oneItem⟩) := by
      refine ⟨.of_unnamed rfl fun data bytes => by cases bytes; exact unnamed, ?_⟩
      rintro _ ⟨⟩
      refine ⟨(sentGet (ascii "/")).fires.ends.2, fun _ => ⟨rfl, not_refuses unnamed, ?_⟩⟩
      rintro x member piece eq
      simp only [getRequest, List.mem_cons, List.not_mem_nil, or_false] at member
      rcases member with rfl | rfl | rfl <;> cases eq
      decide
    have keeps : KeepsMethod (.read ⟨.bytes getRequest, returning oneItem⟩) := by
      rintro _ ⟨⟩
      decide
    refine ⟨_, _, .cons ⟨⟨separate, getRequest_attended rfl (returning_oneItem_answersWhole _), keeps⟩,
      .bytes rfl rfl rfl ⟨rfl, rfl⟩⟩ (.cons ⟨⟨trivial, roomy_attended rfl, trivial⟩, .write ⟨rfl, rfl⟩⟩
      (.cons ⟨⟨trivial, roomy_attended rfl, trivial⟩, .write ⟨rfl, rfl⟩⟩ .nil)), rfl, fun call member => ?_⟩
    exact List.mem_singleton.mp member
  obtain ⟨calls, c, traced, reading, only⟩ := run
  obtain ⟨past, current, part, dialogue, answers⟩ := requests_answered (x := oneGet) rfl rfl traced
  obtain ⟨answered, responses, waiting, _, read, shows, all⟩ := answers fun r member =>
    returning_oneItem_proper (only _ (dialogue.replies r member))
  obtain ⟨whole, rfl⟩ := all reading
  have whole : answered = [sentGet (ascii "/")] := whole
  subst whole
  cases shows with
  | cons shown none =>
    cases none
    obtain ⟨r, _, own, shows⟩ := shown
    rw [List.append_nil] at read
    exact ⟨calls, c, traced, _, waiting, read, r, own, shows⟩

end Bjoern
