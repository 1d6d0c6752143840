import Bjoern.HeaderIsolation
import Bjoern.ResponseHeaders
import Bjoern.ServerAddress

namespace Bjoern

open Runs

/-- The entries of the environ that the server makes from a request, beside those of its header fields. -/
def requestKeys : List Bytes :=
  [ascii "PATH_INFO", ascii "QUERY_STRING", ascii "CONTENT_LENGTH", ascii "CONTENT_TYPE", ascii "SERVER_PROTOCOL",
    ascii "REQUEST_METHOD", ascii "REMOTE_ADDR"]

/-- What may stand in the environ: entries of the base dictionary, strings from the request and its header fields, and
the body. -/
inductive Entry (base : Environ) (k : Bytes) : EnvVal → Prop
  | server {v} : base k = some v → Entry base k v
  | request {data} : k ∈ requestKeys → Entry base k (.str data)
  | field {data} : ascii "HTTP_" <+: k → Entry base k (.str data)
  | input {content position} : k = ascii "wsgi.input" → Entry base k (.bytesIo content position)

def Entries (base d : Environ) : Prop := ∀ k v, d k = some v → Entry base k v

/-- A complete environ of a request from `clientAddr` that `parser` has parsed to its end. -/
structure WsgiEnviron (base : Environ) (clientAddr : Bytes) (parser : HttpParser) (d : Environ) : Prop where
  server : ∀ k v, base k = some v → d k = some v
  method : d (ascii "REQUEST_METHOD") = some (.str parser.method.str)
  protocol : d (ascii "SERVER_PROTOCOL") =
    some (.str (if parser.httpMinor = 1 then ascii "HTTP/1.1" else ascii "HTTP/1.0"))
  remote : d (ascii "REMOTE_ADDR") = some (.str clientAddr)
  input : ∃ content, d (ascii "wsgi.input") = some (.bytesIo content 0)
  unprefixed : d (ascii "HTTP_CONTENT_LENGTH") = none ∧ d (ascii "HTTP_CONTENT_TYPE") = none
  entries : Entries base d

variable {base : Environ}

theorem Entries.setItem {d : Environ} {k : Bytes} {v : EnvVal} (h : Entries base d) (entry : Entry base k v) :
    Entries base (d.setItem k v) := by
  intro k' v' found
  by_cases same : k' = k
  · subst same
    rw [Environ.setItem, Function.update_self] at found
    cases found
    exact entry
  · rw [Environ.setItem, Function.update_of_ne same] at found
    exact h k' v' found

theorem Entries.delItem {d : Environ} (h : Entries base d) (k : Bytes) : Entries base (d.delItem k) := by
  intro k' v found
  by_cases same : k' = k
  · subst same
    rw [Environ.delItem, Function.update_self] at found
    cases found
  · rw [Environ.delItem, Function.update_of_ne same] at found
    exact h k' v found

theorem Entries.setOrAppendHeader {d : Environ} {k : Bytes} (h : Entries base d)
    (entry : ∀ data, Entry base k (.str data)) (val : Bytes) : Entries base (setOrAppendHeader k val d) := by
  unfold Bjoern.setOrAppendHeader
  split
  next => exact h.setItem (entry _)
  next => exact h.setItem (entry _)

theorem Entries.bodyWrite {d : Environ} (h : Entries base d) (data : Bytes) : Entries base (bodyWrite data d) := by
  unfold Bjoern.bodyWrite
  split
  next => exact h.setItem (.input rfl)
  next => exact h.setItem (.input rfl)

theorem Entries.rewindInput {d : Environ} (h : Entries base d) : Entries base (rewindInput d) := by
  unfold Bjoern.rewindInput
  split
  next => exact h.setItem (.input rfl)
  next => exact h.setItem (.input rfl)

/-- What stands under a header field moves to its own name. -/
theorem Entries.replaceKey {d : Environ} (h : Entries base d) (oldKey newKey : Bytes) (free : base oldKey = none)
    (field : oldKey ≠ ascii "wsgi.input") (own : newKey ∈ requestKeys) : Entries base (replaceKey oldKey newKey d) := by
  unfold Bjoern.replaceKey
  split
  next value found =>
    refine (h.delItem oldKey).setItem ?_
    cases h oldKey value found with
    | server entry => cases free.symm.trans entry
    | request => exact .request own
    | field => exact .request own
    | input same => exact absurd same field
  next => exact h

theorem Entries.merge {d : Environ} (h : Entries base d) : Entries base (d.merge base) := by
  intro k v found
  rw [Environ.merge, Option.or_eq_some_iff] at found
  rcases found with server | ⟨_, own⟩
  · exact .server server
  · exact h k v own

theorem rewindInput_merge {d : Environ} {k : Bytes} (free : base k = none) (other : k ≠ ascii "wsgi.input") :
    (rewindInput d).merge base k = d k := by
  rw [Environ.merge, free, Option.none_or, rewindInput_apply, if_neg other]

/-- What `on_message_complete` makes of the entries that the other callbacks have put together. -/
theorem finishEnviron_complete {host port : Option Bytes} {d : Environ} (entries : Entries (wsgiBaseDict host port) d)
    (clientAddr : Bytes) (parser : HttpParser) :
    WsgiEnviron (wsgiBaseDict host port) clientAddr parser
      (finishEnviron (wsgiBaseDict host port) clientAddr parser d) := by
  have length := entries.replaceKey (ascii "HTTP_CONTENT_LENGTH") (ascii "CONTENT_LENGTH") rfl (by decide) (by decide)
  have type := length.replaceKey (ascii "HTTP_CONTENT_TYPE") (ascii "CONTENT_TYPE") rfl (by decide) (by decide)
  have request : ∀ k ∈ requestKeys, ∀ d data, Entries (wsgiBaseDict host port) d →
      Entries (wsgiBaseDict host port) (d.setItem k (.str data)) := by
    intro k own d data before
    exact before.setItem (.request own)
  have protocol := request (ascii "SERVER_PROTOCOL") (by decide) _
    (if parser.httpMinor = 1 then ascii "HTTP/1.1" else ascii "HTTP/1.0") type
  have method := request (ascii "REQUEST_METHOD") (by decide) _ parser.method.str protocol
  have remote := request (ascii "REMOTE_ADDR") (by decide) _ clientAddr method
  refine ⟨?_, ?_, ?_, ?_, ?_, finishEnviron_renamed host port clientAddr parser d, remote.rewindInput.merge⟩
  · intro k v entry
    rw [finishEnviron, Environ.merge, entry, Option.some_or]
  · exact (rewindInput_merge rfl (by decide)).trans rfl
  · exact (rewindInput_merge rfl (by decide)).trans rfl
  · exact (rewindInput_merge rfl (by decide)).trans rfl
  · rw [finishEnviron_input (wsgiBaseDict_input host port), rewindInput_apply, if_pos rfl]
    split
    next content _ _ => exact ⟨content, rfl⟩
    next => exact ⟨[], rfl⟩

/-- Where the headers are a dictionary, it has no other entries. -/
def Headers.Within (base : Environ) (headers : Headers) : Prop := ∀ d, headers = .environ d → Entries base d

theorem within_null : Headers.Within base .null := by
  intro d same
  cases same

theorem within_response (fields : List (Bytes × Bytes)) : Headers.Within base (.response fields) := by
  intro d same
  cases same

theorem Headers.Within.modify {headers : Headers} {f : Environ → Environ} (h : headers.Within base)
    (keeps : ∀ d, Entries base d → Entries base (f d)) : (headers.modify f).Within base := by
  cases headers with
  | environ d =>
    rintro _ ⟨⟩
    exact keeps d (h d rfl)
  | null => exact h
  | response fields => exact h

/-- What the callbacks keep: the entries of the dictionary, and the key that the next value goes to. -/
structure Reads (base : Environ) (r : Request) : Prop where
  field : ∀ k, r.parser.field = some k → ascii "HTTP_" <+: k
  within : r.headers.Within base

theorem onHeaderField_reads {r : Request} (reads : Reads base r) (data : Bytes) :
    Reads base (onHeaderField r data).1 := by
  have start : ∀ k, (startHeader r.parser).field = some k → ascii "HTTP_" <+: k := by
    intro k found
    unfold startHeader at found
    split at found
    next =>
      cases found
      exact List.prefix_refl _
    next => exact reads.field k found
  unfold onHeaderField
  dsimp only
  split
  next => exact ⟨start, reads.within⟩
  next =>
    split
    next => exact ⟨start, reads.within⟩
    next =>
      refine ⟨fun k found => ?_, reads.within⟩
      obtain ⟨k', earlier, rfl⟩ := Option.map_eq_some_iff.mp found
      exact (start k' earlier).trans (List.prefix_append _ _)

theorem onHeaderValue_reads {r : Request} (reads : Reads base r) (parser : HttpParser) (data : Bytes) :
    Reads base (onHeaderValue r parser data).1 := by
  obtain ⟨_, left, _, set, _⟩ := onHeaderValue_spec r parser data
  refine ⟨?_, ?_⟩
  · rw [left]
    exact reads.field
  · rw [set]
    split
    next field _ found =>
      exact reads.within.modify fun d h => h.setOrAppendHeader (fun _ => .field (reads.field _ found)) _
    next => exact reads.within

theorem onBody_reads {r : Request} (reads : Reads base r) (parser : HttpParser) (data : Bytes) :
    Reads base (onBody r parser data).1 := by
  obtain ⟨_, left, _, set⟩ := onBody_reading r parser data
  refine ⟨?_, ?_⟩
  · rw [left]
    exact reads.field
  · rw [set]
    cases (r.headers.getItem (ascii "wsgi.input")).isNone && parser.contentLength == 0 with
    | true => exact reads.within
    | false => exact reads.within.modify fun d h => h.bodyWrite data

theorem runCallback_reads {host port : Option Bytes} {r : Request} (reads : Reads (wsgiBaseDict host port) r)
    (parser : HttpParser) (callback : Callback) :
    Reads (wsgiBaseDict host port) (runCallback (wsgiBaseDict host port) r parser callback).1 := by
  cases callback with
  | messageBegin => exact ⟨reads.field, fun _ same => by cases same; exact fun k v found => by cases found⟩
  | path data =>
    simp only [runCallback, onPath_eq]
    split
    next => exact ⟨reads.field, reads.within.modify fun d h => h.setOrAppendHeader (fun _ => .request (by decide)) _⟩
    next => exact reads
  | queryString data =>
    exact ⟨reads.field, reads.within.modify fun d h => h.setOrAppendHeader (fun _ => .request (by decide)) _⟩
  | headerField data => exact onHeaderField_reads reads data
  | headerValue data => exact onHeaderValue_reads reads parser data
  | body data => exact onBody_reads reads parser data
  | messageComplete =>
    exact ⟨reads.field, reads.within.modify fun d h => (finishEnviron_complete h r.clientAddr parser).entries⟩

theorem runCallbacks_reads {host port : Option Bytes} {r : Request} (reads : Reads (wsgiBaseDict host port) r)
    (fired : List (HttpParser × Callback)) :
    Reads (wsgiBaseDict host port) (runCallbacks (wsgiBaseDict host port) r fired).1 := by
  induction fired generalizing r with
  | nil => exact reads
  | cons x rest ih =>
    have first := runCallback_reads reads x.1 x.2
    rw [runCallbacks]
    split
    next mid step =>
      rw [step] at first
      exact ih first
    next mid step =>
      rw [step] at first
      exact first

theorem parsed_reads {host port : Option Bytes} {c : Conn} (reads : Reads (wsgiBaseDict host port) c.toRequest)
    (data : ReadData) :
    Reads (wsgiBaseDict host port) (c.parsed (wsgiBaseDict host port) data).toRequest :=
  c.parsed_invariant data (fun _ parser callback reads => runCallback_reads reads parser callback)
    (fun _ reads => ⟨reads.field, reads.within⟩) (fun _ _ _ reads => ⟨reads.field, reads.within⟩) reads

/-- `start_response` puts a response in the place of the dictionary, or nothing. -/
theorem within_kept : KeptByStart fun headers _ => headers.Within base := by
  intro r args r' succeeded within h
  have cleared : (clearResponse r).headers.Within base := by
    unfold clearResponse
    split
    next => exact within_null
    next => exact within
  cases startResponse_outcome h with
  | success => exact within_response _
  | failure _ failed =>
    rcases failed with rfl | rfl | ⟨_, rfl⟩
    · exact cleared
    · exact cleared
    · exact within_null

theorem wsgiCallApplication_within {c c' : Conn} {app : PyCall PyValue} {answered : Bool}
    (h : wsgiCallApplication c app = .ok (c', answered)) : c'.headers.Within base := by
  obtain ⟨start, hs, h⟩ := bind_ok h
  have within : start.headers.Within base := within_kept.call within_null hs
  split at h
  next =>
    cases h
    exact within
  next =>
    obtain ⟨⟨mid, first⟩, ht, h⟩ := bind_ok h
    have within' : mid.headers.Within base := within_kept.take within ht
    dsimp only at h
    split at h
    next =>
      cases h
      exact within'
    next =>
      split at h
      next =>
        cases h
        exact within'
      next =>
        obtain ⟨final, hi, h⟩ := bind_ok h
        cases h
        obtain ⟨data, _, rfl⟩ := installResponse_eq hi
        obtain ⟨_, _, _, eq⟩ := mid.installed_frame data
        rw [eq]
        exact within'

theorem finishWrite_reads {c c' : Conn} {state : RwState} (reads : Reads base c.toRequest)
    (h : finishWrite c state = .ok c') : Reads base c'.toRequest := by
  cases state with
  | notYetDone =>
    cases h
    exact reads
  | done =>
    unfold finishWrite at h
    dsimp only at h
    split at h
    next =>
      obtain ⟨last, hl, h⟩ := bind_ok h
      obtain ⟨_, _, rfl⟩ := requestClean_ok hl
      cases h
      exact ⟨fun _ none => (by cases none), within_null⟩
    next =>
      obtain ⟨_, _, rfl⟩ := requestClean_ok h
      exact ⟨reads.field, reads.within⟩
  | expectContinue =>
    cases h
    exact ⟨reads.field, reads.within⟩
  | aborted =>
    obtain ⟨last, hl, h⟩ := bind_ok h
    obtain ⟨_, _, rfl⟩ := requestClean_ok hl
    cases h
    exact ⟨reads.field, reads.within⟩

theorem evIoOnWrite_reads {c c' : Conn} {w : WriteEvent} (reads : Reads base c.toRequest)
    (h : evIoOnWrite c w = .ok c') : Reads base c'.toRequest := by
  obtain ⟨⟨mid, state⟩, hm, h⟩ := bind_ok h
  refine finishWrite_reads ⟨?_, within_kept.write (fun _ _ _ _ within => within) reads.within hm⟩ h
  rw [(writeResponse_frame hm).1.parser]
  exact reads.field

theorem evIoOnRead_reads {host port : Option Bytes} {c c' : Conn} {e : ReadEvent}
    (reads : Reads (wsgiBaseDict host port) c.toRequest) (h : evIoOnRead (wsgiBaseDict host port) c e = .ok c') :
    Reads (wsgiBaseDict host port) c'.toRequest := by
  have parsed : ∀ data, Reads (wsgiBaseDict host port) (c.parsed (wsgiBaseDict host port) data).toRequest :=
    fun data => parsed_reads reads data
  have called : ∀ {data c' answered}, wsgiCallApplication ((c.parsed (wsgiBaseDict host port) data).count
      .reqSuccessRead) e.app = .ok (c', answered) → Reads (wsgiBaseDict host port) c'.toRequest := by
    intro data c' answered call
    obtain ⟨_, calls, outcome⟩ := wsgiCallApplication_outcome call
    refine ⟨?_, wsgiCallApplication_within call⟩
    rw [(outcome.frame calls).parser]
    exact (parsed data).field
  cases evIoOnRead_outcome h with
  | again => exact reads
  | closed _ closing =>
    obtain ⟨_, _, rfl⟩ := requestClean_ok closing
    exact ⟨reads.field, reads.within⟩
  | @waiting data => exact parsed data
  | @interim data => exact ⟨(parsed data).field, (parsed data).within⟩
  | @rejected data => exact ⟨(parsed data).field, (parsed data).within⟩
  | answered _ _ _ call =>
    have reads' := called call
    exact ⟨reads'.field, reads'.within⟩
  | failed _ _ _ call =>
    have reads' := called call
    exact ⟨reads'.field, reads'.within⟩

theorem evIoOnRead_clientAddr {c c' : Conn} {e : ReadEvent} (h : evIoOnRead base c e = .ok c') :
    c'.clientAddr = c.clientAddr := by
  have parsed : ∀ data, (c.parsed base data).clientAddr = c.clientAddr :=
    fun data => (c.parsed_frame base data).request.clientAddr
  cases evIoOnRead_outcome h with
  | again => rfl
  | closed _ closing =>
    obtain ⟨_, _, rfl⟩ := requestClean_ok closing
    rfl
  | @waiting data => exact parsed data
  | @interim data => exact parsed data
  | @rejected data => exact parsed data
  | @answered data _ _ _ _ call =>
    obtain ⟨_, calls, outcome⟩ := wsgiCallApplication_outcome call
    exact (outcome.clientAddr calls).trans (parsed data)
  | @failed data _ _ _ _ call =>
    obtain ⟨_, calls, outcome⟩ := wsgiCallApplication_outcome call
    exact (outcome.clientAddr calls).trans (parsed data)

/-- The callbacks of a read that end with `on_message_complete`, `parser` being the parser's state then. -/
def Completes (parser : HttpParser) : Event → Prop
  | .read ⟨.bytes data, _⟩ => data.fired.getLast? = some (parser, .messageComplete)
  | _ => False

/-- Every environ that was passed to the application is complete, and of a request that has come in one of `events`. -/
def Conn.Complete (base : Environ) (events : Event → Prop) (c : Conn) : Prop :=
  ∀ environ ∈ c.environs, ∃ d parser event, environ = .environ d ∧ events event ∧ Completes parser event ∧
    WsgiEnviron base c.clientAddr parser d

theorem WholeStep.complete {host port : Option Bytes} {events : Event → Prop} {c c' : Conn} {event : Event}
    (reads : Reads (wsgiBaseDict host port) c.toRequest) (complete : c.Complete (wsgiBaseDict host port) events)
    (among : events event) (step : WholeStep (wsgiBaseDict host port) c event c') :
    Reads (wsgiBaseDict host port) c'.toRequest ∧ c'.Complete (wsgiBaseDict host port) events := by
  obtain ⟨ends, _, h⟩ := step
  cases event with
  | write w =>
    obtain ⟨address, environs⟩ := evIoOnWrite_environs h
    refine ⟨evIoOnWrite_reads reads h, ?_⟩
    rw [Conn.Complete, environs, address]
    exact complete
  | read e =>
    refine ⟨evIoOnRead_reads reads h, ?_⟩
    rw [Conn.Complete, evIoOnRead_clientAddr h]
    rcases (evIoOnRead_outcome h).environs with same | ⟨data, bytes, noError, finished, more⟩
    · rw [same]
      exact complete
    · obtain ⟨result, app⟩ := e
      cases bytes
      obtain ⟨fired, mid, parser, d, last, first, before, headers⟩ :=
        ends.finishes (evIoOnRead_parses h rfl) noError finished
      have completes : Completes parser (.read ⟨.bytes data, app⟩) := by
        rw [Completes, last, List.getLast?_concat]
      have reads' := runCallbacks_reads reads fired
      have address := (runCallbacks_frame (wsgiBaseDict host port) c.toRequest fired).clientAddr
      rw [first] at reads' address
      intro environ member
      rw [more, List.mem_append, List.mem_singleton] at member
      rcases member with earlier | new
      · exact complete environ earlier
      · have final := finishEnviron_complete (reads'.within d before) mid.clientAddr parser
        rw [new, headers]
        exact ⟨_, parser, _, rfl, among, completes, address ▸ final⟩

theorem complete_of_run {host port : Option Bytes} {events : Event → Prop} {clientAddr : Bytes} {parser : HttpParser}
    {own : List Event} {c : Conn} (run : Run (fun c event c' => events event ∧
      WholeStep (wsgiBaseDict host port) c event c') (evIoOnRequest clientAddr parser) own c) :
    c.Complete (wsgiBaseDict host port) events := by
  have start : Reads (wsgiBaseDict host port) (evIoOnRequest clientAddr parser).toRequest :=
    ⟨fun _ none => (by cases none), within_null⟩
  refine (run.invariant (fun c => Reads (wsgiBaseDict host port) c.toRequest ∧
    c.Complete (wsgiBaseDict host port) events) ?_ ⟨start, fun _ member => (by cases member)⟩).2
  intro c event c' inv step
  exact step.2.complete inv.1 inv.2 step.1

/-- What happens on the connections of the calls of `server_run`. -/
def Happens (calls : List (Socket × List LoopEvent)) (event : Event) : Prop :=
  ∃ call ∈ calls, ∃ i, .input i event ∈ call.2

def Process.Complete (base : Environ) (events : Event → Prop) (p : Process) : Prop :=
  ∀ served ∈ p.served, ∀ c ∈ served.2.conns, c.Complete base events

/-- The base dictionary is made once, from the first socket that is served. -/
def Made (host port : Option Bytes) (events : Event → Prop) (p : Process) : Prop :=
  p.wsgiBaseDict = some (wsgiBaseDict host port) ∧ p.Complete (wsgiBaseDict host port) events

theorem LoopStep.attach {step : Conn → Event → Conn → Prop} {events : List LoopEvent} {loop : ServerLoop}
    (run : Run (LoopStep step) .start events loop) :
    Run (LoopStep fun c event c' => (∃ i, .input i event ∈ events) ∧ step c event c') .start events loop := by
  refine run.attach.mono ?_
  rintro l event l' ⟨member, h⟩
  cases h with
  | accept => exact .accept
  | @io i _ _ _ found step => exact .io found ⟨⟨i, member⟩, step⟩

theorem complete_append {host port : Option Bytes} {events : Event → Prop} {p : Process} {socket : Socket}
    {inputs : List LoopEvent} {loop : ServerLoop} (complete : p.Complete (wsgiBaseDict host port) events)
    (happens : ∀ i event, .input i event ∈ inputs → events event)
    (run : Run (LoopStep (WholeStep (wsgiBaseDict host port))) .start inputs loop) :
    Process.Complete (wsgiBaseDict host port) events
      ⟨some (wsgiBaseDict host port), p.served ++ [(socket, loop)]⟩ := by
  intro served member c among
  rcases List.mem_append.mp member with earlier | last
  · exact complete served earlier c among
  · rw [List.mem_singleton.mp last] at among
    obtain ⟨_, _, _, own⟩ := ownRun_of_loop (LoopStep.attach run) among
    exact complete_of_run (own.mono fun _ event _ ⟨⟨i, member⟩, step⟩ => ⟨happens i event member, step⟩)

theorem ServerRun.made {events : Event → Prop} {p p' : Process} {call : Socket × List LoopEvent}
    (made : p = .start ∨ ∃ host port, Made host port events p)
    (happens : ∀ i event, .input i event ∈ call.2 → events event) (h : ServerRun WholeStep p call p') :
    p' = .start ∨ ∃ host port, Made host port events p' := by
  cases h with
  | refused => exact made
  | @served socket info inputs loop _ run =>
    rcases made with rfl | ⟨host, port, known, complete⟩
    · have nothing : Process.Complete (wsgiBaseDict info.host info.port) events .start := by
        intro served member
        cases member
      exact Or.inr ⟨info.host, info.port, rfl, complete_append nothing happens run⟩
    · have base : initializeRequestModule p.wsgiBaseDict info = wsgiBaseDict host port := by
        rw [known]
        rfl
      rw [base] at run ⊢
      exact Or.inr ⟨host, port, rfl, complete_append complete happens run⟩

/-- Whatever a process serves, in whatever pieces the requests come: the application gets complete environs only,
each with the one base dictionary of the process, the request's entries and its own client's address. -/
theorem environs_complete {calls : List (Socket × List LoopEvent)} {p : Process}
    (run : Run (ServerRun WholeStep) .start calls p) :
    ∃ host port, ∀ served ∈ p.served, ∀ c ∈ served.2.conns, c.Complete (wsgiBaseDict host port) (Happens calls) := by
  have made := run.attach.invariant (fun p => p = .start ∨ ∃ host port, Made host port (Happens calls) p)
    (fun _ call _ made step => step.2.made made fun i _ member => ⟨call, step.1, i, member⟩) (Or.inl rfl)
  rcases made with rfl | ⟨host, port, _, complete⟩
  · exact ⟨none, none, fun _ member => by cases member⟩
  · exact ⟨host, port, complete⟩

theorem environs_complete_one : ∃ p loop c host port, Run (ServerRun WholeStep) .start [(tcpSocket, oneClient)] p ∧
    (tcpSocket, loop) ∈ p.served ∧ c ∈ loop.conns ∧ c.environs ≠ [] ∧
      c.Complete (wsgiBaseDict host port) (Happens [(tcpSocket, oneClient)]) := by
  obtain ⟨loop, c, d, run, among, passed, _⟩ :=
    oneClient_loop (wsgiBaseDict (some (ascii "127.0.0.1")) (some (ascii "8080")))
  have serves : Run (ServerRun WholeStep) .start [(tcpSocket, oneClient)] _ := .single (.served rfl run)
  obtain ⟨host, port, complete⟩ := environs_complete serves
  exact ⟨_, loop, c, host, port, serves, by simp, among, List.ne_nil_of_mem passed,
    complete (tcpSocket, loop) (by simp) c among⟩

end Bjoern
