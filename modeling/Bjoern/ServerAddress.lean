import Bjoern.EnvironKeys
import Bjoern.Expectations
import Bjoern.FatalErrors
import Bjoern.ServerRun

namespace Bjoern

open Runs

/-- The host and port that a socket is known under: those of a 2-tuple, and empty strings otherwise. -/
def Socket.address (socket : Socket) : Bytes × Bytes :=
  match socket.getsockname with
  | .returns (.pair host port) => (host, port.getD [])
  | _ => ([], [])

/-- The dictionary has the server entries of an address. -/
def Carries (address : Bytes × Bytes) (d : Environ) : Prop :=
  d (ascii "SERVER_NAME") = some (.str address.1) ∧ d (ascii "SERVER_PORT") = some (.str address.2)

/-- The environ has the server entries of an address. -/
def Describes (address : Bytes × Bytes) (environ : Headers) : Prop := ∃ d, environ = .environ d ∧ Carries address d

/-- Every environ passed to the application describes the socket that was served. -/
def Process.Described (p : Process) : Prop :=
  ∀ served ∈ p.served, ∀ c ∈ served.2.conns, ∀ environ ∈ c.environs, Describes served.1.address environ

/-- A read after which the application is called ends where a request ends that was begun. -/
def EndsWithRequest (c : Conn) : Event → Prop
  | .read ⟨.bytes data, _⟩ => Admits c.toRequest data →
      (c.state.parseFinished = true ∨ ∃ x ∈ data.fired, x.2 = .messageComplete) →
      (data.fired.map Prod.snd).getLast? = some .messageComplete ∧
        ((∃ d, c.headers = .environ d) ∨ .messageBegin ∈ data.fired.map Prod.snd)
  | _ => True

/-- The steps of a connection on which no read after which the application is called leaves its last request open. -/
def WholeStep (base : Environ) : Conn → Event → Conn → Prop := Guarded EndsWithRequest (Step base)

theorem Carries.unique {a b : Bytes × Bytes} {d : Environ} (h : Carries a d) (h' : Carries b d) : a = b := by
  have host := h.1.symm.trans h'.1
  have port := h.2.symm.trans h'.2
  simp only [Option.some.injEq, EnvVal.str.injEq] at host port
  exact Prod.ext host port

theorem serverInfo_address {socket : Socket} {info : ServerInfo} (h : serverInfo socket = some info) :
    Carries socket.address (wsgiBaseDict info.host info.port) := by
  have entries : ∀ host port, Carries (host.getD [], if host.isSome then port.getD [] else [])
      (wsgiBaseDict host port) := by
    intro host port
    exact ⟨rfl, rfl⟩
  unfold serverInfo at h
  unfold Socket.address
  split at h
  next => cases h
  next =>
    split at h
    next absent =>
      cases h
      rw [absent]
      exact entries none none
    next => cases h
    next host port pair =>
      cases h
      rw [pair]
      exact entries (some host) port
    next other =>
      cases h
      rw [other]
      exact entries none none

theorem finishEnviron_carries {address : Bytes × Bytes} {base : Environ} (carries : Carries address base)
    (clientAddr : Bytes) (parser : HttpParser) (d : Environ) :
    Carries address (finishEnviron base clientAddr parser d) := by
  have kept : ∀ k v, base k = some v → finishEnviron base clientAddr parser d k = some v := by
    intro k v entry
    rw [finishEnviron, Environ.merge, entry, Option.some_or]
  exact ⟨kept _ _ carries.1, kept _ _ carries.2⟩

/-- The application is called with a dictionary that `on_message_complete` has just finished. -/
theorem EndsWithRequest.finishes {base : Environ} {c : Conn} {data : ReadData} {app : PyCall PyValue}
    (ends : EndsWithRequest c (.read ⟨.bytes data, app⟩)) (parses : Parses base c data)
    (noError : (c.parsed base data).state.errorCode = none)
    (finished : (c.parsed base data).state.parseFinished = true) :
    ∃ fired mid parser d, data.fired = fired ++ [(parser, .messageComplete)] ∧
      runCallbacks base c.toRequest fired = (mid, true) ∧ mid.headers = .environ d ∧
      (c.parsed base data).headers = .environ (finishEnviron base mid.clientAddr parser d) := by
  obtain ⟨last, begun⟩ := ends (parses.admits noError) (parses.completes noError finished)
  obtain ⟨completed, _, eq⟩ := parses.completed noError
  rw [List.getLast?_map, Option.map_eq_some_iff] at last
  obtain ⟨x, at_end, complete⟩ := last
  obtain ⟨fired, split⟩ := List.getLast?_eq_some_iff.mp at_end
  rw [split] at completed begun eq
  obtain ⟨first, final⟩ := runCallbacks_snoc completed
  rw [complete] at final
  have begun' : (∃ d, c.headers = .environ d) ∨ .messageBegin ∈ fired.map Prod.snd := by
    refine begun.imp_right fun member => ?_
    simpa [complete] using member
  have first : runCallbacks base c.toRequest fired = ((runCallbacks base c.toRequest fired).1, true) :=
    Prod.ext rfl first
  obtain ⟨d, before⟩ := runCallbacks_begun first begun'
  refine ⟨fired, _, x.1, d, split.trans (by rw [← complete]), first, before, ?_⟩
  rw [eq, final]
  exact congrArg (Headers.modify _) before

/-- A dictionary whose request is complete has what the base dictionary has. -/
theorem EndsWithRequest.describes {address : Bytes × Bytes} {base : Environ} {c : Conn} {data : ReadData}
    {app : PyCall PyValue} (carries : Carries address base) (ends : EndsWithRequest c (.read ⟨.bytes data, app⟩))
    (parses : Parses base c data) (noError : (c.parsed base data).state.errorCode = none)
    (finished : (c.parsed base data).state.parseFinished = true) :
    Describes address (c.parsed base data).headers := by
  obtain ⟨_, _, _, _, _, _, _, headers⟩ := ends.finishes parses noError finished
  exact ⟨_, headers, finishEnviron_carries carries _ _ _⟩

/-- A read passes the dictionary of the parsed request to the application, or does not call it. -/
theorem ReadOutcome.environs {base : Environ} {c c' : Conn} {e : ReadEvent} (outcome : ReadOutcome base c e c') :
    c'.environs = c.environs ∨ ∃ data, e.result = .bytes data ∧ (c.parsed base data).state.errorCode = none ∧
      (c.parsed base data).state.parseFinished = true ∧
      c'.environs = c.environs ++ [(c.parsed base data).headers] := by
  cases outcome with
  | again => exact Or.inl rfl
  | closed _ closing =>
    obtain ⟨_, _, rfl⟩ := requestClean_ok closing
    exact Or.inl rfl
  | @waiting data => exact Or.inl (c.parsed_environs base data)
  | @interim data => exact Or.inl (c.parsed_environs base data)
  | @rejected data => exact Or.inl (c.parsed_environs base data)
  | @answered data called bytes noError finished call =>
    obtain ⟨_, calls, outcome⟩ := wsgiCallApplication_outcome call
    have environs := (outcome.frame calls).environs
    have before : ((c.parsed base data).count .reqSuccessRead).environs = c.environs := c.parsed_environs base data
    rw [before] at environs
    exact Or.inr ⟨data, bytes, noError, finished, environs⟩
  | @failed data called bytes noError finished call =>
    obtain ⟨_, calls, outcome⟩ := wsgiCallApplication_outcome call
    have environs := (outcome.frame calls).environs
    have before : ((c.parsed base data).count .reqSuccessRead).environs = c.environs := c.parsed_environs base data
    rw [before] at environs
    exact Or.inr ⟨data, bytes, noError, finished, environs⟩

theorem WholeStep.describes {address : Bytes × Bytes} {base : Environ} {c c' : Conn} {event : Event}
    (carries : Carries address base) (described : ∀ environ ∈ c.environs, Describes address environ)
    (step : WholeStep base c event c') : ∀ environ ∈ c'.environs, Describes address environ := by
  obtain ⟨ends, _, h⟩ := step
  cases event with
  | write w =>
    rw [(evIoOnWrite_environs h).2]
    exact described
  | read e =>
    rcases (evIoOnRead_outcome h).environs with same | ⟨data, bytes, noError, finished, more⟩
    · rw [same]
      exact described
    · obtain ⟨result, app⟩ := e
      cases bytes
      have last := ends.describes carries (evIoOnRead_parses h rfl) noError finished
      intro environ member
      rw [more, List.mem_append, List.mem_singleton] at member
      rcases member with earlier | new
      · exact described environ earlier
      · rw [new]
        exact last

theorem describes_of_run {address : Bytes × Bytes} {base : Environ} {clientAddr : Bytes} {parser : HttpParser}
    {events : List Event} {c : Conn} (carries : Carries address base)
    (run : Run (WholeStep base) (evIoOnRequest clientAddr parser) events c) :
    ∀ environ ∈ c.environs, Describes address environ := by
  apply run.invariant (fun c => ∀ environ ∈ c.environs, Describes address environ)
  · intro c event c' described step
    exact step.describes carries described
  · intro environ member
    cases member

theorem ServerRun.grows {step : Environ → Conn → Event → Conn → Prop} {p p' : Process}
    {call : Socket × List LoopEvent} (h : ServerRun step p call p') : p.served <+: p'.served := by
  cases h with
  | refused => exact List.prefix_refl _
  | served => exact List.prefix_append _ _

/-- What holds of a process whose sockets all have one address. -/
structure Steady (address : Bytes × Bytes) (p : Process) : Prop where
  carries : ∀ d, p.wsgiBaseDict = some d → Carries address d
  described : p.Described

theorem ServerRun.steady {address : Bytes × Bytes} {p p' : Process} {call : Socket × List LoopEvent}
    (steady : Steady address p) (same : serverInfo call.1 ≠ none → call.1.address = address)
    (h : ServerRun WholeStep p call p') : Steady address p' := by
  cases h with
  | refused => exact steady
  | @served socket info events loop found run =>
    have own : socket.address = address := same (by rw [found]; simp)
    have carries : Carries address (initializeRequestModule p.wsgiBaseDict info) := by
      unfold initializeRequestModule
      split
      next => exact own ▸ serverInfo_address found
      next d kept => exact steady.carries d kept
    refine ⟨?_, ?_⟩
    · intro d kept
      cases kept
      exact carries
    · intro served member
      rcases List.mem_append.mp member with earlier | last
      · exact steady.described served earlier
      · rw [List.mem_singleton.mp last]
        intro c among environ passed
        obtain ⟨clientAddr, parser, own', reached⟩ := ownRun_of_loop run among
        rw [own]
        exact describes_of_run carries reached environ passed

/-- The sockets that get served have one address. -/
def SameAddress (sockets : List Socket) : Prop :=
  ∀ s ∈ sockets, ∀ t ∈ sockets, serverInfo s ≠ none → serverInfo t ≠ none → s.address = t.address

theorem steady_of_run {address : Bytes × Bytes} {p p' : Process} {calls : List (Socket × List LoopEvent)}
    (steady : Steady address p) (same : ∀ call ∈ calls, serverInfo call.1 ≠ none → call.1.address = address)
    (run : Run (ServerRun WholeStep) p calls p') : Steady address p' := by
  induction run with
  | nil => exact steady
  | @cons p mid last call rest h _ ih =>
    have first := h.steady steady (same call (by simp))
    exact ih first fun other member => same other (List.mem_cons_of_mem call member)

def oneClient : List LoopEvent :=
  [.start (.client [] http11Get), .input 0 (.read ⟨.bytes getRequest, returning oneItem⟩)]

/-- Under whatever base dictionary, the environ of the one client has the server entries of that dictionary and no
others. -/
theorem oneClient_loop (base : Environ) : ∃ loop c d, Run (LoopStep (WholeStep base)) .start oneClient loop ∧
    c ∈ loop.conns ∧ .environ d ∈ c.environs ∧ ∀ address, Carries address d → Carries address base := by
  have ends : EndsWithRequest freshConn (.read ⟨.bytes getRequest, returning oneItem⟩) :=
    fun _ _ => ⟨rfl, Or.inr (by decide)⟩
  have step : WholeStep base freshConn (.read ⟨.bytes getRequest, returning oneItem⟩) _ := ⟨ends, rfl, rfl⟩
  have run : Run (LoopStep (WholeStep base)) .start oneClient _ := .cons .accept (.cons (.io rfl step) .nil)
  refine ⟨_, _, _, run, List.mem_singleton.mpr rfl, List.mem_singleton.mpr rfl, ?_⟩
  have own : ∀ k v, (base k).or none = some v → base k = some v := by
    intro k v entry
    rwa [Option.or_none] at entry
  intro address carries
  exact ⟨own _ _ carries.1, own _ _ carries.2⟩

/-- A process can serve any sequence of sockets to one client each; if it describes all of them, they carry the
address in `wsgi_base_dict`. -/
theorem serves_all (p : Process) (sockets : List Socket) : ∃ calls p', calls.map Prod.fst = sockets ∧
    Run (ServerRun WholeStep) p calls p' ∧ p.served <+: p'.served ∧
      (p'.Described → ∃ d, (p.wsgiBaseDict = none ∨ p.wsgiBaseDict = some d) ∧
        ∀ s ∈ sockets, serverInfo s ≠ none → Carries s.address d) := by
  induction sockets generalizing p with
  | nil =>
    refine ⟨[], p, rfl, .nil, List.prefix_refl _, fun _ => ?_⟩
    cases p.wsgiBaseDict with
    | none => exact ⟨.empty, Or.inl rfl, by simp⟩
    | some d => exact ⟨d, Or.inr rfl, by simp⟩
  | cons socket rest ih =>
    cases found : serverInfo socket with
    | none =>
      obtain ⟨calls, p', sockets, run, grows, carries⟩ := ih p
      refine ⟨(socket, []) :: calls, p', by rw [List.map_cons, sockets], .cons (.refused found) run, grows, ?_⟩
      intro described
      obtain ⟨d, kept, all⟩ := carries described
      refine ⟨d, kept, fun s member serves => ?_⟩
      rcases List.mem_cons.mp member with first | later
      · rw [first] at serves
        exact absurd found serves
      · exact all s later serves
    | some info =>
      obtain ⟨loop, c, environ, served, among, passed, only⟩ :=
        oneClient_loop (initializeRequestModule p.wsgiBaseDict info)
      obtain ⟨calls, p', sockets, run, grows, carries⟩ :=
        ih ⟨some (initializeRequestModule p.wsgiBaseDict info), p.served ++ [(socket, loop)]⟩
      refine ⟨(socket, oneClient) :: calls, p', by rw [List.map_cons, sockets],
        .cons (.served found served) run, (List.prefix_append _ _).trans grows, ?_⟩
      intro described
      obtain ⟨d, kept, all⟩ := carries described
      have base : initializeRequestModule p.wsgiBaseDict info = d := by simpa using kept
      obtain ⟨d', same, own⟩ := described (socket, loop) (grows.subset (by simp)) c among _ passed
      cases same
      refine ⟨d, ?_, fun s member serves => ?_⟩
      · rw [← base]
        cases p.wsgiBaseDict with
        | none => exact Or.inl rfl
        | some _ => exact Or.inr rfl
      · rcases List.mem_cons.mp member with first | later
        · rw [first, ← base]
          exact only _ own
        · exact all s later serves

/-- However often and on whatever sockets `server_run` is called, all environs describe the socket that is served if
and only if those sockets have one address. -/
theorem environ_describes_socket (sockets : List Socket) :
    (∀ calls p, calls.map Prod.fst = sockets → Run (ServerRun WholeStep) .start calls p → p.Described) ↔
      SameAddress sockets := by
  constructor
  · intro described s among t among' serves serves'
    obtain ⟨calls, p, same, run, _, carries⟩ := serves_all .start sockets
    obtain ⟨d, _, all⟩ := carries (described calls p same run)
    exact (all s among serves).unique (all t among' serves')
  · intro same calls p map run
    have steady : ∀ address, Steady address .start := by
      intro address
      exact ⟨fun d kept => (by cases kept), fun served member => (by cases member)⟩
    by_cases some : ∃ s ∈ sockets, serverInfo s ≠ none
    · obtain ⟨s, among, serves⟩ := some
      refine (steady_of_run (steady s.address) (fun call member serves' => ?_) run).described
      have among' : call.1 ∈ sockets := map ▸ List.mem_map_of_mem member
      exact same call.1 among' s among serves' serves
    · refine (steady_of_run (steady ([], [])) (fun call member serves => ?_) run).described
      have among : call.1 ∈ sockets := map ▸ List.mem_map_of_mem member
      exact absurd ⟨call.1, among, serves⟩ some

def tcpSocket : Socket := ⟨3, .returns (.pair (ascii "127.0.0.1") (some (ascii "8080")))⟩

def unixSocket : Socket := ⟨4, .returns .other⟩

/-- A server on a Unix socket passes on the address of the TCP socket that was served before it. -/
theorem stale_server_address : ∃ p loop c d, Run (ServerRun WholeStep) .start
    [(tcpSocket, oneClient), (unixSocket, oneClient)] p ∧ (unixSocket, loop) ∈ p.served ∧ c ∈ loop.conns ∧
      .environ d ∈ c.environs ∧ Carries (ascii "127.0.0.1", ascii "8080") d ∧ ¬ p.Described := by
  have carries : Carries (ascii "127.0.0.1", ascii "8080")
      (wsgiBaseDict (some (ascii "127.0.0.1")) (some (ascii "8080"))) := ⟨rfl, rfl⟩
  obtain ⟨loop, c, d, run, among, passed, _⟩ :=
    oneClient_loop (wsgiBaseDict (some (ascii "127.0.0.1")) (some (ascii "8080")))
  have first : ServerRun WholeStep .start (tcpSocket, oneClient) _ := .served rfl run
  have second : ServerRun WholeStep _ (unixSocket, oneClient) _ := .served (p := ⟨some _, [(tcpSocket, loop)]⟩) rfl run
  obtain ⟨clientAddr, parser, own, reached⟩ := ownRun_of_loop run among
  obtain ⟨d', same, stale⟩ := describes_of_run carries reached _ passed
  cases same
  refine ⟨_, loop, c, d, .cons first (.cons second .nil), by simp, among, passed, stale, ?_⟩
  intro described
  obtain ⟨d', same, fresh⟩ := described (unixSocket, loop) (by simp) c among _ passed
  cases same
  have other : unixSocket.address ≠ (ascii "127.0.0.1", ascii "8080") := by decide
  exact other (fresh.unique stale)

end Bjoern
