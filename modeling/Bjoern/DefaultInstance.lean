import Bjoern.ExpectComparison
import Bjoern.MainLoop
import Bjoern.ServerRun

namespace Bjoern

open Runs

variable {α : Type}

/-- What the functions of the module raise; `embeddedNull` is for a text with a null byte where C wants none. -/
inductive ModuleError
  | runtimeError (text : Bytes)
  | osError
  | typeError
  | keyError
  | valueError
  | overflowError
  | embeddedNull
  deriving DecidableEq

/-- The compile flags that the functions of the module depend on. -/
structure ModuleBuild extends Build where
  wantStatsd : Bool
  deriving DecidableEq

/-- The argument of `sock.bind`. -/
inductive BindTarget
  | unix (path : Bytes)
  | inet (host : Bytes) (port : Option Nat)
  deriving DecidableEq

/-- The name of a bound socket. One in the abstract namespace begins with a null byte, which is left out here. -/
inductive BoundName
  | inet (host port : Bytes)
  | path (name : Bytes) (some : name ≠ []) (plain : 0 ∉ name)
  | abstract (name : Bytes)
  deriving DecidableEq

/-- What `bind` makes of its argument: a path ends before a null byte, and the kernel chooses an abstract name for an
empty one. A port of `None` is a `TypeError`. -/
def BindTarget.Gives : BindTarget → BoundName → Prop
  | .inet _ port, .inet _ _ => port.isSome = true
  | .unix path, .path name _ _ => path.takeWhile (· != 0) = name
  | .unix path, .abstract name => path = [] ∨ path = 0 :: name
  | _, _ => False

/-- The arguments of `bind_and_listen`. -/
structure ListenArgs where
  host : Bytes
  port : Option Nat := none
  reusePort : Bool := false
  listenBacklog : Nat := 1024
  deriving DecidableEq

/-- What the calls of a socket's methods in `bind_and_listen` do. -/
structure BindCalls where
  socket : Except ModuleError Nat
  setsockopt : Except ModuleError Unit
  bind : Except ModuleError BoundName
  listen : Except ModuleError Unit

/-- A `socket.socket` of the module. -/
structure PySocket where
  fileno : Nat
  name : BoundName
  reuseaddr : Bool
  reuseport : Bool
  blocking : Bool
  backlog : Nat
  deriving DecidableEq

def ListenArgs.target (args : ListenArgs) : BindTarget :=
  if (ascii "unix:@").isPrefixOf args.host then .unix (0 :: args.host.drop 6)
  else if (ascii "unix:").isPrefixOf args.host then .unix (args.host.drop 5)
  else .inet args.host args.port

/-- `bind_and_listen` -/
def bindAndListen (args : ListenArgs) (calls : BindCalls) : Except ModuleError PySocket := do
  let fileno ← calls.socket
  match args.target with
  | .unix _ =>
    let name ← calls.bind
    calls.listen
    pure ⟨fileno, name, false, false, false, args.listenBacklog⟩
  | .inet _ _ =>
    calls.setsockopt
    let name ← calls.bind
    calls.listen
    pure ⟨fileno, name, true, args.reusePort, false, args.listenBacklog⟩

/-- The global state: `_default_instance`, the sockets that `listen` has opened and `run` has not closed, and what
`_bjoern` keeps. -/
structure PyModule (α : Type) where
  defaultInstance : Option (PySocket × α)
  opened : List PySocket
  process : Process

def PyModule.start : PyModule α := ⟨none, [], .start⟩

/-- `listen` -/
def PyModule.listen (m : PyModule α) (wsgiApp : α) (args : ListenArgs) (calls : BindCalls) :
    Except ModuleError PySocket × PyModule α :=
  match m.defaultInstance with
  | some _ => (.error (.runtimeError (ascii "Only one global server instance possible")), m)
  | none =>
    match bindAndListen args calls with
    | .error e => (.error e, m)
    | .ok sock => (.ok sock, { m with defaultInstance := some (sock, wsgiApp), opened := sock :: m.opened })

/-- The arguments of `run` that it passes on to `listen`. -/
structure ListenCall (α : Type) where
  wsgiApp : α
  args : ListenArgs
  calls : BindCalls

/-- `run` up to the `try` -/
def PyModule.instanceToRun (m : PyModule α) : Option (ListenCall α) → Except ModuleError (PySocket × α) × PyModule α
  | some call =>
    match m.listen call.wsgiApp call.args call.calls with
    | (.error e, m') => (.error e, m')
    | (.ok sock, m') => (.ok (m'.defaultInstance.getD (sock, call.wsgiApp)), m')
  | none =>
    match m.defaultInstance with
    | some found => (.ok found, m)
    | none => (.error (.runtimeError (ascii
        "Must call bjoern.listen(wsgi_app, host, ...) before calling bjoern.run() without arguments.")), m)

/-- A value in the dictionary `statsd` of `run`, by what `PyArg_ParseTuple` knows of it. -/
inductive StatsdValue
  | none
  | int (n : Int)
  | str (text : Bytes)
  | other
  deriving DecidableEq

/-- The dictionary, where `none` is for a missing key; `enable` is what `int` makes of its value. -/
structure StatsdDict where
  enable : Option (Except ModuleError Int)
  host : Option StatsdValue
  port : Option StatsdValue
  ns : Option StatsdValue
  tags : Option StatsdValue

/-- `statsd[key]` -/
def statsdItem {β : Type} : Option β → Except ModuleError β
  | some value => .ok value
  | none => .error .keyError

/-- What `server_run` adds to its arguments for those of `_bjoern.server_run`; `none` is for a false `statsd`. -/
def statsdArgs (wantStatsd : Bool) (statsd : Option StatsdDict) : Except ModuleError (List StatsdValue) :=
  if !wantStatsd then .ok []
  else
    match statsd with
    | none => .ok [.int 0, .none, .int 0, .none, .none]
    | some statsd => do
      let enable ← statsdItem statsd.enable
      let enable ← enable
      let host ← statsdItem statsd.host
      let port ← statsdItem statsd.port
      let ns ← statsdItem statsd.ns
      pure [.int enable, host, port, ns, statsd.tags.getD .none]

/-- The format units of `PyArg_ParseTuple` for them. -/
inductive FormatUnit
  | i
  | z

def FormatUnit.convert : FormatUnit → StatsdValue → Except ModuleError Unit
  | .i, .int n => if -2 ^ 31 ≤ n ∧ n < 2 ^ 31 then .ok () else .error .overflowError
  | .z, .none => .ok ()
  | .z, .str text => if 0 ∈ text then .error .embeddedNull else .ok ()
  | _, _ => .error .typeError

/-- `PyArg_ParseTuple` in `run` of `_bjoern`, behind the two objects. -/
def parseStatsdArgs (args : List StatsdValue) : Except ModuleError Unit :=
  (args.zip [FormatUnit.i, .z, .i, .z, .z]).forM fun (arg, unit) => unit.convert arg

/-- What the system calls of one `run` answer: `getsockname()` in `_bjoern`, the two in the `finally`, and
`unlink()`. -/
structure RunCalls where
  getsockname : Except ModuleError Unit
  filename : Except ModuleError Unit
  unlinkName : Except ModuleError Unit
  unlink : Except ModuleError Unit

/-- The result of `sock.getsockname()` for an `AF_UNIX` socket. -/
inductive UnixName
  | str (name : Bytes)
  | bytes (name : Bytes)
  deriving DecidableEq

/-- Python 3 has a `bytes` for a name in the abstract namespace. -/
def UnixName.of : PythonBuild → Bytes → UnixName
  | .python2 _, name => .str name
  | .python3, name => if name.head? = some 0 then .bytes name else .str name

/-- `filename[0] != '\0'`. A byte of a `bytes` is an `int`, which is not equal to any `str`. -/
def UnixName.firstIsNotNull : UnixName → Bool
  | .str name => name.head? != some 0
  | .bytes _ => true

/-- `os.unlink`, where `result` is what the system call does. -/
def osUnlink (result : Except ModuleError Unit) : UnixName → Except ModuleError Unit
  | .str name => if 0 ∈ name then .error .embeddedNull else result
  | .bytes name => if 0 ∈ name then .error .embeddedNull else result

/-- The `sun_path` of an `AF_UNIX` socket. -/
def BoundName.sunPath : BoundName → Option Bytes
  | .inet _ _ => none
  | .path name _ _ => some name
  | .abstract name => some (0 :: name)

/-- The first statement of the `finally` in `run`. -/
def unlinkFilename (python : PythonBuild) (sock : PySocket) (calls : RunCalls) : Except ModuleError Unit :=
  match sock.name.sunPath with
  | none => .ok ()
  | some name => do
    calls.filename
    let filename := UnixName.of python name
    if filename.firstIsNotNull then do
      calls.unlinkName
      osUnlink calls.unlink filename
    else pure ()

/-- The `finally` of `run`, where `sock.close()` does not fail. -/
def PyModule.cleanUp (python : PythonBuild) (m : PyModule α) (sock : PySocket) (calls : RunCalls) :
    Except ModuleError Unit × PyModule α :=
  match unlinkFilename python sock calls with
  | .error e => (.error e, m)
  | .ok () => (.ok (), { m with opened := m.opened.erase sock, defaultInstance := none })

/-- What `_bjoern.server_run` makes of a socket of the module. -/
def PySocket.handed (sock : PySocket) (getsockname : Except ModuleError Unit) : Socket :=
  ⟨sock.fileno,
    match getsockname with
    | .error _ => .raises
    | .ok () =>
      match sock.name with
      | .inet host port => .returns (.pair host (some port))
      | .path _ _ _ => .returns .other
      | .abstract _ => .returns .other⟩

/-- A call of `_bjoern.server_run` that comes back, after the events of its main loop. -/
inductive ServerReturns (build : Build) (p : Process) (socket : Socket) : List MainEvent → Process → Prop
  | refused : serverInfo socket = none → ServerReturns build p socket [] p
  | served {info events m} : serverInfo socket = some info →
      Run (MainStep build (initializeRequestModule p.wsgiBaseDict info)) (.start build) events m → m.Over →
      ServerReturns build p socket events
        ⟨some (initializeRequestModule p.wsgiBaseDict info), p.served ++ [(socket, m.thread.loop)]⟩

/-- A call of `server_run` that comes back or raises. -/
inductive ServerCall (build : ModuleBuild) (p : Process) (sock : PySocket) (statsd : Option StatsdDict)
    (getsockname : Except ModuleError Unit) : List MainEvent → Process → Prop
  | raises {e} : statsdArgs build.wantStatsd statsd >>= parseStatsdArgs = .error e →
      ServerCall build p sock statsd getsockname [] p
  | returns {events p'} : statsdArgs build.wantStatsd statsd >>= parseStatsdArgs = .ok () →
      ServerReturns build.toBuild p (sock.handed getsockname) events p' →
      ServerCall build p sock statsd getsockname events p'

inductive ModuleCall (α : Type)
  | listen (call : ListenCall α)
  | run (call : Option (ListenCall α)) (statsd : Option StatsdDict) (events : List MainEvent) (calls : RunCalls)

def ListenCall.Lawful (call : ListenCall α) : Prop :=
  ∀ name, call.calls.bind = .ok name → call.args.target.Gives name

/-- One call of the module that comes back, whether or not it raises. -/
inductive ModuleStep (python : PythonBuild) (build : ModuleBuild) (m : PyModule α) : ModuleCall α → PyModule α → Prop
  | listen {call : ListenCall α} : call.Lawful →
      ModuleStep python build m (.listen call) (m.listen call.wsgiApp call.args call.calls).2
  | notRun {call e m' statsd calls} : (∀ c ∈ call, c.Lawful) → m.instanceToRun call = (.error e, m') →
      ModuleStep python build m (.run call statsd [] calls) m'
  | run {call sock wsgiApp m' statsd events p calls} : (∀ c ∈ call, c.Lawful) →
      m.instanceToRun call = (.ok (sock, wsgiApp), m') →
      ServerCall build m'.process sock statsd calls.getsockname events p →
      ModuleStep python build m (.run call statsd events calls)
        (PyModule.cleanUp python { m' with process := p } sock calls).2

def BoundName.isAbstract : BoundName → Bool
  | .abstract _ => true
  | _ => false

theorem unlinkFilename_abstract {sock : PySocket} (abstract : sock.name.isAbstract = true) (calls : RunCalls) :
    unlinkFilename .python3 sock calls ≠ .ok () := by
  intro done
  cases name : sock.name with
  | inet => rw [name] at abstract; cases abstract
  | path => rw [name] at abstract; cases abstract
  | abstract rest =>
    simp only [unlinkFilename, name, BoundName.sunPath] at done
    obtain ⟨_, _, done⟩ := bind_ok done
    rw [if_pos (by simp [UnixName.of, UnixName.firstIsNotNull])] at done
    obtain ⟨_, _, done⟩ := bind_ok done
    simp [UnixName.of, osUnlink] at done

/-- The system calls of a `run` that all succeed. -/
def RunCalls.succeed : RunCalls := ⟨.ok (), .ok (), .ok (), .ok ()⟩

/-- Where the system calls succeed, only the `bytes` of an abstract name make the `finally` fail. -/
theorem unlinkFilename_ok {python : PythonBuild} {sock : PySocket}
    (deletable : ¬ (python = .python3 ∧ sock.name.isAbstract = true)) (getsockname : Except ModuleError Unit) :
    unlinkFilename python sock { RunCalls.succeed with getsockname := getsockname } = .ok () := by
  unfold unlinkFilename
  cases name : sock.name with
  | inet => rfl
  | path path some plain =>
    have first : path.head? ≠ Option.some 0 := fun null => plain (List.mem_of_head? null)
    have filename : UnixName.of python path = .str path := by
      cases python with
      | python2 => rfl
      | python3 => exact if_neg first
    simp [BoundName.sunPath, filename, osUnlink, plain, RunCalls.succeed, ok_bind]
  | abstract rest =>
    cases python with
    | python2 => simp [BoundName.sunPath, UnixName.of, UnixName.firstIsNotNull, RunCalls.succeed, ok_bind]
    | python3 => exact absurd ⟨rfl, by rw [name]; rfl⟩ deletable

theorem PyModule.listen_refused {m : PyModule α} {found : PySocket × α} (existing : m.defaultInstance = some found)
    (call : ListenCall α) : m.listen call.wsgiApp call.args call.calls =
      (.error (.runtimeError (ascii "Only one global server instance possible")), m) := by
  rw [PyModule.listen, existing]

/-- `listen` leaves the module as it was, or makes a default instance where there was none. -/
theorem PyModule.listen_cases (m : PyModule α) (call : ListenCall α) :
    (∃ e, m.listen call.wsgiApp call.args call.calls = (.error e, m)) ∨
      m.defaultInstance = none ∧ ∃ sock, bindAndListen call.args call.calls = .ok sock ∧
        m.listen call.wsgiApp call.args call.calls =
          (.ok sock, { m with defaultInstance := some (sock, call.wsgiApp), opened := sock :: m.opened }) := by
  cases found : m.defaultInstance with
  | some found => exact Or.inl ⟨_, m.listen_refused (by assumption) call⟩
  | none =>
    cases bound : bindAndListen call.args call.calls with
    | error e => exact Or.inl ⟨e, by simp [PyModule.listen, found, bound]⟩
    | ok sock => exact Or.inr ⟨rfl, sock, rfl, by simp [PyModule.listen, found, bound]⟩

/-- What `run` serves is the default instance, which is a new one if there was none. -/
theorem PyModule.instanceToRun_ok {m m' : PyModule α} {call : Option (ListenCall α)} {found : PySocket × α}
    (h : m.instanceToRun call = (.ok found, m')) : m'.defaultInstance = some found ∧
      (m' = m ∨ m.defaultInstance = none ∧ ∃ c, call = some c ∧ m' = (m.listen c.wsgiApp c.args c.calls).2) := by
  unfold PyModule.instanceToRun at h
  cases call with
  | none =>
    cases existing : m.defaultInstance with
    | none => simp [existing] at h
    | some own =>
      simp only [existing, Prod.mk.injEq, Except.ok.injEq] at h
      obtain ⟨rfl, rfl⟩ := h
      exact ⟨existing, Or.inl rfl⟩
  | some call =>
    rcases m.listen_cases call with ⟨e, refused⟩ | ⟨none, sock, bound, listens⟩
    · simp [refused] at h
    · simp only [listens, Prod.mk.injEq, Except.ok.injEq, Option.getD_some] at h
      obtain ⟨rfl, rfl⟩ := h
      exact ⟨rfl, Or.inr ⟨none, call, rfl, by rw [listens]⟩⟩

theorem PyModule.instanceToRun_error {m m' : PyModule α} {call : Option (ListenCall α)} {e : ModuleError}
    (h : m.instanceToRun call = (.error e, m')) : m' = m := by
  unfold PyModule.instanceToRun at h
  cases call with
  | none =>
    cases existing : m.defaultInstance <;> simp [existing] at h
    exact h.2.symm
  | some call =>
    rcases m.listen_cases call with ⟨e, refused⟩ | ⟨none, sock, bound, listens⟩
    · simp only [refused, Prod.mk.injEq] at h
      exact h.2.symm
    · simp [listens] at h

theorem PyModule.cleanUp_cases (python : PythonBuild) (m : PyModule α) (sock : PySocket) (calls : RunCalls) :
    (∃ e, unlinkFilename python sock calls = .error e ∧ (PyModule.cleanUp python m sock calls).2 = m) ∨
      unlinkFilename python sock calls = .ok () ∧ (PyModule.cleanUp python m sock calls).2 =
        { m with opened := m.opened.erase sock, defaultInstance := none } := by
  unfold PyModule.cleanUp
  split
  next e fails => exact Or.inl ⟨e, fails, rfl⟩
  next done => exact Or.inr ⟨done, rfl⟩

def ModuleCall.listens : ModuleCall α → List (ListenCall α)
  | .listen call => [call]
  | .run call _ _ _ => call.toList

/-- The call makes a default instance. -/
def ListenCall.Makes (call : ListenCall α) (found : PySocket × α) : Prop :=
  call.Lawful ∧ bindAndListen call.args call.calls = .ok found.1 ∧ call.wsgiApp = found.2

/-- The one socket that is open is that of the default instance, which one of the calls has made. -/
structure PyModule.Sound (past : List (ModuleCall α)) (m : PyModule α) : Prop where
  opened : m.opened = m.defaultInstance.toList.map Prod.fst
  made : ∀ found, m.defaultInstance = some found → ∃ call ∈ past.flatMap ModuleCall.listens, call.Makes found

theorem PyModule.Sound.later {past : List (ModuleCall α)} {m : PyModule α} (h : m.Sound past) (event : ModuleCall α) :
    m.Sound (past ++ [event]) := by
  refine ⟨h.opened, fun found own => ?_⟩
  obtain ⟨call, member, makes⟩ := h.made found own
  rw [List.flatMap_append]
  exact ⟨call, List.mem_append_left _ member, makes⟩

theorem PyModule.Sound.listen {past : List (ModuleCall α)} {m : PyModule α} (h : m.Sound past) {event : ModuleCall α}
    {call : ListenCall α} (among : call ∈ event.listens) (lawful : call.Lawful) :
    (m.listen call.wsgiApp call.args call.calls).2.Sound (past ++ [event]) := by
  rcases m.listen_cases call with ⟨e, refused⟩ | ⟨none, sock, bound, listens⟩
  · rw [refused]
    exact h.later event
  · have before := h.opened
    rw [none] at before
    rw [listens]
    refine ⟨by simp [before], ?_⟩
    rintro _ ⟨⟩
    have member : call ∈ (past ++ [event]).flatMap ModuleCall.listens := by
      rw [List.flatMap_append, List.flatMap_singleton]
      exact List.mem_append_right _ among
    exact ⟨call, member, lawful, bound, rfl⟩

theorem PyModule.Sound.own {past : List (ModuleCall α)} {m : PyModule α} (h : m.Sound past) {found : PySocket × α}
    (own : m.defaultInstance = some found) : m.opened = [found.1] := by
  rw [h.opened, own]
  rfl

theorem ModuleStep.sound {python : PythonBuild} {build : ModuleBuild} {past : List (ModuleCall α)} {m m' : PyModule α}
    {event : ModuleCall α} (h : m.Sound past) (step : ModuleStep python build m event m') :
    m'.Sound (past ++ [event]) := by
  cases step with
  | listen lawful => exact h.listen (by simp [ModuleCall.listens]) lawful
  | notRun _ error => exact PyModule.instanceToRun_error error ▸ h.later _
  | @run call sock wsgiApp mid statsd events p calls lawful found =>
    have ready : mid.Sound (past ++ [.run call statsd events calls]) := by
      obtain ⟨_, rfl | ⟨_, c, rfl, rfl⟩⟩ := PyModule.instanceToRun_ok found
      · exact h.later _
      · exact h.listen (by simp [ModuleCall.listens]) (lawful c rfl)
    have opened := ready.own (PyModule.instanceToRun_ok found).1
    rcases PyModule.cleanUp_cases python { mid with process := p } sock calls with ⟨e, _, stays⟩ | ⟨_, ends⟩
    · rw [stays]
      exact ⟨ready.opened, ready.made⟩
    · rw [ends]
      exact ⟨by simp [opened], fun _ none => by cases none⟩

/-- Without a handler for it, no `SIGINT` reaches the main loop. -/
theorem sigint_handled {build : Build} {base : Environ} {events : List MainEvent} {m : MainLoop}
    (run : Run (MainStep build base) (.start build) events m) (member : .sigint ∈ events) :
    build.wantSigintHandling = true := by
  obtain ⟨before, after, rfl⟩ := List.append_of_mem member
  obtain ⟨mid, first, second⟩ := run.split
  have watched := first.invariant (fun m => m.sigintWatcher = true → build.wantSigintHandling = true)
    (fun m event m' inv step => by
      cases step with
      | sigint => exact nofun
      | accept => exact inv
      | io => exact inv
      | tick => exact inv) id
  cases second with
  | cons step =>
    cases step with
    | sigint on => exact watched on

theorem PySocket.info (sock : PySocket) : ∃ info, serverInfo (sock.handed (.ok ())) = some info := by
  have number : ¬ (sock.handed (.ok ())).fileno < 0 := Int.not_lt.mpr (Int.natCast_nonneg _)
  rw [serverInfo, if_neg number]
  unfold PySocket.handed
  cases sock.name <;> exact ⟨_, rfl⟩

theorem ServerReturns.handled {build : Build} {p p' : Process} {sock : PySocket} {events : List MainEvent}
    (h : ServerReturns build p (sock.handed (.ok ())) events p') : build.wantSigintHandling = true := by
  cases h with
  | refused none =>
    obtain ⟨info, some⟩ := sock.info
    cases none.symm.trans some
  | served _ run returns =>
    cases phase_of_run run with
    | serving _ accept => cases accept.symm.trans returns.accept
    | draining split => exact sigint_handled run (by simp [split])

/-- A callback of a connection under whatever exception is pending in the thread. -/
def SharedStep (base : Environ) (c : Conn) (event : Event) (c' : Conn) : Prop :=
  ∃ exc, OpenStep base { c with pyErr := exc } event c'

def loopEvents (events : List MainEvent) : List LoopEvent :=
  events.filterMap fun
    | .loop event => some event
    | _ => none

theorem MainStep.shared {build : Build} {base : Environ} {m m' : MainLoop} {event : MainEvent}
    (step : MainStep build base m event m') :
    Run (LoopStep (SharedStep base)) m.thread.loop (loopEvents [event]) m'.thread.loop := by
  cases step with
  | accept _ step =>
    cases step with
    | accept => exact .single .accept
  | io step =>
    cases step with
    | io found step => exact .single (.io found ⟨_, step⟩)
  | sigint => exact .nil
  | tick => exact .nil

theorem shared_run {build : Build} {base : Environ} {m m' : MainLoop} {events : List MainEvent}
    (run : Run (MainStep build base) m events m') :
    Run (LoopStep (SharedStep base)) m.thread.loop (loopEvents events) m'.thread.loop := by
  induction run with
  | nil => exact .nil
  | @cons _ _ _ event rest step _ ih =>
    have split : loopEvents (event :: rest) = loopEvents [event] ++ loopEvents rest := by
      rw [loopEvents, loopEvents, loopEvents, ← List.filterMap_append]
      rfl
    rw [split]
    exact step.shared.append ih

theorem ServerReturns.serverRun {build : Build} {p p' : Process} {socket : Socket} {events : List MainEvent}
    (h : ServerReturns build p socket events p') : ServerRun SharedStep p (socket, loopEvents events) p' := by
  cases h with
  | refused none => exact .refused none
  | served some run => exact .served some (shared_run run)

/-- What the calls of the module make of the process, calls of `_bjoern.server_run` make of it. -/
theorem process_of_module {python : PythonBuild} {build : ModuleBuild} {calls : List (ModuleCall α)} {m : PyModule α}
    (run : Run (ModuleStep python build) .start calls m) :
    ∃ served, Run (ServerRun SharedStep) .start served m.process := by
  refine run.invariant (fun m => ∃ served, Run (ServerRun SharedStep) .start served m.process) ?_ ⟨[], .nil⟩
  rintro m event m' ⟨served, before⟩ step
  have listens : ∀ call : ListenCall α, (m.listen call.wsgiApp call.args call.calls).2.process = m.process := by
    intro call
    rcases m.listen_cases call with ⟨_, refused⟩ | ⟨_, _, _, opens⟩
    · rw [refused]
    · rw [opens]
  cases step with
  | listen => exact ⟨served, listens _ ▸ before⟩
  | notRun _ error => exact ⟨served, PyModule.instanceToRun_error error ▸ before⟩
  | @run _ sock _ mid _ _ p calls _ ok serves =>
    have same : mid.process = m.process := by
      obtain ⟨_, rfl | ⟨_, c, _, rfl⟩⟩ := PyModule.instanceToRun_ok ok
      · rfl
      · exact listens c
    have next : ∃ served, Run (ServerRun SharedStep) .start served p := by
      rw [same] at serves
      cases serves with
      | raises => exact ⟨served, before⟩
      | returns _ returns => exact ⟨_, before.snoc returns.serverRun⟩
    rcases PyModule.cleanUp_cases python { mid with process := p } sock calls with ⟨_, _, stays⟩ | ⟨_, ends⟩
    · rw [stays]
      exact next
    · rw [ends]
      exact next

/-- A default instance is there after every call but a `run` whose `server_run` and whose `finally` come to an end. -/
theorem ModuleStep.keeps_or {python : PythonBuild} {build : ModuleBuild} {m m' : PyModule α} {call : ModuleCall α}
    {found : PySocket × α} (existing : m.defaultInstance = some found) (step : ModuleStep python build m call m') :
    m'.defaultInstance = some found ∨ ∃ c statsd events calls p, call = .run c statsd events calls ∧
      ServerCall build m.process found.1 statsd calls.getsockname events p ∧
      unlinkFilename python found.1 calls = .ok () := by
  cases step with
  | listen => exact Or.inl (by rwa [m.listen_refused existing])
  | notRun _ error => exact Or.inl (by rwa [PyModule.instanceToRun_error error])
  | @run c sock _ mid statsd events p calls _ ok serves =>
    obtain ⟨own, rfl | ⟨none, _⟩⟩ := PyModule.instanceToRun_ok ok
    · cases existing.symm.trans own
      rcases PyModule.cleanUp_cases python { mid with process := p } sock calls with ⟨_, _, stays⟩ | ⟨done, _⟩
      · exact Or.inl (by rwa [stays])
      · exact Or.inr ⟨c, statsd, events, calls, p, rfl, serves, done⟩
    · cases existing.symm.trans none

/-- No `getsockname()` of `_bjoern.server_run` fails. -/
def ModuleCall.Named : ModuleCall α → Prop
  | .listen _ => True
  | .run _ _ _ calls => calls.getsockname = .ok ()

/-- Without `SIGINT` handling, `server_run` only comes back from a bad argument, which only a statsd build takes. -/
theorem ServerCall.ended {build : ModuleBuild} {p p' : Process} {sock : PySocket} {statsd : Option StatsdDict}
    {events : List MainEvent} (h : ServerCall build p sock statsd (.ok ()) events p') :
    build.wantSigintHandling = true ∨ build.wantStatsd = true := by
  cases h with
  | raises fails =>
    cases want : build.wantStatsd with
    | true => exact Or.inr rfl
    | false =>
      rw [want] at fails
      cases fails
  | returns _ returns => exact Or.inl returns.handled

/-- A `SIGINT` when no client is there ends `server_run`. -/
theorem sigint_returns {build : Build} (handles : build.wantSigintHandling = true) (p : Process) (sock : PySocket) :
    ∃ p', ServerReturns build p (sock.handed (.ok ())) [.sigint] p' := by
  obtain ⟨info, some⟩ := sock.info
  have run : Run (MainStep build (initializeRequestModule p.wsgiBaseDict info)) (.start build) [.sigint] _ :=
    .single (.sigint handles)
  have nobody : (MainLoop.evSignalOnSigint build (.start build)).thread.loop.live = 0 := rfl
  have timeout : (MainLoop.evSignalOnSigint build (.start build)).timeoutWatcher = false := by
    unfold MainLoop.evSignalOnSigint
    dsimp only
    split
    next => rfl
    next off => simpa [MainLoop.start] using off
  exact ⟨_, .served some run ⟨rfl, rfl, timeout, live_eq_zero_iff.mp nobody⟩⟩

theorem statsdArgs_none (wantStatsd : Bool) : statsdArgs wantStatsd none >>= parseStatsdArgs = .ok () := by
  cases wantStatsd <;> rfl

/-- The dictionary `{'enable': 1}` -/
def enableOnly : StatsdDict := ⟨some (.ok 1), none, none, none, none⟩

/-- Some call of `server_run` comes back, or raises. -/
theorem serverCall_ends {build : ModuleBuild} (ends : build.wantSigintHandling = true ∨ build.wantStatsd = true)
    (p : Process) (sock : PySocket) : ∃ statsd events p', ServerCall build p sock statsd (.ok ()) events p' := by
  rcases ends with handles | wants
  · obtain ⟨p', returns⟩ := sigint_returns handles p sock
    exact ⟨none, _, p', .returns (statsdArgs_none _) returns⟩
  · refine ⟨some enableOnly, [], p, .raises (e := .keyError) ?_⟩
    rw [wants]
    rfl

/-- A `server_run` that comes to an end takes a default instance with it whose `finally` does not fail. -/
theorem instance_ended {python : PythonBuild} {build : ModuleBuild} {m : PyModule α} {found : PySocket × α}
    (existing : m.defaultInstance = some found) (own : m.opened = [found.1])
    (deletable : ¬ (python = .python3 ∧ found.1.name.isAbstract = true)) {statsd : Option StatsdDict}
    {events : List MainEvent} {p : Process} {getsockname : Except ModuleError Unit}
    (serves : ServerCall build m.process found.1 statsd getsockname events p) : ∃ last,
      ModuleStep python build m (.run none statsd events { RunCalls.succeed with getsockname := getsockname }) last ∧
      last.defaultInstance = none ∧ last.opened = [] := by
  have ready : m.instanceToRun none = (.ok found, m) := by simp [PyModule.instanceToRun, existing]
  have step : ModuleStep python build m
      (.run none statsd events { RunCalls.succeed with getsockname := getsockname }) _ := .run (by simp) ready serves
  refine ⟨_, step, ?_⟩
  rcases PyModule.cleanUp_cases python { m with process := p } found.1
    { RunCalls.succeed with getsockname := getsockname } with ⟨_, fails, _⟩ | ⟨_, ends⟩
  · cases fails.symm.trans (unlinkFilename_ok deletable getsockname)
  · rw [ends]
    simp [own]

/-- The socket is bound to a name in the abstract namespace. -/
def ListenArgs.Abstract (args : ListenArgs) : Prop :=
  ∃ path, args.target = .unix path ∧ (path = [] ∨ path.head? = some 0)

theorem bindAndListen_name {args : ListenArgs} {calls : BindCalls} {sock : PySocket}
    (h : bindAndListen args calls = .ok sock) : calls.bind = .ok sock.name := by
  unfold bindAndListen at h
  obtain ⟨fileno, _, h⟩ := bind_ok h
  split at h
  next =>
    obtain ⟨name, bound, h⟩ := bind_ok h
    obtain ⟨_, _, h⟩ := bind_ok h
    cases h
    exact bound
  next =>
    obtain ⟨_, _, h⟩ := bind_ok h
    obtain ⟨name, bound, h⟩ := bind_ok h
    obtain ⟨_, _, h⟩ := bind_ok h
    cases h
    exact bound

theorem ListenCall.Makes.abstract_iff {call : ListenCall α} {found : PySocket × α} (h : call.Makes found) :
    found.1.name.isAbstract = true ↔ call.args.Abstract := by
  obtain ⟨lawful, bound, _⟩ := h
  have gives := lawful _ (bindAndListen_name bound)
  unfold ListenArgs.Abstract
  cases target : call.args.target with
  | inet host port =>
    cases name : found.1.name with
    | inet => simp [BoundName.isAbstract]
    | path => simp [target, name, BindTarget.Gives] at gives
    | abstract => simp [target, name, BindTarget.Gives] at gives
  | unix path =>
    cases name : found.1.name with
    | inet => simp [target, name, BindTarget.Gives] at gives
    | path rest some plain =>
      have cut : path.takeWhile (· != 0) = rest := by simpa [target, name, BindTarget.Gives] using gives
      have first : path ≠ [] ∧ path.head? ≠ Option.some 0 := by
        cases path with
        | nil => exact absurd cut.symm some
        | cons c path =>
          refine ⟨by simp, fun null => some ?_⟩
          rw [← cut, Option.some.inj null]
          rfl
      simp [BoundName.isAbstract, first.1, first.2]
    | abstract rest =>
      have null : path = [] ∨ path = 0 :: rest := by simpa [target, name, BindTarget.Gives] using gives
      refine iff_of_true rfl ⟨path, rfl, null.imp_right fun same => ?_⟩
      rw [same]
      rfl

/-- From `m`, calls of `step` bring the module to a state without a default instance and without an open socket. -/
def PyModule.CanEnd (step : PyModule α → ModuleCall α → PyModule α → Prop) (m : PyModule α) : Prop :=
  ∃ later last, Run step m later last ∧ last.defaultInstance = none ∧ last.opened = []

/-- The only socket that the module keeps open is that of its default instance, which a call with some arguments has
made. A `run` can put an end to both, unless it is Python 3 and the arguments name an abstract socket; where no
`getsockname()` of `_bjoern.server_run` fails, it takes a build with `SIGINT` handling or with statsd. -/
theorem instance_ends_iff {python : PythonBuild} {build : ModuleBuild} {calls : List (ModuleCall α)} {m : PyModule α}
    {found : PySocket × α} (run : Run (ModuleStep python build) .start calls m)
    (existing : m.defaultInstance = some found) :
    m.opened = [found.1] ∧ ∃ call ∈ calls.flatMap ModuleCall.listens, call.Makes found ∧
      (m.CanEnd (ModuleStep python build) ↔ ¬ (python = .python3 ∧ call.args.Abstract)) ∧
      (m.CanEnd (Guarded (fun _ call => call.Named) (ModuleStep python build)) ↔
        (build.wantSigintHandling = true ∨ build.wantStatsd = true) ∧ ¬ (python = .python3 ∧ call.args.Abstract)) := by
  have start : (PyModule.start : PyModule α).Sound [] := ⟨rfl, nofun⟩
  have sound := run.invariant_history PyModule.Sound (fun _ _ _ _ inv step => step.sound inv) start
  have own := sound.own existing
  obtain ⟨call, member, makes⟩ := sound.made found existing
  have stays : ∀ {step : PyModule α → ModuleCall α → PyModule α → Prop},
      (∀ s event t, s.defaultInstance = some found → step s event t → t.defaultInstance = some found) →
      ¬ m.CanEnd step := by
    rintro step keeps ⟨later, last, goes, none, _⟩
    have kept := goes.invariant (fun m => m.defaultInstance = some found) keeps existing
    cases none.symm.trans kept
  refine ⟨own, call, member, makes, ?_⟩
  rw [← makes.abstract_iff]
  refine ⟨⟨fun ends => ?_, fun deletable => ?_⟩, fun ends => ?_, fun ⟨returns, deletable⟩ => ?_⟩
  · by_contra stuck
    obtain ⟨rfl, abstract⟩ := stuck
    refine stays (fun s event t inv step => ?_) ends
    rcases step.keeps_or inv with kept | ⟨_, _, _, calls, _, _, _, done⟩
    · exact kept
    · exact absurd done (unlinkFilename_abstract abstract calls)
  · have refuses : serverInfo (found.1.handed (.error .osError)) = none := by
      have number : ¬ (found.1.handed (.error .osError)).fileno < 0 := Int.not_lt.mpr (Int.natCast_nonneg _)
      rw [serverInfo, if_neg number]
      rfl
    have serves : ServerCall build m.process found.1 none (.error .osError) [] m.process :=
      .returns (statsdArgs_none _) (.refused refuses)
    obtain ⟨last, step, gone⟩ := instance_ended existing own deletable serves
    exact ⟨_, last, .single step, gone⟩
  · by_contra stuck
    refine stays (fun s event t inv step => ?_) ends
    obtain ⟨named, step⟩ := step
    rcases step.keeps_or inv with kept | ⟨_, _, _, calls, _, rfl, serves, done⟩
    · exact kept
    · have named : calls.getsockname = .ok () := named
      rw [named] at serves
      refine absurd ⟨serves.ended, ?_⟩ stuck
      rintro ⟨rfl, abstract⟩
      exact unlinkFilename_abstract abstract calls done
  · obtain ⟨statsd, events, p, serves⟩ := serverCall_ends returns m.process found.1
    obtain ⟨last, step, gone⟩ := instance_ended existing own deletable serves
    have named : ModuleCall.Named (.run (none : Option (ListenCall α)) statsd events .succeed) := rfl
    exact ⟨_, last, .single ⟨named, step⟩, gone⟩

/-- `listen(app, 'unix:@s')` -/
def listenAbstract : ListenCall Unit :=
  ⟨(), { host := ascii "unix:@s" }, ⟨.ok 3, .ok (), .ok (.abstract (ascii "s")), .ok ()⟩⟩

/-- On Python 3, a server on an abstract socket is the last one of the process, even after a `KeyError`. -/
theorem instance_ends_abstract : ∃ m : PyModule Unit, Run (ModuleStep .python3 ⟨⟨true, true⟩, true⟩) .start
      [.listen listenAbstract, .run none (some enableOnly) [] .succeed, .run none none [.sigint] .succeed] m ∧
    m.opened.length = 1 ∧ ¬ m.CanEnd (ModuleStep .python3 ⟨⟨true, true⟩, true⟩) := by
  have lawful : listenAbstract.Lawful := by
    rintro _ ⟨⟩
    exact Or.inr (by decide)
  have handles : Build.wantSigintHandling ⟨true, true⟩ = true := rfl
  obtain ⟨_, serves⟩ := sigint_returns handles .start ⟨3, .abstract (ascii "s"), false, false, false, 1024⟩
  have run : Run (ModuleStep .python3 ⟨⟨true, true⟩, true⟩) .start
      [.listen listenAbstract, .run none (some enableOnly) [] .succeed, .run none none [.sigint] .succeed] _ :=
    .cons (.listen lawful) (.cons (.run (by simp) rfl (.raises rfl))
      (.single (.run (by simp) rfl (.returns (statsdArgs_none _) serves))))
  obtain ⟨own, call, member, _, ends, _⟩ := instance_ends_iff run rfl
  have asked : call = listenAbstract := by simpa [ModuleCall.listens] using member
  refine ⟨_, run, congrArg List.length own, fun later => ends.mp later ⟨rfl, ?_⟩⟩
  rw [asked]
  exact ⟨_, rfl, Or.inr rfl⟩

end Bjoern
