import Bjoern.ErrorIndicator
import Bjoern.Metrics

namespace Bjoern

open Runs

/-- The compile flags `WANT_SIGINT_HANDLING` and `WANT_SIGNAL_HANDLING`. -/
structure Build where
  wantSigintHandling : Bool
  wantSignalHandling : Bool
  deriving DecidableEq

/-- The `mainloop` of `server_run`: which of its watchers are started, and how many `ev_cleanup` watchers wait for
its end. -/
structure MainLoop where
  thread : ServerThread
  acceptWatcher : Bool
  sigintWatcher : Bool
  timeoutWatcher : Bool
  cleanupWatchers : Nat

/-- `server_run` up to `ev_run` -/
def MainLoop.start (build : Build) : MainLoop :=
  ⟨.start, true, build.wantSigintHandling, build.wantSignalHandling, 0⟩

/-- `ev_signal_on_sigint` -/
def MainLoop.evSignalOnSigint (build : Build) (m : MainLoop) : MainLoop :=
  { m with
    cleanupWatchers := m.cleanupWatchers + 1
    acceptWatcher := false
    sigintWatcher := false
    timeoutWatcher := if build.wantSignalHandling then false else m.timeoutWatcher }

/-- `ev_timer_ontick`, where `raised` is the exception of a Python signal handler. The result of
`PyErr_CheckSignals` is not looked at. -/
def MainLoop.evTimerOntick (m : MainLoop) (raised : Option PyExc) : MainLoop :=
  { m with thread := { m.thread with pyErr := raised.or m.thread.pyErr } }

inductive MainEvent
  | loop (event : LoopEvent)
  | sigint
  | tick (raised : Option PyExc)

/-- A callback of a connection. What its calls into Python do while an exception is pending is left open. -/
def OpenStep (base : Environ) (c : Conn) (event : Event) (c' : Conn) : Prop :=
  enabled c event ∧ (c.pyErr = none → handle base c event = .ok c')

/-- One callback of the main loop. -/
inductive MainStep (build : Build) (base : Environ) (m : MainLoop) : MainEvent → MainLoop → Prop
  | accept {result thread} : m.acceptWatcher = true → ThreadStep (OpenStep base) m.thread (.start result) thread →
      MainStep build base m (.loop (.start result)) { m with thread := thread }
  | io {i event thread} : ThreadStep (OpenStep base) m.thread (.input i event) thread →
      MainStep build base m (.loop (.input i event)) { m with thread := thread }
  | sigint : m.sigintWatcher = true → MainStep build base m .sigint (m.evSignalOnSigint build)
  | tick {raised} : m.timeoutWatcher = true → MainStep build base m (.tick raised) (m.evTimerOntick raised)

/-- `ev_run` returns when no watcher is started any more. -/
structure MainLoop.Over (m : MainLoop) : Prop where
  accept : m.acceptWatcher = false
  sigint : m.sigintWatcher = false
  timeout : m.timeoutWatcher = false
  conns : ∀ c ∈ m.thread.loop.conns, c.evWatcher = .closed

/-- The calls of `PyErr_SetInterrupt` in `ev_loop_destroy`, by `pyerr_set_interrupt` for each cleanup watcher. -/
def MainLoop.interrupts (m : MainLoop) : Nat := m.cleanupWatchers

/-- An event of a connection that is there already. -/
def MainEvent.ofConn : MainEvent → Prop
  | .loop (.input _ _) => True
  | _ => False

/-- Before a `SIGINT` the main loop serves, after it the connections that are left are brought to their end. -/
inductive Phase (build : Build) (events : List MainEvent) (m : MainLoop) : Prop
  | serving : (∀ e ∈ events, e ≠ .sigint) → m.acceptWatcher = true → m.sigintWatcher = build.wantSigintHandling →
      m.timeoutWatcher = build.wantSignalHandling → m.interrupts = 0 → Phase build events m
  | draining {before after} : events = before ++ .sigint :: after → (∀ e ∈ before, e ≠ .sigint) →
      (∀ e ∈ after, e.ofConn) → m.acceptWatcher = false → m.sigintWatcher = false → m.timeoutWatcher = false →
      m.interrupts = 1 → Phase build events m

theorem Phase.step {build : Build} {base : Environ} {events : List MainEvent} {m m' : MainLoop} {event : MainEvent}
    (h : Phase build events m) (step : MainStep build base m event m') : Phase build (events ++ [event]) m' := by
  cases h with
  | serving none accept sigint timeout interrupts =>
    have later : event ≠ .sigint → ∀ e ∈ events ++ [event], e ≠ .sigint := by
      intro other e member
      rcases List.mem_append.mp member with old | new
      · exact none e old
      · exact List.mem_singleton.mp new ▸ other
    cases step with
    | accept => exact .serving (later (by simp)) accept sigint timeout interrupts
    | io => exact .serving (later (by simp)) accept sigint timeout interrupts
    | tick => exact .serving (later (by simp)) accept sigint timeout interrupts
    | sigint =>
      have off : (m.evSignalOnSigint build).timeoutWatcher = false := by
        unfold MainLoop.evSignalOnSigint
        dsimp only
        split
        next => rfl
        next off => rw [timeout]; simpa using off
      have once : (m.evSignalOnSigint build).interrupts = 1 := congrArg (· + 1) interrupts
      exact .draining rfl none (by simp) rfl rfl off once
  | @draining before after split first drains accept sigint timeout interrupts =>
    cases step with
    | accept on => cases accept.symm.trans on
    | sigint on => cases sigint.symm.trans on
    | tick on => cases timeout.symm.trans on
    | @io i e =>
      have split' : events ++ [.loop (.input i e)] = before ++ .sigint :: (after ++ [.loop (.input i e)]) := by
        rw [split, List.append_assoc, List.cons_append]
      refine .draining split' first ?_ accept sigint timeout interrupts
      intro e member
      rcases List.mem_append.mp member with old | new
      · exact drains e old
      · exact List.mem_singleton.mp new ▸ trivial

theorem phase_of_run {build : Build} {base : Environ} {events : List MainEvent} {m : MainLoop}
    (run : Run (MainStep build base) (.start build) events m) : Phase build events m := by
  have start : Phase build [] (.start build) := .serving (by simp) rfl rfl rfl rfl
  exact run.invariant_history (Phase build) (fun _ _ _ _ inv step => inv.step step) start

theorem live_eq_zero_iff {l : ServerLoop} : l.live = 0 ↔ ∀ c ∈ l.conns, c.evWatcher = .closed := by
  simp [ServerLoop.live, List.countP_eq_zero]

/-- `server_run` comes back exactly when there was a `SIGINT` and the last connection is closed; it has set the
interrupt once then. -/
theorem server_run_returns_iff {build : Build} {base : Environ} {events : List MainEvent} {m : MainLoop}
    (run : Run (MainStep build base) (.start build) events m) :
    (m.Over ↔ .sigint ∈ events ∧ m.thread.loop.live = 0) ∧ (m.Over → m.interrupts = 1) := by
  rw [live_eq_zero_iff]
  cases phase_of_run run with
  | serving none accept =>
    have goes : ¬ m.Over := fun returns => by cases accept.symm.trans returns.accept
    refine ⟨⟨fun returns => absurd returns goes, fun ⟨member, _⟩ => absurd rfl (none _ member)⟩, ?_⟩
    exact fun returns => absurd returns goes
  | draining split _ _ accept sigint timeout interrupts =>
    have member : MainEvent.sigint ∈ events := by simp [split]
    exact ⟨⟨fun returns => ⟨member, returns.conns⟩, fun ⟨_, conns⟩ => ⟨accept, sigint, timeout, conns⟩⟩,
      fun _ => interrupts⟩

/-- The stopped watchers make no difference to a connection. -/
theorem drained_step_iff {build : Build} {base : Environ} {m m' : MainLoop} {event : MainEvent}
    (timeout : m.timeoutWatcher = build.wantSignalHandling) :
    MainStep build base (m.evSignalOnSigint build) event m' ↔
      event.ofConn ∧ ∃ d, MainStep build base m event d ∧ m' = d.evSignalOnSigint build := by
  constructor
  · intro step
    cases step with
    | accept on => cases on
    | sigint on => cases on
    | io step => exact ⟨trivial, _, .io step, rfl⟩
    | tick on =>
      simp only [MainLoop.evSignalOnSigint, timeout] at on
      split at on
      next => cases on
      next off => exact absurd on off
  · rintro ⟨conn, d, step, rfl⟩
    cases step with
    | io step => exact .io step
    | accept => cases conn
    | sigint => cases conn
    | tick => cases conn

/-- An event of a connection leaves the watchers of the loop, and the connections that it has, as they are. -/
theorem MainStep.ofConn {build : Build} {base : Environ} {m m' : MainLoop} {event : MainEvent}
    (step : MainStep build base m event m') (conn : event.ofConn) :
    m' = { m with thread := m'.thread } ∧ m'.thread.loop.conns.length = m.thread.loop.conns.length ∧
      m'.thread.loop.metrics = m.thread.loop.metrics := by
  cases step with
  | accept => cases conn
  | sigint => cases conn
  | tick => cases conn
  | io step => cases step with
    | io => exact ⟨rfl, by simp, rfl⟩

theorem ofConn_run {build : Build} {base : Environ} {m m' : MainLoop} {events : List MainEvent}
    (run : Run (MainStep build base) m events m') (conns : ∀ e ∈ events, e.ofConn) :
    m' = { m with thread := m'.thread } ∧ m'.thread.loop.conns.length = m.thread.loop.conns.length ∧
      m'.thread.loop.metrics = m.thread.loop.metrics := by
  induction run with
  | nil => exact ⟨rfl, rfl, rfl⟩
  | cons step _ ih =>
    obtain ⟨watchers, length, metrics⟩ := step.ofConn (conns _ (by simp))
    obtain ⟨watchers', length', metrics'⟩ := ih fun e member => conns e (List.mem_cons_of_mem _ member)
    exact ⟨by rw [watchers', watchers], length'.trans length, metrics'.trans metrics⟩

theorem drained_run_iff {build : Build} {base : Environ} {m m' : MainLoop} {events : List MainEvent}
    (timeout : m.timeoutWatcher = build.wantSignalHandling) :
    Run (MainStep build base) (m.evSignalOnSigint build) events m' ↔
      (∀ e ∈ events, e.ofConn) ∧ ∃ d, Run (MainStep build base) m events d ∧ m' = d.evSignalOnSigint build := by
  induction events generalizing m with
  | nil =>
    constructor
    · intro run
      cases run
      exact ⟨by simp, m, .nil, rfl⟩
    · rintro ⟨_, d, run, rfl⟩
      cases run
      exact .nil
  | cons event events ih =>
    have still : ∀ {d}, event.ofConn → MainStep build base m event d →
        d.timeoutWatcher = build.wantSignalHandling := fun conn step => by
      rw [(step.ofConn conn).1]
      exact timeout
    constructor
    · intro run
      cases run with
      | cons step rest =>
        obtain ⟨conn, d, own, rfl⟩ := (drained_step_iff timeout).mp step
        obtain ⟨conns, last, run, rfl⟩ := (ih (still conn own)).mp rest
        exact ⟨by simpa using ⟨conn, conns⟩, last, .cons own run, rfl⟩
    · rintro ⟨conns, last, run, rfl⟩
      cases run with
      | cons step rest =>
        have conn := conns event (by simp)
        refine .cons ((drained_step_iff timeout).mpr ⟨conn, _, step, rfl⟩)
          ((ih (still conn step)).mpr ⟨?_, _, rest, rfl⟩)
        exact fun e member => conns e (List.mem_cons_of_mem _ member)

/-- After a `SIGINT` only the connections that are there go on, and what happens then is what happens to them without
it: the runs are the same, with the other watchers stopped. -/
theorem sigint_drains {build : Build} {base : Environ} {before after : List MainEvent} {m m' : MainLoop}
    (run : Run (MainStep build base) (.start build) before m) (on : m.sigintWatcher = true) :
    (Run (MainStep build base) m (.sigint :: after) m' ↔
      (∀ e ∈ after, e.ofConn) ∧ ∃ d, Run (MainStep build base) m after d ∧ m' = d.evSignalOnSigint build) ∧
    (Run (MainStep build base) m (.sigint :: after) m' → m'.interrupts = 1 ∧
      m'.thread.loop.conns.length = m.thread.loop.conns.length ∧ m'.thread.loop.metrics = m.thread.loop.metrics) := by
  cases phase_of_run run with
  | draining _ _ _ _ off => cases off.symm.trans on
  | serving none accept sigint timeout interrupts =>
    have drains : Run (MainStep build base) m (.sigint :: after) m' ↔
        (∀ e ∈ after, e.ofConn) ∧ ∃ d, Run (MainStep build base) m after d ∧ m' = d.evSignalOnSigint build := by
      rw [← drained_run_iff timeout]
      constructor
      · intro run
        cases run with
        | cons step rest =>
          cases step
          exact rest
      · exact fun rest => .cons (.sigint on) rest
    refine ⟨drains, fun run => ?_⟩
    obtain ⟨conns, d, own, rfl⟩ := drains.mp run
    obtain ⟨watchers, length, metrics⟩ := ofConn_run own conns
    have once : d.cleanupWatchers = 0 := by
      rw [watchers]
      exact interrupts
    exact ⟨congrArg (· + 1) once, length, metrics⟩

/-- One client is there when the signal comes, and leaves afterwards. -/
def interrupted : List MainEvent :=
  [.loop (.start (.client [] http11Get)), .tick none]

def leaving : List MainEvent := [.loop (.input 0 (.read ⟨.eof, ⟨[], .ok oneItem⟩⟩))]

theorem freshConn_leaves : ∃ c, OpenStep .empty freshConn (.read ⟨.eof, ⟨[], .ok oneItem⟩⟩) c ∧
    c.evWatcher = .closed := ⟨_, ⟨rfl, fun _ => rfl⟩, rfl⟩

theorem server_run_returns_interrupted : ∃ m : MainLoop,
    Run (MainStep ⟨true, true⟩ .empty) (.start ⟨true, true⟩) (interrupted ++ .sigint :: leaving) m ∧ m.Over ∧
      m.interrupts = 1 := by
  obtain ⟨c, leaves, closed⟩ := freshConn_leaves
  have runs : ∃ m : MainLoop, Run (MainStep ⟨true, true⟩ .empty) (.start ⟨true, true⟩)
      (interrupted ++ .sigint :: leaving) m ∧ m.thread.loop.conns = [c] :=
    ⟨_, .cons (.accept rfl .accept) (.cons (.tick rfl) (.cons (.sigint rfl) (.single (.io (.io rfl leaves))))), rfl⟩
  obtain ⟨m, run, last⟩ := runs
  have returns := server_run_returns_iff run
  have ended : m.Over := returns.1.mpr ⟨by simp, by simp [ServerLoop.live, last, closed]⟩
  exact ⟨m, run, ended, returns.2 ended⟩

/-- The client that is there when the signal comes is served as before, and leaves. -/
theorem sigint_drains_interrupted : ∃ m m' : MainLoop,
    Run (MainStep ⟨true, true⟩ .empty) (.start ⟨true, true⟩) interrupted m ∧ m.thread.loop.conns = [freshConn] ∧
      Run (MainStep ⟨true, true⟩ .empty) m (.sigint :: leaving) m' ∧ m'.thread.loop.live = 0 ∧ m'.interrupts = 1 := by
  obtain ⟨c, leaves, closed⟩ := freshConn_leaves
  have waits : ∃ m d : MainLoop, Run (MainStep ⟨true, true⟩ .empty) (.start ⟨true, true⟩) interrupted m ∧
      m.sigintWatcher = true ∧ m.thread.loop.conns = [freshConn] ∧ Run (MainStep ⟨true, true⟩ .empty) m leaving d ∧
        d.thread.loop.conns = [c] :=
    ⟨_, _, .cons (.accept rfl .accept) (.single (.tick rfl)), rfl, rfl, .single (.io (.io rfl leaves)), rfl⟩
  obtain ⟨m, d, run, on, conns, goes, last⟩ := waits
  have drains : (Run (MainStep ⟨true, true⟩ .empty) m (.sigint :: leaving) (d.evSignalOnSigint ⟨true, true⟩) ↔ _) ∧ _ :=
    sigint_drains run on
  have whole := drains.1.mpr ⟨by simp [leaving, MainEvent.ofConn], d, goes, rfl⟩
  refine ⟨m, _, run, conns, whole, ?_, (drains.2 whole).1⟩
  simp [ServerLoop.live, MainLoop.evSignalOnSigint, last, closed]

end Bjoern
