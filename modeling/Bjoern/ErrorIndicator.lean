import Bjoern.ContinueExchange
import Bjoern.ServerLoop

namespace Bjoern

open Runs

/-- A connection on which no exception is pending, nor will be while no expectation is up when a request is answered. -/
structure Undisturbed (c : Conn) : Prop where
  idle : c.pyErr = none
  steered : Steered c

theorem evIoOnRequest_undisturbed (clientAddr : Bytes) (parser : HttpParser) :
    Undisturbed (evIoOnRequest clientAddr parser) :=
  ⟨rfl, evIoOnRequest_steered clientAddr parser⟩

theorem Undisturbed.step {base : Environ} {c c' : Conn} {event : Event} (h : Undisturbed c)
    (unexpected : AnswersUnexpected base c event) (step : Step base c event c') : Undisturbed c' := by
  refine ⟨?_, h.steered.step ⟨unexpected, step⟩⟩
  have idle := h.idle
  obtain ⟨on, step⟩ := step
  cases event with
  | read e =>
    have untouched := (h.steered.untouched on).1
    have parsed : ∀ data, e.result = .bytes data → (c.parsed base data).pyErr = none := fun data bytes =>
      (untouched.parsed (evIoOnRead_parses step bytes)).idle
    cases evIoOnRead_outcome step with
    | again => exact idle
    | @closed metric last _ closing =>
      have closed := closeConnection_cleaned (c := c.count metric) idle
      rw [closing] at closed
      exact closed.of_ok.2.idle
    | waiting bytes => exact parsed _ bytes
    | interim bytes => exact parsed _ bytes
    | rejected bytes => exact parsed _ bytes
    | answered bytes _ _ call =>
      obtain ⟨_, _, outcome⟩ := wsgiCallApplication_outcome call
      exact outcome.idle (parsed _ bytes)
    | failed => rfl
  | write w =>
    cases evIoOnWrite_outcome idle step with
    | more frame => exact frame.idle idle
    | kept _ _ _ kept => exact kept.idle
    | closed _ _ closed => exact closed.idle
    | interim frame => exact frame.idle idle

theorem Undisturbed.unawaited {base : Environ} {c c' : Conn} {event : Event} (h : Undisturbed c)
    (step : Guarded Unawaited (Step base) c event c') : Undisturbed c' :=
  h.step (h.steered.unexpected step.1 step.2) step.2

/-- The event loop with the error indicator of its thread, which all callbacks share. -/
structure ServerThread where
  loop : ServerLoop
  pyErr : Option PyExc

/-- One callback finds the pending exception that the one before has left, where `step` is what a callback does. -/
inductive ThreadStep (step : Conn → Event → Conn → Prop) (t : ServerThread) : LoopEvent → ServerThread → Prop
  | accept {result} : ThreadStep step t (.start result) ⟨t.loop.evIoOnRequest result, t.pyErr⟩
  | io {i c event c'} : t.loop.conns[i]? = some c → step { c with pyErr := t.pyErr } event c' →
      ThreadStep step t (.input i event) ⟨{ t.loop with conns := t.loop.conns.set i c' }, c'.pyErr⟩

/-- Nothing is pending, for the thread or a connection. -/
structure ServerThread.Idle (t : ServerThread) : Prop where
  thread : t.pyErr = none
  conns : ∀ c ∈ t.loop.conns, Undisturbed c

theorem ServerThread.Idle.accept {t : ServerThread} (h : t.Idle) (result : AcceptResult) :
    ServerThread.Idle ⟨t.loop.evIoOnRequest result, t.pyErr⟩ := by
  refine ⟨h.thread, fun c member => ?_⟩
  cases result with
  | client =>
    rcases List.mem_append.mp member with old | new
    · exact h.conns c old
    · rw [List.mem_singleton.mp new]
      exact evIoOnRequest_undisturbed _ _
  | blocking => exact h.conns c member
  | failed => exact h.conns c member

theorem ServerThread.Idle.io {t : ServerThread} (h : t.Idle) (i : Nat) {c : Conn} (undisturbed : Undisturbed c) :
    ServerThread.Idle ⟨{ t.loop with conns := t.loop.conns.set i c }, c.pyErr⟩ := by
  refine ⟨undisturbed.idle, fun c' member => ?_⟩
  rcases List.mem_or_eq_of_mem_set member with old | rfl
  · exact h.conns c' old
  · exact undisturbed

/-- While nothing is pending, a callback finds its connection as if the indicator were its own. -/
theorem ServerThread.Idle.own {t : ServerThread} (h : t.Idle) {i : Nat} {c : Conn}
    (found : t.loop.conns[i]? = some c) : ({ c with pyErr := t.pyErr } : Conn) = c := by
  have idle := (h.conns c (List.mem_of_getElem? found)).idle
  rw [h.thread, ← idle]

section
variable {base : Environ}

theorem ThreadStep.loop {t t' : ServerThread} {event : LoopEvent} (h : t.Idle)
    (step : ThreadStep (Guarded Unawaited (Step base)) t event t') :
    LoopStep (Guarded Unawaited (Step base)) t.loop event t'.loop ∧ t'.Idle := by
  cases step with
  | @accept result => exact ⟨.accept, h.accept result⟩
  | @io i c event c' found step =>
    rw [h.own found] at step
    exact ⟨.io found step, h.io i ((h.conns c (List.mem_of_getElem? found)).unawaited step)⟩

theorem LoopStep.thread {t : ServerThread} {l : ServerLoop} {event : LoopEvent} (h : t.Idle)
    (step : LoopStep (Guarded Unawaited (Step base)) t.loop event l) :
    ∃ t', ThreadStep (Guarded Unawaited (Step base)) t event t' ∧ t'.loop = l ∧ t'.Idle := by
  cases step with
  | @accept result => exact ⟨_, .accept, rfl, h.accept result⟩
  | @io i c event c' found step =>
    have own := step
    rw [← h.own found] at own
    exact ⟨_, .io found own, rfl, h.io i ((h.conns c (List.mem_of_getElem? found)).unawaited step)⟩

def ServerThread.start : ServerThread := ⟨.start, none⟩

theorem ServerThread.start_idle : ServerThread.start.Idle :=
  ⟨rfl, by simp [ServerThread.start, ServerLoop.start]⟩

theorem loop_of_thread {events : List LoopEvent} {l : ServerLoop} {exc : Option PyExc}
    (run : Run (ThreadStep (Guarded Unawaited (Step base))) .start events ⟨l, exc⟩) :
    exc = none ∧ Run (LoopStep (Guarded Unawaited (Step base))) .start events l := by
  obtain ⟨_, own, rfl, last⟩ := run.simulate (LoopStep (Guarded Unawaited (Step base)))
    (fun t l => t.loop = l ∧ t.Idle)
    (fun t _ event t' related step => by
      obtain ⟨rfl, idle⟩ := related
      obtain ⟨own, idle'⟩ := step.loop idle
      exact ⟨t'.loop, own, rfl, idle'⟩) ⟨rfl, ServerThread.start_idle⟩
  exact ⟨last.thread, own⟩

theorem thread_of_loop {events : List LoopEvent} {l : ServerLoop}
    (run : Run (LoopStep (Guarded Unawaited (Step base))) .start events l) :
    Run (ThreadStep (Guarded Unawaited (Step base))) .start events ⟨l, none⟩ := by
  obtain ⟨⟨_, _⟩, shared, rfl, ⟨rfl, _⟩⟩ := run.simulate (ThreadStep (Guarded Unawaited (Step base)))
    (fun l t => t.loop = l ∧ t.Idle)
    (fun _ t event l' related step => by
      obtain ⟨rfl, idle⟩ := related
      exact step.thread idle) ⟨rfl, ServerThread.start_idle⟩
  exact shared

/-- While no expectation stands where a request is answered, the runs of a loop whose callbacks share the error
indicator of their thread are those of a loop whose connections have one each, with nothing pending in the end: no
callback sees an exception that another connection has raised. -/
theorem shared_error_indicator {events : List LoopEvent} {l : ServerLoop} {exc : Option PyExc} :
    Run (ThreadStep (Guarded Unawaited (Step base))) .start events ⟨l, exc⟩ ↔
      exc = none ∧ Run (LoopStep (Guarded Unawaited (Step base))) .start events l := by
  constructor
  · exact loop_of_thread
  · rintro ⟨rfl, run⟩
    exact thread_of_loop run

end

/-- The bytes behind `expectingGet`, with a header and an error. -/
def strayHeader : ReadEvent :=
  ⟨.bytes ⟨[(http11Get, .headerField (ascii "Host")), (http11Get, .headerValue (ascii "a"))], http11Get, false⟩,
    returning oneItem⟩

/-- A request with an expectation and no body is answered, and the first write counts as one of an interim message. The
header that is read next goes to the list of the response, which leaves a `SystemError` pending. -/
theorem pending_error_left : ∃ t, Run (ThreadStep (Step .empty)) .start
    [.start (.client [] http11Get), .input 0 (.read expectingGetRead), .input 0 (.write (accepts 1000)),
      .input 0 (.read strayHeader)] t ∧ t.pyErr = some .other := by
  have asks : Step .empty freshConn (.read expectingGetRead) _ := ⟨rfl, rfl⟩
  exact ⟨_, .cons .accept (.cons (.io rfl asks) (.cons (.io rfl (And.intro rfl rfl))
    (.single (.io rfl (And.intro rfl rfl))))), rfl⟩

end Bjoern
