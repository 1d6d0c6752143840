import Bjoern.Expectations
import Bjoern.WriteStep

namespace Bjoern

open Runs

/-- The value that `wsgi_call_application` handles in its generic branch is its iterable ever after. -/
theorem Taken.generic_iterable {c c' : Conn} {v : PyValue} {chunk : Option (Option Bytes)}
    (taken : Taken c v c' chunk) (generic : v.bytestring = none) (direct : v.hasDescriptor = false) :
    c'.iterable = some v := by
  cases taken with
  | bytestring branch =>
    have string := retvalBranch_bytestring branch
    cases generic.symm.trans string
  | file branch =>
    have descriptor := (retvalBranch_file.mp branch).1
    cases direct.symm.trans descriptor
  | notIterable => rfl
  | generic _ _ next => cases next <;> rfl

theorem AppOutcome.generic_iterable {c c' : Conn} {r : Request} {app : PyCall PyValue} {v : PyValue} {answered : Bool}
    (h : AppOutcome c r app c' answered) (returned : app.result = .ok v) (generic : v.bytestring = none)
    (direct : v.hasDescriptor = false) : c'.iterable = some v := by
  cases h with
  | raised failed =>
    rw [returned] at failed
    cases failed
  | refused got taken =>
    rw [returned] at got
    cases got
    exact taken.generic_iterable generic direct
  | notStarted got taken _ =>
    rw [returned] at got
    cases got
    exact taken.generic_iterable generic direct
  | @answered _ mid _ data got taken _ _ =>
    rw [returned] at got
    cases got
    obtain ⟨_, _, _, eq⟩ := mid.installed_frame data
    rw [eq]
    exact taken.generic_iterable generic direct

/-- Where a connection is with the calls on the iterable `v` of one request, after the calls `log` of earlier
requests, which were called with `environs`. -/
inductive ClosePhase (v : PyValue) (log : List IterEvent) (environs : List Headers) : Conn → Prop
  | reading {c} : c.evWatcher = .reading → Untouched c → c.state.expectContinue = false → c.environs = environs →
      c.iterLog = log → ClosePhase v log environs c
  | rejected {c} : c.evWatcher = .writing → c.iterable = none → c.iterator = none → c.pyErr = none →
      c.state.expectContinue = false → c.environs = environs → c.iterLog = log → ClosePhase v log environs c
  | lost {c} : c.evWatcher = .closed → c.environs = environs → c.iterLog = log → ClosePhase v log environs c
  | during {c n environ} : c.evWatcher = .writing → c.iterable = some v → c.pyErr = none →
      c.state.expectContinue = false → c.environs = environs ++ [environ] →
      c.iterLog = log ++ List.replicate n .next → ClosePhase v log environs c
  | after {c n environ} : c.evWatcher = .closed ∨ Ready c → c.pyErr = none → c.environs = environs ++ [environ] →
      c.iterLog = log ++ List.replicate n .next ++ closeCalls (some v) → ClosePhase v log environs c

/-- The events of one request: `read()` gives bytes only until the application is called, no `Expect` header
is pending after one, and the application returns `v`. -/
def Serves (base : Environ) (v : PyValue) (environs : List Headers) (c : Conn) : Event → Prop
  | .read e => e.app.result = .ok v ∧ ∀ data, e.result = .bytes data →
      c.environs = environs ∧ (c.parsed base data).state.expectContinue = false
  | .write _ => True

theorem ClosePhase.readBytes {base : Environ} {v : PyValue} {log : List IterEvent} {environs : List Headers}
    {c c' : Conn} {e : ReadEvent} {data : ReadData} (untouched : Untouched c) (same : c.environs = environs)
    (calls : c.iterLog = log) (reading : c.evWatcher = .reading) (bytes : e.result = .bytes data)
    (clear : (c.parsed base data).state.expectContinue = false) (returned : e.app.result = .ok v)
    (generic : v.bytestring = none) (direct : v.hasDescriptor = false) (step : evIoOnRead base c e = .ok c') :
    ClosePhase v log environs c' := by
  have parsed := untouched.parsed (evIoOnRead_parses step bytes)
  have same : (c.parsed base data).environs = environs := (c.parsed_environs base data).trans same
  have calls : (c.parsed base data).iterLog = log := (c.parsed_iterLog base data).trans calls
  rcases (evIoOnRead_outcome step).of_bytes bytes with ⟨code, _, rfl⟩ | ⟨_, _, _, rfl⟩ | ⟨_, _, expects, _⟩ |
    ⟨_, _, called, answered, call, result⟩
  · exact .rejected rfl parsed.iterable parsed.iterator parsed.idle clear same calls
  · have frame := (c.parsed_frame base data).request
    exact .reading (frame.evWatcher.trans reading) (parsed.count _) clear same calls
  · cases clear.symm.trans expects
  · obtain ⟨r, made, app⟩ := wsgiCallApplication_outcome call
    have frame := app.frame made
    obtain ⟨n, log'⟩ := frame.iterLog
    have iterable := app.generic_iterable returned generic direct
    have grown : called.iterLog = log ++ List.replicate n .next := by
      rw [log', ← calls]
      rfl
    have called' : called.environs = environs ++ [(c.parsed base data).headers] := by
      rw [frame.environs, ← same]
      rfl
    rcases result with ⟨rfl, rfl⟩ | ⟨rfl, rfl⟩
    · exact .during rfl iterable (app.idle parsed.idle) (frame.expectContinue.trans clear) called' grown
    · exact .during rfl iterable rfl (frame.expectContinue.trans clear) called' grown

theorem ClosePhase.read {base : Environ} {v : PyValue} {log : List IterEvent} {environs : List Headers} {c c' : Conn}
    {e : ReadEvent} (h : ClosePhase v log environs c) (serves : Serves base v environs c (.read e))
    (generic : v.bytestring = none) (direct : v.hasDescriptor = false) (step : Step base c (.read e) c') :
    ClosePhase v log environs c' := by
  obtain ⟨reading, step⟩ := step
  obtain ⟨returned, serves⟩ := serves
  by_cases some : ∃ data, e.result = .bytes data
  · obtain ⟨data, bytes⟩ := some
    obtain ⟨same, clear⟩ := serves data bytes
    cases h with
    | reading _ untouched _ _ calls =>
      exact ClosePhase.readBytes untouched same calls reading bytes clear returned generic direct step
    | rejected writing => cases writing.symm.trans reading
    | lost closed => cases closed.symm.trans reading
    | during writing => cases writing.symm.trans reading
    | after _ _ called => simp [same] at called
  · have bare : ∀ data, e.result ≠ .bytes data := fun data bytes => some ⟨data, bytes⟩
    cases h with
    | reading _ untouched clear same calls =>
      rcases evIoOnRead_noBytes step untouched.idle bare with rfl | ⟨metric, closed⟩
      · exact .reading reading (untouched.count _) clear same calls
      · refine .lost closed.evWatcher (closed.environs.trans same) ?_
        have nothing : (c.count metric).iterable = none := untouched.iterable
        rw [closed.iterLog, nothing]
        simpa [closeCalls, Conn.count] using calls
    | rejected writing => cases writing.symm.trans reading
    | lost closed => cases closed.symm.trans reading
    | during writing => cases writing.symm.trans reading
    | @after n _ concluded idle called calls =>
      rcases concluded with closed | ready
      · cases closed.symm.trans reading
      rcases evIoOnRead_noBytes step idle bare with rfl | ⟨metric, closed⟩
      · exact .after (Or.inr ⟨ready.reading, ready.reset, ready.idle⟩) idle called calls
      · refine .after (n := n) (Or.inl closed.evWatcher) closed.idle (closed.environs.trans called) ?_
        have nothing : (c.count metric).iterable = none := ready.untouched.iterable
        rw [closed.iterLog, nothing]
        simpa [closeCalls, Conn.count] using calls

theorem ClosePhase.write {base : Environ} {v : PyValue} {log : List IterEvent} {environs : List Headers} {c c' : Conn}
    {w : WriteEvent} (h : ClosePhase v log environs c) (step : Step base c (.write w) c') :
    ClosePhase v log environs c' := by
  obtain ⟨writing, step⟩ := step
  cases h with
  | reading reading => cases reading.symm.trans writing
  | lost closed => cases closed.symm.trans writing
  | rejected _ iterable iterator idle clear same calls =>
    have nothing : closeCalls none = [] := rfl
    have outcome := evIoOnWrite_outcome idle step
    cases outcome with
    | more frame =>
      obtain ⟨exhausted, pulls⟩ := frame.iterator iterator
      exact .rejected (frame.evWatcher.trans writing) (frame.iterable.trans iterable) exhausted (frame.idle idle)
        (frame.expectContinue.trans clear) (frame.environs.trans same) (pulls.trans calls)
    | kept frame _ _ kept =>
      refine .reading kept.ready.reading kept.ready.untouched kept.ready.flags.2.2.1
        ((kept.environs.trans frame.environs).trans same) ?_
      rw [kept.iterLog, frame.iterable, iterable, nothing, List.append_nil, (frame.iterator iterator).2, calls]
    | closed frame _ closed =>
      refine .lost closed.evWatcher ((closed.environs.trans frame.environs).trans same) ?_
      rw [closed.iterLog, frame.iterable, iterable, nothing, List.append_nil, (frame.iterator iterator).2, calls]
    | interim _ expects => cases clear.symm.trans expects
  | @during n _ _ iterable idle clear called same =>
    have longer : ∀ {mid : Conn} {m : Nat}, mid.iterLog = c.iterLog ++ List.replicate m .next →
        mid.iterLog = log ++ List.replicate (n + m) .next := by
      intro mid m grown
      rw [grown, same, List.append_assoc, List.replicate_add]
    have outcome := evIoOnWrite_outcome idle step
    cases outcome with
    | more frame =>
      obtain ⟨m, grown⟩ := frame.iterLog
      exact .during (frame.evWatcher.trans writing) (frame.iterable.trans iterable) (frame.idle idle)
        (frame.expectContinue.trans clear) (frame.environs.trans called) (longer grown)
    | kept frame _ _ kept =>
      obtain ⟨m, grown⟩ := frame.iterLog
      refine .after (n := n + m) (Or.inr kept.ready) kept.idle ((kept.environs.trans frame.environs).trans called) ?_
      rw [kept.iterLog, frame.iterable, iterable, longer grown]
    | closed frame _ closed =>
      obtain ⟨m, grown⟩ := frame.iterLog
      refine .after (n := n + m) (Or.inl closed.evWatcher) closed.idle
        ((closed.environs.trans frame.environs).trans called) ?_
      rw [closed.iterLog, frame.iterable, iterable, longer grown]
    | interim _ expects => cases clear.symm.trans expects
  | after concluded =>
    rcases concluded with closed | ready
    · cases closed.symm.trans writing
    · cases ready.reading.symm.trans writing

theorem ClosePhase.step {base : Environ} {v : PyValue} {log : List IterEvent} {environs : List Headers} {c c' : Conn}
    {event : Event} (generic : v.bytestring = none) (direct : v.hasDescriptor = false)
    (h : ClosePhase v log environs c) (step : Guarded (Serves base v environs) (Step base) c event c') :
    ClosePhase v log environs c' := by
  obtain ⟨serves, step⟩ := step
  cases event with
  | read e => exact h.read serves generic direct step
  | write w => exact h.write step

/-- The events of one request without an `Expect` header. -/
def ServesPlain (v : PyValue) (environs : List Headers) (c : Conn) : Event → Prop
  | .read e => e.app.result = .ok v ∧ ∀ data, e.result = .bytes data →
      c.environs = environs ∧ WithoutExpect c.toRequest data.fired
  | .write _ => True

theorem ClosePhase.serves {base : Environ} {v : PyValue} {log : List IterEvent} {environs : List Headers} {c c' : Conn}
    {event : Event} (h : ClosePhase v log environs c) (serves : ServesPlain v environs c event)
    (step : Step base c event c') : Serves base v environs c event := by
  cases event with
  | write w => trivial
  | read e =>
    obtain ⟨reading, step⟩ := step
    refine ⟨serves.1, fun data bytes => ?_⟩
    obtain ⟨same, plain⟩ := serves.2 data bytes
    refine ⟨same, ?_⟩
    cases h with
    | reading _ untouched clear => exact untouched.withoutExpect (evIoOnRead_parses step bytes) clear plain
    | rejected writing => cases writing.symm.trans reading
    | lost closed => cases closed.symm.trans reading
    | during writing => cases writing.symm.trans reading
    | after _ _ called => simp [same] at called

/-- No expectation is ever pending for a request without an `Expect` header. -/
theorem serves_of_plain {base : Environ} {v : PyValue} {c₀ c : Conn} {events : List Event}
    (generic : v.bytestring = none) (direct : v.hasDescriptor = false) (start : Ready c₀)
    (run : Run (Guarded (ServesPlain v c₀.environs) (Step base)) c₀ events c) :
    Run (Guarded (Serves base v c₀.environs) (Step base)) c₀ events c := by
  have before : ClosePhase v c₀.iterLog c₀.environs c₀ :=
    .reading start.reading start.untouched start.flags.2.2.1 rfl rfl
  obtain ⟨_, run', rfl, _⟩ := run.simulate (Guarded (Serves base v c₀.environs) (Step base))
    (fun c d => d = c ∧ ClosePhase v c₀.iterLog c₀.environs c) (fun s _ event t related step => by
      obtain ⟨rfl, phase⟩ := related
      have guarded := And.intro (phase.serves step.1 step.2) step.2
      exact ⟨t, guarded, rfl, phase.step generic direct guarded⟩) ⟨rfl, before⟩
  exact run'

end Bjoern
