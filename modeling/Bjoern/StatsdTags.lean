import Bjoern.Metrics
import Bjoern.StatsdReading
import Mathlib.Data.List.Nodup

namespace Bjoern

open Runs StatsdReading

def Metric.name : Metric → Bytes
  | .connAcceptError => ascii "conn.accept.error"
  | .connAcceptSuccess => ascii "conn.accept.success"
  | .reqErrorClientDisconnected => ascii "req.error.client_disconnected"
  | .reqErrorRead => ascii "req.error.read"
  | .reqErrorParse => ascii "req.error.parse"
  | .reqSuccessRead => ascii "req.success.read"
  | .reqErrorInternal => ascii "req.error.internal"
  | .reqActive => ascii "req.active"
  | .reqDone => ascii "req.done"
  | .reqAborted => ascii "req.aborted"
  | .respActive => ascii "resp.active"
  | .respDone => ascii "resp.done"
  | .respDoneKeepalive => ascii "resp.done.keepalive"
  | .respConnClose => ascii "resp.conn.close"
  | .respAborted => ascii "resp.aborted"

/-- The field `ns` of a `statsd_link`. -/
structure StatsdLink where
  ns : Option Bytes

/-- What the server writes in front of every name. -/
def StatsdLink.space (link : StatsdLink) : Bytes := link.ns.getD []

/-- `MAX_MSG_LEN_WITH_TAGS` -/
def maxMsgLenWithTags : Nat := 1000

/-- The datagram of `send_stats_with_tags`, which `snprintf` cuts off to leave room for a null byte. -/
def sendStatsWithTags (link : Option StatsdLink) (stat : Bytes) (value : Nat) (type : Bytes) (tags : Option Bytes) :
    Option Bytes :=
  link.map fun link => (link.ns.getD [] ++ stat ++ ascii ":" ++ ascii (toString value) ++ ascii "|" ++ type ++
    ascii "|#" ++ tags.getD []).take (maxMsgLenWithTags - 1)

/-- `statsd_inc_with_tags` -/
def statsdIncWithTags (link : Option StatsdLink) (stat : Bytes) (tags : Option Bytes) : Option Bytes :=
  sendStatsWithTags link stat 1 (ascii "c") tags

/-- The datagrams of the calls of `STATSD_INCREMENT` in a loop. -/
def ServerLoop.datagrams (l : ServerLoop) (link : Option StatsdLink) (tags : Option Bytes) : List Bytes :=
  l.log.filterMap fun metric => statsdIncWithTags link metric.name tags

/-- The datagram of a metric. -/
theorem statsdIncWithTags_written (link : StatsdLink) (stat : Bytes) (tags : Option Bytes) :
    statsdIncWithTags (some link) stat tags =
      some ((written (link.space ++ stat) (charByte '#' :: tags.getD [])).take 999) := by
  have colon' : ascii ":" = [colon] := by decide
  have bar' : ascii "|" = [bar] := by decide
  have fields : ascii "|#" = [bar, charByte '#'] := by decide
  have type : ascii "c" = counted := by decide
  have one : ascii (toString 1) = [49] := by decide
  rw [statsdIncWithTags, sendStatsWithTags, colon', bar', fields, type, one]
  simp [written, StatsdLink.space, maxMsgLenWithTags]

def Metric.all : List Metric :=
  [.connAcceptError, .connAcceptSuccess, .reqErrorClientDisconnected, .reqErrorRead, .reqErrorParse, .reqSuccessRead,
    .reqErrorInternal, .reqActive, .reqDone, .reqAborted, .respActive, .respDone, .respDoneKeepalive, .respConnClose,
    .respAborted]

theorem Metric.mem_all (metric : Metric) : metric ∈ Metric.all := by
  cases metric <;> decide

theorem Metric.name_inj {a b : Metric} (h : a.name = b.name) : a = b := by
  have different : (Metric.all.map Metric.name).Nodup := by decide +kernel
  exact List.inj_on_of_nodup_map different a.mem_all b.mem_all h

theorem Metric.name_plain (metric : Metric) : colon ∉ metric.name := by
  cases metric <;> decide

/-- The name of a metric is left with its value and type. -/
def StatsdLink.Fits (link : StatsdLink) (metric : Metric) : Prop := link.space.length + metric.name.length ≤ 995

instance (link : StatsdLink) (metric : Metric) : Decidable (link.Fits metric) := inferInstanceAs (Decidable (_ ≤ _))

/-- What a datagram of one metric adds to the counter of another. -/
theorem increment_datagram {link : StatsdLink} (plain : colon ∉ link.space) (metric sent : Metric)
    (tags : Option Bytes) :
    ((statsdIncWithTags (some link) sent.name tags).elim 0 (increment (link.space ++ metric.name))) =
      if sent = metric ∧ link.Fits metric then 1 else 0 := by
  have whole : colon ∉ link.space ++ sent.name := by
    rw [List.mem_append, not_or]
    exact ⟨plain, sent.name_plain⟩
  rw [statsdIncWithTags_written, Option.elim_some, increment_written whole]
  by_cases same : sent = metric
  · subst same
    simp [StatsdLink.Fits]
  · have other : sent.name ≠ metric.name := fun names => same (Metric.name_inj names)
    simp [same, other]

/-- The counter of a metric at the collector. -/
def ServerLoop.collected (l : ServerLoop) (link : StatsdLink) (tags : Option Bytes) (metric : Metric) : Nat :=
  StatsdReading.counter (link.space ++ metric.name) (l.datagrams (some link) tags)

/-- A collector counts what the loop has counted, whatever the tags, if the namespace has no colon and leaves room for
the name; otherwise it counts nothing. -/
theorem collected_eq (l : ServerLoop) (link : StatsdLink) (tags : Option Bytes) (metric : Metric) :
    l.collected link tags metric = if colon ∉ link.space ∧ link.Fits metric then l.counter metric else 0 := by
  have added : ∀ log : List Metric, StatsdReading.counter (link.space ++ metric.name)
      (log.filterMap fun sent => statsdIncWithTags (some link) sent.name tags) =
        if colon ∉ link.space ∧ link.Fits metric then log.count metric else 0 := by
    intro log
    induction log with
    | nil => simp [StatsdReading.counter]
    | cons sent log ih =>
      obtain ⟨datagram, written⟩ : ∃ datagram, statsdIncWithTags (some link) sent.name tags = some datagram :=
        ⟨_, statsdIncWithTags_written link sent.name tags⟩
      simp only [List.filterMap_cons, written]
      rw [StatsdReading.counter, ih, List.count_cons]
      by_cases plain : colon ∈ link.space
      · have inside : colon ∈ link.space ++ metric.name := List.mem_append_left _ plain
        simp [plain, increment_colon inside]
      · have one := increment_datagram plain metric sent tags
        rw [written, Option.elim_some] at one
        rw [one]
        by_cases fits : link.Fits metric <;> by_cases same : sent = metric <;> simp [plain, fits, same, Nat.add_comm]
  exact added l.log

theorem live_of_loop {base : Environ} {events : List LoopEvent} {l : ServerLoop}
    (run : Run (LoopStep (Step base)) .start events l) : l.counter .connAcceptSuccess =
      l.counter .reqAborted + l.counter .respConnClose + l.counter .respAborted + l.live := by
  have errors := run.invariant (fun l => Tally l.metrics 0 0) (fun _ _ _ errors step => step.errors errors) (by decide)
  have each : ∀ c ∈ l.conns, Tally c.metrics 1 c.evWatcher.ends := by
    intro c member
    obtain ⟨_, _, _, own⟩ := ownRun_of_loop run member
    exact tally_of_run own
  have whole := errors.append (tally_conns each)
  have split : l.conns.length = l.conns.countP (fun c => c.evWatcher = .closed) + l.live := by
    rw [List.length_eq_countP_add_countP (fun c => decide (c.evWatcher = .closed)), ServerLoop.live]
    simp
  have starts := whole.starts
  have ends := whole.ends
  unfold ServerLoop.counter ServerLoop.log
  omega

end Bjoern
