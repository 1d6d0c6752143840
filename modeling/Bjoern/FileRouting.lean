import Bjoern.ResponseHeaders
import Bjoern.SendfileDelivery

namespace Bjoern

open Runs

/-- The header block has the server's `Transfer-Encoding: chunked` line. -/
def AnnouncesChunked (c : Conn) : Prop := Appends c.toRequest chunkedField

/-- All the `bytes` of a return value are shorter than what the chunk size line has room for. -/
def PyValue.SmallItems (v : PyValue) : Prop :=
  ∀ data, v.bytestring = some data ∨ (∃ step ∈ v.steps, step.result = .ok (.bytes data)) → data.length < 2 ^ 28

theorem bodyItems_mem {steps : PyIter} {item : Bytes} (h : item ∈ bodyItems steps) :
    ∃ step ∈ steps, step.result = .ok (.bytes item) := by
  induction steps with
  | nil => cases h
  | cons step rest ih =>
    unfold bodyItems at h
    split at h
    next data result =>
      split at h
      next =>
        obtain ⟨later, member, eq⟩ := ih h
        exact ⟨later, List.mem_cons_of_mem step member, eq⟩
      next =>
        rcases List.mem_cons.mp h with rfl | h
        · exact ⟨step, by simp, result⟩
        · obtain ⟨later, member, eq⟩ := ih h
          exact ⟨later, List.mem_cons_of_mem step member, eq⟩
    next => cases h

theorem Taken.small {c c' : Conn} {v : PyValue} {first : Option Bytes} (taken : Taken c v c' (some first))
    (small : v.SmallItems) : ∀ item ∈ first.toList ++ c'.pendingItems, item.length < 2 ^ 28 := by
  generalize ho : some first = o at taken
  cases taken with
  | @bytestring data branch =>
    cases ho
    have fits := small data (Or.inl (retvalBranch_bytestring branch))
    intro item member
    by_cases empty : data = []
    · simp [empty, Conn.pendingItems, bodyItems] at member
    · have eq : item = data := by simpa [empty, Conn.pendingItems, bodyItems] using member
      exact eq ▸ fits
  | file =>
    cases ho
    simp [Conn.pendingItems, bodyItems]
  | notIterable => cases ho
  | @generic steps _ _ _ _ _ chunk branch got next =>
    have steps_eq : v.steps = steps := by rw [PyValue.steps, got]
    have yielded : ∀ item ∈ bodyItems steps, item.length < 2 ^ 28 := by
      intro item member
      exact small item (Or.inr (steps_eq ▸ bodyItems_mem member))
    cases next with
    | chunk ne hi =>
      cases ho
      intro item member
      exact yielded item (by rw [hi]; simpa [Conn.pendingItems] using member)
    | stopped _ _ sub =>
      split at ho
      next => cases ho
      next =>
        cases ho
        intro item member
        obtain ⟨step, later, eq⟩ := bodyItems_mem (show item ∈ bodyItems _ from member)
        exact small item (Or.inr ⟨step, steps_eq ▸ sub later, eq⟩)
    | failed =>
      rw [if_pos (by simp)] at ho
      cases ho

theorem specialCaseStatus_known {r : Request} (known : r.state.responseLengthUnknown = false) :
    (specialCaseStatus r).state.responseLengthUnknown = false := by
  unfold specialCaseStatus
  split
  next => rfl
  next => exact known

theorem chooseFraming_known {r : Request} (known : r.state.responseLengthUnknown = false) :
    (chooseFraming r).state.chunkedResponse = r.state.chunkedResponse := by
  have known' := specialCaseStatus_known known
  obtain ⟨unknown, special⟩ := specialCaseStatus_frame r
  have same : (specialCaseStatus r).state.chunkedResponse = r.state.chunkedResponse := by rw [special]
  rw [← same, chooseFraming, decideKeepAlive, known']
  split <;> rfl

/-- A response from the file branch is not chunked. -/
theorem AppOutcome.file_plain {c c' : Conn} {r : Request} {app : PyCall PyValue} {v : PyValue}
    (calls : CallsMade c app r) (h : AppOutcome c r app c' true) (returned : app.result = .ok v)
    (branch : retvalBranch r v = .file) : c'.state.chunkedResponse = c.state.chunkedResponse := by
  cases h with
  | @answered retval mid first data got taken _ _ =>
    rw [returned] at got
    cases got
    obtain ⟨rfl, _⟩ := taken.file_branch branch
    rw [← calls.frame.chunkedResponse]
    exact chooseFraming_known (r := { r with iterable := some v, iterator := none }) (retvalBranch_file.mp branch).2

/-- An open file without a buffer, wrapped to be read two bytes at a time. -/
def chunkedFile : FileWrapper := fileWrapperNew ⟨some 3, ascii "hello", 0, 0, .returns⟩ (some 2)

end Bjoern
