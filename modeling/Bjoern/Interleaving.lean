import Bjoern.Runs

namespace Runs

variable {σ κ ι : Type}

/-- An event of a pool: `start` may bring a new member, `input` goes to the member at an index. -/
inductive PoolEvent (κ ι : Type)
  | start (k : κ)
  | input (i : Nat) (input : ι)

/-- Members that run side by side, each by `step`. -/
inductive PoolStep (start : κ → Option σ) (step : σ → ι → σ → Prop) : List σ → PoolEvent κ ι → List σ → Prop
  | start {pool k} : PoolStep start step pool (.start k) (pool ++ (start k).toList)
  | input {pool i s input s'} : pool[i]? = some s → step s input s' →
      PoolStep start step pool (.input i input) (pool.set i s')

variable {start : κ → Option σ} {step : σ → ι → σ → Prop}

/-- The member has come to its state by a run of its own. -/
def OwnRun (start : κ → Option σ) (step : σ → ι → σ → Prop) (s : σ) : Prop :=
  ∃ k first inputs, start k = some first ∧ Run step first inputs s

theorem OwnRun.snoc {s s' : σ} {input : ι} (own : OwnRun start step s) (h : step s input s') :
    OwnRun start step s' := by
  obtain ⟨k, first, inputs, started, run⟩ := own
  exact ⟨k, first, inputs ++ [input], started, run.snoc h⟩

theorem PoolStep.ownRun {pool pool' : List σ} {event : PoolEvent κ ι} (h : PoolStep start step pool event pool')
    (own : ∀ s ∈ pool, OwnRun start step s) : ∀ s ∈ pool', OwnRun start step s := by
  intro s member
  cases h with
  | @start k =>
    rcases List.mem_append.mp member with old | new
    · exact own s old
    · exact ⟨k, s, [], Option.mem_toList.mp new, .nil⟩
  | input found step =>
    rcases List.mem_or_eq_of_mem_set member with old | new
    · exact own s old
    · subst new
      exact (own _ (List.mem_of_getElem? found)).snoc step

theorem ownRun_of_pool {pool : List σ} {events : List (PoolEvent κ ι)}
    (run : Run (PoolStep start step) [] events pool) : ∀ s ∈ pool, OwnRun start step s := by
  apply run.invariant (fun pool => ∀ s ∈ pool, OwnRun start step s)
  · intro pool event pool' own h
    exact h.ownRun own
  · intro s member
    cases member

/-- The inputs that go to the member at an index. -/
def inputsTo (i : Nat) : List (PoolEvent κ ι) → List ι
  | [] => []
  | .start _ :: events => inputsTo i events
  | .input j input :: events => if j = i then input :: inputsTo i events else inputsTo i events

/-- What was started, in order. -/
def starts : List (PoolEvent κ ι) → List κ
  | [] => []
  | .start k :: events => k :: starts events
  | .input _ _ :: events => starts events

/-- No input comes before its member, where `n` members are there from the beginning. -/
def Addressed (start : κ → Option σ) : Nat → List (PoolEvent κ ι) → Prop
  | _, [] => True
  | n, .start k :: events => Addressed start (n + (start k).toList.length) events
  | n, .input i _ :: events => i < n ∧ Addressed start n events

/-- Each of the members comes to its state in `pool` by its own inputs. -/
structure SideBySide (step : σ → ι → σ → Prop) (members : List σ) (events : List (PoolEvent κ ι)) (pool : List σ) :
    Prop where
  length : pool.length = members.length
  runs : ∀ i s t, members[i]? = some s → pool[i]? = some t → Run step s (inputsTo i events) t

theorem sideBySide_nil {members pool : List σ} :
    SideBySide step members ([] : List (PoolEvent κ ι)) pool ↔ pool = members := by
  constructor
  · intro h
    apply List.ext_getElem h.length
    intro i inPool inMembers
    have run := h.runs i _ _ (List.getElem?_eq_getElem inMembers) (List.getElem?_eq_getElem inPool)
    generalize pool[i] = t at run ⊢
    cases run
    rfl
  · rintro rfl
    refine ⟨rfl, fun i s t first last => ?_⟩
    cases first.symm.trans last
    exact .nil

theorem sideBySide_start {members pool : List σ} {k : κ} {events : List (PoolEvent κ ι)} :
    SideBySide step members (.start k :: events) pool ↔ SideBySide step members events pool :=
  ⟨fun h => ⟨h.length, h.runs⟩, fun h => ⟨h.length, h.runs⟩⟩

theorem sideBySide_input {members pool : List σ} {i : Nat} {s : σ} {input : ι} {events : List (PoolEvent κ ι)}
    (found : members[i]? = some s) : SideBySide step members (.input i input :: events) pool ↔
      ∃ s', step s input s' ∧ SideBySide step (members.set i s') events pool := by
  obtain ⟨inside, _⟩ := List.getElem?_eq_some_iff.mp found
  constructor
  · intro h
    have there : i < pool.length := h.length ▸ inside
    have run := h.runs i _ _ found (List.getElem?_eq_getElem there)
    rw [inputsTo, if_pos rfl] at run
    cases run with
    | @cons _ s' _ _ _ first rest =>
      refine ⟨s', first, by simpa using h.length, fun j t u before after => ?_⟩
      by_cases same : i = j
      · subst same
        rw [List.getElem?_set_self inside] at before
        cases before
        rw [List.getElem?_eq_getElem there] at after
        cases after
        exact rest
      · rw [List.getElem?_set_ne same] at before
        have own := h.runs j t u before after
        rwa [inputsTo, if_neg same] at own
  · rintro ⟨s', first, h⟩
    refine ⟨by simpa using h.length, fun j t u before after => ?_⟩
    by_cases same : i = j
    · subst same
      cases found.symm.trans before
      rw [inputsTo, if_pos rfl]
      exact .cons first (h.runs i s' u (List.getElem?_set_self inside) after)
    · rw [inputsTo, if_neg same]
      exact h.runs j t u (by rw [List.getElem?_set_ne same]; exact before) after

/-- A run of the pool is a run of each member by its own inputs, none of which comes too early. -/
theorem pool_run_iff {pool pool' : List σ} {events : List (PoolEvent κ ι)} :
    Run (PoolStep start step) pool events pool' ↔ Addressed start pool.length events ∧
      SideBySide step (pool ++ (starts events).filterMap start) events pool' := by
  induction events generalizing pool with
  | nil =>
    rw [sideBySide_nil]
    constructor
    · intro run
      cases run
      exact ⟨trivial, by simp [starts]⟩
    · rintro ⟨_, rfl⟩
      simpa [starts] using (Run.nil : Run (PoolStep start step) pool [] pool)
  | cons event events ih =>
    cases event with
    | start k =>
      have members : pool ++ (starts (.start k :: events)).filterMap start =
          pool ++ (start k).toList ++ (starts events).filterMap start := by
        cases h : start k <;> simp [starts, h]
      have next : Run (PoolStep start step) (pool ++ (start k).toList) events pool' ↔ _ := ih
      rw [List.length_append] at next
      rw [members, sideBySide_start, Addressed, ← next]
      constructor
      · intro run
        cases run with
        | cons first rest =>
          cases first
          exact rest
      · intro run
        exact .cons .start run
    | input i input =>
      have members : starts (PoolEvent.input i input :: events) = starts events := rfl
      rw [members, Addressed]
      constructor
      · intro run
        cases run with
        | cons first rest =>
          cases first with
          | @input _ s _ s' found first =>
            obtain ⟨inside, _⟩ := List.getElem?_eq_some_iff.mp found
            obtain ⟨addressed, side⟩ := ih.mp rest
            rw [List.length_set] at addressed
            rw [← List.set_append_left _ _ inside] at side
            refine ⟨⟨inside, addressed⟩, (sideBySide_input ?_).mpr ⟨s', first, side⟩⟩
            rw [List.getElem?_append_left inside, found]
      · rintro ⟨⟨inside, addressed⟩, side⟩
        have found : (pool ++ (starts events).filterMap start)[i]? = some pool[i] := by
          rw [List.getElem?_append_left inside, List.getElem?_eq_getElem inside]
        obtain ⟨s', first, side⟩ := (sideBySide_input found).mp side
        rw [List.set_append_left _ _ inside] at side
        have rest := ih.mpr ⟨by rwa [List.length_set], side⟩
        exact .cons (.input (List.getElem?_eq_getElem inside) first) rest

theorem SideBySide.same_inputs {members pool : List σ} {events events' : List (PoolEvent κ ι)}
    (h : SideBySide step members events pool) (own : ∀ i, inputsTo i events = inputsTo i events') :
    SideBySide step members events' pool :=
  ⟨h.length, fun i s t first last => own i ▸ h.runs i s t first last⟩

end Runs
