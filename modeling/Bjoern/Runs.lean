import Mathlib.Data.List.Basic

namespace Runs

variable {σ τ ι : Type}

/-- `Run step s is t`: the inputs `is`, taken one `step` each, lead from `s` to `t`. -/
inductive Run (step : σ → ι → σ → Prop) : σ → List ι → σ → Prop
  | nil {s} : Run step s [] s
  | cons {s t u i is} : step s i t → Run step t is u → Run step s (i :: is) u

/-- The steps of `step` that meet the condition `ok`. -/
def Guarded (ok : σ → ι → Prop) (step : σ → ι → σ → Prop) (s : σ) (i : ι) (t : σ) : Prop :=
  ok s i ∧ step s i t

variable {step : σ → ι → σ → Prop}

theorem Run.single {s t : σ} {i : ι} (h : step s i t) : Run step s [i] t :=
  .cons h .nil

theorem Run.append {s t u : σ} {is js : List ι} (first : Run step s is t)
    (second : Run step t js u) : Run step s (is ++ js) u := by
  induction first with
  | nil => exact second
  | cons h _ ih => exact .cons h (ih second)

theorem Run.snoc {s t u : σ} {is : List ι} {i : ι} (run : Run step s is t)
    (h : step t i u) : Run step s (is ++ [i]) u :=
  run.append (.single h)

theorem Run.split {s u : σ} {is js : List ι} (run : Run step s (is ++ js) u) :
    ∃ t, Run step s is t ∧ Run step t js u := by
  induction is generalizing s with
  | nil => exact ⟨s, .nil, run⟩
  | cons i rest ih =>
    cases run with
    | cons h tail =>
      obtain ⟨t, first, second⟩ := ih tail
      exact ⟨t, .cons h first, second⟩

theorem Run.mono {step' : σ → ι → σ → Prop} (weaker : ∀ s i t, step s i t → step' s i t)
    {s t : σ} {is : List ι} (run : Run step s is t) : Run step' s is t := by
  induction run with
  | nil => exact .nil
  | cons h _ ih => exact .cons (weaker _ _ _ h) ih

/-- Every step of a run takes one of its inputs. -/
theorem Run.attach {s t : σ} {is : List ι} (run : Run step s is t) :
    Run (fun s i t => i ∈ is ∧ step s i t) s is t := by
  induction run with
  | nil => exact .nil
  | cons h _ ih =>
    refine .cons ⟨List.mem_cons_self, h⟩ (ih.mono fun _ _ _ ⟨member, step⟩ => ⟨?_, step⟩)
    exact List.mem_cons_of_mem _ member

theorem Run.map {ι' : Type} {f : ι' → ι} {s t : σ} {is : List ι'} (run : Run (fun s i t => step s (f i) t) s is t) :
    Run step s (is.map f) t := by
  induction run with
  | nil => exact .nil
  | cons h _ ih => exact .cons h ih

/-- What every step preserves holds at the end of a run that starts with it. -/
theorem Run.invariant (inv : σ → Prop) (keep : ∀ s i t, inv s → step s i t → inv t)
    {s t : σ} {is : List ι} (start : inv s) (run : Run step s is t) : inv t := by
  induction run with
  | nil => exact start
  | cons h _ ih => exact ih (keep _ _ _ start h)

/-- The invariant rule for invariants that speak about the inputs taken so far. -/
theorem Run.invariant_history (inv : List ι → σ → Prop)
    (keep : ∀ past s i t, inv past s → step s i t → inv (past ++ [i]) t)
    {s t : σ} {past is : List ι} (start : inv past s) (run : Run step s is t) :
    inv (past ++ is) t := by
  induction run generalizing past with
  | nil => simpa using start
  | cons h _ ih => simpa using ih (keep _ _ _ _ start h)

/-- A run takes no step from a state in which no step is enabled. -/
theorem Run.of_stuck {s t : σ} {is : List ι} (stuck : ∀ i u, ¬ step s i u)
    (run : Run step s is t) : is = [] ∧ t = s := by
  cases run with
  | nil => exact ⟨rfl, rfl⟩
  | cons h _ => exact absurd h (stuck _ _)

theorem Run.unique (functional : ∀ s i t u, step s i t → step s i u → t = u) {s t u : σ} {is : List ι}
    (first : Run step s is t) (second : Run step s is u) : t = u := by
  induction first with
  | nil =>
    cases second
    rfl
  | cons h _ ih =>
    cases second with
    | cons h' tail =>
      obtain rfl := functional _ _ _ _ h h'
      exact ih tail

/-- A run to a state with a property that its start does not have has a step that brings it. -/
theorem Run.crosses {P : σ → Prop} {s u : σ} {is : List ι} (run : Run step s is u) (before : ¬ P s) (after : P u) :
    ∃ js i ks t t', is = js ++ i :: ks ∧ Run step s js t ∧ ¬ P t ∧ step t i t' ∧ P t' := by
  induction run with
  | nil => exact absurd after before
  | @cons s t u i is h _ ih =>
    by_cases reached : P t
    · exact ⟨[], i, is, s, t, rfl, .nil, before, h, reached⟩
    · obtain ⟨js, j, ks, v, v', rfl, first, without, last, with'⟩ := ih reached after
      exact ⟨i :: js, j, ks, v, v', rfl, .cons h first, without, last, with'⟩

/-- All steps of a run meet a condition, or there is a first one that does not. -/
theorem Run.guarded_or (ok : σ → ι → Prop) {s u : σ} {is : List ι} (run : Run step s is u) :
    Run (Guarded ok step) s is u ∨
      ∃ js i ks t t', is = js ++ i :: ks ∧ Run (Guarded ok step) s js t ∧ ¬ ok t i ∧ step t i t' := by
  induction run with
  | nil => exact Or.inl .nil
  | @cons s t u i is h _ ih =>
    by_cases holds : ok s i
    · rcases ih with tail | ⟨js, j, ks, v, v', rfl, first, fails, last⟩
      · exact Or.inl (.cons ⟨holds, h⟩ tail)
      · exact Or.inr ⟨i :: js, j, ks, v, v', rfl, .cons ⟨holds, h⟩ first, fails, last⟩
    · exact Or.inr ⟨[], i, is, s, t, rfl, .nil, holds, h⟩

/-- A run over `is` from `s` comes through a state with the property `P`. -/
def Passes (step : σ → ι → σ → Prop) (P : σ → Prop) (s : σ) (is : List ι) : Prop :=
  ∃ js t, js <+: is ∧ Run step s js t ∧ P t

theorem Passes.of_step {P : σ → Prop} {s t t' : σ} {js ks : List ι} {i : ι} (run : Run step s js t)
    (h : step t i t') (holds : P t') : Passes step P s (js ++ i :: ks) :=
  ⟨js ++ [i], t', ⟨ks, by simp⟩, run.snoc h, holds⟩

/-- A run of which every step keeps `inv`, which excludes `P`, does not come through `P`. -/
theorem Run.passes_not {P inv : σ → Prop} (functional : ∀ s i t u, step s i t → step s i u → t = u)
    {ok : σ → ι → Prop} (keep : ∀ s i t, inv s → Guarded ok step s i t → inv t) (excludes : ∀ s, inv s → ¬ P s)
    {s u : σ} {is : List ι} (start : inv s) (run : Run (Guarded ok step) s is u) : ¬ Passes step P s is := by
  rintro ⟨js, t, ⟨ks, rfl⟩, first, holds⟩
  obtain ⟨t', first', _⟩ := run.split
  obtain rfl := first.unique functional (first'.mono fun _ _ _ h => h.2)
  exact excludes _ (first'.invariant inv keep start) holds

/-- A run of `step` except for one step, which is one of `special`. -/
inductive OneOff (step special : σ → ι → σ → Prop) : σ → List ι → σ → Prop
  | here {s t u i is} : special s i t → Run step t is u → OneOff step special s (i :: is) u
  | later {s t u i is} : step s i t → OneOff step special t is u → OneOff step special s (i :: is) u

theorem OneOff.ne_nil {special : σ → ι → σ → Prop} {s u : σ} {is : List ι} (run : OneOff step special s is u) :
    is ≠ [] := by
  cases run <;> simp

/-- The special step is in the first part of the run or in the second. -/
theorem OneOff.split {special : σ → ι → σ → Prop} {s u : σ} {is js : List ι}
    (run : OneOff step special s (is ++ js) u) :
    ∃ t, Run step s is t ∧ OneOff step special t js u ∨ OneOff step special s is t ∧ Run step t js u := by
  induction is generalizing s with
  | nil => exact ⟨s, Or.inl ⟨.nil, run⟩⟩
  | cons i rest ih =>
    cases run with
    | here h tail =>
      obtain ⟨t, first, second⟩ := tail.split
      exact ⟨t, Or.inr ⟨.here h first, second⟩⟩
    | later h tail =>
      obtain ⟨t, ⟨first, second⟩ | ⟨first, second⟩⟩ := ih tail
      · exact ⟨t, Or.inl ⟨.cons h first, second⟩⟩
      · exact ⟨t, Or.inr ⟨.later h first, second⟩⟩

theorem OneOff.prepend {special : σ → ι → σ → Prop} {s t u : σ} {is js : List ι} (first : Run step s is t)
    (second : OneOff step special t js u) : OneOff step special s (is ++ js) u := by
  induction first with
  | nil => exact second
  | cons h _ ih => exact .later h (ih second)

/-- Two systems with the same inputs run in step when every pair of related states does. -/
theorem Run.simulate (step' : τ → ι → τ → Prop) (rel : σ → τ → Prop)
    (follow : ∀ s s' i t, rel s s' → step s i t → ∃ t', step' s' i t' ∧ rel t t')
    {s t : σ} {s' : τ} {is : List ι} (start : rel s s') (run : Run step s is t) :
    ∃ t', Run step' s' is t' ∧ rel t t' := by
  induction run generalizing s' with
  | nil => exact ⟨s', .nil, start⟩
  | cons h _ ih =>
    obtain ⟨mid, hm, related⟩ := follow _ _ _ _ start h
    obtain ⟨last, tail, done⟩ := ih related
    exact ⟨last, .cons hm tail, done⟩

/-- A run together with what its steps put out. -/
inductive Traced {ω : Type} (step : σ → ι → σ → Prop) (out : σ → ι → List ω) : σ → List ι → List ω → σ → Prop
  | nil {s} : Traced step out s [] [] s
  | cons {s t u i is os} : step s i t → Traced step out t is os u → Traced step out s (i :: is) (out s i ++ os) u

theorem Traced.run {ω : Type} {out : σ → ι → List ω} {s t : σ} {is : List ι} {os : List ω}
    (traced : Traced step out s is os t) : Run step s is t := by
  induction traced with
  | nil => exact .nil
  | cons h _ ih => exact .cons h ih

theorem Run.traced {ω : Type} (out : σ → ι → List ω) {s t : σ} {is : List ι} (run : Run step s is t) :
    ∃ os, Traced step out s is os t := by
  induction run with
  | nil => exact ⟨[], .nil⟩
  | cons h _ ih =>
    obtain ⟨os, traced⟩ := ih
    exact ⟨_, .cons h traced⟩

/-- A run seen through a projection of its states. -/
theorem Traced.project {τ ω : Type} {out : σ → ι → List ω} {step' : τ → ι → τ → Prop} {out' : τ → ι → List ω}
    (f : σ → τ) (follow : ∀ s i t, step s i t → step' (f s) i (f t)) (same : ∀ s i, out s i = out' (f s) i)
    {s t : σ} {is : List ι} {os : List ω} (run : Traced step out s is os t) : Traced step' out' (f s) is os (f t) := by
  induction run with
  | nil => exact .nil
  | cons h _ ih =>
    rw [same]
    exact .cons (follow _ _ _ h) ih

/-- The invariant rule for invariants that speak about the inputs taken and what was put out so far. -/
theorem Traced.invariant_history {ω : Type} {out : σ → ι → List ω} (inv : List ι → List ω → σ → Prop)
    (keep : ∀ past outs s i t, inv past outs s → step s i t → inv (past ++ [i]) (outs ++ out s i) t)
    {s t : σ} {past is : List ι} {outs os : List ω} (start : inv past outs s) (run : Traced step out s is os t) :
    inv (past ++ is) (outs ++ os) t := by
  induction run generalizing past outs with
  | nil => simpa using start
  | cons h _ ih =>
    have next := ih (keep _ _ _ _ _ start h)
    simpa using next

end Runs
