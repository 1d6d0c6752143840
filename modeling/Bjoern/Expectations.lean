import Bjoern.ReadingPhase
import Mathlib.Data.List.Induction

namespace Bjoern

/-- What `on_header_field` and `on_header_value` make of the header at hand. -/
def BjParser.behind (p : BjParser) : Callback → BjParser
  | .headerField field =>
    let p := startHeader p
    if p.invalidHeader then p
    else if charByte '_' ∈ field then { p with invalidHeader := true }
    else { p with field := p.field.map (· ++ field.map processFieldByte) }
  | .headerValue _ => { p with lastCallWasHeaderValue := true }
  | _ => p

/-- The header at hand behind the callbacks `fired`. -/
def BjParser.behindAll (p : BjParser) (fired : List (HttpParser × Callback)) : BjParser :=
  fired.foldl (fun p x => p.behind x.2) p

/-- The header at hand is `Expect`, in a request of HTTP/1.1. -/
def NamesExpect (p : BjParser) (parser : HttpParser) : Prop :=
  p.invalidHeader = false ∧ 0 < parser.httpMajor ∧ 0 < parser.httpMinor ∧ p.field = some (ascii "HTTP_EXPECT")

/-- No piece of a body is among the callbacks. -/
def NoBody (fired : List (HttpParser × Callback)) : Prop := ∀ x ∈ fired, ∀ data, x.2 ≠ .body data

/-- Behind `fired` stands an expectation of the client: one stood before, or a piece of an `Expect` header that is
taken for `100-continue` has come, and no piece of a body since. -/
def Stands (r : Request) (fired : List (HttpParser × Callback)) : Prop :=
  r.state.expectContinue = true ∧ NoBody fired ∨ ∃ front parser value back,
    fired = front ++ (parser, .headerValue value) :: back ∧ NamesExpect (r.parser.behindAll front) parser ∧
      meetsExpectation value = true ∧ NoBody back

/-- A piece of an `Expect` header is not taken for `100-continue`, where no expectation stands. -/
def Refuses (r : Request) (fired : List (HttpParser × Callback)) : Prop :=
  ∃ front parser value back, fired = front ++ (parser, .headerValue value) :: back ∧
    NamesExpect (r.parser.behindAll front) parser ∧ meetsExpectation value = false ∧ ¬ Stands r front

/-- An expectation stands behind `fired`, and none was refused. -/
def Expecting (r : Request) (fired : List (HttpParser × Callback)) : Prop := Stands r fired ∧ ¬ Refuses r fired

theorem BjParser.behindAll_snoc (p : BjParser) (fired : List (HttpParser × Callback)) (x : HttpParser × Callback) :
    p.behindAll (fired ++ [x]) = (p.behindAll fired).behind x.2 := by
  simp [BjParser.behindAll]

theorem noBody_snoc {fired : List (HttpParser × Callback)} {x : HttpParser × Callback} :
    NoBody (fired ++ [x]) ↔ NoBody fired ∧ ∀ data, x.2 ≠ .body data := by
  simp only [NoBody, List.mem_append, List.mem_singleton]
  exact ⟨fun h => ⟨fun y member => h y (Or.inl member), h x (Or.inr rfl)⟩,
    fun h y member => member.elim (h.1 y) fun same => same ▸ h.2⟩

/-- The piece `x`, which comes behind `fired`, is of an `Expect` header, and is taken for `100-continue` or not. -/
def Meets (r : Request) (fired : List (HttpParser × Callback)) (x : HttpParser × Callback) (met : Bool) : Prop :=
  ∃ value, x.2 = .headerValue value ∧ NamesExpect (r.parser.behindAll fired) x.1 ∧ meetsExpectation value = met

/-- A property of the place of one callback in a list, where the list ends. -/
theorem exists_split_snoc {P : List (HttpParser × Callback) → HttpParser × Callback →
      List (HttpParser × Callback) → Prop} {fired : List (HttpParser × Callback)} {x : HttpParser × Callback} :
    (∃ front y back, fired ++ [x] = front ++ y :: back ∧ P front y back) ↔
      P fired x [] ∨ ∃ front y back, fired = front ++ y :: back ∧ P front y (back ++ [x]) := by
  constructor
  · rintro ⟨front, y, back, split, holds⟩
    rcases List.eq_nil_or_concat back with rfl | ⟨back, z, rfl⟩
    · obtain ⟨rfl, same⟩ := List.append_inj' split rfl
      cases same
      exact Or.inl holds
    · rw [List.concat_eq_append, ← List.cons_append, ← List.append_assoc] at split
      obtain ⟨rfl, same⟩ := List.append_inj' split rfl
      cases same
      exact Or.inr ⟨front, y, back, rfl, by simpa using holds⟩
  · rintro (holds | ⟨front, y, back, rfl, holds⟩)
    · exact ⟨fired, x, [], rfl, holds⟩
    · exact ⟨front, y, back ++ [x], by simp, holds⟩

theorem stands_iff {r : Request} {fired : List (HttpParser × Callback)} : Stands r fired ↔
    r.state.expectContinue = true ∧ NoBody fired ∨
      ∃ front x back, fired = front ++ x :: back ∧ Meets r front x true ∧ NoBody back := by
  refine or_congr_right ⟨?_, ?_⟩
  · rintro ⟨front, parser, value, back, split, names, met, clear⟩
    exact ⟨front, _, back, split, ⟨value, rfl, names, met⟩, clear⟩
  · rintro ⟨front, ⟨parser, _⟩, back, split, ⟨value, rfl, names, met⟩, clear⟩
    exact ⟨front, parser, value, back, split, names, met, clear⟩

theorem refuses_iff {r : Request} {fired : List (HttpParser × Callback)} : Refuses r fired ↔
    ∃ front x back, fired = front ++ x :: back ∧ Meets r front x false ∧ ¬ Stands r front := by
  constructor
  · rintro ⟨front, parser, value, back, split, names, met, none⟩
    exact ⟨front, _, back, split, ⟨value, rfl, names, met⟩, none⟩
  · rintro ⟨front, ⟨parser, _⟩, back, split, ⟨value, rfl, names, met⟩, none⟩
    exact ⟨front, parser, value, back, split, names, met, none⟩

theorem stands_snoc {r : Request} {fired : List (HttpParser × Callback)} {x : HttpParser × Callback} :
    Stands r (fired ++ [x]) ↔ Meets r fired x true ∨ Stands r fired ∧ ∀ data, x.2 ≠ .body data := by
  rw [stands_iff, stands_iff, noBody_snoc,
    exists_split_snoc (P := fun front y back => Meets r front y true ∧ NoBody back)]
  have none : NoBody [] := by simp [NoBody]
  simp only [noBody_snoc, none, and_true]
  constructor
  · rintro (⟨up, clear, more⟩ | met | ⟨front, y, back, split, met, clear, more⟩)
    · exact Or.inr ⟨Or.inl ⟨up, clear⟩, more⟩
    · exact Or.inl met
    · exact Or.inr ⟨Or.inr ⟨front, y, back, split, met, clear⟩, more⟩
  · rintro (met | ⟨⟨up, clear⟩ | ⟨front, y, back, split, met, clear⟩, more⟩)
    · exact Or.inr (Or.inl met)
    · exact Or.inl ⟨up, clear, more⟩
    · exact Or.inr (Or.inr ⟨front, y, back, split, met, clear, more⟩)

theorem refuses_snoc {r : Request} {fired : List (HttpParser × Callback)} {x : HttpParser × Callback} :
    Refuses r (fired ++ [x]) ↔ Meets r fired x false ∧ ¬ Stands r fired ∨ Refuses r fired := by
  rw [refuses_iff, refuses_iff, exists_split_snoc (P := fun front y _ => Meets r front y false ∧ ¬ Stands r front)]

/-- Without a value of a header, an expectation stands only where one stood. -/
theorem Stands.stood {r : Request} {fired : List (HttpParser × Callback)}
    (none : ∀ x ∈ fired, ∀ value, x.2 ≠ .headerValue value) (h : Stands r fired) :
    r.state.expectContinue = true ∧ NoBody fired := by
  rcases h with stood | ⟨front, parser, value, back, rfl, _⟩
  · exact stood
  · exact absurd rfl (none (parser, .headerValue value) (by simp) value)

/-- Without a value of a header, nothing is refused. -/
theorem not_refuses {r : Request} {fired : List (HttpParser × Callback)}
    (none : ∀ x ∈ fired, ∀ value, x.2 ≠ .headerValue value) : ¬ Refuses r fired := by
  rintro ⟨front, parser, value, back, rfl, _⟩
  exact none (parser, .headerValue value) (by simp) value rfl

theorem runCallback_behind (base : Environ) (r : Request) (parser : HttpParser) (callback : Callback) :
    (runCallback base r parser callback).1.parser = r.parser.behind callback := by
  cases callback with
  | path data =>
    simp only [runCallback, onPath_eq]
    split <;> rfl
  | headerField data =>
    simp only [runCallback, onHeaderField, BjParser.behind]
    split
    next => rfl
    next => split <;> rfl
  | headerValue data => exact (onHeaderValue_spec r parser data).2.1
  | body data =>
    simp only [runCallback, onBody]
    split <;> rfl
  | _ => rfl

theorem checksExpectation_eq {r : Request} {parser : HttpParser} : checksExpectation r parser = true ↔
    NamesExpect r.parser parser ∧ r.state.expectContinue = false ∧ r.state.errorCode = none := by
  simp only [checksExpectation, NamesExpect, Bool.and_eq_true, Bool.not_eq_true', Bool.or_eq_false_iff,
    Option.isSome_eq_false_iff, Option.isNone_iff_eq_none, decide_eq_true_eq, beq_iff_eq, gt_iff_lt]
  tauto

/-- What a callback that returns 0 does to the two flags of an expectation. -/
theorem runCallback_flags (base : Environ) {r : Request} {x : HttpParser × Callback}
    (completes : (runCallback base r x.1 x.2).2 = true) :
    ((runCallback base r x.1 x.2).1.state.expectContinue = true ↔
      Meets r [] x true ∧ r.state.errorCode = none ∨ r.state.expectContinue = true ∧ ∀ data, x.2 ≠ .body data) ∧
    ((runCallback base r x.1 x.2).1.state.errorCode = none ↔
      r.state.errorCode = none ∧ (Meets r [] x false → r.state.expectContinue = true)) := by
  obtain ⟨parser, callback⟩ := x
  have other : (∀ value, callback ≠ .headerValue value) → ∀ met, ¬ Meets r [] (parser, callback) met :=
    fun none met ⟨value, eq, _⟩ => none value eq
  cases callback with
  | headerValue value =>
    have names : ∀ met, Meets r [] (parser, .headerValue value) met ↔
        NamesExpect r.parser parser ∧ meetsExpectation value = met := by
      intro met
      constructor
      · rintro ⟨_, ⟨⟩, names, met⟩
        exact ⟨names, met⟩
      · rintro ⟨names, met⟩
        exact ⟨value, rfl, names, met⟩
    have state : (runCallback base r parser (.headerValue value)).1.state = _ :=
      (onHeaderValue_spec r parser value).2.2.2.2
    rw [state, names, names]
    cases checks : checksExpectation r parser with
    | true =>
      obtain ⟨named, clear, noError⟩ := checksExpectation_eq.mp checks
      cases met : meetsExpectation value <;> simp [named, clear, noError]
    | false =>
      have skips : ¬ (NamesExpect r.parser parser ∧ r.state.expectContinue = false ∧ r.state.errorCode = none) :=
        fun looks => by simp [checksExpectation_eq.mpr looks] at checks
      cases up : r.state.expectContinue with
      | true => simp [up]
      | false =>
        cases error : r.state.errorCode with
        | some code => simp [up, error]
        | none =>
          have named : ¬ NamesExpect r.parser parser := fun named => skips ⟨named, up, error⟩
          simp [up, error, named]
  | path data =>
    have none := other (by simp)
    simp only [runCallback, onPath_eq] at completes ⊢
    split <;> simp [none]
  | headerField data =>
    have none := other (by simp)
    simp only [runCallback, onHeaderField]
    split
    next => simp [none]
    next => split <;> simp [none]
  | body data =>
    have none := other (by simp)
    simp only [runCallback, onBody] at completes ⊢
    split at completes
    next => cases completes
    next lengthy =>
      rw [if_neg lengthy]
      simp [none]
  | messageBegin =>
    have none := other (by simp)
    simp [runCallback, onMessageBegin, none]
  | queryString data =>
    have none := other (by simp)
    simp [runCallback, onQueryString, none]
  | messageComplete =>
    have none := other (by simp)
    simp [runCallback, onMessageComplete, none]

theorem runCallbacks_snoc {base : Environ} {r : Request} {fired : List (HttpParser × Callback)}
    {x : HttpParser × Callback} (completes : (runCallbacks base r (fired ++ [x])).2 = true) :
    (runCallbacks base r fired).2 = true ∧
      runCallbacks base r (fired ++ [x]) = runCallback base (runCallbacks base r fired).1 x.1 x.2 := by
  induction fired generalizing r with
  | nil =>
    refine ⟨rfl, ?_⟩
    obtain ⟨parser, callback⟩ := x
    simp only [List.nil_append, runCallbacks]
    split
    next result => exact result.symm
    next result => exact result.symm
  | cons y rest ih =>
    simp only [List.cons_append, runCallbacks] at completes ⊢
    split at completes
    next r' result =>
      exact ih completes
    next => cases completes

theorem runCallbacks_behindAll {base : Environ} {r : Request} {fired : List (HttpParser × Callback)}
    (completes : (runCallbacks base r fired).2 = true) :
    (runCallbacks base r fired).1.parser = r.parser.behindAll fired := by
  induction fired using List.reverseRecOn with
  | nil => rfl
  | append_singleton fired x ih =>
    obtain ⟨completes', last⟩ := runCallbacks_snoc completes
    rw [last, runCallback_behind, ih completes', BjParser.behindAll_snoc]

/-- The flags behind callbacks that all return 0, by what the callbacks say. -/
theorem expectation_flags {base : Environ} {r : Request} (noError : r.state.errorCode = none)
    {fired : List (HttpParser × Callback)} (completes : (runCallbacks base r fired).2 = true) :
    ((runCallbacks base r fired).1.state.errorCode = none ↔ ¬ Refuses r fired) ∧
    ((runCallbacks base r fired).1.state.expectContinue = true ↔ Expecting r fired) := by
  induction fired using List.reverseRecOn with
  | nil =>
    have calm : ¬ Refuses r [] := by simp [Refuses]
    refine ⟨by simp [runCallbacks, noError, calm], ?_⟩
    simp [runCallbacks, Expecting, Stands, NoBody, calm]
  | append_singleton fired x ih =>
    obtain ⟨completes', last⟩ := runCallbacks_snoc completes
    have parser := runCallbacks_behindAll completes'
    obtain ⟨error, expects⟩ := ih completes'
    rw [last] at completes ⊢
    obtain ⟨up, none⟩ := runCallback_flags base completes
    have meets : ∀ met, Meets (runCallbacks base r fired).1 [] x met ↔ Meets r fired x met := by
      intro met
      simp only [Meets, parser]
      rfl
    simp only [meets, error, expects] at up none
    refine ⟨none.trans ?_, up.trans ?_⟩
    · rw [refuses_snoc, Expecting]
      by_cases refused : Refuses r fired
      · simp [refused]
      · simp [refused]
    · rw [Expecting, Expecting, stands_snoc, refuses_snoc]
      have different : Meets r fired x true → ¬ Meets r fired x false := by
        rintro ⟨value, eq, _, met⟩ ⟨value', eq', _, unmet⟩
        cases eq.symm.trans eq'
        cases met.symm.trans unmet
      have piece : Meets r fired x false → ∀ data, x.2 ≠ .body data := by
        rintro ⟨value, eq, _⟩ data body
        cases eq.symm.trans body
      clear meets up none error expects completes completes' last ih
      by_cases refused : Refuses r fired
      · simp [refused]
      · by_cases unmet : Meets r fired x false
        · have other : ¬ Meets r fired x true := fun met => different met unmet
          have clear := piece unmet
          by_cases stands : Stands r fired <;> simp [refused, unmet, other, stands, clear]
        · simp [refused, unmet]

theorem runCallbacks_stops {base : Environ} {r : Request} {fired : List (HttpParser × Callback)}
    (stops : (runCallbacks base r fired).2 = false) : ∃ front x back, fired = front ++ x :: back ∧
      (runCallbacks base r front).2 = true ∧
      runCallbacks base r fired = runCallback base (runCallbacks base r front).1 x.1 x.2 := by
  induction fired generalizing r with
  | nil => cases stops
  | cons x rest ih =>
    rw [runCallbacks] at stops ⊢
    split at stops
    next r' result =>
      obtain ⟨front, y, back, rfl, completes, last⟩ := ih stops
      have first : runCallbacks base r (x :: front) = runCallbacks base r' front := by
        rw [runCallbacks, result]
      exact ⟨x :: front, y, back, rfl, by rw [first]; exact completes, by rw [first]; exact last⟩
    next r' result => exact ⟨[], x, rest, rfl, rfl, result.symm⟩

/-- Only `on_path` and `on_body` stop the parser, and `on_body` has taken the expectation away by then. -/
theorem runCallback_stops {base : Environ} {r : Request} {parser : HttpParser} {callback : Callback}
    (stops : (runCallback base r parser callback).2 = false) :
    (∃ piece, callback = .path piece ∧ decodePath piece = none ∧ (runCallback base r parser callback).1 = r) ∨
      (runCallback base r parser callback).1.state.expectContinue = false := by
  cases callback with
  | path piece =>
    simp only [runCallback, onPath_eq] at stops ⊢
    split at stops
    next => cases stops
    next undecoded => exact Or.inl ⟨piece, rfl, undecoded, rfl⟩
  | body data =>
    simp only [runCallback, onBody]
    split <;> exact Or.inr rfl
  | headerValue data => cases (onHeaderValue_spec r parser data).1.symm.trans stops
  | headerField data =>
    simp only [runCallback, onHeaderField] at stops
    split at stops
    next => cases stops
    next => split at stops <;> cases stops
  | messageBegin => cases stops
  | queryString => cases stops
  | messageComplete => cases stops

theorem runCallback_returns {base : Environ} {r : Request} {parser : HttpParser} {callback : Callback}
    (decodes : ∀ piece, callback = .path piece → decodePath piece ≠ none)
    (lengthy : ∀ data, callback = .body data → parser.contentLength ≠ 0) :
    (runCallback base r parser callback).2 = true := by
  by_contra stops
  rw [Bool.not_eq_true] at stops
  cases callback with
  | path piece =>
    obtain ⟨_, decoded⟩ := Option.ne_none_iff_exists'.mp (decodes piece rfl)
    simp [runCallback, onPath_eq, decoded] at stops
  | headerValue data => cases (onHeaderValue_spec r parser data).1.symm.trans stops
  | headerField data =>
    simp only [runCallback, onHeaderField] at stops
    split at stops
    next => cases stops
    next => split at stops <;> cases stops
  | body data => simp [runCallback, onBody, lengthy data rfl] at stops
  | messageBegin => cases stops
  | queryString => cases stops
  | messageComplete => cases stops

/-- All callbacks return 0 where every piece of the path is decoded and a body has a length. -/
theorem runCallbacks_completes (base : Environ) (r : Request) {fired : List (HttpParser × Callback)}
    (decodes : ∀ x ∈ fired, ∀ piece, x.2 = .path piece → decodePath piece ≠ none)
    (lengthy : ∀ x ∈ fired, ∀ data, x.2 = .body data → x.1.contentLength ≠ 0) :
    (runCallbacks base r fired).2 = true := by
  induction fired generalizing r with
  | nil => rfl
  | cons x rest ih =>
    rw [runCallbacks_cons (runCallback_returns (decodes x (by simp)) (lengthy x (by simp)))]
    exact ih _ (fun y member => decodes y (List.mem_cons_of_mem x member)) fun y member =>
      lengthy y (List.mem_cons_of_mem x member)

/-- The parser takes all bytes of a read, no expectation is refused and every piece of the path is decoded. -/
structure Admits (r : Request) (data : ReadData) : Prop where
  consumed : data.consumed = true
  unrefused : ¬ Refuses r data.fired
  decodes : ∀ x ∈ data.fired, ∀ piece, x.2 = .path piece → decodePath piece ≠ none

theorem runCallbacks_decodes {base : Environ} {r : Request} {fired : List (HttpParser × Callback)}
    (completes : (runCallbacks base r fired).2 = true) :
    ∀ x ∈ fired, ∀ piece, x.2 = .path piece → decodePath piece ≠ none := by
  induction fired using List.reverseRecOn with
  | nil => simp
  | append_singleton fired x ih =>
    obtain ⟨completes', last⟩ := runCallbacks_snoc completes
    rw [last] at completes
    intro y member piece eq
    rcases List.mem_append.mp member with earlier | new
    · exact ih completes' y earlier piece eq
    · rw [List.mem_singleton.mp new] at eq
      rw [eq, runCallback, onPath_eq] at completes
      split at completes
      next decoded => simp [decoded]
      next => cases completes

theorem runCallbacks_noError {base : Environ} {r : Request} {fired : List (HttpParser × Callback)}
    (completes : (runCallbacks base r fired).2 = true)
    (noError : (runCallbacks base r fired).1.state.errorCode = none) : r.state.errorCode = none := by
  induction fired using List.reverseRecOn with
  | nil => exact noError
  | append_singleton fired x ih =>
    obtain ⟨completes', last⟩ := runCallbacks_snoc completes
    rw [last] at completes noError
    exact ih completes' ((runCallback_flags base completes).2.mp noError).1

/-- A read that brings no error is admitted. -/
theorem Parses.admits {base : Environ} {c : Conn} {data : ReadData} (parses : Parses base c data)
    (noError : (c.parsed base data).state.errorCode = none) : Admits c.toRequest data := by
  obtain ⟨completes, consumed, eq⟩ := parses.completed noError
  rw [eq] at noError
  have before := runCallbacks_noError completes noError
  exact ⟨consumed, (expectation_flags before completes).1.mp noError, runCallbacks_decodes completes⟩

/-- A request that is finished was finished before, or its end is among the callbacks. -/
theorem Parses.completes {base : Environ} {c : Conn} {data : ReadData} (parses : Parses base c data)
    (noError : (c.parsed base data).state.errorCode = none)
    (finished : (c.parsed base data).state.parseFinished = true) :
    c.state.parseFinished = true ∨ ∃ x ∈ data.fired, x.2 = .messageComplete := by
  obtain ⟨_, _, eq⟩ := parses.completed noError
  rw [eq] at finished
  by_contra none
  push Not at none
  have same := runCallbacks_unfinished base c.toRequest none.2
  exact none.1 (same.symm.trans finished)

/-- No header among the callbacks is `Expect`. -/
def WithoutExpect (r : Request) (fired : List (HttpParser × Callback)) : Prop :=
  ∀ front parser value back, fired = front ++ (parser, .headerValue value) :: back →
    ¬ NamesExpect (r.parser.behindAll front) parser

theorem runCallback_withoutExpect (base : Environ) {r : Request} {parser : HttpParser} {callback : Callback}
    (clear : r.state.expectContinue = false)
    (plain : ∀ value, callback = .headerValue value → ¬ NamesExpect r.parser parser) :
    (runCallback base r parser callback).1.state.expectContinue = false := by
  cases callback with
  | headerValue value =>
    have state : (runCallback base r parser (.headerValue value)).1.state = _ :=
      (onHeaderValue_spec r parser value).2.2.2.2
    have skips : checksExpectation r parser = false := by
      rw [← Bool.not_eq_true]
      exact fun looks => plain value rfl (checksExpectation_eq.mp looks).1
    rw [state, skips]
    exact clear
  | path =>
    simp only [runCallback, onPath_eq]
    split <;> exact clear
  | headerField =>
    simp only [runCallback, onHeaderField]
    split
    next => exact clear
    next => split <;> exact clear
  | body =>
    simp only [runCallback, onBody]
    split <;> rfl
  | messageBegin => exact clear
  | queryString => exact clear
  | messageComplete => exact clear

/-- Without an `Expect` header the interim flag stays down. -/
theorem WithoutExpect.clear {base : Environ} {r : Request} {fired : List (HttpParser × Callback)}
    (plain : WithoutExpect r fired) (clear : r.state.expectContinue = false) :
    (runCallbacks base r fired).1.state.expectContinue = false := by
  induction fired generalizing r with
  | nil => exact clear
  | cons x rest ih =>
    obtain ⟨parser, callback⟩ := x
    have unnamed : ∀ value, callback = .headerValue value → ¬ NamesExpect r.parser parser := by
      rintro value rfl
      exact plain [] parser value rest rfl
    have first := runCallback_withoutExpect base clear unnamed
    have behind := runCallback_behind base r parser callback
    have later : WithoutExpect (runCallback base r parser callback).1 rest := by
      intro front p value back split
      rw [behind]
      exact plain ((parser, callback) :: front) p value back (by rw [split]; rfl)
    rw [runCallbacks]
    split
    next result =>
      rw [result] at first later
      exact ih later first
    next result =>
      rw [result] at first
      exact first

/-- No expectation stands where the callbacks of a read make `ev_io_on_read` answer: behind all of them, if they
complete a request or the parser does not accept the bytes after them, and in front of a piece of the path that is not
decoded. -/
def Unawaited (c : Conn) : Event → Prop
  | .read e => ∀ data, e.result = .bytes data →
      (data.consumed = false ∨ (∃ x ∈ data.fired, x.2 = .messageComplete) → ¬ Expecting c.toRequest data.fired) ∧
      ∀ front parser piece back, data.fired = front ++ (parser, .path piece) :: back → decodePath piece = none →
        ¬ Expecting c.toRequest front
  | .write _ => True

/-- Without a value of a header, and with the interim flag down, there is nothing to wait for. -/
theorem Unawaited.of_unnamed {c : Conn} {e : ReadEvent} (clear : c.state.expectContinue = false)
    (none : ∀ data, e.result = .bytes data → ∀ x ∈ data.fired, ∀ value, x.2 ≠ .headerValue value) :
    Unawaited c (.read e) := by
  have calm : ∀ fired, (∀ x ∈ fired, ∀ value, x.2 ≠ .headerValue value) → ¬ Expecting c.toRequest fired :=
    fun fired none expecting => by cases clear.symm.trans (expecting.1.stood none).1
  intro data bytes
  have unnamed := none data bytes
  exact ⟨fun _ => calm _ unnamed, fun front _ _ _ split _ => calm _ fun x member =>
    unnamed x (by rw [split]; exact List.mem_append_left _ member)⟩

theorem requestParse_expectContinue (base : Environ) (r : Request) (data : ReadData) :
    (requestParse base r data).state.expectContinue = (runCallbacks base r data.fired).1.state.expectContinue := by
  unfold requestParse
  dsimp only
  split <;> rfl

/-- A request is finished by the last of its callbacks. -/
theorem requestParse_completes {base : Environ} {r : Request} {data : ReadData}
    (unfinished : r.state.parseFinished = false)
    (finished : (requestParse base r data).state.parseFinished = true) : ∃ x ∈ data.fired, x.2 = .messageComplete := by
  by_contra none
  push Not at none
  have same : (requestParse base r data).state.parseFinished =
      (runCallbacks base r data.fired).1.state.parseFinished := by
    unfold requestParse
    dsimp only
    split <;> rfl
  rw [same, runCallbacks_unfinished base r none, unfinished] at finished
  cases finished

/-- Where the bytes of a read are parsed without an error, the interim flag says whether an expectation stands. -/
theorem requestParse_expecting {base : Environ} {r : Request} {data : ReadData} (noError : r.state.errorCode = none)
    (parsed : (requestParse base r data).state.errorCode = none) :
    ((requestParse base r data).state.expectContinue = true ↔ Expecting r data.fired) := by
  rw [requestParse_expectContinue]
  cases completes : (runCallbacks base r data.fired).2 with
  | true => exact (expectation_flags noError completes).2
  | false => simp [requestParse, completes] at parsed

theorem Untouched.withoutExpect {base : Environ} {c : Conn} {data : ReadData} (h : Untouched c)
    (parses : Parses base c data) (clear : c.state.expectContinue = false)
    (plain : WithoutExpect c.toRequest data.fired) :
    (c.parsed base data).state.expectContinue = false := by
  rw [(h.toGrounded.parsed parses).1]
  exact (requestParse_expectContinue base c.toRequest data).trans (plain.clear clear)

/-- The read that finishes a request brings its end. -/
theorem Receiving.completes {base : Environ} {spent : Bool} {q : HttpRequest} {d : Environ}
    {left : List (HttpParser × Callback)} {c : Conn} {data : ReadData} (h : Receiving base spent q d left c)
    (parses : Parses base c data) (finished : (c.parsed base data).state.parseFinished = true) :
    ∃ x ∈ data.fired, x.2 = .messageComplete := by
  rw [(h.untouched.toGrounded.parsed parses).1] at finished
  exact requestParse_completes h.unfinished finished

/-- No expectation is up behind callbacks that leave none. -/
theorem Receiving.unexpected {base : Environ} {spent : Bool} {q : HttpRequest} {d : Environ}
    {left : List (HttpParser × Callback)} {c : Conn} {data : ReadData} (h : Receiving base spent q d left c)
    (parses : Parses base c data) (noError : (c.parsed base data).state.errorCode = none)
    (unawaited : ¬ Stands c.toRequest data.fired) : (c.parsed base data).state.expectContinue = false := by
  rw [(h.untouched.toGrounded.parsed parses).1] at noError ⊢
  rw [← Bool.not_eq_true]
  exact fun up => unawaited ((requestParse_expecting h.noError noError).mp up).1

/-- Then the interim flag is down when the read is answered. -/
theorem Unawaited.clear {base : Environ} {c : Conn} {e : ReadEvent} {data : ReadData} (h : Unawaited c (.read e))
    (bytes : e.result = .bytes data) (noError : c.state.errorCode = none) (unfinished : c.state.parseFinished = false)
    (answers : (requestParse base c.toRequest data).state.errorCode ≠ none ∨
      (requestParse base c.toRequest data).state.parseFinished = true) :
    (requestParse base c.toRequest data).state.expectContinue = false := by
  obtain ⟨behind, before⟩ := h data bytes
  rw [requestParse_expectContinue, ← Bool.not_eq_true]
  cases completes : (runCallbacks base c.toRequest data.fired).2 with
  | false =>
    obtain ⟨front, ⟨parser, callback⟩, back, split, completes', last⟩ := runCallbacks_stops completes
    rw [last] at completes ⊢
    rcases runCallback_stops completes with ⟨piece, rfl, undecoded, same⟩ | clear
    · rw [same, (expectation_flags noError completes').2]
      exact before front parser piece back split undecoded
    · simp [clear]
  | true =>
    obtain ⟨error, expects⟩ := expectation_flags noError completes
    rw [expects]
    cases consumed : data.consumed with
    | false => exact behind (Or.inl consumed)
    | true =>
      rcases answers with failed | finished
      · rw [requestParse_completed (Prod.ext rfl completes) consumed] at failed
        exact fun expecting => failed (error.mpr expecting.2)
      · exact behind (Or.inr (requestParse_completes unfinished finished))

end Bjoern
