import Bjoern.FragmentedRequests

namespace Bjoern

/-- `memcmp(a, b, n)` on the memory behind two pointers. -/
def memcmp (a b : Nat → UInt8) : Nat → Int
  | 0 => 0
  | n + 1 =>
    if a 0 = b 0 then memcmp (fun i => a (i + 1)) (fun i => b (i + 1)) n
    else (a 0).toNat - (b 0).toNat

/-- The memory behind a pointer to the string `s`: its bytes, the terminating NUL and what lies `beyond`. -/
def memoryAt (s : Bytes) (beyond : Nat → UInt8) (i : Nat) : UInt8 := (s ++ [0]).getD i (beyond i)

/-- `PyUnicode_CompareWithASCIIString` -/
def unicodeCompareWithAsciiString (o cStr : Bytes) : Int :=
  if o = cStr then 0 else if o < cStr then -1 else 1

/-- The two builds; in that of Python 2 the memory `beyond` the constant matters. -/
inductive PythonBuild
  | python2 (beyond : Nat → UInt8)
  | python3

/-- `_PEP3333_String_CompareWithASCIIString` -/
def PythonBuild.compareWithAsciiString : PythonBuild → Bytes → Bytes → Int
  | .python2 beyond, o, cStr => memcmp (memoryAt o fun _ => 0) (memoryAt cStr beyond) o.length
  | .python3, o, cStr => unicodeCompareWithAsciiString o cStr

/-- `field_is_http_expect` behind the conditions under which `on_header_value` computes it. -/
def PythonBuild.checksExpectation (build : PythonBuild) (r : Request) (parser : HttpParser) : Bool :=
  !r.parser.invalidHeader && !(r.state.expectContinue || r.state.errorCode.isSome) &&
    decide (parser.httpMajor > 0 ∧ parser.httpMinor > 0) &&
    r.parser.field.any fun field => build.compareWithAsciiString field (ascii "HTTP_EXPECT") == 0

/-- `on_header_value` in either build. -/
def PythonBuild.onHeaderValue (build : PythonBuild) (r : Request) (parser : HttpParser) (value : Bytes) :
    Request × Bool :=
  let set : Request :=
    { r with
      parser := { r.parser with lastCallWasHeaderValue := true }
      headers :=
        match r.parser.invalidHeader, r.parser.field with
        | false, some field => r.headers.modify (setOrAppendHeader field value)
        | _, _ => r.headers }
  if build.checksExpectation r parser then
    if meetsExpectation value then ({ set with state.expectContinue := true }, true)
    else ({ set with state.errorCode := some .expectationFailed }, true)
  else (set, true)

theorem unicodeCompareWithAsciiString_zero {o cStr : Bytes} : unicodeCompareWithAsciiString o cStr = 0 ↔ o = cStr := by
  unfold unicodeCompareWithAsciiString
  by_cases same : o = cStr
  · simp [same]
  · by_cases less : o < cStr
    · simp [same, less]
    · simp [same, less]

/-- The development's `on_header_value` is that of the build for Python 3. -/
theorem onHeaderValue_python3 : PythonBuild.python3.onHeaderValue = onHeaderValue := by
  funext r parser value
  have checks : PythonBuild.python3.checksExpectation r parser = checksExpectation r parser := by
    have compared : (r.parser.field.any fun field =>
        PythonBuild.python3.compareWithAsciiString field (ascii "HTTP_EXPECT") == 0) =
          (r.parser.field == some (ascii "HTTP_EXPECT")) := by
      cases r.parser.field with
      | none => rfl
      | some field =>
        rw [Option.any_some, Bool.eq_iff_iff, beq_iff_eq, beq_iff_eq, Option.some_inj]
        exact unicodeCompareWithAsciiString_zero
    rw [PythonBuild.checksExpectation, checksExpectation, compared]
  unfold PythonBuild.onHeaderValue
  rw [checks]
  rfl

theorem memcmp_zero {a b : Nat → UInt8} {n : Nat} : memcmp a b n = 0 ↔ ∀ i < n, a i = b i := by
  induction n generalizing a b with
  | zero => simp [memcmp]
  | succ n ih =>
    by_cases first : a 0 = b 0
    · rw [memcmp, if_pos first, ih]
      constructor
      · intro rest i small
        cases i with
        | zero => exact first
        | succ i => exact rest i (by omega)
      · intro all i small
        exact all (i + 1) (by omega)
    · rw [memcmp, if_neg first]
      constructor
      · intro zero
        have same : (a 0).toNat = (b 0).toNat := by omega
        exact absurd (UInt8.toNat_inj.mp same) first
      · intro all
        exact absurd (all 0 (by omega)) first

theorem memoryAt_front {s t : Bytes} {beyond : Nat → UInt8} {i : Nat} (front : t <+: s ++ [0]) (inside : i < t.length) :
    memoryAt s beyond i = t[i] := by
  have whole := List.prefix_iff_getElem?.mp front i inside
  rw [memoryAt, List.getD_eq_getElem?_getD, whole, Option.getD_some]

theorem memoryAt_inside {s : Bytes} {beyond : Nat → UInt8} {i : Nat} (inside : i < s.length) :
    memoryAt s beyond i = s[i] :=
  memoryAt_front (List.prefix_append s [0]) inside

/-- The comparison of Python 2 takes what the constant begins with, and what begins with the constant and its NUL. -/
theorem compareWithAsciiString_python2 {o cStr : Bytes} :
    (∃ beyond, (PythonBuild.python2 beyond).compareWithAsciiString o cStr = 0) ↔ o <+: cStr ∨ cStr ++ [0] <+: o := by
  simp only [PythonBuild.compareWithAsciiString, memcmp_zero]
  constructor
  · rintro ⟨beyond, equal⟩
    by_cases short : o.length ≤ cStr.length
    · left
      rw [List.prefix_iff_getElem?]
      intro i inside
      have same := equal i inside
      rw [memoryAt_inside inside, memoryAt_inside (by omega)] at same
      rw [same, List.getElem?_eq_getElem]
    · right
      rw [List.prefix_iff_getElem?]
      intro i inside
      have long : i < o.length := by
        rw [List.length_append, List.length_singleton] at inside
        omega
      have same := equal i long
      rw [memoryAt_inside long, memoryAt_front (List.prefix_refl _) inside] at same
      rw [← same, List.getElem?_eq_getElem]
  · rintro (front | longer)
    · refine ⟨fun _ => 0, fun i inside => ?_⟩
      rw [memoryAt_inside inside, memoryAt_front (front.trans (List.prefix_append _ _)) inside]
    · refine ⟨fun i => o.getD i 0, fun i inside => ?_⟩
      rw [memoryAt_inside inside, memoryAt]
      by_cases within : i < (cStr ++ [0]).length
      · rw [List.getD_eq_getElem?_getD, List.getElem?_eq_getElem within, Option.getD_some]
        have same := List.prefix_iff_getElem?.mp longer i within
        rw [List.getElem?_eq_getElem inside] at same
        exact Option.some.inj same
      · have past : (cStr ++ [0])[i]? = none := List.getElem?_eq_none (by omega)
        rw [List.getD_eq_getElem?_getD, past, Option.getD_none, List.getD_eq_getElem?_getD,
          List.getElem?_eq_getElem inside, Option.getD_some]

/-- The state after the callbacks for the name of a header. -/
def Request.afterName (r : Request) (names : List Bytes) : Request :=
  names.foldl (fun r piece => (onHeaderField r piece).1) r

theorem afterName_ready {r : Request} {seen : Bytes} (names : List Bytes) (key : KeyReady r.parser seen)
    (last : r.parser.lastCallWasHeaderValue = false) : KeyReady (r.afterName names).parser (seen ++ names.flatten) := by
  induction names generalizing r seen with
  | nil =>
    rw [List.flatten_nil, List.append_nil]
    exact key
  | cons piece rest ih =>
    have started := startHeader_started last
    obtain ⟨p, step, key', last'⟩ := onHeaderField_ready (r := r) piece (by rw [started]; exact key)
      (by rw [started]; exact last)
    have next := ih (r := { r with parser := p }) key' last'
    rw [Request.afterName, List.foldl_cons, step, List.flatten_cons, ← List.append_assoc]
    exact next

theorem afterName_fresh {r : Request} (fresh : r.parser.lastCallWasHeaderValue = true) (first : Bytes)
    (later : List Bytes) : KeyReady (r.afterName (first :: later)).parser (first :: later).flatten := by
  obtain ⟨key, last⟩ := startHeader_fresh fresh
  obtain ⟨p, step, key', last'⟩ := onHeaderField_ready (r := r) first key last
  have next := afterName_ready (r := { r with parser := p }) later key' last'
  rw [Request.afterName, List.foldl_cons, step, List.flatten_cons]
  exact next

theorem afterName_field {r : Request} (fresh : r.parser.lastCallWasHeaderValue = true) {first field : Bytes}
    {later : List Bytes} (valid : (r.afterName (first :: later)).parser.invalidHeader = false)
    (read : (r.afterName (first :: later)).parser.field = some field) :
    charByte '_' ∉ (first :: later).flatten ∧ field = nameKey (first :: later).flatten := by
  have key := afterName_fresh fresh first later
  unfold KeyReady at key
  split at key
  next =>
    rw [valid] at key
    cases key
  next kept => exact ⟨kept, Option.some.inj (read.symm.trans key.2)⟩

theorem PythonBuild.onHeaderValue_state {build : PythonBuild} {r : Request} {parser : HttpParser} {value field : Bytes}
    (read : r.parser.field = some field) (changed : (build.onHeaderValue r parser value).1.state ≠ r.state) :
    build.compareWithAsciiString field (ascii "HTTP_EXPECT") = 0 := by
  by_contra differs
  have skips : build.checksExpectation r parser = false := by simp [PythonBuild.checksExpectation, read, differs]
  simp [PythonBuild.onHeaderValue, skips] at changed

/-- Both builds recognise the key as `HTTP_EXPECT` or neither does, and no other key touches the flags. -/
structure RecognisedAlike (field : Bytes) : Prop where
  agree : ∀ beyond, (PythonBuild.python2 beyond).compareWithAsciiString field (ascii "HTTP_EXPECT") = 0 ↔
    PythonBuild.python3.compareWithAsciiString field (ascii "HTTP_EXPECT") = 0
  expect : ∀ build : PythonBuild, build.compareWithAsciiString field (ascii "HTTP_EXPECT") = 0 ↔
    field = ascii "HTTP_EXPECT"
  only : ∀ (build : PythonBuild) (r : Request) (parser : HttpParser) (value : Bytes), r.parser.field = some field →
    (build.onHeaderValue r parser value).1.state ≠ r.state → field = ascii "HTTP_EXPECT"

/-- The name of another header that is a beginning of `Expect`, or goes on behind it with a NUL. -/
def TakenForExpect (name : Bytes) : Prop :=
  charByte '_' ∉ name ∧
    (name.map processFieldByte <+: ascii "EXPEC" ∨ ascii "EXPECT" ++ [0] <+: name.map processFieldByte)

theorem recognisedAlike_iff {field : Bytes} : RecognisedAlike field ↔
    ((∃ beyond, (PythonBuild.python2 beyond).compareWithAsciiString field (ascii "HTTP_EXPECT") = 0) →
      field = ascii "HTTP_EXPECT") := by
  constructor
  · rintro alike ⟨beyond, zero⟩
    exact (alike.expect (.python2 beyond)).mp zero
  · intro only
    have expect : ∀ build : PythonBuild,
        build.compareWithAsciiString field (ascii "HTTP_EXPECT") = 0 ↔ field = ascii "HTTP_EXPECT" := by
      intro build
      cases build with
      | python3 => exact unicodeCompareWithAsciiString_zero
      | python2 beyond =>
        refine ⟨fun zero => only ⟨beyond, zero⟩, fun same => ?_⟩
        rw [same]
        exact memcmp_zero.mpr fun i inside => (memoryAt_inside inside).trans (memoryAt_inside inside).symm
    refine ⟨fun beyond => (expect (.python2 beyond)).trans (expect .python3).symm, expect, ?_⟩
    intro build r parser value read changed
    exact (expect build).mp (PythonBuild.onHeaderValue_state read changed)

theorem recognisedAlike_nameKey {name : Bytes} (kept : charByte '_' ∉ name) :
    RecognisedAlike (nameKey name) ↔ ¬ TakenForExpect name := by
  have whole : ascii "HTTP_EXPECT" = ascii "HTTP_" ++ ascii "EXPECT" := by decide
  have last : ascii "EXPECT" = ascii "EXPEC" ++ ascii "T" := by decide
  rw [recognisedAlike_iff, compareWithAsciiString_python2, nameKey, whole, List.append_assoc,
    List.prefix_append_right_inj, List.prefix_append_right_inj, List.append_right_inj]
  constructor
  · rintro only ⟨_, short | long⟩
    · have same := only (Or.inl (short.trans (last ▸ List.prefix_append _ _)))
      rw [same] at short
      exact absurd short (by decide)
    · have same := only (Or.inr long)
      rw [same] at long
      exact absurd long (by decide)
  · rintro other (front | long)
    · have cut : name.map processFieldByte <+: ascii "EXPEC" ++ [charByte 'T'] := front
      rcases List.prefix_concat_iff.mp cut with same | short
      · exact same
      · exact absurd ⟨kept, Or.inl short⟩ other
    · exact absurd ⟨kept, Or.inr long⟩ other

/-- In both builds, whatever the pieces of the name are, exactly the header `Expect` is recognised as such, unless
the name is a proper beginning of that. -/
theorem expect_recognised_alike (first : Bytes) (later : List Bytes) :
    (∀ (r : Request) (field : Bytes), r.parser.lastCallWasHeaderValue = true →
      (r.afterName (first :: later)).parser.invalidHeader = false →
      (r.afterName (first :: later)).parser.field = some field → RecognisedAlike field) ↔
    ¬ TakenForExpect (first :: later).flatten := by
  constructor
  · intro alike taken
    have key := afterName_fresh (r := requestNew [] http11Post) rfl first later
    rw [KeyReady, if_neg taken.1] at key
    exact (recognisedAlike_nameKey taken.1).mp (alike _ _ rfl key.1 key.2) taken
  · intro other r field fresh valid read
    obtain ⟨kept, rfl⟩ := afterName_field fresh valid read
    exact (recognisedAlike_nameKey kept).mpr other

/-- A header called `E` is rejected as an expectation in the build for Python 2 only. -/
theorem abbreviated_expect : ∃ r : Request, r.parser.field = some (ascii "HTTP_E") ∧
    (requestNew [] http11Post).afterName [ascii "E"] = r ∧ ¬ RecognisedAlike (ascii "HTTP_E") ∧
    ((PythonBuild.python2 fun _ => 0).onHeaderValue r http11Post (ascii "x")).1.state.errorCode =
      some .expectationFailed ∧
    (PythonBuild.python3.onHeaderValue r http11Post (ascii "x")).1.state.errorCode = none := by
  refine ⟨_, rfl, rfl, ?_, by decide, by decide⟩
  intro alike
  have zero : (PythonBuild.python2 fun _ => 0).compareWithAsciiString (ascii "HTTP_E") (ascii "HTTP_EXPECT") = 0 := by
    decide
  exact absurd ((alike.expect _).mp zero) (by decide)

end Bjoern
