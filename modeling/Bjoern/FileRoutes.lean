import Bjoern.Answering
import Bjoern.FastPath
import Bjoern.FileRouting

namespace Bjoern

theorem fileRead_append (blocksize : Option Int) (rest : Bytes) :
    (fileRead blocksize rest).1 ++ (fileRead blocksize rest).2 = rest := by
  unfold fileRead
  split
  next n =>
    split
    next => simp
    next => simp
  next => simp

/-- Only reads of no bytes come back empty before the end of the file. -/
theorem fileRead_eq_nil {blocksize : Option Int} {rest : Bytes} :
    (fileRead blocksize rest).1 = [] ↔ blocksize = some 0 ∨ rest = [] := by
  unfold fileRead
  cases blocksize with
  | none => simp
  | some n =>
    by_cases read : 0 ≤ n
    · have zero : n.toNat = 0 ↔ n = 0 := by omega
      simp [read, List.take_eq_nil_iff, zero]
    · have other : n ≠ 0 := by omega
      simp [read, other]

/-- What the iteration makes of the `read()` calls. -/
def fileSteps (blocksize : Option Int) (bound : Nat) (rest : Bytes) : PyIter :=
  (fileReads blocksize bound rest).map fun read => ⟨read.startResponses, read.result.map fileWrapperIterNext⟩

theorem fileSteps_stop {blocksize : Option Int} {rest : Bytes} (bound : Nat) (ends : blocksize = some 0 ∨ rest = []) :
    fileSteps blocksize (bound + 1) rest = [⟨[], .ok .stop⟩] := by
  have nothing := fileRead_eq_nil.mpr ends
  simp [fileSteps, fileReads, nothing, fileWrapperIterNext, Except.map]

theorem fileSteps_block {blocksize : Option Int} {rest : Bytes} (bound : Nat)
    (more : ¬ (blocksize = some 0 ∨ rest = [])) : fileSteps blocksize (bound + 1) rest =
      ⟨[], .ok (.bytes (fileRead blocksize rest).1)⟩ :: fileSteps blocksize bound (fileRead blocksize rest).2 := by
  have some : (fileRead blocksize rest).1 ≠ [] := fun nothing => more (fileRead_eq_nil.mp nothing)
  simp [fileSteps, fileReads, some, fileWrapperIterNext, Except.map]

/-- The blocks make up the file, unless they are empty. -/
theorem fileSteps_items {blocksize : Option Int} {bound : Nat} {rest : Bytes} (enough : rest.length < bound) :
    (bodyItems (fileSteps blocksize bound rest)).flatten = if blocksize = some 0 then [] else rest := by
  induction bound generalizing rest with
  | zero => omega
  | succ bound ih =>
    by_cases ends : blocksize = some 0 ∨ rest = []
    · rw [fileSteps_stop bound ends]
      rcases ends with zero | nothing
      · simp [bodyItems, zero]
      · simp [bodyItems, nothing]
    · have some : (fileRead blocksize rest).1 ≠ [] := fun nothing => ends (fileRead_eq_nil.mp nothing)
      have whole := fileRead_append blocksize rest
      have shorter : (fileRead blocksize rest).2.length < bound := by
        have lengths := congrArg List.length whole
        have positive := List.length_pos_iff.mpr some
        rw [List.length_append] at lengths
        omega
      have sized : blocksize ≠ Option.some 0 := fun zero => ends (Or.inl zero)
      have later := ih shorter
      rw [if_neg sized] at later
      rw [fileSteps_block bound ends, if_neg sized]
      simp [bodyItems, some, later, whole]

/-- How `wsgi_call_application` goes when everything succeeds. -/
theorem CallsMade.answers {c taken : Conn} {app : PyCall PyValue} {r : Request} {v : PyValue} {first : Option Bytes}
    {data : Bytes} (made : CallsMade c app r) (returned : app.result = .ok v)
    (take : takeRetval (c.entered r) v = .ok (taken, some first)) (started : taken.headers ≠ .null)
    (framed : encodeFirst (chooseFraming taken.toRequest).state.chunkedResponse first = some data) :
    wsgiCallApplication c app = .ok (taken.installed data, true) := by
  have entered : callStartResponses { c with headers := .null, environs := c.environs ++ [c.headers] }
      app.startResponses = .ok (c.entered r) := by
    unfold callStartResponses
    rw [show runStartResponses _ app.startResponses = .ok r from made]
    rfl
  have there : ¬ taken.headers.isNull = true := fun null => started (isNull_iff.mp null)
  unfold wsgiCallApplication
  rw [entered, ok_bind, returned]
  dsimp only
  rw [take, ok_bind]
  dsimp only
  rw [if_neg there, installResponse_def, framed]
  rfl

/-- `wsgi_call_application` succeeds with `called`, with the framing that the `start_response` calls lead to. -/
structure CalledSending (c : Conn) (r : Request) (app : PyCall PyValue) (called : Conn) : Prop where
  answers : wsgiCallApplication c app = .ok (called, true)
  header : wsgiGetheaders called.toRequest = wsgiGetheaders (chooseFraming r)
  keepAlive : called.state.keepAlive = (chooseFraming r).state.keepAlive
  chunked : called.state.chunkedResponse = false

theorem CallsMade.sends {c : Conn} {app : PyCall PyValue} {r : Request} {v : PyValue} {first : Option Bytes}
    {steps : Option PyIter} {log : List IterEvent} (made : CallsMade c app r) (returned : app.result = .ok v)
    (take : takeRetval (c.entered r) v =
      .ok ({ c.entered r with iterable := some v, iterator := steps, iterLog := log }, some first))
    (started : r.headers ≠ .null) (plain : (chooseFraming r).state.chunkedResponse = false) :
    ∃ called, CalledSending c r app called := by
  have framing := chooseFraming_iterating r (some v) steps
  have off : (chooseFraming { r with iterable := some v, iterator := steps }).state.chunkedResponse = false := by
    rw [framing]
    exact plain
  have framed : ∃ data,
      encodeFirst (chooseFraming { r with iterable := some v, iterator := steps }).state.chunkedResponse first =
        some data := by
    rw [off]
    cases first with
    | none => exact ⟨_, rfl⟩
    | some chunk => exact ⟨_, rfl⟩
  obtain ⟨data, framed⟩ := framed
  refine ⟨_, made.answers returned take started framed, ?_, ?_, off⟩
  · show wsgiGetheaders (chooseFraming { r with iterable := some v, iterator := steps }) = _
    rw [framing]
    rfl
  · show (chooseFraming { r with iterable := some v, iterator := steps }).state.keepAlive = _
    rw [framing]

theorem fileWrapperNew_descriptor {file : PyFile} {n : Nat} (numbered : file.fileno = some n) (blocksize : Option Int) :
    (fileWrapperNew file blocksize).fd ≠ -1 := by
  have fd : (fileWrapperNew file blocksize).fd = n := by simp [fileWrapperNew, numbered]
  omega

/-- With a descriptor and a known length, nothing is read. -/
theorem takeRetval_numbered {c : Conn} {wrapper : FileWrapper} (known : c.state.responseLengthUnknown = false)
    (descriptor : wrapper.fd ≠ -1) : takeRetval c (.fileWrapper wrapper) =
      .ok ({ c with iterable := some (.fileWrapper wrapper), iterator := none, iterLog := c.iterLog }, some none) := by
  have branch : retvalBranch c.toRequest (.fileWrapper wrapper) = .file :=
    retvalBranch_file.mpr ⟨by simpa [PyValue.hasDescriptor] using descriptor, known⟩
  rw [takeRetval, branch]

/-- Without a descriptor, a first block is read. -/
theorem takeRetval_unnumbered {c : Conn} {file : PyFile} (idle : c.pyErr = none) (unnumbered : file.fileno = none)
    (blocksize : Option Int) : ∃ steps first log, takeRetval c (.fileWrapper (fileWrapperNew file blocksize)) =
      .ok ({ c with
        iterable := some (.fileWrapper (fileWrapperNew file blocksize)), iterator := steps, iterLog := log },
        some first) := by
  have fd : (fileWrapperNew file blocksize).fd = -1 := by simp [fileWrapperNew, unnumbered]
  have branch : retvalBranch c.toRequest (.fileWrapper (fileWrapperNew file blocksize)) = .generic := by
    simp [retvalBranch, PyValue.hasDescriptor, fd]
  have steps : (PyValue.fileWrapper (fileWrapperNew file blocksize)).getIter =
      ⟨[], .ok (fileSteps blocksize (file.rest.length + 1) file.rest)⟩ := rfl
  rw [takeRetval, branch]
  simp only [steps, callStartResponses, runStartResponses, ok_bind, wsgiIterableGetNextChunk, Option.getD_some]
  by_cases ends : blocksize = some 0 ∨ file.rest = []
  · rw [fileSteps_stop _ ends]
    simp [nextChunkLoop, callStartResponses, runStartResponses, idle]
  · have some : (fileRead blocksize file.rest).1 ≠ [] := fun nothing => ends (fileRead_eq_nil.mp nothing)
    rw [fileSteps_block _ ends]
    simp [nextChunkLoop, callStartResponses, runStartResponses, some]

theorem CalledSending.answer_numbered {c called : Conn} {r : Request} {calls : List (List PyArg)}
    {wrapper : FileWrapper} (s : CalledSending c r ⟨calls, .ok (.fileWrapper wrapper)⟩ called)
    (descriptor : wrapper.fd ≠ -1) {pos : Nat} {R : Bytes} {keep : Bool} :
    Answer c ⟨calls, .ok (.fileWrapper wrapper)⟩ pos R keep ↔
      R = wsgiGetheaders (chooseFraming r) ++ wrapper.content.drop pos ∧ keep = (chooseFraming r).state.keepAlive := by
  rw [← s.header, ← s.keepAlive]
  constructor
  · rintro (⟨_, ⟨⟩, direct⟩ | ⟨answers, ⟨⟩, _⟩ | fails)
    · have numbered : PyValue.hasDescriptor (.fileWrapper wrapper) = true := by
        simpa [PyValue.hasDescriptor] using descriptor
      cases numbered.symm.trans direct
    · cases s.answers.symm.trans answers
      exact ⟨rfl, rfl⟩
    · cases s.answers.symm.trans fails
  · rintro ⟨rfl, rfl⟩
    exact .file s.answers rfl descriptor

theorem CalledSending.answer_unnumbered {c called : Conn} {r : Request} {calls : List (List PyArg)}
    {wrapper : FileWrapper} (s : CalledSending c r ⟨calls, .ok (.fileWrapper wrapper)⟩ called)
    (unnumbered : wrapper.fd = -1) {pos : Nat} {R : Bytes} {keep : Bool} :
    Answer c ⟨calls, .ok (.fileWrapper wrapper)⟩ pos R keep ↔
      R = wsgiGetheaders (chooseFraming r) ++ (PyValue.fileWrapper wrapper).items.flatten ∧
        keep = (chooseFraming r).state.keepAlive := by
  have whole : called.responseBytes (.fileWrapper wrapper) =
      wsgiGetheaders called.toRequest ++ (PyValue.fileWrapper wrapper).items.flatten := by
    simp [Conn.responseBytes, encodeBody, s.chunked]
  rw [← s.header, ← s.keepAlive, ← whole]
  constructor
  · rintro (⟨answers, ⟨⟩, _⟩ | ⟨_, ⟨⟩, descriptor⟩ | fails)
    · cases s.answers.symm.trans answers
      exact ⟨rfl, rfl⟩
    · exact absurd unnumbered descriptor
    · cases s.answers.symm.trans fails
  · rintro ⟨rfl, rfl⟩
    exact .items s.answers rfl (by simp [PyValue.hasDescriptor, unnumbered])

/-- What `sendfile()` takes and what the iteration reads is the same. -/
theorem drop_descriptor_eq {file : PyFile} {blocksize : Option Int} :
    file.content.drop file.descriptor = (if blocksize = some 0 then [] else file.rest) ↔
      if blocksize = some 0 then file.content.length ≤ file.descriptor else file.ahead = 0 ∨ file.rest = [] := by
  split
  next => exact List.drop_eq_nil_iff
  next =>
    constructor
    · intro same
      have lengths := congrArg List.length same
      rw [PyFile.rest, List.drop_eq_nil_iff]
      simp only [PyFile.rest, PyFile.descriptor, List.length_drop] at lengths
      omega
    · rintro (none | nothing)
      · rw [PyFile.descriptor, none, Nat.add_zero]
        rfl
      · have short := List.drop_eq_nil_iff.mp nothing
        rw [nothing, PyFile.descriptor, List.drop_eq_nil_iff]
        omega

/-- A file is answered with the same bytes whether `sendfile()` takes it from its descriptor or the server reads it
block by block, unless a buffer has taken bytes from the descriptor that are still to be read. In blocks of size 0
only the header block is sent. -/
theorem file_routes_agree {c : Conn} {r : Request} {calls : List (List PyArg)} {file : PyFile} {n : Nat}
    {blocksize : Option Int} (idle : c.pyErr = none) (reset : c.state.chunkedResponse = false)
    (made : CallsMade c ⟨calls, .ok (.fileWrapper (fileWrapperNew file blocksize))⟩ r) (started : r.headers ≠ .null)
    (known : r.state.responseLengthUnknown = false) (numbered : file.fileno = some n) :
    (∀ R keep, Answer c ⟨calls, .ok (.fileWrapper (fileWrapperNew file blocksize))⟩ file.descriptor R keep ↔
      Answer c ⟨calls, .ok (.fileWrapper (fileWrapperNew { file with fileno := none } blocksize))⟩
        file.descriptor R keep) ↔
      if blocksize = some 0 then file.content.length ≤ file.descriptor else file.ahead = 0 ∨ file.rest = [] := by
  have plain : (chooseFraming r).state.chunkedResponse = false :=
    (chooseFraming_known known).trans (made.frame.chunkedResponse.trans reset)
  have descriptor := fileWrapperNew_descriptor numbered blocksize
  obtain ⟨_, direct⟩ := made.sends rfl (takeRetval_numbered (c := c.entered r) known descriptor) started plain
  have made' : CallsMade c ⟨calls, .ok (.fileWrapper (fileWrapperNew { file with fileno := none } blocksize))⟩ r := made
  have unnumbered : PyFile.fileno { file with fileno := none } = none := rfl
  have idle' : (c.entered r).pyErr = none := idle
  obtain ⟨steps, first, log, take⟩ := takeRetval_unnumbered idle' unnumbered blocksize
  obtain ⟨_, blocks⟩ := made'.sends rfl take started plain
  have items : (PyValue.fileWrapper (fileWrapperNew { file with fileno := none } blocksize)).items.flatten =
      if blocksize = some 0 then [] else file.rest := fileSteps_items (Nat.lt_succ_self _)
  have content : (fileWrapperNew file blocksize).content = file.content := rfl
  simp only [direct.answer_numbered descriptor, blocks.answer_unnumbered rfl, items, content]
  rw [← drop_descriptor_eq]
  constructor
  · intro agree
    exact List.append_cancel_left ((agree _ _).mp ⟨rfl, rfl⟩).1
  · intro same R keep
    rw [same]

/-- A file of which the first two bytes are read already, and `ahead` more from its descriptor. -/
def openFile (ahead : Nat) : PyFile := ⟨some 3, ascii "hello", 2, ahead, .returns⟩

def RoutesAgree (file : PyFile) (blocksize : Int) : Prop :=
  ∀ R keep, Answer freshConn ⟨[lengthArgs], .ok (.fileWrapper (fileWrapperNew file (some blocksize)))⟩
      file.descriptor R keep ↔
    Answer freshConn ⟨[lengthArgs], .ok (.fileWrapper (fileWrapperNew { file with fileno := none } (some blocksize)))⟩
      file.descriptor R keep

/-- Without a buffer, in blocks of two bytes the file is read to its end, and in blocks of no bytes not at all. With a
buffer, what is in it is read only in blocks. -/
theorem file_routes_agree_blocks :
    RoutesAgree (openFile 0) 2 ∧ ¬ RoutesAgree (openFile 0) 0 ∧ ¬ RoutesAgree (openFile 3) 2 := by
  have made : ∀ ahead blocksize, CallsMade freshConn
      ⟨[lengthArgs], .ok (.fileWrapper (fileWrapperNew (openFile ahead) (some blocksize)))⟩ _ := fun _ _ => rfl
  have agree : ∀ ahead blocksize, RoutesAgree (openFile ahead) blocksize ↔ _ := fun ahead blocksize =>
    file_routes_agree rfl rfl (made ahead blocksize) (fun null => Bool.false_ne_true (isNull_iff.mpr null)) rfl rfl
  refine ⟨(agree 0 2).mpr (by decide), fun h => ?_, fun h => ?_⟩
  · exact absurd ((agree 0 0).mp h) (by decide)
  · exact absurd ((agree 3 2).mp h) (by decide)

end Bjoern
