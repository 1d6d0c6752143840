import Bjoern.ChunkDecoding
import Bjoern.Separators

namespace HttpReading

open ChunkedCoding Separators

/-- A response as a client takes it apart. -/
structure Response where
  line : List UInt8
  fields : List (List UInt8 × List UInt8)
  body : List UInt8
  deriving DecidableEq

/-- The lines before the first empty one, and what is behind that. -/
def takeLines : Nat → List UInt8 → Option (List (List UInt8) × List UInt8)
  | 0, _ => none
  | fuel + 1, s =>
    match cut 13 10 s with
    | some ([], rest) => some ([], rest)
    | some (line, rest) => (takeLines fuel rest).map fun parts => (line :: parts.1, parts.2)
    | none => none

/-- The data of the chunks before the first empty one, and what is behind that. -/
def takeChunks : Nat → List UInt8 → Option (List UInt8 × List UInt8)
  | 0, _ => none
  | fuel + 1, s =>
    match decodeChunk s with
    | some ([], rest) => some ([], rest)
    | some (data, rest) => (takeChunks fuel rest).map fun parts => (data ++ parts.1, parts.2)
    | none => none

def lower (c : UInt8) : UInt8 := if 65 ≤ c ∧ c ≤ 90 then c + 32 else c

/-- The value of the first field of a name, which is given in lower case. -/
def fieldValue (name : List UInt8) (fields : List (List UInt8 × List UInt8)) : Option (List UInt8) :=
  (fields.find? fun f => f.1.map lower = name).map Prod.snd

def decimal (s : List UInt8) : Option Nat :=
  if s.isEmpty = false ∧ s.all (fun c => 48 ≤ c ∧ c ≤ 57) = true then
    some (s.foldl (fun n c => 10 * n + (c.toNat - 48)) 0)
  else none

/-- The three digits behind `HTTP/1.1 `. -/
def statusCode (line : List UInt8) : List UInt8 := (line.drop 9).take 3

/-- The status code begins with 1. -/
def Informational (line : List UInt8) : Prop := (statusCode line).head? = some 49

instance (line : List UInt8) : Decidable (Informational line) := inferInstanceAs (Decidable (_ = _))

/-- The status of a response without a body: one that begins with 1, 204 and 304. -/
def Bodyless (line : List UInt8) : Prop :=
  Informational line ∨ statusCode line = [50, 48, 52] ∨ statusCode line = [51, 48, 52]

instance (line : List UInt8) : Decidable (Bodyless line) := inferInstanceAs (Decidable (_ ∨ _))

/-- Where the body of a response ends. -/
inductive BodyEnd
  | empty
  | chunked
  | length (n : Nat)
  | close
  deriving DecidableEq

def transferEncoding : List UInt8 := [116, 114, 97, 110, 115, 102, 101, 114, 45, 101, 110, 99, 111, 100, 105, 110, 103]

def contentLength : List UInt8 := [99, 111, 110, 116, 101, 110, 116, 45, 108, 101, 110, 103, 116, 104]

def chunkedCoding : List UInt8 := [99, 104, 117, 110, 107, 101, 100]

/-- How the end of a body is found; `head` tells that the request was a `HEAD`. -/
def bodyEnd (head : Bool) (line : List UInt8) (fields : List (List UInt8 × List UInt8)) : BodyEnd :=
  if head = true ∨ Bodyless line then .empty
  else if fieldValue transferEncoding fields = some chunkedCoding then .chunked
  else
    match (fieldValue contentLength fields).bind decimal with
    | some n => .length n
    | none => .close

def readBody : BodyEnd → List UInt8 → Option (List UInt8 × List UInt8)
  | .empty, s => some ([], s)
  | .chunked, s => takeChunks (s.length + 1) s
  | .length n, s => if n ≤ s.length then some (s.take n, s.drop n) else none
  | .close, s => some (s, [])

/-- The first response of a stream, and what follows it. -/
def readResponse (head : Bool) (s : List UInt8) : Option (Response × List UInt8) :=
  match takeLines (s.length + 1) s with
  | some (line :: more, rest) => do
    let fields ← more.mapM (cut 58 32)
    let (body, rest) ← readBody (bodyEnd head line fields) rest
    pure (⟨line, fields, body⟩, rest)
  | _ => none

/-- The first response that is not an interim one. -/
def readFinal : Nat → Bool → List UInt8 → Option (Response × List UInt8)
  | 0, _, _ => none
  | fuel + 1, head, s =>
    match readResponse head s with
    | some (response, rest) => if Informational response.line then readFinal fuel head rest else some (response, rest)
    | none => none

/-- The responses to some requests, for each of which it is known whether it was a `HEAD`. -/
def readResponses : List Bool → List UInt8 → Option (List Response × List UInt8)
  | [], s => some ([], s)
  | head :: heads, s => do
    let (response, rest) ← readFinal (s.length + 1) head s
    let (responses, rest) ← readResponses heads rest
    pure (response :: responses, rest)

/-- A header block, its lines each with their end. -/
def headBlock (line : List UInt8) (fields : List (List UInt8 × List UInt8)) : List UInt8 :=
  (line :: fields.map fun f => f.1 ++ 58 :: 32 :: f.2).flatMap (fun line => line ++ crlf) ++ crlf

/-- The parts of a header block hold nothing that looks like one of its seams. -/
structure Plain (line : List UInt8) (fields : List (List UInt8 × List UInt8)) : Prop where
  full : line ≠ []
  line : Free 13 10 line
  lines : ∀ f ∈ fields, Free 13 10 (f.1 ++ 58 :: 32 :: f.2)
  names : ∀ f ∈ fields, Free 58 32 f.1

theorem takeLines_block {lines : List (List UInt8)} (full : ∀ line ∈ lines, line ≠ [])
    (free : ∀ line ∈ lines, Free 13 10 line) (rest : List UInt8) {fuel : Nat} (enough : lines.length < fuel) :
    takeLines fuel (lines.flatMap (fun line => line ++ crlf) ++ crlf ++ rest) = some (lines, rest) := by
  induction lines generalizing fuel with
  | nil =>
    obtain ⟨fuel, rfl⟩ := Nat.exists_eq_add_of_lt enough
    have first : cut (α := UInt8) 13 10 (crlf ++ rest) = some ([], rest) := cut_append (by decide) free_nil rest
    simp only [List.flatMap_nil, List.nil_append, takeLines, first]
  | cons line lines ih =>
    obtain ⟨fuel, rfl⟩ := Nat.exists_eq_add_of_lt enough
    have more := ih (fun l member => full l (List.mem_cons_of_mem _ member))
      (fun l member => free l (List.mem_cons_of_mem _ member))
      (show lines.length < (line :: lines).length + fuel by simp; omega)
    have shape : (line :: lines).flatMap (fun line => line ++ crlf) ++ crlf ++ rest =
        line ++ 13 :: 10 :: (lines.flatMap (fun line => line ++ crlf) ++ crlf ++ rest) := by simp [crlf]
    rw [shape, takeLines, cut_append (by decide) (free line List.mem_cons_self)]
    cases line with
    | nil => exact absurd rfl (full [] List.mem_cons_self)
    | cons c line =>
      dsimp only
      rw [more]
      rfl

theorem decodeChunk_terminator (rest : List UInt8) : decodeChunk (terminator ++ rest) = some ([], rest) :=
  decodeChunk_chunk [] rest

theorem chunks_length (items : List (List UInt8)) : items.length ≤ (chunks items).length := by
  induction items with
  | nil => exact Nat.zero_le _
  | cons item items ih =>
    have long : 0 < (chunk item).length := by
      simp only [chunk, crlf, List.length_append, List.length_cons]
      omega
    rw [chunks_cons, List.length_append, List.length_cons]
    omega

theorem takeChunks_chunks {items : List (List UInt8)} (full : ∀ item ∈ items, item ≠ []) (rest : List UInt8)
    {fuel : Nat} (enough : items.length < fuel) :
    takeChunks fuel (chunks items ++ terminator ++ rest) = some (items.flatten, rest) := by
  induction items generalizing fuel with
  | nil =>
    obtain ⟨fuel, rfl⟩ := Nat.exists_eq_add_of_lt enough
    simp only [chunks_nil, List.nil_append, takeChunks, decodeChunk_terminator, List.flatten_nil]
  | cons item items ih =>
    obtain ⟨fuel, rfl⟩ := Nat.exists_eq_add_of_lt enough
    have more := ih (fun i member => full i (List.mem_cons_of_mem _ member))
      (show items.length < (item :: items).length + fuel by simp; omega)
    rw [chunks_cons, List.append_assoc, List.append_assoc, takeChunks, decodeChunk_chunk, ← List.append_assoc]
    cases item with
    | nil => exact absurd rfl (full [] List.mem_cons_self)
    | cons c item =>
      dsimp only
      rw [more]
      rfl

theorem cutFields {fields : List (List UInt8 × List UInt8)} (free : ∀ f ∈ fields, Free 58 32 f.1) :
    (fields.map fun f => f.1 ++ 58 :: 32 :: f.2).mapM (cut 58 32) = some fields := by
  induction fields with
  | nil => rfl
  | cons f fields ih =>
    rw [List.map_cons, List.mapM_cons, cut_append (by decide) (free f List.mem_cons_self),
      ih fun f member => free f (List.mem_cons_of_mem _ member)]
    rfl

theorem lines_length (lines : List (List UInt8)) :
    lines.length ≤ (lines.flatMap fun line => line ++ crlf).length := by
  induction lines with
  | nil => exact Nat.zero_le _
  | cons line lines ih =>
    have long : crlf.length = 2 := rfl
    rw [List.flatMap_cons, List.length_append, List.length_append, List.length_cons]
    omega

/-- What is written as a header block with a body behind it is read back, up to what follows. -/
theorem readResponse_written {head : Bool} {line : List UInt8} {fields : List (List UInt8 × List UInt8)}
    {encoded body rest : List UInt8} (plain : Plain line fields)
    (ends : readBody (bodyEnd head line fields) (encoded ++ rest) = some (body, rest)) :
    readResponse head (headBlock line fields ++ encoded ++ rest) = some (⟨line, fields, body⟩, rest) := by
  have full : ∀ l ∈ line :: fields.map fun f => f.1 ++ 58 :: 32 :: f.2, l ≠ [] := by
    intro l member
    rcases List.mem_cons.mp member with rfl | member
    · exact plain.full
    · obtain ⟨f, _, rfl⟩ := List.mem_map.mp member
      simp
  have free : ∀ l ∈ line :: fields.map fun f => f.1 ++ 58 :: 32 :: f.2, Free 13 10 l := by
    intro l member
    rcases List.mem_cons.mp member with rfl | member
    · exact plain.line
    · obtain ⟨f, among, rfl⟩ := List.mem_map.mp member
      exact plain.lines f among
  have lines : takeLines ((headBlock line fields ++ (encoded ++ rest)).length + 1)
      (headBlock line fields ++ (encoded ++ rest)) =
        some (line :: fields.map fun f => f.1 ++ 58 :: 32 :: f.2, encoded ++ rest) := by
    refine takeLines_block full free (encoded ++ rest) ?_
    have short := lines_length (line :: fields.map fun f => f.1 ++ 58 :: 32 :: f.2)
    rw [headBlock, List.length_append, List.length_append]
    omega
  rw [List.append_assoc, readResponse, lines]
  dsimp only
  rw [cutFields plain.names]
  simp only [Option.bind_eq_bind, Option.bind_some, ends]
  rfl

/-- The body of a response whose chunks are none of them empty. -/
theorem readBody_chunked {items : List (List UInt8)} (full : ∀ item ∈ items, item ≠ []) (rest : List UInt8) :
    readBody .chunked (chunks items ++ terminator ++ rest) = some (items.flatten, rest) := by
  refine takeChunks_chunks full rest ?_
  have short := chunks_length items
  rw [List.length_append, List.length_append]
  omega

theorem readBody_length (body rest : List UInt8) :
    readBody (.length body.length) (body ++ rest) = some (body, rest) := by
  rw [readBody, if_pos (by simp), List.take_left, List.drop_left]

/-- A client reads over the responses that are not final. -/
theorem readFinal_behind {interim : List UInt8} {skipped response : Response} {head : Bool} {s rest : List UInt8}
    {k : Nat} (skips : ∀ rest, readResponse head (interim ++ rest) = some (skipped, rest))
    (first : Informational skipped.line)
    (found : readResponse head s = some (response, rest)) (final : ¬ Informational response.line)
    {fuel : Nat} (enough : k < fuel) :
    readFinal fuel head ((List.replicate k interim).flatten ++ s) = some (response, rest) := by
  induction k generalizing fuel with
  | zero =>
    obtain ⟨fuel, rfl⟩ := Nat.exists_eq_add_of_lt enough
    have direct : (List.replicate 0 interim).flatten ++ s = s := rfl
    rw [direct, readFinal, found]
    exact if_neg final
  | succ k ih =>
    obtain ⟨fuel, rfl⟩ := Nat.exists_eq_add_of_lt enough
    have more := ih (show k < k + 1 + fuel by omega)
    rw [List.replicate_succ, List.flatten_cons, List.append_assoc, readFinal, skips]
    exact (if_pos first).trans more

theorem readResponses_cons {head : Bool} {heads : List Bool} {s rest left : List UInt8} {response : Response}
    {responses : List Response} (first : readFinal (s.length + 1) head s = some (response, rest))
    (others : readResponses heads rest = some (responses, left)) :
    readResponses (head :: heads) s = some (response :: responses, left) := by
  rw [readResponses, first]
  simp only [Option.bind_eq_bind, Option.bind_some, others]
  rfl

end HttpReading
