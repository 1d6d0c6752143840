import Bjoern.FragmentedRequests
import Bjoern.UnquoteUrl

namespace Bjoern

open Runs PercentCoding

/-- What `on_path` takes of a piece is its percent-decoding. -/
theorem decodePath_eq {piece : Bytes} (nonempty : piece ≠ []) : decodePath piece = decode piece := by
  obtain ⟨result, n, call, spec⟩ := @unquoteUrlInplace_spec piece piece.length (Nat.le_refl _)
  rw [List.take_length] at spec
  unfold decodePath
  rw [call]
  cases decodes : decode piece with
  | none => simp [spec.malformed decodes]
  | some d =>
    obtain ⟨rfl, taken⟩ := spec.result decodes
    have some : d.length ≠ 0 := fun empty => decode_ne_nil nonempty decodes (List.length_eq_zero_iff.mp empty)
    simp [some, taken]

theorem addPath_cons {d : Environ} {piece path : Bytes} (decodes : decodePath piece = some path) (rest : List Bytes) :
    addPath d (piece :: rest) = addPath (setOrAppendHeader (ascii "PATH_INFO") path d) rest := by
  rw [addPath, decodes]

/-- What later pieces put behind the path so far. -/
theorem addPath_more (d : Environ) (path : Bytes) {pieces : List Bytes}
    (whole : ∀ piece ∈ pieces, piece ≠ [] ∧ WellFormed piece) : ∃ s, Encodes pieces.flatten s ∧
      addPath (setOrAppendHeader (ascii "PATH_INFO") path d) pieces =
        some (setOrAppendHeader (ascii "PATH_INFO") (path ++ s) d) := by
  induction pieces generalizing path with
  | nil => exact ⟨[], .nil, by rw [List.append_nil]; rfl⟩
  | cons piece rest ih =>
    obtain ⟨nonempty, formed⟩ := whole piece (by simp)
    obtain ⟨s, hs⟩ := wellFormed_iff.mp formed
    obtain ⟨t, ht, more⟩ := ih (path ++ s) fun piece member => whole piece (List.mem_cons_of_mem _ member)
    refine ⟨s ++ t, hs.append ht, ?_⟩
    rw [addPath_cons (by rw [decodePath_eq nonempty, hs.decode_eq]), setOrAppendHeader_append, more, List.append_assoc]

/-- Pieces that are well-formed each leave the decoding of the whole path. -/
theorem addPath_decoded {pieces : List Bytes} (delivered : pieces ≠ [])
    (whole : ∀ piece ∈ pieces, piece ≠ [] ∧ WellFormed piece) : ∃ s, Encodes pieces.flatten s ∧
      addPath .empty pieces = some (setOrAppendHeader (ascii "PATH_INFO") s .empty) := by
  obtain ⟨piece, rest, rfl⟩ := List.exists_cons_of_ne_nil delivered
  obtain ⟨nonempty, formed⟩ := whole piece (by simp)
  obtain ⟨s, hs⟩ := wellFormed_iff.mp formed
  obtain ⟨t, ht, more⟩ := addPath_more .empty s fun piece member =>
    whole piece (List.mem_cons_of_mem _ member)
  exact ⟨s ++ t, hs.append ht, by rw [addPath_cons (by rw [decodePath_eq nonempty, hs.decode_eq]), more]⟩

theorem wellFormed_of_addPath {d d' : Environ} {pieces : List Bytes} (nonempty : ∀ piece ∈ pieces, piece ≠ [])
    (h : addPath d pieces = some d') : ∀ piece ∈ pieces, WellFormed piece := by
  induction pieces generalizing d with
  | nil => simp
  | cons piece rest ih =>
    unfold addPath at h
    split at h
    next path decodes =>
      rw [decodePath_eq (nonempty piece (by simp))] at decodes
      rintro part (_ | ⟨_, member⟩)
      · exact (encodes_of_decode decodes).wellFormed
      · exact ih (fun piece member => nonempty piece (List.mem_cons_of_mem _ member)) h part member
    next => cases h

/-- The callbacks for a path that comes in the pieces `pieces`, from a request that was reset. -/
theorem runCallbacks_path (base : Environ) {r : Request} {pieces : List Bytes} {fired : List (HttpParser × Callback)}
    (reset : requestReset r = r) (hf : fired.map Prod.snd = .messageBegin :: pieces.map .path) :
    match addPath .empty pieces with
    | some d => (runCallbacks base r fired).2 = true ∧ (runCallbacks base r fired).1.headers = .environ d
    | none => (runCallbacks base r fired).2 = false := by
  obtain ⟨⟨parser, callback⟩, walked, rfl, rfl, hp⟩ := List.map_eq_cons_iff.mp hf
  obtain ⟨r₁, step, in₁, _⟩ := begin_step base True reset parser
  split
  next d decodes =>
    obtain ⟨r₂, run, in₂⟩ := in₁.path_run base True decodes hp
    rw [runCallbacks_of_run (.cons step run)]
    exact ⟨rfl, in₂.headers⟩
  next fails =>
    obtain ⟨r₂, stops, _⟩ := in₁.path_stops base fails hp []
    rw [List.append_nil] at stops
    simp only [runCallbacks, step.1, stops]

/-- The path is decoded as a whole: all callbacks return 0 and leave its percent-decoding in `PATH_INFO`, or one
does not because an escape in it is malformed. -/
def DecodesPath (base : Environ) (r : Request) (path : Bytes) (fired : List (HttpParser × Callback)) : Prop :=
  (WellFormed path → (runCallbacks base r fired).2 = true ∧ ∃ s, decode path = some s ∧
    (runCallbacks base r fired).1.headers.getItem (ascii "PATH_INFO") = some (.str s)) ∧
  (¬ WellFormed path → (runCallbacks base r fired).2 = false)

/-- A path is decoded as a whole if and only if it is malformed or no cut between its pieces falls inside an escape. -/
theorem path_of_pieces (base : Environ) {r : Request} {pieces : List Bytes} {fired : List (HttpParser × Callback)}
    (reset : requestReset r = r) (delivered : pieces ≠ []) (nonempty : ∀ piece ∈ pieces, piece ≠ [])
    (hf : fired.map Prod.snd = .messageBegin :: pieces.map .path) :
    DecodesPath base r pieces.flatten fired ↔ (WellFormed pieces.flatten → CutsWhole pieces) := by
  have result := runCallbacks_path base reset hf
  constructor
  · rintro ⟨completes, _⟩ formed
    rw [← wellFormed_pieces_iff formed]
    cases decodes : addPath .empty pieces with
    | some d => exact wellFormed_of_addPath nonempty decodes
    | none =>
      rw [decodes] at result
      cases (completes formed).1.symm.trans result
  · intro cuts
    constructor
    · intro formed
      have whole := (wellFormed_pieces_iff formed).mpr (cuts formed)
      obtain ⟨s, hs, decodes⟩ := addPath_decoded delivered fun piece member =>
        ⟨nonempty piece member, whole piece member⟩
      rw [decodes] at result
      refine ⟨result.1, s, hs.decode_eq, ?_⟩
      rw [result.2]
      rfl
    · intro malformed
      cases decodes : addPath .empty pieces with
      | some d =>
        obtain ⟨s, hs⟩ := encodes_flatten (wellFormed_of_addPath nonempty decodes)
        exact absurd hs.wellFormed malformed
      | none =>
        rw [decodes] at result
        exact result

/-- `/a%41/%42` in pieces that end before and behind an escape. -/
theorem path_of_pieces_apart : DecodesPath .empty freshRequest (ascii "/a%41/%42")
    [(http11Post, .messageBegin), (http11Post, .path (ascii "/a")), (http11Post, .path (ascii "%41")),
      (http11Post, .path (ascii "/%42"))] := by
  have nonempty : ∀ piece ∈ [ascii "/a", ascii "%41", ascii "/%42"], piece ≠ [] := by decide
  have pieces : ∀ piece ∈ [ascii "/a", ascii "%41", ascii "/%42"], WellFormed piece := by
    have first : WellFormed (ascii "/a") := wellFormed_iff.mpr ⟨ascii "/a", encodes_of_decode (by decide)⟩
    have second : WellFormed (ascii "%41") := wellFormed_iff.mpr ⟨ascii "A", encodes_of_decode (by decide)⟩
    have third : WellFormed (ascii "/%42") := wellFormed_iff.mpr ⟨ascii "/B", encodes_of_decode (by decide)⟩
    simp [first, second, third]
  exact (path_of_pieces .empty rfl (by simp) nonempty rfl).mpr fun whole => (wellFormed_pieces_iff whole).mp pieces

/-- The end of a read between the `%` and its digits. -/
theorem path_cut_in_escape : WellFormed (ascii "/%41") ∧ ¬ DecodesPath .empty freshRequest (ascii "/%41")
    [(http11Post, .messageBegin), (http11Post, .path (ascii "/%")), (http11Post, .path (ascii "41"))] := by
  have formed : WellFormed (ascii "/%41") := wellFormed_iff.mpr ⟨ascii "/A", encodes_of_decode (by decide)⟩
  refine ⟨formed, fun decodes => ?_⟩
  have completes := (decodes.1 formed).1
  revert completes
  decide

end Bjoern
