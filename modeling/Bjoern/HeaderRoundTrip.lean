import Bjoern.ResponseHeaders
import Bjoern.Separators

namespace Bjoern

open Separators

abbrev lines (s : Bytes) : List Bytes := pieces (charByte '\r') (charByte '\n') s

abbrev cutHeader (line : Bytes) : Option (Bytes × Bytes) := cut (charByte ':') (charByte ' ') line

/-- A header block as its reader takes it apart: the lines before the first empty one, the first of them
whole and the others cut at their first `: `. -/
def readHead (block : Bytes) : Option (Bytes × List (Bytes × Bytes)) :=
  match (lines block).takeWhile (· ≠ []) with
  | status :: rest => (rest.mapM cutHeader).map (status, ·)
  | [] => none

/-- Reading the header block gives back what it was made from. -/
def RoundTrips (r : Request) : Prop :=
  readHead (wsgiGetheaders r) = some (statusLine r, r.headers.responseFields ++ serverFields r)

abbrev NoLineBreak (s : Bytes) : Prop := Free (charByte '\r') (charByte '\n') s

abbrev NoColon (s : Bytes) : Prop := Free (charByte ':') (charByte ' ') s

/-- Nothing in the status and the headers looks like a part of the block around them. -/
structure Unambiguous (r : Request) : Prop where
  status : NoLineBreak (r.status.getD [])
  names : ∀ h ∈ r.headers.responseFields, NoLineBreak h.1 ∧ NoColon h.1
  values : ∀ h ∈ r.headers.responseFields, NoLineBreak h.2

instance (x y : UInt8) (s : Bytes) : Decidable (Free x y s) := inferInstanceAs (Decidable (¬ _))

theorem statusLine_noLineBreak {r : Request} : NoLineBreak (statusLine r) ↔ NoLineBreak (r.status.getD []) := by
  constructor
  · intro free
    exact free.part (List.suffix_append _ _).isInfix
  · intro free
    refine Free.append (by decide) free (fun ends => ?_)
    exact absurd ends (by decide)

theorem headerLine_noLineBreak {h : Bytes × Bytes} :
    NoLineBreak (headerLine h) ↔ NoLineBreak h.1 ∧ NoLineBreak h.2 := by
  constructor
  · intro free
    exact ⟨free.part ⟨[], ascii ": " ++ h.2, by simp [headerLine]⟩, free.part (List.suffix_append _ _).isInfix⟩
  · rintro ⟨name, value⟩
    refine Free.append (Free.append name (by decide) (fun _ => by decide)) value (fun ends => ?_)
    rw [List.getLast?_append_of_ne_nil _ (by decide)] at ends
    exact absurd ends (by decide)

theorem headerLine_cut {h : Bytes × Bytes} (free : NoColon h.1) : cutHeader (headerLine h) = some h := by
  have split : headerLine h = h.1 ++ charByte ':' :: charByte ' ' :: h.2 := by
    rw [headerLine, List.append_assoc]
    rfl
  rw [cutHeader, split, cut_append (by decide) free]

theorem headerLines_cut {fields : List (Bytes × Bytes)} (free : ∀ h ∈ fields, NoColon h.1) :
    (fields.map headerLine).mapM cutHeader = some fields := by
  induction fields with
  | nil => rfl
  | cons h rest ih =>
    rw [List.map_cons, List.mapM_cons, headerLine_cut (free h List.mem_cons_self),
      ih (fun h member => free h (List.mem_cons_of_mem _ member))]
    rfl

theorem serverFields_unambiguous (r : Request) :
    ∀ h ∈ serverFields r, (NoLineBreak h.1 ∧ NoLineBreak h.2) ∧ NoColon h.1 := by
  unfold serverFields
  split
  next =>
    split
    next => decide
    next => decide
  next => decide

theorem Unambiguous.roundTrips {r : Request} (h : Unambiguous r) : RoundTrips r := by
  have fields : ∀ f ∈ r.headers.responseFields ++ serverFields r,
      (NoLineBreak f.1 ∧ NoLineBreak f.2) ∧ NoColon f.1 := by
    intro f member
    rcases List.mem_append.mp member with app | server
    · exact ⟨⟨(h.names f app).1, h.values f app⟩, (h.names f app).2⟩
    · exact serverFields_unambiguous r f server
  have split : lines (wsgiGetheaders r) =
      statusLine r :: ((r.headers.responseFields ++ serverFields r).map headerLine ++ [[], []]) := by
    have free : ∀ line ∈ (r.headers.responseFields ++ serverFields r).map headerLine, NoLineBreak line := by
      intro line member
      obtain ⟨f, among, rfl⟩ := List.mem_map.mp member
      exact headerLine_noLineBreak.mpr (fields f among).1
    have parts := pieces_lines (by decide) (statusLine_noLineBreak.mpr h.status) free
    rw [List.flatMap_map] at parts
    rw [wsgiGetheaders_eq]
    exact parts
  have full : ∀ line ∈ statusLine r :: (r.headers.responseFields ++ serverFields r).map headerLine, line ≠ [] := by
    intro line member
    rcases List.mem_cons.mp member with rfl | among
    · simp [statusLine, ascii]
    · obtain ⟨f, _, rfl⟩ := List.mem_map.mp among
      simp [headerLine, ascii]
  have head : (lines (wsgiGetheaders r)).takeWhile (· ≠ []) =
      statusLine r :: (r.headers.responseFields ++ serverFields r).map headerLine := by
    rw [split, ← List.cons_append, List.takeWhile_append_of_pos (by simpa using full)]
    simp
  rw [RoundTrips, readHead, head]
  dsimp only
  rw [headerLines_cut (fun f member => (fields f member).2)]
  rfl

theorem option_mapM_mem {α β : Type} {f : α → Option β} {xs : List α} {ys : List β} (h : xs.mapM f = some ys) {y : β}
    (member : y ∈ ys) : ∃ x ∈ xs, f x = some y := by
  induction xs generalizing ys with
  | nil =>
    cases h
    cases member
  | cons x xs ih =>
    rw [List.mapM_cons] at h
    obtain ⟨first, hx, h⟩ := Option.bind_eq_some_iff.mp h
    obtain ⟨rest, hr, h⟩ := Option.bind_eq_some_iff.mp h
    cases h
    rcases List.mem_cons.mp member with rfl | later
    · exact ⟨x, List.mem_cons_self, hx⟩
    · obtain ⟨x', among, hx'⟩ := ih hr later
      exact ⟨x', List.mem_cons_of_mem _ among, hx'⟩

/-- What is read from a header block is free of separators, whatever was written. -/
theorem readHead_free {block status : Bytes} {fields : List (Bytes × Bytes)}
    (h : readHead block = some (status, fields)) :
    NoLineBreak status ∧ ∀ f ∈ fields, (NoLineBreak f.1 ∧ NoLineBreak f.2) ∧ NoColon f.1 := by
  unfold readHead at h
  split at h
  next first rest head =>
    have free : ∀ line ∈ first :: rest, NoLineBreak line := by
      intro line member
      rw [← head] at member
      exact pieces_free (List.takeWhile_subset _ member)
    obtain ⟨read, cuts, eq⟩ := Option.map_eq_some_iff.mp h
    cases eq
    refine ⟨free _ List.mem_cons_self, fun f member => ?_⟩
    obtain ⟨line, among, hc⟩ := option_mapM_mem cuts member
    obtain ⟨split, noColon⟩ := cut_eq_some hc
    have whole : line = headerLine f := by
      rw [split, headerLine, List.append_assoc]
      rfl
    have line_free := free line (List.mem_cons_of_mem _ among)
    rw [whole] at line_free
    exact ⟨headerLine_noLineBreak.mp line_free, noColon⟩
  next => cases h

/-- The block can be taken apart exactly when its parts hold nothing that looks like one of its seams:
`start_response` looks at the types of the status, names and values only. -/
theorem header_block_round_trips (r : Request) : RoundTrips r ↔ Unambiguous r := by
  constructor
  · intro h
    obtain ⟨status, fields⟩ := readHead_free h
    have app : ∀ f ∈ r.headers.responseFields, (NoLineBreak f.1 ∧ NoLineBreak f.2) ∧ NoColon f.1 :=
      fun f member => fields f (List.mem_append_left _ member)
    exact ⟨statusLine_noLineBreak.mp status, fun f member => ⟨(app f member).1.1, (app f member).2⟩,
      fun f member => (app f member).1.2⟩
  · exact Unambiguous.roundTrips

def brokenArgs : List PyArg :=
  [.str [50, 48, 48], .list [.tuple [.str ((ascii "A").map UInt8.toNat), .str ((ascii "b\r\nC: d").map UInt8.toNat)]]]

/-- A value with a line break in it is accepted and becomes two headers. -/
theorem header_injected : ∃ r, startResponse freshRequest brokenArgs = .ok (r, true) ∧
    r.headers.responseFields = [(ascii "A", ascii "b\r\nC: d")] ∧
    readHead (wsgiGetheaders r) =
      some (statusLine r, [(ascii "A", ascii "b"), (ascii "C", ascii "d")] ++ serverFields r) ∧ ¬ RoundTrips r := by
  have split : readHead (wsgiGetheaders { freshRequest with
      status := some [50, 48, 48], headers := .response [(ascii "A", ascii "b\r\nC: d")],
      state.responseLengthUnknown := true, state.startResponseCalled := true }) =
      some (ascii "HTTP/1.1 200", [(ascii "A", ascii "b"), (ascii "C", ascii "d"),
        (ascii "Connection", ascii "close")]) := by
    decide
  refine ⟨_, rfl, rfl, split, fun same => ?_⟩
  have clash := split.symm.trans same
  exact absurd clash (by decide)

end Bjoern
