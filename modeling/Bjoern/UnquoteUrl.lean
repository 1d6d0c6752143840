import Bjoern.Common
import Bjoern.PercentCoding

namespace Bjoern

open PercentCoding

/-- An access of `unquote_url_inplace` to its buffer. -/
inductive Access
  | read (position : Nat)
  | write (position : Nat)
  deriving DecidableEq

def Access.position : Access → Nat
  | .read position => position
  | .write position => position

/-- `unquoteLoop` together with the accesses that it makes, in order. -/
def unquoteTraced : Nat → Bytes → Nat → Nat → Nat → Nat → List Access × Option (Bytes × Nat)
  | 0, _, _, _, _, _ => ([], none)
  | fuel + 1, buf, url, p, stop, len =>
    if url = stop then ([], some (buf, len))
    else if buf.getD url 0 = charByte '%' then
      if stop ≤ url + 2 then ([.read url], some (buf, 0))
      else
        match unhex (buf.getD (url + 1) 0), unhex (buf.getD (url + 2) 0) with
        | some a, some b =>
          let (accesses, result) := unquoteTraced fuel (buf.set p (a * 16 + b)) (url + 3) (p + 1) stop (len - 2)
          ([.read url, .read (url + 1), .read (url + 2), .write p] ++ accesses, result)
        | _, _ => ([.read url, .read (url + 1), .read (url + 2)], some (buf, 0))
    else
      let (accesses, result) := unquoteTraced fuel (buf.set p (buf.getD url 0)) (url + 1) (p + 1) stop len
      ([.read url, .read url, .write p] ++ accesses, result)

/-- The accesses of a call of `unquote_url_inplace`. -/
def unquoteAccesses (url : Bytes) (len : Nat) : List Access := (unquoteTraced (len + 1) url 0 0 len len).1

theorem unquoteTraced_result (fuel : Nat) (buf : Bytes) (url p stop len : Nat) :
    (unquoteTraced fuel buf url p stop len).2 = unquoteLoop fuel buf url p stop len := by
  induction fuel generalizing buf url p len with
  | zero => rfl
  | succ fuel ih =>
    unfold unquoteTraced unquoteLoop
    split
    next => rfl
    next =>
      split
      next =>
        split
        next => rfl
        next =>
          cases unhex (buf.getD (url + 1) 0) with
          | none => rfl
          | some a =>
            cases unhex (buf.getD (url + 2) 0) with
            | none => rfl
            | some b => exact ih _ _ _ _
      next => exact ih _ _ _ _

theorem unhex_eq (c : UInt8) : (unhex c).map UInt8.toNat = hexValue c := by
  have bounds : (charByte '0').toNat = 48 ∧ (charByte '9').toNat = 57 ∧ (charByte 'a').toNat = 97 ∧
    (charByte 'f').toNat = 102 ∧ (charByte 'A').toNat = 65 ∧ (charByte 'F').toNat = 70 := by decide
  obtain ⟨zero, nine, a, f, A, F⟩ := bounds
  have below := c.toNat_lt
  unfold unhex hexValue
  simp only [UInt8.le_iff_toNat_le, zero, nine, a, f, A, F]
  split
  next digit => simp [UInt8.toNat_sub, zero]; omega
  next =>
    split
    next lower => simp [UInt8.toNat_sub, UInt8.toNat_add, a]; omega
    next =>
      split
      next upper => simp [UInt8.toNat_sub, UInt8.toNat_add, A]; omega
      next => rfl

theorem unhex_isSome (c : UInt8) : (hexValue c).isSome = (unhex c).isSome := by
  rw [← unhex_eq, Option.isSome_map]

/-- What the loop stores for an escape. -/
theorem unhex_byte {c d a b : UInt8} {m n : Nat} (ha : unhex c = some a) (hb : unhex d = some b)
    (hm : hexValue c = some m) (hn : hexValue d = some n) : a * 16 + b = UInt8.ofNat (16 * m + n) := by
  rw [← unhex_eq, ha] at hm
  rw [← unhex_eq, hb] at hn
  cases hm
  cases hn
  apply UInt8.toNat_inj.mp
  simp [UInt8.toNat_add, UInt8.toNat_mul, Nat.mul_comm]

/-- No write goes to a position that is read later. -/
def WritesBehindReads (accesses : List Access) : Prop :=
  accesses.Pairwise fun first later => ∀ position, first = .write position → later ≠ .read position

/-- What the loop does from a state in which it has written `done` and `rest` is unread: the positions of `rest` are
those from `url` to `stop`. -/
structure Unquotes (done rest tail : Bytes) (url stop : Nat) (accesses : List Access) (result : Bytes) (n : Nat) :
    Prop where
  inside : ∀ access ∈ accesses, access.position < stop
  ahead : ∀ position, .read position ∈ accesses → url ≤ position
  behind : WritesBehindReads accesses
  length : result.length = stop + tail.length
  tail : result.drop stop = tail
  malformed : decode rest = none → n = 0
  decoded : ∀ d, decode rest = some d → n = (done ++ d).length ∧ done ++ d <+: result

/-- The buffer after the write at `p`. -/
theorem set_done (done : Bytes) {junk : Bytes} (some : junk ≠ []) (v : UInt8) (rest : Bytes) :
    (done ++ (junk ++ rest)).set done.length v = done ++ [v] ++ (junk.tail ++ rest) := by
  obtain ⟨x, junk, rfl⟩ := List.exists_cons_of_ne_nil some
  simp

/-- One round of the loop: the positions `reads` of the bytes `consumed` are read, and `v` is written. -/
theorem Unquotes.round {done rest tail : Bytes} {v : UInt8} {url stop n : Nat} {accesses : List Access}
    {result : Bytes} (consumed : Bytes) (reads : List Nat)
    (h : Unquotes (done ++ [v]) rest tail (url + consumed.length) stop accesses result n)
    (within : ∀ i ∈ reads, url ≤ i ∧ i < url + consumed.length) (some : 0 < consumed.length)
    (start : done.length ≤ url) (room : url + consumed.length ≤ stop)
    (decodes : decode (consumed ++ rest) = (decode rest).map (v :: ·)) :
    Unquotes done (consumed ++ rest) tail url stop (reads.map .read ++ .write done.length :: accesses) result n := by
  refine ⟨?_, ?_, ?_, h.length, h.tail, ?_, ?_⟩
  · intro access member
    rcases List.mem_append.mp member with read | member
    · obtain ⟨i, among, rfl⟩ := List.mem_map.mp read
      exact Nat.lt_of_lt_of_le (within i among).2 room
    · rcases List.mem_cons.mp member with rfl | later
      · show done.length < stop
        omega
      · exact h.inside access later
  · intro position member
    rcases List.mem_append.mp member with read | member
    · obtain ⟨_, among, ⟨⟩⟩ := List.mem_map.mp read
      exact (within _ among).1
    · rcases List.mem_cons.mp member with eq | later
      · cases eq
      · have ahead := h.ahead position later
        omega
  · refine List.pairwise_append.mpr ⟨?_, List.pairwise_cons.mpr ⟨?_, h.behind⟩, ?_⟩
    · exact List.pairwise_map.mpr (List.pairwise_of_forall fun _ _ _ eq => by cases eq)
    · rintro later member position ⟨⟩ rfl
      have ahead := h.ahead _ member
      omega
    · intro first read _ _
      obtain ⟨i, _, rfl⟩ := List.mem_map.mp read
      exact nofun
  · rw [decodes, Option.map_eq_none_iff]
    exact h.malformed
  · intro d hd
    rw [decodes] at hd
    obtain ⟨t, ht, rfl⟩ := Option.map_eq_some_iff.mp hd
    have decoded := h.decoded t ht
    rwa [List.append_assoc, List.singleton_append] at decoded

/-- The loop ends at a percent sign that begins no escape. -/
theorem Unquotes.stuck {done rest tail buf : Bytes} {url stop : Nat} (reads : List Nat) (stuck : ¬ BeginsEscape rest)
    (within : ∀ i ∈ reads, url ≤ i ∧ i < stop) (length : buf.length = stop + tail.length)
    (kept : buf.drop stop = tail) :
    Unquotes done (percent :: rest) tail url stop (reads.map .read) buf 0 := by
  refine ⟨?_, ?_, ?_, length, kept, fun _ => rfl, ?_⟩
  · intro access member
    obtain ⟨i, among, rfl⟩ := List.mem_map.mp member
    exact (within i among).2
  · intro position member
    obtain ⟨_, among, ⟨⟩⟩ := List.mem_map.mp member
    exact (within _ among).1
  · exact List.pairwise_map.mpr (List.pairwise_of_forall fun _ _ _ eq => by cases eq)
  · intro d hd
    rw [decode_stuck stuck] at hd
    cases hd

theorem getD_unread (done junk unread : Bytes) (i : Nat) :
    (done ++ (junk ++ unread)).getD (done.length + junk.length + i) 0 = unread.getD i 0 := by
  rw [List.getD_eq_getElem?_getD, ← List.append_assoc, ← List.length_append,
    List.getElem?_append_right (Nat.le_add_right _ _), Nat.add_sub_cancel_left]
  rfl

theorem charByte_percent : charByte '%' = percent := rfl

/-- From every state in which it has written `done` and has yet to read `rest`, with `junk` between them, the loop
writes what `rest` stands for. -/
def LoopUnquotes (rest : Bytes) : Prop :=
  ∀ (done junk tail : Bytes) (url stop fuel : Nat) {buf : Bytes} {len : Nat},
    buf = done ++ (junk ++ (rest ++ tail)) → url = done.length + junk.length → stop = url + rest.length →
    len = done.length + rest.length → rest.length < fuel → ∃ accesses result n,
      unquoteTraced fuel buf url done.length stop len = (accesses, some (result, n)) ∧
      Unquotes done rest tail url stop accesses result n

theorem LoopUnquotes.nil : LoopUnquotes [] := by
  rintro done junk tail url stop (_ | fuel) buf len rfl rfl rfl rfl enough
  · exact absurd enough (by simp)
  refine ⟨[], _, _, by rw [unquoteTraced, if_pos (by simp)], by simp, by simp, List.Pairwise.nil, ?_, ?_, ?_, ?_⟩
  · simp [Nat.add_assoc]
  · simp [← List.append_assoc, ← List.length_append]
  · simp [decode]
  · simp [decode]

theorem LoopUnquotes.literal {c : UInt8} {rest : Bytes} (literal : c ≠ percent) (ih : LoopUnquotes rest) :
    LoopUnquotes (c :: rest) := by
  rintro done junk tail url stop (_ | fuel) buf len hbuf rfl hstop rfl enough
  · exact absurd enough (by simp)
  have here : buf.getD (done.length + junk.length) 0 = c := by
    rw [hbuf]
    exact getD_unread done junk (c :: rest ++ tail) 0
  have stored : buf.set done.length c = (done ++ [c]) ++ ((junk ++ [c]).tail ++ (rest ++ tail)) := by
    rw [hbuf, ← set_done done (by simp) c (rest ++ tail)]
    simp
  obtain ⟨accesses, result, n, step, spec⟩ := ih (done ++ [c]) (junk ++ [c]).tail tail (done.length + junk.length + 1)
    stop fuel stored (by simp; omega) (by simp [hstop]; omega) rfl (by simpa using enough)
  have length : (done ++ [c]).length + rest.length = done.length + (c :: rest).length := by simp; omega
  rw [length, List.length_append, List.length_singleton] at step
  have running : done.length + junk.length ≠ stop := by simp [hstop]
  refine ⟨_, result, n, ?_, spec.round [c] [done.length + junk.length, done.length + junk.length] (by simp) (by simp)
    (by omega) (by simp [hstop]) (decode_literal literal rest)⟩
  rw [unquoteTraced, if_neg running, here, if_neg (by rwa [charByte_percent]), step]
  rfl

theorem LoopUnquotes.escape {a b : UInt8} {m k : Nat} {rest : Bytes} (ha : hexValue a = some m)
    (hb : hexValue b = some k) (ih : LoopUnquotes rest) : LoopUnquotes (percent :: a :: b :: rest) := by
  rintro done junk tail url stop (_ | fuel) buf len hbuf rfl hstop rfl enough
  · exact absurd enough (by simp)
  have here : ∀ i, buf.getD (done.length + junk.length + i) 0 = (percent :: a :: b :: rest ++ tail).getD i 0 := by
    intro i
    rw [hbuf]
    exact getD_unread done junk _ i
  obtain ⟨x, hx⟩ := Option.isSome_iff_exists.mp (show (unhex a).isSome by rw [← unhex_isSome, ha]; rfl)
  obtain ⟨y, hy⟩ := Option.isSome_iff_exists.mp (show (unhex b).isSome by rw [← unhex_isSome, hb]; rfl)
  have value := unhex_byte hx hy ha hb
  have stored : buf.set done.length (x * 16 + y) =
      (done ++ [x * 16 + y]) ++ ((junk ++ [percent, a, b]).tail ++ (rest ++ tail)) := by
    rw [hbuf, ← set_done done (by simp) (x * 16 + y) (rest ++ tail)]
    simp
  obtain ⟨accesses, result, n, step, spec⟩ := ih (done ++ [x * 16 + y]) (junk ++ [percent, a, b]).tail tail
    (done.length + junk.length + 3) stop fuel stored (by simp; omega) (by simp [hstop]; omega) rfl
    (by simp at enough; omega)
  have length : (done ++ [x * 16 + y]).length + rest.length =
      done.length + (percent :: a :: b :: rest).length - 2 := by
    simp
    omega
  rw [length, List.length_append, List.length_singleton] at step
  have running : done.length + junk.length ≠ stop := by simp [hstop]
  have inside : ¬ stop ≤ done.length + junk.length + 2 := by simp [hstop]
  refine ⟨_, result, n, ?_, spec.round [percent, a, b]
    [done.length + junk.length, done.length + junk.length + 1, done.length + junk.length + 2] (by simp) (by simp)
    (by omega) (by simp [hstop]) (by rw [value]; exact decode_escape ha hb rest)⟩
  have first : buf.getD (done.length + junk.length) 0 = charByte '%' := here 0
  rw [unquoteTraced, if_neg running, if_pos first, if_neg inside, here 1, here 2]
  simp only [List.cons_append, List.getD_cons_succ, List.getD_cons_zero, hx, hy, step]
  rfl

theorem LoopUnquotes.stuck {rest : Bytes} (stuck : ¬ BeginsEscape rest) : LoopUnquotes (percent :: rest) := by
  rintro done junk tail url stop (_ | fuel) buf len hbuf rfl hstop rfl enough
  · exact absurd enough (by simp)
  have here : ∀ i, buf.getD (done.length + junk.length + i) 0 = (percent :: rest ++ tail).getD i 0 := by
    intro i
    rw [hbuf]
    exact getD_unread done junk _ i
  have first : buf.getD (done.length + junk.length) 0 = charByte '%' := here 0
  have length : buf.length = stop + tail.length := by simp [hbuf, hstop]; omega
  have kept : buf.drop stop = tail := by
    rw [hbuf, hstop]
    simp [← List.append_assoc, ← List.length_append]
  have running : done.length + junk.length ≠ stop := by simp [hstop]
  by_cases short : stop ≤ done.length + junk.length + 2
  · refine ⟨_, buf, 0, ?_, .stuck [done.length + junk.length] stuck (by simp; omega) length kept⟩
    rw [unquoteTraced, if_neg running, if_pos first, if_pos short]
    rfl
  · obtain ⟨a, b, rest, rfl⟩ : ∃ a b more, rest = a :: b :: more := by
      rcases rest with _ | ⟨a, _ | ⟨b, more⟩⟩
      · simp [hstop] at short
      · simp [hstop] at short
      · exact ⟨a, b, more, rfl⟩
    refine ⟨_, buf, 0, ?_, .stuck
      [done.length + junk.length, done.length + junk.length + 1, done.length + junk.length + 2] stuck (by simp; omega)
      length kept⟩
    rw [unquoteTraced, if_neg running, if_pos first, if_neg short, here 1, here 2]
    simp only [List.cons_append, List.getD_cons_succ, List.getD_cons_zero]
    cases hx : unhex a with
    | none => rfl
    | some x =>
      cases hy : unhex b with
      | none => rfl
      | some y =>
        refine absurd ⟨a, b, rest, rfl, ?_, ?_⟩ stuck
        · rw [unhex_isSome, hx]
          rfl
        · rw [unhex_isSome, hy]
          rfl

theorem unquoteTraced_spec (rest : Bytes) : LoopUnquotes rest := by
  induction rest using reading_induction with
  | nil => exact .nil
  | literal c rest literal ih => exact .literal literal ih
  | escape a b m k rest ha hb ih => exact .escape ha hb ih
  | stuck rest stuck => exact .stuck stuck

/-- A call on the first `len` bytes of a buffer. -/
theorem unquoteUrlInplace_spec {buf : Bytes} {len : Nat} (inside : len ≤ buf.length) : ∃ result n,
    unquoteUrlInplace buf len = some (result, n) ∧
      Unquotes [] (buf.take len) (buf.drop len) 0 len (unquoteAccesses buf len) result n := by
  have length : (buf.take len).length = len := List.length_take_of_le inside
  have split : buf = [] ++ ([] ++ (buf.take len ++ buf.drop len)) := by simp
  obtain ⟨accesses, result, n, step, spec⟩ := unquoteTraced_spec (buf.take len) [] [] (buf.drop len) 0 len (len + 1)
    split rfl (by omega) (by rw [List.length_nil, Nat.zero_add, length]) (by omega)
  rw [List.length_nil] at step
  refine ⟨result, n, ?_, ?_⟩
  · rw [unquoteUrlInplace, ← unquoteTraced_result, step]
  · rw [unquoteAccesses, step]
    exact spec

theorem Unquotes.result {rest tail : Bytes} {stop n : Nat} {accesses : List Access} {result : Bytes}
    (h : Unquotes [] rest tail 0 stop accesses result n) {d : Bytes} (decoded : decode rest = some d) :
    n = d.length ∧ result.take n = d := by
  obtain ⟨length, part⟩ := h.decoded d decoded
  rw [List.nil_append] at length part
  rw [length]
  exact ⟨rfl, List.prefix_iff_eq_take.mp part |>.symm⟩

theorem decode_ne_nil {e d : Bytes} (nonempty : e ≠ []) (h : decode e = some d) : d ≠ [] := by
  rintro rfl
  cases encodes_of_decode h
  exact nonempty rfl

/-- `unquote_url_inplace` stays inside the first `len` bytes, never writes what it has yet to read, and leaves their
percent-decoding there, or returns 0 at an escape that is not whole. -/
theorem unquote_url_inplace_decodes {buf : Bytes} {len : Nat} (positive : 1 ≤ len) (inside : len ≤ buf.length) :
    (∃ result n, unquoteUrlInplace buf len = some (result, n) ∧
      (∀ access ∈ unquoteAccesses buf len, access.position < len) ∧ WritesBehindReads (unquoteAccesses buf len) ∧
      result.length = buf.length ∧ result.drop len = buf.drop len ∧
      (n = 0 ↔ Malformed (buf.take len)) ∧
      (n ≠ 0 → ∃ d, decode (buf.take len) = some d ∧ n = d.length ∧ result.take n = d)) ∧
    ∀ e s tail, Encodes e s → ∃ result, unquoteUrlInplace (e ++ tail) e.length = some (result, s.length) ∧
      result.take s.length = s := by
  constructor
  · obtain ⟨result, n, call, spec⟩ := unquoteUrlInplace_spec inside
    have length : result.length = buf.length := by
      rw [spec.length, List.length_drop]
      omega
    have nonempty : buf.take len ≠ [] := by
      intro empty
      have short := congrArg List.length empty
      rw [List.length_take_of_le inside] at short
      exact absurd short (by simp; omega)
    refine ⟨result, n, call, spec.inside, spec.behind, length, spec.tail, ?_, ?_⟩
    · rw [← decode_eq_none_iff]
      refine ⟨fun zero => ?_, spec.malformed⟩
      by_contra decodes
      obtain ⟨d, hd⟩ := Option.ne_none_iff_exists'.mp decodes
      have empty := (spec.result hd).1.symm.trans zero
      exact decode_ne_nil nonempty hd (List.length_eq_zero_iff.mp empty)
    · intro some
      cases decodes : decode (buf.take len) with
      | none => exact absurd (spec.malformed decodes) some
      | some d => exact ⟨d, rfl, spec.result decodes⟩
  · intro e s tail encodes
    obtain ⟨result, n, call, spec⟩ := @unquoteUrlInplace_spec (e ++ tail) e.length (by simp)
    rw [List.take_left] at spec
    obtain ⟨rfl, taken⟩ := spec.result encodes.decode_eq
    exact ⟨result, call, taken⟩

/-- `a%2fb` -/
theorem unquote_url_inplace_decodes_slash : ∃ result, unquoteUrlInplace (ascii "a%2fb") 5 = some (result, 3) ∧
    result.take 3 = ascii "a/b" ∧ WritesBehindReads (unquoteAccesses (ascii "a%2fb") 5) := by
  have spec := @unquote_url_inplace_decodes (ascii "a%2fb") 5 (by decide) (by decide)
  obtain ⟨⟨result, n, call, _, behind, _⟩, _⟩ := spec
  have outcome : unquoteUrlInplace (ascii "a%2fb") 5 = some (ascii "a/bfb", 3) := by decide
  cases call.symm.trans outcome
  exact ⟨_, outcome, by decide, behind⟩

end Bjoern
