/-
  Payloads longer than the field they go to.

  A field is made in two ways.  From a stream, `FixedField.read` discards the head that does not fit and
  reads the tail into the first cells; with the whole payload at hand, `FixedField.ofBytes` cuts the tail
  out of it.  The two agree, and both leave the stream, or nothing, behind the last byte of the payload.

  The proof goes through `Yields`, one byte after another with the byte timeout for each.  Yields compose
  (`yields_append_iff`): a payload is yielded just where its head is yielded and then its tail, and that
  is what skipping followed by reading comes to.  So `FixedField.read` ends well just where there is a
  payload of the announced length to be had, and what it makes is the field of that payload
  (`readField_eq_ok_iff`).  What such a field holds is said once, in `KeepsTail`.
-/
import AtModem.Proofs.Pace

namespace AtModem

namespace Stream

variable {σ : Type}

/-! ## Bytes that come in time -/

/-- The bytes can be read, one after the other, each within the byte timeout; then the stream is
    `t`.  The times are in the streams, so this says at once which bytes a reader gets and that each
    of them is in time. -/
inductive Yields : Stream σ → Bytes → Stream σ → Prop
  | nil (s : Stream σ) : Yields s [] s
  | cons {s t u : Stream σ} {b : UInt8} {bs : Bytes} :
      s.readBy s.byteDeadline = (some b, t) → Yields t bs u → Yields s (b :: bs) u

variable {s t u : Stream σ} {bs xs ys : Bytes} {count : Nat}

/-- The first byte comes in time, and then the others do. -/
theorem yields_cons_iff {b : UInt8} :
    Yields s (b :: bs) u ↔ ∃ t, s.readBy s.byteDeadline = (some b, t) ∧ Yields t bs u := by
  constructor
  · rintro (_ | ⟨r, h⟩)
    exact ⟨_, r, h⟩
  · rintro ⟨t, r, h⟩
    exact .cons r h

/-- Yields compose: the first bytes come in time, and then the others do. -/
theorem yields_append_iff : Yields s (xs ++ ys) u ↔ ∃ t, Yields s xs t ∧ Yields t ys u := by
  induction xs generalizing s with
  | nil =>
    constructor
    · intro h
      exact ⟨s, .nil s, h⟩
    · rintro ⟨t, ⟨⟩, h⟩
      exact h
  | cons x xs ih =>
    constructor
    · rintro (_ | ⟨r, h⟩)
      obtain ⟨t, front, back⟩ := ih.mp h
      exact ⟨t, .cons r front, back⟩
    · rintro ⟨t, _ | ⟨r, front⟩, back⟩
      exact .cons r (ih.mpr ⟨t, front, back⟩)

/-- They are the first of what there was, and all that was taken. -/
theorem Yields.unread (h : Yields s bs t) : s.unread = bs ++ t.unread := by
  induction h with
  | nil s => rfl
  | cons r _ ih =>
    rw [(took_readBy r).unread, ih]
    rfl

/-- A read of a known number of bytes gets all of them just where the stream yields them.  The list
    of bytes and the clock agree in this, so the one can be exchanged for the other. -/
theorem yields_iff_gather : Yields s bs t ↔ s.gather bs.length = (bs, t) := by
  induction bs generalizing s with
  -- no bytes: no time is needed
  | nil =>
    rw [List.length_nil, gather_zero, Prod.mk.injEq]
    constructor
    · rintro ⟨⟩
      exact ⟨rfl, rfl⟩
    · rintro ⟨-, rfl⟩
      exact .nil s
  -- the first byte comes within its timeout, and the others behind it
  | cons b bs ih =>
    rw [List.length_cons, gather_succ]
    constructor
    · rintro (_ | ⟨r, h⟩)
      simp only [r, ih.mp h]
    · intro h
      rcases r : s.readBy s.byteDeadline with ⟨_ | c, v⟩
      · rw [r] at h
        cases h
      · rw [r] at h
        obtain ⟨all, rfl⟩ := Prod.mk.inj h
        obtain ⟨rfl, got⟩ := List.cons.inj all
        exact .cons r (ih.mpr (Prod.ext got rfl))

/-- An exact read gathers as many bytes as it is to get, and fails if it has got fewer. -/
theorem readExact_eq (count : Nat) (s : Stream σ) :
    readExact count s =
      let got := s.gather count
      if got.1.length = count then .ok got.1 got.2
      else .error (.transferLengthMismatch count got.1.length) got.2 := rfl

/-- It gets its bytes just where so many come in time. -/
theorem readExact_eq_ok_iff : readExact count s = .ok bs t ↔ bs.length = count ∧ Yields s bs t := by
  rw [yields_iff_gather, readExact_eq]
  dsimp only
  constructor
  · intro h
    split at h
    · rename_i enough
      cases h
      exact ⟨enough, by rw [enough]⟩
    · cases h
  · rintro ⟨rfl, h⟩
    rw [h, if_pos rfl]

theorem skip_eq_ok_iff : skip count s = .ok () t ↔ ∃ bs, bs.length = count ∧ Yields s bs t := by
  constructor
  · intro h
    obtain ⟨bs, u, r, same⟩ := bind_eq_ok h
    cases same
    exact ⟨bs, readExact_eq_ok_iff.mp r⟩
  · rintro ⟨bs, h⟩
    exact bind_of_ok (readExact_eq_ok_iff.mpr h)

/-- A field is read just where a payload of the announced length is yielded, and is the field of it.
    What cannot be kept is skipped, but it has to come all the same. -/
theorem readField_eq_ok_iff {capacity declared : Nat} {f : FixedField} :
    FixedField.read capacity declared s = .ok f t ↔
      ∃ payload, payload.length = declared ∧ Yields s payload t ∧ f = .ofBytes capacity payload := by
  have le := FixedField.kept_le capacity declared
  constructor
  -- what is skipped and what is kept are one payload
  · intro h
    obtain ⟨⟨⟩, u, skipped, h⟩ := bind_eq_ok h
    obtain ⟨back, v, read, same⟩ := bind_eq_ok h
    obtain ⟨front, long, head⟩ := skip_eq_ok_iff.mp skipped
    obtain ⟨exactly, tail⟩ := readExact_eq_ok_iff.mp read
    cases same
    have whole : (front ++ back).length = declared := by
      rw [List.length_append, long, exactly]
      omega
    refine ⟨front ++ back, whole, yields_append_iff.mpr ⟨u, head, tail⟩, ?_⟩
    rw [FixedField.ofBytes, whole, ← long, List.drop_left]
  -- the payload is cut where the field keeps its end
  · rintro ⟨payload, rfl, h, rfl⟩
    rw [← List.take_append_drop (payload.length - FixedField.kept capacity payload.length) payload] at h
    obtain ⟨u, head, tail⟩ := yields_append_iff.mp h
    have skipped := skip_eq_ok_iff.mpr ⟨_, FixedField.length_take_sub_kept capacity payload, head⟩
    have read := readExact_eq_ok_iff.mpr ⟨FixedField.length_drop_sub_kept capacity payload, tail⟩
    exact (bind_of_ok skipped).trans (bind_of_ok read)

/-- At a steady pace the first bytes to come are yielded, however many of them are wanted. -/
theorem Steady.yields {all front back : List Arrival} (h : Steady all (front ++ back) s) :
    ∃ t, Yields s (front.map Arrival.byte) t ∧ Steady all back t := by
  induction front generalizing s with
  | nil => exact ⟨s, .nil s, h⟩
  | cons a front ih =>
    rcases r : s.readBy s.byteDeadline with ⟨_ | b, u⟩
    · obtain ⟨nothing, -⟩ := h.of_none r
      cases nothing
    · obtain ⟨a', rest, same, rfl, k, -⟩ := h.of_some r
      obtain ⟨rfl, rfl⟩ := List.cons.inj same
      obtain ⟨t, yields, m⟩ := ih k
      exact ⟨t, .cons r yields, m⟩

end Stream

namespace FixedField

/-! ## What is kept -/

/-- The field holds the tail of the payload: all but one of its cells, as far as the payload goes. -/
structure KeepsTail (capacity : Nat) (payload : Bytes) (f : FixedField) : Prop where
  suffix : f.payload <:+ payload
  length : f.payload.length = min payload.length (capacity - 1)
  declared : f.declared = payload.length
  /-- No more storage than there was, and zeros behind what is kept. -/
  cells : f.cells = f.payload ++ List.replicate (capacity - f.payload.length) 0
  storage : f.capacity = capacity
  isTruncated_iff : f.isTruncated = true ↔ f.payload.length < payload.length
  /-- The cell behind the payload is one of the storage. -/
  used_lt : 0 < capacity → f.used < f.capacity
  bytesWithNul : f.bytesWithNul = if capacity = 0 then [] else f.payload ++ [0]

/-- The cells of a field of a payload: the tail of it that is kept, and zeros behind that. -/
theorem cells_ofBytes (capacity : Nat) (payload : Bytes) :
    (ofBytes capacity payload).cells =
      payload.drop (payload.length - kept capacity payload.length) ++
        List.replicate (capacity - kept capacity payload.length) 0 := by
  show _ ++ List.drop _ (List.replicate capacity 0) = _
  rw [List.drop_replicate, length_drop_sub_kept]

theorem used_ofBytes (capacity : Nat) (payload : Bytes) :
    (ofBytes capacity payload).used = kept capacity payload.length :=
  length_drop_sub_kept capacity payload

/-- What the field gives back is the tail of the payload. -/
theorem payload_ofBytes (capacity : Nat) (payload : Bytes) :
    (ofBytes capacity payload).payload =
      payload.drop (payload.length - kept capacity payload.length) := by
  rw [FixedField.payload, cells_ofBytes, used_ofBytes, List.take_left' (length_drop_sub_kept _ _)]

theorem kept_lt {capacity : Nat} (some : 0 < capacity) (declared : Nat) :
    kept capacity declared < capacity := by
  show min declared (capacity - 1) < capacity
  omega

/-- A field has as many cells as it is made with, whatever is put into it. -/
theorem capacity_ofBytes (capacity : Nat) (payload : Bytes) :
    (ofBytes capacity payload).capacity = capacity := by
  have within : kept capacity payload.length ≤ capacity :=
    Nat.le_trans (Nat.min_le_right _ _) (Nat.sub_le _ _)
  rw [FixedField.capacity, cells_ofBytes, List.length_append, List.length_replicate, length_drop_sub_kept,
    Nat.add_sub_cancel' within]

/-- The first of the zeros stands right behind the payload, so it may be read up to there; a field
    without cells has none. -/
theorem bytesWithNul_ofBytes (capacity : Nat) (payload : Bytes) :
    (ofBytes capacity payload).bytesWithNul =
      if capacity = 0 then [] else (ofBytes capacity payload).payload ++ [0] := by
  have storage : (ofBytes capacity payload).cells.length = capacity := capacity_ofBytes capacity payload
  rw [FixedField.bytesWithNul]
  by_cases none : capacity = 0
  · rw [List.eq_nil_of_length_eq_zero (storage.trans none), if_pos none]
    rfl
  · have some : 0 < capacity := Nat.pos_of_ne_zero none
    have filled : (ofBytes capacity payload).cells.isEmpty = false := by
      rw [List.isEmpty_eq_false_iff, ← List.length_pos_iff, storage]
      exact some
    have free := kept_lt some payload.length
    obtain ⟨n, more⟩ : ∃ n, capacity - kept capacity payload.length = n + 1 :=
      ⟨capacity - kept capacity payload.length - 1, by omega⟩
    rw [filled, if_neg none, if_neg (by decide), used_ofBytes, payload_ofBytes, cells_ofBytes, more,
      List.replicate_succ, List.append_cons, List.take_left' ?_]
    rw [List.length_append, length_drop_sub_kept]
    rfl

/-- The field of a payload keeps its tail, in every respect that `KeepsTail` names. -/
theorem keepsTail_ofBytes (capacity : Nat) (payload : Bytes) :
    KeepsTail capacity payload (ofBytes capacity payload) := by
  have length : (ofBytes capacity payload).payload.length = kept capacity payload.length := by
    rw [payload_ofBytes, length_drop_sub_kept]
  refine ⟨?_, length, rfl, ?_, capacity_ofBytes _ _, ?_, ?_, bytesWithNul_ofBytes _ _⟩
  · rw [payload_ofBytes]
    exact List.drop_suffix _ _
  · rw [cells_ofBytes, length, payload_ofBytes]
  · rw [length, ← used_ofBytes]
    exact decide_eq_true_iff
  · intro some
    rw [used_ofBytes, capacity_ofBytes]
    exact kept_lt some _

/-- Where the payload can be had without a timeout, reading the field gets it, takes no other byte, and
    makes the field that would be made of the payload at hand, which keeps its tail. -/
theorem read_keeps_tail {σ : Type} (capacity : Nat) {s t : Stream σ} {payload : Bytes}
    (readable : s.Yields payload t) :
    read capacity payload.length s = .ok (ofBytes capacity payload) t ∧ s.unread = payload ++ t.unread ∧
      KeepsTail capacity payload (ofBytes capacity payload) :=
  ⟨Stream.readField_eq_ok_iff.mpr ⟨payload, rfl, readable, rfl⟩, readable.unread,
    keepsTail_ofBytes capacity payload⟩

/-- The first byte was put back before, the others come when their time is up, and more come behind them.
    Of five bytes four cells keep three. -/
theorem read_keeps_tail_at_deadlines :
    let late := Schedule.spaced 10 10 (Utf8.encode "bcde\r\n")
    let link : Link Unit :=
      { Link.ofDevice () with scheduled := ⟨late, Schedule.spaced_ordered 10 10 _⟩ }
    let s : Stream Unit := ⟨link, some 0x61, 7, 10, .of .blank⟩
    let payload := Utf8.encode "abcde"
    ∃ t, s.Yields payload t ∧
      (read 4 payload.length s = .ok (ofBytes 4 payload) t ∧ s.unread = payload ++ t.unread ∧
        KeepsTail 4 payload (ofBytes 4 payload)) ∧
      t.unread = crlf ∧ (ofBytes 4 payload).bytesWithNul = Utf8.encode "cde" ++ [0] := by
  intro late link s payload
  let front : List Arrival := ⟨0, 0x61⟩ :: Schedule.spaced 10 10 (Utf8.encode "bcde")
  let back : List Arrival := Schedule.spaced 10 50 crlf
  have steady : Stream.Steady s.arrivals (front ++ back) s :=
    ⟨Stream.awaits_arrivals s, by decide, by decide⟩
  obtain ⟨t, readable, rest⟩ := steady.yields
  exact ⟨t, readable, read_keeps_tail 4 readable, rest.unread, by decide⟩

end FixedField
end AtModem
