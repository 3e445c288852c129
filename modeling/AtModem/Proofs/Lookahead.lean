/-
  The byte of look-ahead loses nothing.

  A stream has room for one byte that was put back, and a second one would silently take its place.
  That this never happens is a matter of when bytes are put back: always right after a read, which has
  just emptied the place, and always the very byte that was read.  So at any moment the bytes that
  were taken off the link are the bytes that readers got and kept, and then, if there is one, the byte
  of look-ahead.  This is an invariant of single reads, and sessions are made of those.
-/
import AtModem.Proofs.Session

namespace AtModem

variable {σ : Type}

namespace Stream

/-- Nothing is lost, doubled or out of order between the link and the readers: the ledgers of the
    two agree up to the byte of look-ahead.  Every read keeps it, since a byte is put back only by
    the read that has just taken it. -/
structure Balanced (s : Stream σ) : Prop where
  popped : s.ledger.value.popped = s.ledger.value.handed ++ s.lookahead.toList
  clobbered : s.ledger.value.clobbered = 0

/-! ## One read -/

/-- A byte comes from the look-ahead, which leaves the link alone, or it is the next byte off the
    link; the ledger has it down as what it is. -/
theorem ledger_tryRead {s t : Stream σ} {b : UInt8} (h : s.tryRead = some (b, t)) :
    (s.lookahead = some b ∧ t.link = s.link ∧ t.ledger.value = s.ledger.value.reread b) ∨
      (s.lookahead = none ∧ s.link.read? = some (b, t.link) ∧
        t.ledger.value = s.ledger.value.pop b) := by
  unfold tryRead at h
  split at h
  · rename_i e
    cases h
    exact .inl ⟨e, rfl, Ghost.value_update _ _⟩
  · rename_i e
    simp only [Option.map_eq_some_iff, Prod.exists, Prod.mk.injEq] at h
    obtain ⟨_, l, r, rfl, rfl⟩ := h
    exact .inr ⟨e, r, Ghost.value_update _ _⟩

/-- After a read all that was taken off the link has been handed out, and the byte that was read is
    the last of it.  A byte that had been put back is handed out again, and a new one is popped and
    handed out at once. -/
theorem Balanced.handed_of_tryRead {s t : Stream σ} {b : UInt8} (k : Balanced s)
    (h : s.tryRead = some (b, t)) :
    t.ledger.value.popped = t.ledger.value.handed ∧ t.ledger.value.clobbered = 0 ∧
      ∃ before, t.ledger.value.handed = before ++ [b] := by
  have p := k.popped
  rcases ledger_tryRead h with ⟨l, -, e⟩ | ⟨l, -, e⟩
  · rw [l] at p
    rw [e]
    exact ⟨p, k.clobbered, _, rfl⟩
  · rw [l, Option.toList_none, List.append_nil] at p
    rw [e]
    refine ⟨?_, k.clobbered, _, rfl⟩
    show s.ledger.value.popped ++ [b] = s.ledger.value.handed ++ [b]
    rw [p]

/-- Every reader keeps the balance, as a byte is put back only right behind the read that got it.
    This is the one step that needs an argument; that all readers keep it then follows as for any
    such relation. -/
theorem keptByReading_balanced : KeptByReading fun s t : Stream σ => Balanced s → Balanced t where
  refl _ k := k
  trans _ _ _ h k := k ∘ h
  idle _ k := ⟨k.popped, k.clobbered⟩
  look _ k := ⟨k.popped, k.clobbered⟩
  take {s t b} h k := by
    -- a read leaves no look-ahead, so what was taken off is what was handed out
    obtain ⟨p, c, -⟩ := k.handed_of_tryRead h
    refine ⟨?_, c⟩
    rw [p, lookahead_tryRead h, Option.toList_none, List.append_nil]
  putBack {s t b} h k := by
    obtain ⟨p, c, before, e⟩ := k.handed_of_tryRead h
    have v : (t.pushBack b).ledger.value = t.ledger.value.putBack false := by
      simp only [pushBack, lookahead_tryRead h, Option.isSome_none, Ghost.value_update]
    constructor
    · -- what is put back is the last byte that was handed out
      rw [v]
      show t.ledger.value.popped = t.ledger.value.handed.dropLast ++ [b]
      rw [p, e, List.dropLast_concat]
    · rw [v]
      exact c

end Stream

/-! ## Sessions -/

namespace Engine

variable [Device σ]

/-- So does every session: what a session does to its stream, readers do.  Nothing else in the
    library takes bytes off the link. -/
theorem keptBySession_balanced :
    KeptBySession (fun s t : Stream σ => s.Balanced → t.Balanced)
      (fun e f => e.stream.Balanced → f.stream.Balanced) where
  reading := Stream.keptByReading_balanced
  trans _ _ _ h k := k ∘ h
  stream h := h
  hear _ _ h := h
  mail _ _ _ _ h := h
  print data e h := by
    unfold print
    split
    · exact ⟨h.popped, h.clobbered⟩
    · exact h
  register h e k := by
    unfold register
    split
    · exact k
    · exact k
  deregister _ _ h := h
  link _ _ h := ⟨h.popped, h.clobbered⟩

/-- Whatever is called on a fresh engine, and however often: the bytes that were taken off the link
    are those that were handed out and kept, in the same order, followed by the byte of look-ahead;
    and no byte was ever put back while another was waiting to be read again. -/
theorem popped_eq_handed_append_lookahead (config : EngineConfig) (l : Link σ)
    (calls : List (Call σ)) :
    let s := ((ofLink config l).session calls).stream
    s.ledger.value.popped = s.ledger.value.handed ++ s.lookahead.toList ∧
      s.ledger.value.clobbered = 0 := by
  have fresh : (ofLink config l).stream.Balanced := by
    refine ⟨?_, ?_⟩ <;> simp [ofLink, Ledger.blank]
  have kept := keptBySession_balanced.session calls (ofLink config l) fresh
  exact ⟨kept.popped, kept.clobbered⟩

end Engine
end AtModem
