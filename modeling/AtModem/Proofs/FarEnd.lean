/-
  The far end of the link.

  Listening leaves it alone: the device, the line it is being given and the record of what was written
  are what they were, however much has been read.  So what an exchange has written is what its writes
  have written, and on a link that works each of them adds its bytes to the record.
-/
import AtModem.Engine.Progress

namespace AtModem

variable {σ : Type}

/-! ## What reading leaves alone -/

/-- Nothing has gone toward the device: its state, its line, the record and the switch for refusing
    writes are as they were.  Reading and waiting are of this kind, whatever arrives meanwhile, so
    that what is written can be told from the prints alone. -/
structure Link.SameFarEnd (l m : Link σ) : Prop where
  device : m.device = l.device
  written : m.written = l.written
  unfinished : m.unfinished = l.unfinished
  failWrites : m.failWrites = l.failWrites

namespace Link.SameFarEnd

theorem refl (l : Link σ) : SameFarEnd l l := ⟨rfl, rfl, rfl, rfl⟩

theorem trans {l m n : Link σ} (h : SameFarEnd l m) (k : SameFarEnd m n) : SameFarEnd l n where
  device := k.device.trans h.device
  written := k.written.trans h.written
  unfinished := k.unfinished.trans h.unfinished
  failWrites := k.failWrites.trans h.failWrites

/-- Replies on their way come closer, and that is all; the device is not asked. -/
theorem deliver (l : Link σ) : SameFarEnd l l.deliver := by
  rw [deliver_eq]
  exact ⟨rfl, rfl, rfl, rfl⟩

/-- Reading takes a byte that has arrived and no notice of the device. -/
theorem read {l m : Link σ} {b : UInt8} (h : l.read? = some (b, m)) : SameFarEnd l m := by
  unfold read? at h
  split at h
  · cases h
  · cases h
    have d := deliver l
    exact ⟨d.device, d.written, d.unfinished, d.failWrites⟩

end Link.SameFarEnd

/-- A byte comes from the look-ahead or from the link, and either way from this side. -/
theorem Stream.sameFarEnd_tryRead {s t : Stream σ} {b : UInt8} (h : s.tryRead = some (b, t)) :
    s.link.SameFarEnd t.link := by
  unfold tryRead at h
  split at h
  · cases h
    exact .refl _
  · simp only [Option.map_eq_some_iff, Prod.exists, Prod.mk.injEq] at h
    obtain ⟨_, l, hl, rfl, rfl⟩ := h
    exact .read hl

/-- No reader reaches the far end, since all of them are made of such reads. -/
theorem Stream.keptByReading_farEnd :
    KeptByReading fun s t : Stream σ => s.link.SameFarEnd t.link where
  refl _ := .refl _
  trans _ _ _ := .trans
  idle _ := ⟨rfl, rfl, rfl, rfl⟩
  look s := .deliver s.link
  take h := sameFarEnd_tryRead h
  putBack {s t _} h := show s.link.SameFarEnd t.link from sameFarEnd_tryRead h

namespace Engine

/-- Listening reads, matches and calls handlers; none of it writes. -/
theorem keptByListening_farEnd :
    KeptByListening (fun s t : Stream σ => s.link.SameFarEnd t.link)
      fun e f => e.stream.link.SameFarEnd f.stream.link where
  reading := Stream.keptByReading_farEnd
  trans _ _ _ := .trans
  stream h := h
  hear _ _ := .refl _
  mail _ _ _ _ := .refl _

/-! ## What writing adds -/

/-- On a link that works, `data` has been added to the record of what was written.  The record only
    grows, and two such facts compose by putting the data of one behind that of the other. -/
structure Wrote (data : Bytes) (e f : Engine σ) : Prop where
  written : f.stream.link.written = e.stream.link.written ++ data
  works : f.stream.link.failWrites = false

variable {e f g : Engine σ} {xs ys : Bytes}

theorem Wrote.trans (h : Wrote xs e f) (k : Wrote ys f g) : Wrote (xs ++ ys) e g where
  written := by rw [k.written, h.written, List.append_assoc]
  works := k.works

/-- Listening adds nothing to what has been written, so it may follow any write. -/
theorem Wrote.listened (h : Wrote xs e f) (k : f.stream.link.SameFarEnd g.stream.link) :
    Wrote xs e g where
  written := by rw [k.written, h.written]
  works := by rw [k.failWrites, h.works]

variable [Device σ]

/-- On a link that works a write succeeds and adds exactly its bytes. -/
theorem print_of_working (works : e.stream.link.failWrites = false) (data : Bytes) :
    print data e = .ok () (endState (print data e)) ∧ Wrote data e (endState (print data e)) := by
  have h := Link.write_of_working works data
  unfold print
  rw [h]
  exact ⟨rfl, Link.written_absorbAll _ data, (Link.failWrites_absorbAll _ data).trans works⟩

/-- A write on a link that does not work fails as a whole and changes nothing. -/
theorem print_of_broken (broken : e.stream.link.failWrites = true) (data : Bytes) :
    print data e = .error (.io .linkBroken) e := by
  unfold print Link.write
  rw [broken]
  rfl

/-- A command is its line and one line end, and no more. -/
theorem send_of_working (works : e.stream.link.failWrites = false) (line : String) :
    send line e = .ok () (endState (send line e)) ∧
      Wrote (Utf8.encode line ++ [Ascii.cr, Ascii.lf]) e (endState (send line e)) := by
  obtain ⟨ok, text⟩ := print_of_working works (Utf8.encode line)
  obtain ⟨ok', rest⟩ := print_of_working text.works [Ascii.cr, Ascii.lf]
  have both : send line e = print [Ascii.cr, Ascii.lf] (endState (print (Utf8.encode line) e)) :=
    bind_of_ok ok
  rw [both]
  exact ⟨ok', text.trans rest⟩

end Engine
end AtModem
