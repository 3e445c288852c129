/-
  Lines on the way to the device.

  What is written comes in pieces, and a piece may end anywhere: in the middle of a line, between the two
  bytes of a line end, behind several lines.  The device hears lines, and which ones is a matter of the
  record alone.  From the start of the unfinished line on, the record is cut at its line ends (`cutLines`);
  the device hears the lines in their order, and what stands behind the last end is the new unfinished line
  (`Link.rescan`).

  The link itself looks at one byte after the other.  There is no line end in the unfinished line; that is
  the invariant (`Unended`) by which one byte more completes a line just where it does in the cut.  So after
  any bytes the link is what a scan of the record makes of it (`absorbAll_eq_hearText`).  A scan that is
  resumed at the unfinished line finds what one scan of everything finds (`cutLines_append`).  With that a
  run of writes comes to one scan, and a write that is refused has no part in it (`Attempt.foldl_run_eq`).
-/
import AtModem.Link.Script
import AtModem.Proofs.Reports

namespace AtModem

/-! ## Texts without a line end -/

/-- There is no line end anywhere in it: what an unfinished line is.  A carriage return alone, or a
    line feed alone, ends nothing. -/
def Unended (bs : Bytes) : Prop := ¬crlf <:+: bs

namespace Unended

variable {b : UInt8} {bs : Bytes}

theorem nil : Unended [] := by
  unfold Unended
  decide

/-- A line end begins at the first byte or lies behind it. -/
theorem cons_iff : Unended (b :: bs) ↔ ¬crlf <+: b :: bs ∧ Unended bs := by
  rw [Unended, List.infix_cons_iff, not_or]
  exact Iff.rfl

/-- A byte more completes a line end only at the very end. -/
theorem concat (h : Unended bs) (noEnd : ¬crlf <:+ bs ++ [b]) : Unended (bs ++ [b]) := by
  rw [Unended, List.infix_concat_iff, not_or]
  exact ⟨noEnd, h⟩

theorem of_front {xs ys : Bytes} (h : Unended (xs ++ ys)) : Unended xs :=
  fun inside => h (inside.trans (List.prefix_append xs ys).isInfix)

end Unended

/-! ## Texts cut at their line ends -/

/-- A text is made up of these lines, each with its end, and of a tail that has none.  A text can be
    cut in one way only, so nothing depends on how the lines were found. -/
structure Cut (text : Bytes) (lines : List Bytes) (tail : Bytes) : Prop where
  text : text = lines.flatMap (· ++ crlf) ++ tail
  lines : ∀ line ∈ lines, Unended line
  tail : Unended tail

/-- A byte in front belongs to the first line, or to the tail if there is no line. -/
def inFront (b : UInt8) : List Bytes × Bytes → List Bytes × Bytes
  | ([], tail) => ([], b :: tail)
  | (line :: lines, tail) => ((b :: line) :: lines, tail)

/-- The lines of a text, without their ends, and what stands behind the last end.  It looks two
    bytes ahead, because the end of a line has two. -/
def cutLines : Bytes → List Bytes × Bytes
  | [] => ([], [])
  | 0x0D :: 0x0A :: rest => ([] :: (cutLines rest).1, (cutLines rest).2)
  | b :: rest => inFront b (cutLines rest)

/-- Where no line end begins, the first byte goes in front of the first line. -/
theorem cutLines_cons {b : UInt8} {bs : Bytes} (noEnd : ¬crlf <+: b :: bs) :
    cutLines (b :: bs) = inFront b (cutLines bs) := by
  rw [cutLines]
  rintro rest rfl rfl
  exact noEnd ⟨rest, rfl⟩

/-- A text without a line end has no line, only a tail. -/
theorem cutLines_of_unended {bs : Bytes} (h : Unended bs) : cutLines bs = ([], bs) := by
  induction bs with
  | nil => rfl
  | cons b bs ih =>
    obtain ⟨first, others⟩ := Unended.cons_iff.mp h
    rw [cutLines_cons first, ih others]
    rfl

/-- Up to its first end a text is its first line, and the rest is cut for itself. -/
theorem cutLines_line {line : Bytes} (h : Unended line) (rest : Bytes) :
    cutLines (line ++ (crlf ++ rest)) = (line :: (cutLines rest).1, (cutLines rest).2) := by
  induction line with
  | nil => rfl
  | cons b line ih =>
    obtain ⟨first, others⟩ := Unended.cons_iff.mp h
    have noEnd : ¬crlf <+: b :: (line ++ (crlf ++ rest)) := by
      -- the byte behind `b` is in the line, or it is the first one of the end
      cases line with
      | nil => simp [crlf, Ascii.cr, Ascii.lf]
      | cons c line => simpa [crlf] using first
    rw [List.cons_append, cutLines_cons noEnd, ih others]
    rfl

/-- There is no other way to cut a text: lines without an end inside, each with its end, and a
    tail. -/
theorem Cut.eq_cutLines {text tail : Bytes} {lines : List Bytes} (h : Cut text lines tail) :
    cutLines text = (lines, tail) := by
  obtain ⟨rfl, each, last⟩ := h
  induction lines with
  | nil => exact cutLines_of_unended last
  | cons line lines ih =>
    obtain ⟨first, others⟩ := List.forall_mem_cons.mp each
    rw [List.flatMap_cons, List.append_assoc, List.append_assoc, cutLines_line first, ih others]

/-- A byte that begins no line end may be put in front of a text that is cut. -/
theorem Cut.inFront {b : UInt8} {text : Bytes} {c : List Bytes × Bytes} (h : Cut text c.1 c.2)
    (noEnd : ¬crlf <+: b :: text) :
    Cut (b :: text) (AtModem.inFront b c).1 (AtModem.inFront b c).2 := by
  obtain ⟨rfl, each, last⟩ := h
  match c with
  | ([], tail) => exact ⟨rfl, each, Unended.cons_iff.mpr ⟨noEnd, last⟩⟩
  | (line :: lines, tail) =>
    obtain ⟨first, others⟩ := List.forall_mem_cons.mp each
    have longer : b :: line <+: b :: ((line :: lines).flatMap (· ++ crlf) ++ tail) := by simp
    have begun : Unended (b :: line) := Unended.cons_iff.mpr ⟨fun ends => noEnd (ends.trans longer), first⟩
    exact ⟨rfl, List.forall_mem_cons.mpr ⟨begun, others⟩, last⟩

/-- The cut of a text is a cut of it; by induction along the recursion of `cutLines`. -/
theorem cut_cutLines (text : Bytes) : Cut text (cutLines text).1 (cutLines text).2 := by
  fun_induction cutLines text with
  | case1 => exact ⟨rfl, by simp, .nil⟩
  | case2 rest ih =>
    obtain ⟨whole, each, last⟩ := ih
    refine ⟨?_, List.forall_mem_cons.mpr ⟨.nil, each⟩, last⟩
    conv_lhs => rw [whole]
    rfl
  | case3 b rest first ih =>
    refine ih.inFront ?_
    rintro ⟨more, same⟩
    obtain ⟨rfl, rfl⟩ := List.cons.inj same
    exact first more rfl rfl

theorem Cut.tail_suffix {text tail : Bytes} {lines : List Bytes} (h : Cut text lines tail) :
    tail <:+ text := ⟨_, h.text.symm⟩

/-- A text that goes on is cut on from its tail; the lines in front of that stay. -/
theorem cutLines_append (xs ys : Bytes) :
    cutLines (xs ++ ys) =
      ((cutLines xs).1 ++ (cutLines ((cutLines xs).2 ++ ys)).1, (cutLines ((cutLines xs).2 ++ ys)).2) := by
  have first := cut_cutLines xs
  have second := cut_cutLines ((cutLines xs).2 ++ ys)
  refine Cut.eq_cutLines ⟨?_, fun line mem => ?_, second.tail⟩
  · rw [List.flatMap_append, List.append_assoc, ← second.text, ← List.append_assoc, ← first.text]
  · exact (List.mem_append.mp mem).elim (first.lines line) (second.lines line)

/-! ## Devices that hear lines -/

/-- What becomes of a device that hears lines one after the other, and its replies.  This is the
    reference: there are lines in it, and no writes. -/
def Device.converse {σ : Type} [Device σ] (d : σ) : List Bytes → σ × List Reply
  | [] => (d, [])
  | line :: lines =>
    let (d, reply) := Device.answer d line
    let (d, replies) := converse d lines
    (d, reply :: replies)

namespace Link

variable {σ : Type}

/-- A reply is queued without any notice of the device. -/
theorem receive_withDevice (l : Link σ) (d : σ) (r : Reply) :
    { l with device := d }.receive r = { l.receive r with device := d } := by
  unfold receive
  split <;> rfl

theorem foldl_receive_withDevice (replies : List Reply) (l : Link σ) (d : σ) :
    replies.foldl receive { l with device := d } = { replies.foldl receive l with device := d } := by
  induction replies generalizing l with
  | nil => rfl
  | cons r replies ih => rw [List.foldl_cons, List.foldl_cons, receive_withDevice, ih]

/-- Replies that come at once are queued in their order, behind what is there. -/
theorem queued_foldl_receive {replies : List Reply} (prompt : ∀ r ∈ replies, r.after = 0 ∧ r.gap = 0)
    (l : Link σ) : (replies.foldl receive l).queued = l.queued ++ replies.flatMap Reply.bytes := by
  induction replies generalizing l with
  | nil => exact (List.append_nil _).symm
  | cons r replies ih =>
    obtain ⟨first, others⟩ := List.forall_mem_cons.mp prompt
    rw [List.foldl_cons, ih others, receive, if_pos first, List.flatMap_cons, List.append_assoc]

/-- Replies have nothing to do with whether writes are refused. -/
theorem failWrites_foldl_receive (replies : List Reply) (l : Link σ) :
    (replies.foldl receive l).failWrites = l.failWrites := by
  induction replies generalizing l with
  | nil => rfl
  | cons r replies ih => rw [List.foldl_cons, ih, failWrites_receive]

/-- Lines that are heard are the device's matter, and its replies are taken in. -/
theorem foldl_hear_eq [Device σ] (lines : List Bytes) (l : Link σ) :
    lines.foldl hear l =
      { (Device.converse l.device lines).2.foldl receive l with
        device := (Device.converse l.device lines).1 } := by
  induction lines generalizing l with
  | nil => rfl
  | cons line lines ih =>
    have heard : l.hear line = { l.receive (Device.answer l.device line).2 with
        device := (Device.answer l.device line).1 } := receive_withDevice l _ _
    rw [List.foldl_cons, ih, heard, foldl_receive_withDevice]
    rfl

/-! ## What hearing has nothing to do with -/

/-- A link with another record and another unfinished line, that refuses writes or does not. -/
def withRecord (l : Link σ) (written unfinished : Bytes) (failWrites : Bool) : Link σ :=
  { l with written, unfinished, failWrites }

section

variable (l : Link σ) (w w' u u' : Bytes) (r r' : Bool)

@[simp] theorem written_withRecord : (l.withRecord w u r).written = w := rfl

@[simp] theorem unfinished_withRecord : (l.withRecord w u r).unfinished = u := rfl

@[simp] theorem failWrites_withRecord : (l.withRecord w u r).failWrites = r := rfl

@[simp] theorem withRecord_withRecord :
    (l.withRecord w u r).withRecord w' u' r' = l.withRecord w' u' r' := rfl

@[simp] theorem withRecord_self : l.withRecord l.written l.unfinished l.failWrites = l := rfl

variable [Device σ]

/-- Hearing a line has nothing to do with the record, the unfinished line or the switch for refusing
    writes. -/
@[simp] theorem hear_withRecord (line : Bytes) :
    (l.withRecord w u r).hear line = (l.hear line).withRecord w u r := by
  unfold hear receive withRecord
  dsimp only
  split <;> rfl

@[simp] theorem foldl_hear_withRecord (lines : List Bytes) :
    lines.foldl hear (l.withRecord w u r) = (lines.foldl hear l).withRecord w u r := by
  induction lines generalizing l with
  | nil => rfl
  | cons line lines ih => rw [List.foldl_cons, List.foldl_cons, hear_withRecord, ih]

end

/-! ## Scanning the record -/

/-- Where in the record the line begins that is not complete yet. -/
def lineStart (l : Link σ) : Nat := l.written.length - l.unfinished.length

/-- The unfinished line is the end of the record, and there is no line end in it.  Every write keeps
    it, and so the unfinished line can always be found again at the end of the record. -/
structure Framed (l : Link σ) : Prop where
  recorded : l.unfinished.reverse <:+ l.written
  unended : Unended l.unfinished.reverse

/-- A new link has an empty record and an empty line. -/
theorem framed_ofDevice (device : σ) : (ofDevice device).Framed := ⟨List.suffix_refl _, .nil⟩

/-- With the record the unfinished line is gone: a new record begins a new line. -/
theorem framed_takeWritten (l : Link σ) : l.takeWritten.2.Framed := ⟨List.suffix_refl _, .nil⟩

variable {l : Link σ}

/-- Reading a byte takes it from the other direction and leaves the record as it was. -/
theorem Framed.read {m : Link σ} {b : UInt8} (h : l.Framed) (oldest : l.read? = some (b, m)) : m.Framed := by
  have delivered : l.deliver.Framed := by
    rw [deliver_eq]
    exact ⟨h.recorded, h.unended⟩
  unfold read? at oldest
  split at oldest
  · cases oldest
  · cases oldest
    exact ⟨delivered.recorded, delivered.unended⟩

/-- From the start of the unfinished line on, the record with more bytes is that line with them. -/
theorem Framed.drop_lineStart (h : l.Framed) (data : Bytes) :
    (l.written ++ data).drop l.lineStart = l.unfinished.reverse ++ data := by
  obtain ⟨front, whole⟩ := h.recorded
  have start : l.lineStart = front.length := by
    rw [lineStart, ← whole, List.length_append, List.length_reverse, Nat.add_sub_cancel]
  rw [start, ← whole, List.append_assoc, List.drop_left]

variable [Device σ]

/-- The device hears the lines of a text, and its tail is left unfinished. -/
def hearText (l : Link σ) (text : Bytes) : Link σ :=
  ((cutLines text).1.foldl hear l).withRecord l.written (cutLines text).2.reverse l.failWrites

/-- More bytes go into the record, and it is scanned from the start of the unfinished line on.  A
    device that looks for its lines in the record, and not in each write, does just this. -/
def rescan (l : Link σ) (data : Bytes) : Link σ :=
  let written := l.written ++ data
  { l with written }.hearText (written.drop l.lineStart)

/-- A scan is hearing lines and setting the record, and the two do not disturb each other. -/
theorem rescan_eq_withRecord (l : Link σ) (data : Bytes) :
    l.rescan data =
      ((cutLines ((l.written ++ data).drop l.lineStart)).1.foldl hear l).withRecord (l.written ++ data)
        (cutLines ((l.written ++ data).drop l.lineStart)).2.reverse l.failWrites := by
  show ((cutLines _).1.foldl hear (l.withRecord (l.written ++ data) l.unfinished l.failWrites)).withRecord
    (l.written ++ data) _ l.failWrites = _
  rw [foldl_hear_withRecord, withRecord_withRecord]

/-- Whether writes are refused is nothing to the scan. -/
theorem rescan_refusing (on : Bool) (data : Bytes) :
    { l with failWrites := on }.rescan data = { l.rescan data with failWrites := on } := by
  have refusing : { l with failWrites := on } = l.withRecord l.written l.unfinished on := rfl
  rw [rescan_eq_withRecord, rescan_eq_withRecord, refusing, foldl_hear_withRecord]
  rfl

/-- From the start of the unfinished line on, the record is this line and the new data, so these are
    what is cut. -/
theorem Framed.rescan_eq (h : l.Framed) (data : Bytes) :
    l.rescan data =
      (l.withRecord (l.written ++ data) l.unfinished l.failWrites).hearText
        (l.unfinished.reverse ++ data) := by
  rw [← h.drop_lineStart]
  rfl

/-- What becomes of the device when it hears the lines, and what is left of the last one. -/
theorem rescan_eq_converse {data tail : Bytes} {heard : List Bytes}
    (cut : Cut ((l.written ++ data).drop l.lineStart) heard tail) :
    l.rescan data =
      { (Device.converse l.device heard).2.foldl receive l with
        device := (Device.converse l.device heard).1
        written := l.written ++ data
        unfinished := tail.reverse } := by
  rw [rescan_eq_withRecord, cut.eq_cutLines, foldl_hear_eq,
    ← failWrites_foldl_receive (Device.converse l.device heard).2 l]
  rfl

/-- What is unfinished after a scan is the tail of the cut. -/
theorem Framed.unfinished_rescan (h : l.Framed) (data : Bytes) :
    (l.rescan data).unfinished.reverse = (cutLines (l.unfinished.reverse ++ data)).2 := by
  rw [h.rescan_eq]
  exact List.reverse_reverse _

/-- After a scan the unfinished line ends the record again, and has no line end in it. -/
theorem Framed.framed_rescan (h : l.Framed) (data : Bytes) : (l.rescan data).Framed := by
  have cut := cut_cutLines (l.unfinished.reverse ++ data)
  have ends : l.unfinished.reverse ++ data <:+ l.written ++ data := by
    rw [← h.drop_lineStart]
    exact List.drop_suffix _ _
  constructor <;> rw [h.unfinished_rescan]
  · exact cut.tail_suffix.trans ends
  · exact cut.tail

/-- A scan without new data finds no line, since the unfinished one has no end. -/
theorem Framed.rescan_nil (h : l.Framed) : l.rescan [] = l := by
  simp [h.rescan_eq, hearText, cutLines_of_unended h.unended]

/-- The scan is resumed where it has stopped, so that two scans find what one finds. -/
theorem Framed.rescan_rescan (h : l.Framed) (xs ys : Bytes) :
    (l.rescan xs).rescan ys = l.rescan (xs ++ ys) := by
  rw [(h.framed_rescan xs).rescan_eq, h.unfinished_rescan, h.rescan_eq xs, h.rescan_eq (xs ++ ys), hearText,
    hearText, hearText, ← List.append_assoc l.unfinished.reverse,
    cutLines_append (l.unfinished.reverse ++ xs)]
  simp

/-! ## One byte after the other -/

/-- A byte completes a line end just if it is the line feed and the carriage return came before
    it. -/
theorem suffix_crlf_iff {unfinished : Bytes} {b : UInt8} :
    crlf <:+ unfinished.reverse ++ [b] ↔ ∃ line, unfinished = Ascii.cr :: line ∧ b = Ascii.lf := by
  rw [← List.reverse_prefix, List.reverse_append, List.reverse_reverse]
  show Ascii.lf :: [Ascii.cr] <+: b :: unfinished ↔ _
  rw [List.cons_prefix_cons]
  constructor
  · rintro ⟨rfl, line, rfl⟩
    exact ⟨line, rfl, rfl⟩
  · rintro ⟨line, rfl, rfl⟩
    exact ⟨rfl, line, rfl⟩

/-- The byte that completes a line has the device hear it. -/
theorem absorb_lf (lines : ∀ d : σ, Device.takesRaw d = false) {line : Bytes}
    (begun : l.unfinished = Ascii.cr :: line) :
    l.absorb Ascii.lf = (l.hear line.reverse).withRecord l.written [] l.failWrites := by
  rw [← hear_withRecord]
  unfold absorb extend
  rw [lines, begun]
  rfl

/-- Any other byte stands behind what there is of the line. -/
theorem absorb_of_unended (lines : ∀ d : σ, Device.takesRaw d = false) {b : UInt8}
    (noEnd : ¬crlf <:+ l.unfinished.reverse ++ [b]) :
    l.absorb b = l.withRecord l.written (b :: l.unfinished) l.failWrites := by
  unfold absorb extend
  rw [lines, if_neg (by decide)]
  split
  · rename_i line begun
    exact absurd (suffix_crlf_iff.mpr ⟨line, begun, rfl⟩) noEnd
  · rfl

/-- Bytes that come one after the other are heard as the text that they make up with the unfinished
    line.  By induction on the bytes: a line feed behind a carriage return ends a line, and any
    other byte goes on with it. -/
theorem absorbAll_eq_hearText (lines : ∀ d : σ, Device.takesRaw d = false) (data : Bytes) (l : Link σ)
    (unended : Unended l.unfinished.reverse) :
    l.absorbAll data = l.hearText (l.unfinished.reverse ++ data) := by
  induction data generalizing l with
  | nil => simp [hearText, cutLines_of_unended unended]
  | cons b data ih =>
    rw [absorbAll_cons]
    -- the byte completes the line, or it makes it longer and there is still no end in it
    by_cases ends : crlf <:+ l.unfinished.reverse ++ [b]
    · obtain ⟨line, begun, rfl⟩ := suffix_crlf_iff.mp ends
      have text : l.unfinished.reverse ++ Ascii.lf :: data = line.reverse ++ (crlf ++ data) := by
        rw [begun, List.reverse_cons, List.append_assoc]
        rfl
      have first : Unended line.reverse := by
        rw [begun, List.reverse_cons] at unended
        exact unended.of_front
      have fresh : Unended ((l.hear line.reverse).withRecord l.written [] l.failWrites).unfinished.reverse :=
        .nil
      rw [absorb_lf lines begun, ih _ fresh, text, hearText, hearText, cutLines_line first]
      simp
    · have text : l.unfinished.reverse ++ b :: data = (b :: l.unfinished).reverse ++ data := by
        rw [List.reverse_cons, List.append_assoc]
        rfl
      have more : Unended (b :: l.unfinished).reverse := by
        rw [List.reverse_cons]
        exact unended.concat ends
      rw [absorb_of_unended lines ends, ih _ more, text, hearText, hearText]
      simp

/-! ## One write after the other -/

/-- A single write, looked at byte by byte in the link, is one scan of the record. -/
theorem Framed.write_of_working (h : l.Framed) (lines : ∀ d : σ, Device.takesRaw d = false)
    (works : l.failWrites = false) (data : Bytes) : l.write data = .ok (l.rescan data) := by
  rw [Link.write_of_working works, h.rescan_eq]
  exact congrArg _ (absorbAll_eq_hearText lines data _ h.unended)

/-- Writes in pieces are one scan of all their bytes, wherever the pieces end. -/
theorem Framed.writes_of_working (h : l.Framed) (lines : ∀ d : σ, Device.takesRaw d = false)
    (works : l.failWrites = false) (pieces : List Bytes) :
    pieces.foldlM write l = .ok (l.rescan pieces.flatten) := by
  induction pieces generalizing l with
  | nil => exact congrArg Except.ok h.rescan_nil.symm
  | cons piece pieces ih =>
    rw [List.foldlM_cons, h.write_of_working lines works, List.flatten_cons, ← h.rescan_rescan]
    exact ih (h.framed_rescan piece) works

/-- A link that refuses writes takes nothing of them. -/
theorem write_of_refusing (refuses : l.failWrites = true) (data : Bytes) :
    l.write data = .error .linkBroken := if_pos refuses

end Link

/-- What is done at the near end of a link: bytes are written, or from now on writes are refused, or
    taken again.  They may come in any order, so that a line can be written in pieces with refusals
    in between. -/
inductive Attempt where
  | write (data : Bytes)
  | refuse (on : Bool)

namespace Attempt

variable {σ : Type} [Device σ] {l : Link σ}

/-- The link after it.  A write that fails has left it alone. -/
def run (l : Link σ) : Attempt → Link σ
  | write data =>
    match l.write data with
    | .ok m => m
    | .error _ => l
  | refuse on => { l with failWrites := on }

/-- The bytes that are taken of what is written to a link that refuses writes or does not. -/
def taken : Bool → List Attempt → Bytes
  | _, [] => []
  | refuses, write data :: rest => (if refuses then [] else data) ++ taken refuses rest
  | _, refuse on :: rest => taken on rest

/-- Whether the link refuses writes in the end: as it was told last. -/
def refuses : Bool → List Attempt → Bool
  | refuses, [] => refuses
  | before, write _ :: rest => refuses before rest
  | _, refuse on :: rest => refuses on rest

/-- A run of attempts is one scan of what was taken, by induction on the attempts; those that were
    refused have no part in it.  From here the theorem follows by looking at the record before and
    after. -/
theorem foldl_run_eq (lines : ∀ d : σ, Device.takesRaw d = false) (attempts : List Attempt)
    (framed : l.Framed) :
    attempts.foldl run l =
      { l.rescan (taken l.failWrites attempts) with failWrites := refuses l.failWrites attempts } := by
  induction attempts generalizing l with
  | nil => exact framed.rescan_nil.symm
  | cons a attempts ih =>
    rw [List.foldl_cons]
    cases a with
    | write data =>
      cases state : l.failWrites with
      | true =>
        have same : run l (write data) = l := by
          rw [run, Link.write_of_refusing state]
        rw [same, ih framed, state]
        rfl
      | false =>
        have written : run l (write data) = l.rescan data := by
          rw [run, framed.write_of_working lines state]
        have works : (l.rescan data).failWrites = false := state
        rw [written, ih (framed.framed_rescan data), framed.rescan_rescan, works]
        rfl
    | refuse on =>
      -- what is taken from here on is decided by the new state, which the scan does not look at
      have same : { l with failWrites := on }.Framed := ⟨framed.recorded, framed.unended⟩
      rw [run, ih same, Link.rescan_refusing]
      rfl

end Attempt

namespace Link

variable {σ : Type} [Device σ] {l : Link σ}

/-- A device that hears lines does not see where one write ends and the next begins.  From the start of the
    unfinished line on, the record is cut at its line ends; the device answers the lines one after the
    other, and what is behind the last end is kept for later.  Any writes that make up the same bytes leave
    the same link, and those that fail have no part in it. -/
theorem hears_lines_not_writes (lines : ∀ d : σ, Device.takesRaw d = false) (framed : l.Framed)
    (data : Bytes) :
    ∃ heard tail device replies,
      Cut ((l.written ++ data).drop l.lineStart) heard tail ∧
      Device.converse l.device heard = (device, replies) ∧
      let m := { replies.foldl receive l with
        device, written := l.written ++ data, unfinished := tail.reverse }
      m.Framed ∧
      ((∀ r ∈ replies, r.after = 0 ∧ r.gap = 0) → m.queued = l.queued ++ replies.flatMap Reply.bytes) ∧
      (l.failWrites = false → ∀ pieces : List Bytes, pieces.flatten = data →
        pieces.foldlM write l = .ok m) ∧
      (∀ attempts : List Attempt, Attempt.taken l.failWrites attempts = data →
        attempts.foldl Attempt.run l =
          { m with failWrites := Attempt.refuses l.failWrites attempts }) ∧
      (l.failWrites = true → ∀ piece : Bytes, l.write piece = .error .linkBroken) := by
  have cut := cut_cutLines ((l.written ++ data).drop l.lineStart)
  refine ⟨_, _, _, _, cut, rfl, ?_⟩
  rw [← rescan_eq_converse cut]
  refine ⟨framed.framed_rescan data, fun prompt => ?_, ?_, ?_, write_of_refusing⟩
  · rw [rescan_eq_converse cut]
    exact queued_foldl_receive prompt l
  · rintro works pieces rfl
    exact framed.writes_of_working lines works pieces
  · rintro attempts rfl
    exact Attempt.foldl_run_eq lines attempts framed

/-- A command in three pieces, cut inside its line end, with a write between them that is refused; behind it
    come another command, a line of one CR, an empty line and the begin of a line. -/
theorem hears_lines_not_writes_of_commands :
    let l := ofDevice (⟨[], Utf8.encode "OK"⟩ : Script)
    let attempts : List Attempt :=
      [.write (Utf8.encode "AT+C"), .write (Utf8.encode "SQ\r"), .refuse true, .write (Utf8.encode "x\r\n"),
        .refuse false, .write (Utf8.encode "\nAT\r\n\r\r\n\r\nze")]
    let m := attempts.foldl Attempt.run l
    l.Framed ∧ m.written = Utf8.encode "AT+CSQ\r\nAT\r\n\r\r\n\r\nze" ∧
      m.queued = Utf8.encode "OKOKOKOK" ∧ m.unfinished.reverse = Utf8.encode "ze" := by
  intro l attempts m
  have framed : l.Framed := framed_ofDevice _
  have written : Attempt.taken l.failWrites attempts = Utf8.encode "AT+CSQ\r\nAT\r\n\r\r\n\r\nze" := by
    decide
  obtain ⟨heard, tail, device, replies, cut, answered, -, queued, -, run, -⟩ :=
    hears_lines_not_writes (fun _ => rfl) framed (Utf8.encode "AT+CSQ\r\nAT\r\n\r\r\n\r\nze")
  -- the record, cut at its line ends by hand
  have lines : (heard, tail) =
      ([Utf8.encode "AT+CSQ", Utf8.encode "AT", [Ascii.cr], []], Utf8.encode "ze") :=
    cut.eq_cutLines.symm.trans (by decide)
  cases lines
  have four : replies = List.replicate 4 (.now (Utf8.encode "OK")) := (congrArg Prod.snd answered).symm
  subst four
  have final : m = _ := run attempts written
  rw [final]
  have prompt : ∀ r ∈ List.replicate 4 (Reply.now (Utf8.encode "OK")), r.after = 0 ∧ r.gap = 0 :=
    fun r mem => List.eq_of_mem_replicate mem ▸ ⟨rfl, rfl⟩
  exact ⟨framed, rfl, (queued prompt).trans (by decide), List.reverse_reverse _⟩

end Link
end AtModem
