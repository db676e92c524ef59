import RadioService.FrameDecode
import RadioService.IpcFifo

/-!
# Frames over the ring

The writers pass a frame to `writeAll` in one buffer or in several, and the
reader may drain between any two of them.  When the ring overflows it makes
room by a number of bytes; frames stay whole only if that happens to discard
whole frames in front of a reader that stands between two.
-/

namespace RadioService.Serial

open Bytes Rings Streams Machine

/-- The file, the frames begun so far, and the buffers of the last of them that
are still to be passed to `writeAll`. -/
structure Link where
  file : Buffer
  emitted : List Emission := []
  pending : List (List UInt8) := []

inductive LinkOp where
  /-- A writer takes the lock; it waits while another holds it. -/
  | emit (e : Emission)
  /-- The next `writeAll` of the writer that holds the lock. -/
  | piece
  | drain (limit : UInt32)
deriving DecidableEq

def linkStep (base : ℕ) : Step Link LinkOp UInt8
  | s, .emit e =>
    if s.pending = [] then
      ({ s with emitted := s.emitted ++ [e], pending := e.pieces }, [])
    else
      (s, [])
  | s, .piece =>
    match s.pending with
    | [] => (s, [])
    | buf :: rest => ({ s with file := writeAll base s.file buf, pending := rest }, [])
  | s, .drain limit =>
    ({ s with file := (readRing base limit s.file).1 }, (readRing base limit s.file).2)

namespace Link

variable (base : ℕ) (s : Link)

def ring : Ring := Ring.ofFile base s.file

def ahead : List UInt8 := (s.ring base).unread ++ s.pending.flatten

def stream : List UInt8 := s.emitted.flatMap Emission.bytes

/-- Where in the stream the oldest byte stands that waits. -/
def tailPos : ℕ := s.stream.length - (s.ahead base).length

/-- A position of the stream where a frame begins, or the last one ends. -/
def FrameStart (p : ℕ) : Prop := Boundary Emission.bytes s.emitted p

end Link

/-- Steps that leave frames whole: no counter wraps between bytes that wait, and
when a write overflows the ring, the oldest byte begins a frame and so does the
byte behind those discarded. -/
def Intact (base : ℕ) (s : Link) : LinkOp → Prop
  | .emit _ => True
  | .piece => ∀ buf ∈ s.pending.head?,
    Unwrapped base s.file (.write buf) ∧ buf.length ≤ 65520 ∧
      (Fits base s.file (.write buf) ∨
        s.FrameStart (s.tailPos base) ∧
          s.FrameStart (s.tailPos base + (s.ring base).discarded buf.length))
  | .drain limit => Unwrapped base s.file (.drain limit)

/-- What the reader has read and finds in front of it are whole frames. -/
structure Link.Whole (base : ℕ) (s : Link) (out : List UInt8) : Prop where
  used : (s.ring base).used ≤ 65520
  reads : Reads Emission.bytes s.emitted out (s.ahead base)

namespace Link.Whole

variable {base : ℕ} {s : Link} {out : List UInt8}

theorem emit (h : s.Whole base out) (e : Emission) :
    (linkStep base s (.emit e)).1.Whole base (out ++ (linkStep base s (.emit e)).2) := by
  by_cases hfree : s.pending = []
  case neg =>
    have hstep : linkStep base s (.emit e) = (s, []) := if_neg hfree
    rwa [hstep, List.append_nil]
  have hstep : linkStep base s (.emit e) =
      ({ s with emitted := s.emitted ++ [e], pending := e.pieces }, []) := if_pos hfree
  have hahead : s.ahead base = (s.ring base).unread := by
    rw [Link.ahead, hfree, List.flatten_nil, List.append_nil]
  have hemit := h.reads.emit e
  rw [hahead] at hemit
  rw [hstep, List.append_nil]
  exact ⟨h.used, hemit⟩

theorem write (h : s.Whole base out) {buf : List UInt8} {rest : List (List UInt8)}
    (hpending : s.pending = buf :: rest) (hunwrapped : Unwrapped base s.file (.write buf))
    (hlen : buf.length ≤ 65520)
    (hroom : Fits base s.file (.write buf) ∨
      s.FrameStart (s.tailPos base) ∧
        s.FrameStart (s.tailPos base + (s.ring base).discarded buf.length)) :
    Link.Whole base { s with file := writeAll base s.file buf, pending := rest } out := by
  obtain ⟨hused', hunread'⟩ := write_unwrapped h.used hlen hunwrapped
  have hdrop : (s.ring base).discarded buf.length ≤ ((s.ring base).unread ++ buf).length := by
    rw [List.length_append, Ring.length_unread]
    exact Nat.sub_le _ _
  have hahead : (Ring.ofFile base (writeAll base s.file buf)).unread ++ rest.flatten =
      (s.ahead base).drop ((s.ring base).discarded buf.length) := by
    rw [hunread', Link.ahead, hpending, List.flatten_cons, ← List.append_assoc]
    exact (List.drop_append_of_le_length hdrop).symm
  refine ⟨hused', ?_⟩
  change Reads _ _ _ ((Ring.ofFile base (writeAll base s.file buf)).unread ++ rest.flatten)
  rw [hahead]
  rcases hroom with hfits | ⟨hfrom, hto⟩
  · have hzero : (s.ring base).discarded buf.length = 0 := Nat.sub_eq_zero_of_le hfits
    rw [hzero, List.drop_zero]
    exact h.reads
  · exact h.reads.discard hfrom hto

theorem drain (h : s.Whole base out) {limit : UInt32}
    (hunwrapped : Unwrapped base s.file (.drain limit)) :
    (linkStep base s (.drain limit)).1.Whole base (out ++ (linkStep base s (.drain limit)).2) := by
  obtain ⟨hread, -, -, hused', hunread'⟩ := readRing_spec limit h.used
  refine ⟨hused'.trans_le ((Nat.sub_le _ _).trans h.used), Reads.read ?_⟩
  have hahead : (readRing base limit s.file).2 ++
      ((Ring.ofFile base (readRing base limit s.file).1).unread ++ s.pending.flatten) =
        s.ahead base := by
    rw [hread, hunread' hunwrapped, ← List.append_assoc, List.take_append_drop]
    rfl
  change Reads _ _ _ ((readRing base limit s.file).2 ++
    ((Ring.ofFile base (readRing base limit s.file).1).unread ++ s.pending.flatten))
  rw [hahead]
  exact h.reads

end Link.Whole

theorem whole_step {base : ℕ} {s : Link} {out : List UInt8} {op : LinkOp}
    (h : s.Whole base out) (hintact : Intact base s op) :
    (linkStep base s op).1.Whole base (out ++ (linkStep base s op).2) := by
  cases op with
  | emit e => exact h.emit e
  | piece =>
      cases hpending : s.pending with
      | nil =>
          have hstep : linkStep base s .piece = (s, []) := by
            simp [linkStep, hpending]
          rwa [hstep, List.append_nil]
      | cons buf rest =>
          have hstep : linkStep base s .piece =
              ({ s with file := writeAll base s.file buf, pending := rest }, []) := by
            simp [linkStep, hpending]
          obtain ⟨hunwrapped, hlen, hroom⟩ := hintact buf (by rw [hpending]; rfl)
          rw [hstep, List.append_nil]
          exact h.write hpending hunwrapped hlen hroom
  | drain limit => exact h.drain hintact

/-! ## A reader that stalls -/

def frameOps (e : Emission) (n : ℕ) : List LinkOp := (List.replicate n [.emit e, .piece]).flatten

theorem frameOps_succ (e : Emission) (n : ℕ) :
    frameOps e (n + 1) = frameOps e n ++ [.emit e, .piece] := by
  simp [frameOps, List.replicate_succ']

/-- The ring that nobody drains, behind `n` frames. -/
structure Flooded (e : Emission) (n : ℕ) (s : Link) : Prop where
  pending : s.pending = []
  emitted : s.emitted = List.replicate n e
  tail : (s.ring 0).tail = 0
  used : (s.ring 0).used = e.bytes.length * n
  unread : (s.ring 0).unread = (List.replicate n e.bytes).flatten

section

variable {e : Emission} (hpieces : e.pieces = [e.bytes])

include hpieces in
theorem frame_run {s : Link} (h : s.pending = []) :
    run (linkStep 0) s [.emit e, .piece] =
      ({ file := writeAll 0 s.file e.bytes, emitted := s.emitted ++ [e], pending := [] }, []) := by
  simp [linkStep, h, hpieces]

include hpieces in
/-- A frame written in one buffer leaves frames whole when it fits, or when what
it discards are the oldest frames. -/
theorem frame_intact {s : Link} (h : s.pending = []) (hlen : e.bytes.length ≤ 65520)
    (hstraight : (s.ring 0).tail ≤ (s.ring 0).head)
    (hroom : (s.ring 0).discarded e.bytes.length = 0 ∨
      (linkStep 0 s (.emit e)).1.tailPos 0 = 0 ∧
        (linkStep 0 s (.emit e)).1.FrameStart ((s.ring 0).discarded e.bytes.length)) :
    Along (linkStep 0) (Intact 0) s [.emit e, .piece] := by
  have hemit : linkStep 0 s (.emit e) =
      ({ s with emitted := s.emitted ++ [e], pending := e.pieces }, []) := if_pos h
  rw [Along_cons, Along_cons, hemit]
  rw [hemit] at hroom
  refine ⟨trivial, fun buf hbuf ↦ ?_, trivial⟩
  rw [hpieces] at hbuf
  cases hbuf
  refine ⟨.inr hstraight, hlen, ?_⟩
  rcases hroom with hzero | ⟨hfront, hwhole⟩
  · exact .inl (Nat.sub_eq_zero_iff_le.mp hzero)
  · refine .inr ⟨?_, ?_⟩
    · rw [hfront]
      exact ⟨0, Nat.zero_le _, rfl⟩
    · rw [hfront, Nat.zero_add]
      exact hwhole

theorem write_spec (s : Link) (buf : List UInt8) (hused : (s.ring 0).used ≤ 65520)
    (hbuf : buf.length ≤ 65520) (hstraight : (s.ring 0).tail ≤ (s.ring 0).head) :
    let r' := Ring.ofFile 0 (writeAll 0 s.file buf)
    let d := (s.ring 0).discarded buf.length
    r'.head = (s.ring 0).head + .ofNat buf.length ∧ r'.tail = (s.ring 0).tail + .ofNat d ∧
      r'.used = (s.ring 0).used + buf.length - d ∧
      r'.unread = ((s.ring 0).unread ++ buf).drop d :=
  writeAll_spec hused hbuf hstraight

theorem Flooded.straight {n : ℕ} {s : Link} (h : Flooded e n s) :
    (s.ring 0).tail ≤ (s.ring 0).head := by
  rw [h.tail]
  exact UInt32.le_iff_toNat_le.mpr (Nat.zero_le _)

include hpieces in
/-- As many frames as fit in the ring are written whole, and all of them wait. -/
theorem flooded {n : ℕ} (hn : e.bytes.length * n ≤ 65520) :
    ∃ s, run (linkStep 0) { file := fun _ ↦ 0 } (frameOps e n) = (s, []) ∧ Flooded e n s ∧
      Along (linkStep 0) (Intact 0) { file := fun _ ↦ 0 } (frameOps e n) := by
  induction n with
  | zero =>
      have hused : (Ring.ofFile 0 fun _ ↦ 0).used = 0 := by decide
      refine ⟨_, rfl, ⟨rfl, rfl, rfl, hused, ?_⟩, trivial⟩
      exact List.eq_nil_of_length_eq_zero ((Ring.length_unread _).trans hused)
  | succ n ih =>
      rw [Nat.mul_succ] at hn
      obtain ⟨s, hrun, hflood, hintact⟩ := ih (by omega)
      have hstraight := hflood.straight
      obtain ⟨hpending, hemitted, htail, hused, hunread⟩ := hflood
      have hd : (s.ring 0).discarded e.bytes.length = 0 := by
        apply Nat.sub_eq_zero_of_le
        omega
      obtain ⟨-, htail', hused', hunread'⟩ :=
        write_spec s e.bytes (by omega) (by omega) hstraight
      rw [hd] at htail' hused' hunread'
      rw [frameOps_succ]
      refine ⟨_, run_trans hrun (frame_run hpieces hpending), ⟨rfl, ?_, ?_, ?_, ?_⟩, ?_⟩
      · rw [hemitted, List.replicate_succ']
      · exact htail'.trans ((UInt32.add_zero _).trans htail)
      · apply hused'.trans
        rw [hused, Nat.mul_succ, Nat.sub_zero]
      · rw [hunread, List.drop_zero] at hunread'
        rw [List.replicate_succ', List.flatten_append, List.flatten_singleton]
        exact hunread'
      · rw [Along_append, hrun]
        exact ⟨hintact, frame_intact hpieces hpending (by omega) hstraight (.inl hd)⟩

include hpieces in
/-- In front of a flooded ring the next frame makes room at the first of them. -/
theorem Flooded.emit {n : ℕ} {s : Link} (h : Flooded e n s) :
    (linkStep 0 s (.emit e)).1.tailPos 0 = 0 ∧
      (linkStep 0 s (.emit e)).1.FrameStart e.bytes.length := by
  have hemit : linkStep 0 s (.emit e) =
      ({ s with emitted := s.emitted ++ [e], pending := e.pieces }, []) := if_pos h.pending
  have hall : s.emitted ++ [e] = List.replicate (n + 1) e := by
    rw [h.emitted, List.replicate_succ']
  rw [hemit, hall]
  refine ⟨Nat.sub_eq_zero_of_le (Nat.le_of_eq (congrArg List.length ?_)), 1, ?_, ?_⟩
  · change (List.replicate (n + 1) e).flatMap Emission.bytes =
      (s.ring 0).unread ++ e.pieces.flatten
    rw [h.unread, hpieces, List.flatten_singleton, List.flatMap_def, List.map_replicate,
      List.replicate_succ', List.flatten_append, List.flatten_singleton]
  · rw [List.length_replicate]
    exact Nat.succ_pos n
  · rw [List.replicate_succ, List.take_succ_cons, List.take_zero, List.flatMap_singleton]

/-- A frame behind those that fill the ring takes the place of the first of them. -/
theorem Flooded.replace {n : ℕ} {s : Link} (h : Flooded e n s)
    (hfull : e.bytes.length * n = 65520) (hlen : e.bytes.length ≤ 65520) :
    (s.ring 0).discarded e.bytes.length = e.bytes.length ∧
      (Ring.ofFile 0 (writeAll 0 s.file e.bytes)).used = 65520 ∧
      (Ring.ofFile 0 (writeAll 0 s.file e.bytes)).tail.toNat = e.bytes.length := by
  have hused := h.used
  have hd : (s.ring 0).discarded e.bytes.length = e.bytes.length := by
    change (s.ring 0).used + e.bytes.length - 65520 = e.bytes.length
    omega
  obtain ⟨-, htail', hused', -⟩ := write_spec s e.bytes (by omega) hlen h.straight
  rw [hd, Nat.add_sub_cancel, hused, hfull] at hused'
  rw [hd, h.tail, UInt32.zero_add] at htail'
  refine ⟨hd, hused', ?_⟩
  rw [htail', UInt32.toNat_ofNat']
  exact Nat.mod_eq_of_lt (by omega)

include hpieces in
/-- A reader that stalls until the frames have filled the ring to the last byte and
one more has come loses just the first. -/
theorem stalled_intact {n : ℕ} (hfull : e.bytes.length * n = 65520)
    (hlen : e.bytes.length ≤ 65520) :
    let ops := frameOps e (n + 1) ++ [.drain 4096]
    let r := run (linkStep 0) { file := fun _ ↦ 0 } ops
    Along (linkStep 0) (Intact 0) { file := fun _ ↦ 0 } ops ∧
      r.1.emitted = List.replicate (n + 1) e ∧ (r.2 ++ r.1.ahead 0).length = 65520 := by
  obtain ⟨s, hrun, hflood, hintact⟩ := flooded hpieces hfull.le
  obtain ⟨hfront, hfirst⟩ := hflood.emit hpieces
  obtain ⟨hd, hused, htail⟩ := hflood.replace hfull hlen
  have hall := run_trans hrun (frame_run hpieces hflood.pending)
  rw [← frameOps_succ] at hall
  have hframes : Along (linkStep 0) (Intact 0) { file := fun _ ↦ 0 } (frameOps e (n + 1)) := by
    rw [frameOps_succ, Along_append, hrun]
    exact ⟨hintact, frame_intact hpieces hflood.pending hlen hflood.straight
      (.inr ⟨hfront, by rwa [hd]⟩)⟩
  have htaken : (Ring.ofFile 0 (writeAll 0 s.file e.bytes)).taken 4096 ≤
      (Ring.ofFile 0 (writeAll 0 s.file e.bytes)).used := Nat.min_le_left _ _
  obtain ⟨hread, -, -, hleft, -⟩ := readRing_spec 4096 hused.le
  intro ops r
  have hr : r = run (linkStep 0) { file := fun _ ↦ 0 } ops := rfl
  rw [run_append, hall] at hr
  refine ⟨(Along_append _ _ _ _ _).mpr ⟨hframes, ?_⟩, ?_, ?_⟩
  · rw [hall]
    refine ⟨.inl ?_, trivial⟩
    change (Ring.ofFile 0 (writeAll 0 s.file e.bytes)).tail.toNat +
      (Ring.ofFile 0 (writeAll 0 s.file e.bytes)).taken 4096 < 2 ^ 32
    omega
  · rw [hr, List.replicate_succ', ← hflood.emitted]
    rfl
  · rw [hr]
    change ([] ++ ((readRing 0 4096 (writeAll 0 s.file e.bytes)).2 ++ []) ++
      ((Ring.ofFile 0 (readRing 0 4096 (writeAll 0 s.file e.bytes)).1).unread ++ [])).length = _
    rw [List.nil_append, List.append_nil, List.append_nil, List.length_append, hread,
      List.length_take, Ring.length_unread, Ring.length_unread, hleft]
    omega

end

/-! ## Frames that stay whole -/

/-- A packet whose frame goes 130 times into the ring. -/
def evenRx : Emission := .rx (List.replicate 499 0) 0

theorem pieces_rx {pkt : List UInt8} {rssi : Int16} (hshort : pkt.length ≤ 512) :
    (Emission.rx pkt rssi).pieces = [(Emission.rx pkt rssi).bytes] := by
  simp only [Emission.bytes, Emission.pieces, writeRx, if_pos hshort, List.flatten_cons,
    List.flatten_nil, List.append_nil]

theorem evenRx_length : evenRx.bytes.length = 504 := by
  rw [evenRx, Emission.bytes_rx, List.length_append, List.length_append, List.length_replicate]
  rfl

/-- In runs whose steps leave frames whole, what the reader has read and finds in
front of it are whole frames, in the order they were emitted. -/
theorem frames_intact (base : ℕ) (f : Buffer) (ops : List LinkOp)
    (hstart : (readHeader base f).head = (readHeader base f).tail)
    (hintact : Along (linkStep base) (Intact base) { file := f } ops) :
    let s := (run (linkStep base) { file := f } ops).1
    ∃ kept : List Emission, kept.Sublist s.emitted ∧
      (run (linkStep base) { file := f } ops).2 ++ s.ahead base =
        kept.flatMap Emission.bytes := by
  obtain ⟨hempty, hnothing⟩ := Ring.empty_of_eq (r := Ring.ofFile base f) hstart
  have hinit : Link.Whole base { file := f } [] := by
    refine ⟨hempty.trans_le (Nat.zero_le _), ?_⟩
    have hahead : Link.ahead base { file := f } = [] := by
      change (Ring.ofFile base f).unread ++ [] = []
      rw [hnothing, List.append_nil]
    rw [hahead]
    exact Reads.nil
  have hfinal := hintact.history (I := Link.Whole base) (fun s out op h hop ↦ whole_step h hop)
    hinit
  rw [List.nil_append] at hfinal
  exact hfinal.reads.whole

/-- The reader stalls through 131 frames, of which the ring holds 130. -/
theorem frames_intact_overflowed :
    let ops := frameOps evenRx 131 ++ [.drain 4096]
    let s := (run (linkStep 0) { file := fun _ ↦ 0 } ops).1
    s.emitted = List.replicate 131 evenRx ∧
      (run (linkStep 0) { file := fun _ ↦ 0 } ops).2 ++ s.ahead 0 =
        (List.replicate 130 evenRx).flatMap Emission.bytes := by
  have hlen := evenRx_length
  have hpieces : evenRx.pieces = [evenRx.bytes] := pieces_rx (by rw [List.length_replicate]; decide)
  obtain ⟨hintact, hemitted, hlong⟩ := stalled_intact (n := 130) hpieces (by omega) (by omega)
  obtain ⟨kept, hkept, hbytes⟩ := frames_intact 0 (fun _ ↦ 0) _ (by decide) hintact
  refine ⟨hemitted, hbytes.trans ?_⟩
  rw [hemitted] at hkept
  obtain ⟨k, -, rfl⟩ := List.sublist_replicate_iff.mp hkept
  rw [hbytes, List.length_flatMap, List.map_replicate, List.sum_replicate_nat, hlen] at hlong
  have hk : k = 130 := by omega
  rw [hk]

/-! ## Frames that do not fill the ring evenly -/

section

variable {e : Emission} (hpieces : e.pieces = [e.bytes]) (hlen : e.bytes.length = 516)

theorem drain_spec (f : Buffer) (hused : (Ring.ofFile 0 f).used ≤ 65520) :
    (readRing 0 4096 f).2 = (Ring.ofFile 0 f).unread.take ((Ring.ofFile 0 f).taken 4096) :=
  (readRing_spec 4096 hused).1

include hlen in
theorem overflowed {s : Link} (h : Flooded e 126 s) :
    (Ring.ofFile 0 (writeAll 0 s.file e.bytes)).used = 65520 ∧
      (Ring.ofFile 0 (writeAll 0 s.file e.bytes)).unread[0]? = e.bytes[12]? := by
  have hstraight := h.straight
  obtain ⟨-, -, -, hused, hunread⟩ := h
  have hd : (s.ring 0).discarded e.bytes.length = 12 := by
    change (s.ring 0).used + e.bytes.length - 65520 = 12
    omega
  obtain ⟨-, -, hused', hunread'⟩ := write_spec s e.bytes (by omega) (by omega) hstraight
  rw [hd] at hused' hunread'
  refine ⟨by omega, ?_⟩
  rw [hunread', hunread, List.replicate_succ, List.flatten_cons, List.getElem?_drop,
    List.append_assoc, List.getElem?_append_left (by omega)]

include hpieces hlen in
/-- A reader that stalls through 127 frames of 516 bytes reads the first of them
from its byte 12 on. -/
theorem stalled_reads :
    (run (linkStep 0) { file := fun _ ↦ 0 } (frameOps e 127 ++ [.drain 4096])).2[0]? =
      e.bytes[12]? := by
  obtain ⟨s, hrun, hflood, -⟩ := flooded (n := 126) hpieces (by omega)
  obtain ⟨hfull, hfirst⟩ := overflowed hlen hflood
  have hread := drain_spec (writeAll 0 s.file e.bytes) hfull.le
  have htaken : (Ring.ofFile 0 (writeAll 0 s.file e.bytes)).taken 4096 = 4096 := by
    rw [Ring.taken, hfull]
    rfl
  have hfrom := run_trans hrun (frame_run hpieces hflood.pending)
  rw [← frameOps_succ] at hfrom
  rw [run_append, hfrom, List.nil_append]
  change ((readRing 0 4096 (writeAll 0 s.file e.bytes)).2 ++ [])[0]? = _
  rw [List.append_nil, hread, htaken, List.getElem?_take_of_lt (by decide), hfirst]

end

/-- A packet of zeros, as large as packets on the air. -/
def zeroRx : Emission := .rx (List.replicate 511 0) 0

theorem zeroRx_pieces : zeroRx.pieces = [zeroRx.bytes] :=
  pieces_rx (by rw [List.length_replicate]; decide)

theorem zeroRx_bytes : zeroRx.bytes.length = 516 ∧ zeroRx.bytes[12]? = some 0 := by
  have hhead : (tagR :: lenBytes (List.replicate 511 (0 : UInt8)).length).length = 3 := rfl
  have hpkt : (List.replicate 511 (0 : UInt8)).length = 511 := List.length_replicate
  rw [zeroRx, Emission.bytes_rx]
  constructor
  · rw [List.length_append, List.length_append, hhead, hpkt]
    rfl
  · rw [List.getElem?_append_left (by rw [List.length_append, hhead, hpkt]; decide),
      List.getElem?_append_right (by rw [hhead]; decide), hhead, List.getElem?_replicate,
      if_pos (by decide)]

theorem Emission.bytes_head_ne_zero (e : Emission) : e.bytes[0]? ≠ some 0 := by
  cases e with
  | ready => simp [bytes, pieces, writeReady, tagG, le16]
  | error => simp [bytes, pieces, writeError, tagE]
  | stats => simp [bytes_stats, tagStats]
  | rx => simp [bytes_rx, tagR]
  | diag => simp [bytes_diag, tagD]

/-- Behind 127 packets of the air that nobody drained, the reader reads bytes that
no frames begin with. -/
theorem stalled_reader_cuts :
    let out := (run (linkStep 0) { file := fun _ ↦ 0 } (frameOps zeroRx 127 ++ [.drain 4096])).2
    out ≠ [] ∧ ∀ kept : List Emission, ¬out <+: kept.flatMap Emission.bytes := by
  intro out
  have hfirst : out[0]? = some 0 :=
    (stalled_reads zeroRx_pieces zeroRx_bytes.1).trans zeroRx_bytes.2
  refine ⟨fun hnil ↦ ?_, fun kept hkept ↦ ?_⟩
  · rw [hnil] at hfirst
    cases hfirst
  · obtain ⟨rest, hrest⟩ := hkept
    have hlead : (kept.flatMap Emission.bytes)[0]? = some 0 := by
      obtain ⟨hlt, -⟩ := List.getElem?_eq_some_iff.mp hfirst
      rw [← hrest, List.getElem?_append_left hlt, hfirst]
    cases kept with
    | nil => cases hlead
    | cons e kept =>
        have hpos := List.length_pos_iff.mpr e.bytes_ne_nil
        rw [List.flatMap_cons, List.getElem?_append_left hpos] at hlead
        exact e.bytes_head_ne_zero hlead

end RadioService.Serial
