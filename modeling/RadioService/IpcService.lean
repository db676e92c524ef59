import RadioService.IpcFifo
import RadioService.Wire

/-!
# The service at its file

With the IPC transport the service reads its bytes from one ring of the file and
writes to the other.  The host may write and read between any two bytes that the
service reads and between any two calls of `writeAll`.  Whatever the order, the
service handles the bytes of the host one after the other, and the host reads
what the service writes in order, apart from what a full ring drops.
-/

namespace RadioService.Serial

open Bytes Blocks Rings Machine

/-! ## What a ring carries -/

/-- The stream `ws` was written, and `got` was read from the part before the tail. -/
structure Ring.Carries (r : Ring) (ws got : List UInt8) : Prop where
  holds : r.Holds ws
  got : got.Sublist (ws.take r.tail.toNat)

namespace Ring

variable {r : Ring} {ws got : List UInt8}

theorem Holds.tail_le (h : r.Holds ws) : r.tail.toNat ≤ ws.length := by
  rw [← h.head]
  exact UInt32.le_iff_toNat_le.mp h.tail

theorem Holds.unread_eq (h : r.Holds ws) : r.unread = ws.drop r.tail.toNat := by
  have hend := List.suffix_iff_eq_drop.mp h.unread
  have htail := h.tail_le
  rw [length_unread, used_of_le h.tail, h.head, Nat.sub_sub_self htail] at hend
  exact hend

theorem Carries.sublist (h : r.Carries ws got) : (got ++ r.unread).Sublist ws := by
  have hall := h.got.append (List.Sublist.refl r.unread)
  rwa [h.holds.unread_eq, List.take_append_drop, ← h.holds.unread_eq] at hall

theorem Holds.empty (h : r.head = 0 ∧ r.tail = 0) : r.Holds [] := by
  obtain ⟨hhead, htail⟩ := h
  obtain ⟨hused, hunread⟩ := empty_of_eq (hhead.trans htail.symm)
  refine ⟨by rw [hhead]; rfl, by rw [hhead, htail]; exact UInt32.le_refl 0, by omega, ?_⟩
  exact hunread.symm ▸ List.suffix_rfl

end Ring

section

variable {base : ℕ} {f f' : Buffer} {ws got : List UInt8}

theorem Ring.Carries.step (h : (Ring.ofFile base f).Carries ws got) (op : RingOp)
    (hlen : (written [op]).length ≤ 65520) (htotal : (ws ++ written [op]).length < 2 ^ 32) :
    (Ring.ofFile base (ringStep base f op).1).Carries (ws ++ written [op])
      (got ++ (ringStep base f op).2) := by
  obtain ⟨hqueue, hholds⟩ := holds_step h.holds hlen htotal
  refine ⟨hholds, ?_⟩
  cases op with
  | write buf =>
      obtain ⟨-, htail, -⟩ := hqueue
      have hout : got ++ (ringStep base f (.write buf)).2 = got := List.append_nil got
      rw [hout, htail]
      refine h.got.trans ?_
      have hpart : (ws.take (Ring.ofFile base f).tail.toNat).Sublist
          ((ws ++ written [.write buf]).take (Ring.ofFile base f).tail.toNat) := by
        rw [List.take_append_of_le_length h.holds.tail_le]
      exact hpart.trans (List.take_sublist_take_left (Nat.le_add_right _ _))
  | drain limit =>
      obtain ⟨hread, -, htail⟩ := hqueue
      have hnone : ws ++ written [.drain limit] = ws := List.append_nil ws
      rw [hnone, hread, htail, List.take_add, h.holds.unread_eq]
      exact h.got.append (List.Sublist.refl _)

/-- Nothing is lost while the writes fit. -/
theorem Ring.Carries.exact_step (h : (Ring.ofFile base f).Carries ws got)
    (hexact : got ++ (Ring.ofFile base f).unread = ws) (op : RingOp)
    (hlen : (written [op]).length ≤ 65520) (htotal : (ws ++ written [op]).length < 2 ^ 32)
    (hfits : Fits base f op) :
    got ++ (ringStep base f op).2 ++ (Ring.ofFile base (ringStep base f op).1).unread =
      ws ++ written [op] := by
  obtain ⟨hqueue, -⟩ := holds_step h.holds hlen htotal
  cases op with
  | write buf =>
      obtain ⟨hunread, -⟩ := hqueue
      have hzero : (Ring.ofFile base f).discarded buf.length = 0 := Nat.sub_eq_zero_of_le hfits
      have hbuf : written [.write buf] = buf := List.append_nil buf
      have hout : got ++ (ringStep base f (.write buf)).2 = got := List.append_nil got
      rw [hout, hunread, hzero, List.drop_zero, hbuf, ← List.append_assoc, hexact]
  | drain limit =>
      obtain ⟨hread, hunread, -⟩ := hqueue
      have hnone : ws ++ written [.drain limit] = ws := List.append_nil ws
      rw [hnone, hread, hunread, List.append_assoc, List.take_append_drop, hexact]

theorem Ring.Carries.congr (h : (Ring.ofFile base f).Carries ws got)
    (hheader : readHeader base f' = readHeader base f)
    (hunread : (Ring.ofFile base f').unread = (Ring.ofFile base f).unread) :
    (Ring.ofFile base f').Carries ws got := by
  have hhead : (Ring.ofFile base f').head = (Ring.ofFile base f).head :=
    congrArg RingHeader.head hheader
  have htail : (Ring.ofFile base f').tail = (Ring.ofFile base f).tail :=
    congrArg RingHeader.tail hheader
  have hused : (Ring.ofFile base f').used = (Ring.ofFile base f).used := by
    rw [Ring.used, Ring.used, hhead, htail]
  obtain ⟨⟨head, tail, used, unread⟩, got⟩ := h
  refine ⟨⟨?_, ?_, hused.trans_le used, ?_⟩, ?_⟩
  · rwa [hhead]
  · rwa [hhead, htail]
  · rwa [hunread]
  · rwa [htail]

end

/-! ## The transport -/

/-- The service, the file, the bytes read ahead (`ipcRxBuf`, from `ipcRxPos` on), and
the buffers that it has still to pass to `writeAll`. -/
structure IpcService where
  service : Service
  file : Buffer
  ipcRxBuf : List UInt8 := []
  ipcRxPos : ℕ := 0
  outbox : List (List UInt8) := []

inductive IpcStep where
  /-- A turn of the loop in `pollOnce`, with the times read in it. -/
  | serve (r : RxByte) (io : HandlerInput)
  | poll (io : RadioService.PollInput)
  /-- The next call of `writeAll`. -/
  | flush
  | hostWrite (buf : List UInt8)
  | hostRead (limit : UInt32)

inductive IpcEvent where
  /-- The service takes a step. -/
  | turn (i : ServiceStep)
  | sent (buf : List UInt8)
  | posted (buf : List UInt8)
  | heard (buf : List UInt8)

def kIpcTotalSize : ℕ := 262144

/-- The file behind the start: a short one is filled with zeros first. -/
def initFile (size : ℕ) (f : Buffer) : Buffer :=
  let f := if size < kIpcTotalSize then writeBlock f 0 (List.replicate kIpcTotalSize 0) else f
  writeBlock (writeBlock f kIpcR2VBase (le32 0 ++ le32 0)) kIpcV2RBase (le32 0 ++ le32 0)

namespace IpcService

/-- A service that starts, with its first frames still to be written. -/
def init (service : Service) (size : ℕ) (f : Buffer) (io : HandlerInput) : IpcService where
  service := service
  file := initFile size f
  outbox := buffers (respond io service .greeting).2

/-- `readByte` with no time to wait. -/
def readByte (s : IpcService) : IpcService × Option UInt8 :=
  match s.ipcRxBuf[s.ipcRxPos]? with
  | some b => ({ s with ipcRxPos := s.ipcRxPos + 1 }, some b)
  | none =>
    match readRing kIpcV2RBase 4096 s.file with
    | (file, []) => ({ s with file := file }, none)
    | (file, b :: got) => ({ s with file := file, ipcRxBuf := b :: got, ipcRxPos := 1 }, some b)

def ahead (s : IpcService) : List UInt8 := s.ipcRxBuf.drop s.ipcRxPos

/-- The service takes a step and leaves what it writes in the outbox. -/
def turn (s : IpcService) (i : ServiceStep) : IpcService × List IpcEvent :=
  ({ s with
      service := (serviceStep s.service i).1
      outbox := buffers (serviceStep s.service i).2 }, [.turn i])

def readOp (r : RxByte) : Option UInt8 → ServerOp
  | some b => .byte { r with byte := b }
  | none => .empty r.now

end IpcService

def ipcStep : Step IpcService IpcStep IpcEvent
  | s, .serve r io =>
    if s.outbox ≠ [] ∨ s.service.atWorker then
      (s, [])
    else
      let (s, b) := s.readByte
      s.turn (.serve (IpcService.readOp r b) io)
  | s, .poll io => if s.outbox ≠ [] then (s, []) else s.turn (.poll io)
  | s, .flush =>
    match s.outbox with
    | [] => (s, [])
    | buf :: rest =>
      ({ s with file := writeAll kIpcR2VBase s.file buf, outbox := rest }, [.sent buf])
  | s, .hostWrite buf => ({ s with file := writeAll kIpcV2RBase s.file buf }, [.posted buf])
  | s, .hostRead limit =>
    ({ s with file := (readRing kIpcR2VBase limit s.file).1 },
      [.heard (readRing kIpcR2VBase limit s.file).2])

/-! ## What goes in and out -/

def turns (out : List IpcEvent) : List ServiceStep :=
  out.filterMap fun
    | .turn i => some i
    | _ => none

def sent (out : List IpcEvent) : List UInt8 :=
  out.flatMap fun
    | .sent buf => buf
    | _ => []

def posted (out : List IpcEvent) : List UInt8 :=
  out.flatMap fun
    | .posted buf => buf
    | _ => []

def heard (out : List IpcEvent) : List UInt8 :=
  out.flatMap fun
    | .heard buf => buf
    | _ => []

/-- The bytes that the server is given. -/
def bytesRead (is : List ServiceStep) : List UInt8 :=
  is.filterMap fun
    | .serve (.byte r) _ => some r.byte
    | _ => none

/-- The host writes only what the ring has room for. -/
def HostFits (s : IpcService) : IpcStep → Prop
  | .hostWrite buf => Fits kIpcV2RBase s.file (.write buf)
  | _ => True

section

variable (out out' : List IpcEvent)

@[simp] theorem turns_append : turns (out ++ out') = turns out ++ turns out' :=
  List.filterMap_append

@[simp] theorem sent_append : sent (out ++ out') = sent out ++ sent out' := List.flatMap_append

@[simp] theorem posted_append : posted (out ++ out') = posted out ++ posted out' :=
  List.flatMap_append

@[simp] theorem heard_append : heard (out ++ out') = heard out ++ heard out' :=
  List.flatMap_append

@[simp] theorem bytesRead_append (is is' : List ServiceStep) :
    bytesRead (is ++ is') = bytesRead is ++ bytesRead is' := List.filterMap_append

end

/-! ## Reading -/

namespace IpcService

theorem readByte_frame (s : IpcService) :
    s.readByte.1.service = s.service ∧ s.readByte.1.outbox = s.outbox := by
  unfold readByte
  split
  · exact ⟨rfl, rfl⟩
  · split <;> exact ⟨rfl, rfl⟩

/-- A byte read ahead, or a round of the read loop. -/
theorem readByte_cases (s : IpcService) :
    (s.readByte.1.file = s.file ∧ s.readByte.2 ≠ none ∧
        s.readByte.2.toList ++ s.readByte.1.ahead = s.ahead) ∨
      (s.ahead = [] ∧ s.readByte.1.file = (ringStep kIpcV2RBase s.file (.drain 4096)).1 ∧
        s.readByte.2.toList ++ s.readByte.1.ahead =
          (ringStep kIpcV2RBase s.file (.drain 4096)).2 ∧
        (s.readByte.2 = none → (ringStep kIpcV2RBase s.file (.drain 4096)).2 = [])) := by
  unfold readByte
  split
  case h_1 b hb =>
    obtain ⟨hpos, rfl⟩ := List.getElem?_eq_some_iff.mp hb
    exact .inl ⟨rfl, Option.some_ne_none _, (List.drop_eq_getElem_cons hpos).symm⟩
  case h_2 hnone =>
    have hahead : s.ahead = [] := List.drop_eq_nil_of_le (List.getElem?_eq_none_iff.mp hnone)
    refine .inr ⟨hahead, ?_⟩
    split
    case h_1 file hread =>
      have hstep : ringStep kIpcV2RBase s.file (.drain 4096) = (file, []) := hread
      rw [hstep]
      exact ⟨rfl, hahead, fun _ ↦ rfl⟩
    case h_2 file b got hread =>
      have hstep : ringStep kIpcV2RBase s.file (.drain 4096) = (file, b :: got) := hread
      rw [hstep]
      exact ⟨rfl, rfl, fun h ↦ absurd h (Option.some_ne_none b)⟩

variable {s : IpcService} {ws got : List UInt8}

/-- What `readByte` gives comes first of what waits, and it gives nothing only when
nothing waits. -/
theorem readByte_spec (h : (Ring.ofFile kIpcV2RBase s.file).Carries ws (got ++ s.ahead))
    (hexact : got ++ s.ahead ++ (Ring.ofFile kIpcV2RBase s.file).unread = ws)
    (htotal : ws.length < 2 ^ 32) :
    let s' := s.readByte.1
    let b := s.readByte.2.toList
    (Ring.ofFile kIpcV2RBase s'.file).Carries ws (got ++ b ++ s'.ahead) ∧
      got ++ b ++ s'.ahead ++ (Ring.ofFile kIpcV2RBase s'.file).unread = ws ∧
      (s.readByte.2 = none → got = ws) := by
  intro s' b
  rcases s.readByte_cases with ⟨hfile, hsome, hahead⟩ | ⟨hnothing, hfile, hahead, hnone⟩
  · have hall : got ++ b ++ s'.ahead = got ++ s.ahead :=
      (List.append_assoc got b s'.ahead).trans (congrArg (got ++ ·) hahead)
    have hfile' : s'.file = s.file := hfile
    rw [hall, hfile']
    exact ⟨h, hexact, fun hb ↦ absurd hb hsome⟩
  · have hall : got ++ b ++ s'.ahead =
        got ++ s.ahead ++ (ringStep kIpcV2RBase s.file (.drain 4096)).2 := by
      rw [hnothing, List.append_nil, List.append_assoc]
      exact congrArg (got ++ ·) hahead
    have hfile' : s'.file = (ringStep kIpcV2RBase s.file (.drain 4096)).1 := hfile
    have hws : ws ++ written [.drain 4096] = ws := List.append_nil ws
    have hlen : (written [.drain 4096]).length ≤ 65520 := Nat.zero_le _
    have hnext := h.step (.drain 4096) hlen (by rwa [hws])
    have hrest := h.exact_step hexact (.drain 4096) hlen (by rwa [hws]) trivial
    rw [hall, hfile']
    rw [hws] at hnext hrest
    refine ⟨hnext, hrest, fun hb ↦ ?_⟩
    -- a round that reads nothing has found the ring empty
    have hread : (readRing kIpcV2RBase 4096 s.file).2 = _ := (readRing_spec 4096 h.holds.used).1
    have hlen' := congrArg List.length (hread.symm.trans (hnone hb))
    rw [List.length_take, Ring.length_unread, Ring.taken, List.length_nil] at hlen'
    have hlimit : (4096 : UInt32).toNat = 4096 := rfl
    have hempty : (Ring.ofFile kIpcV2RBase s.file).unread = [] :=
      List.eq_nil_of_length_eq_zero (by rw [Ring.length_unread]; omega)
    rwa [hnothing, hempty, List.append_nil, List.append_nil] at hexact

end IpcService

/-! ## Both rings -/

/-- The two rings are apart. -/
theorem Ring.Carries.apart {base base' : ℕ} {f : Buffer} {ws got : List UInt8}
    (h : (Ring.ofFile base' f).Carries ws got) (op : RingOp)
    (hapart : base' + 65536 ≤ base ∨ base + 65536 ≤ base') (hlen : (written [op]).length ≤ 65520) :
    (Ring.ofFile base' (ringStep base f op).1).Carries ws got ∧
      (Ring.ofFile base' (ringStep base f op).1).unread = (Ring.ofFile base' f).unread := by
  obtain ⟨hheader, hunread⟩ := run_apart hapart f [op] fun x hx ↦ by
    rwa [List.mem_singleton.mp hx]
  exact ⟨h.congr hheader hunread, hunread⟩

/-! ## The buffers of the service -/

theorem Emission.length_pieces {e : Emission} (h : e.fits) :
    ∀ buf ∈ e.pieces, buf.length ≤ 65520 := by
  cases e with
  | rx pkt rssi =>
      have hpkt : pkt.length ≤ 24576 := h
      change ∀ buf ∈ writeRx pkt rssi, buf.length ≤ 65520
      unfold writeRx
      split <;> simp [le16, lenBytes] <;> omega
  | ready maxPayload => simp [pieces, writeReady, le16]
  | error code msg =>
      have htake := List.length_take_le 64 (cString msg)
      change ∀ buf ∈ writeError code msg, buf.length ≤ 65520
      refine List.forall_mem_singleton.mpr ?_
      rw [List.length_append]
      exact (Nat.add_le_add_left htake 3).trans (by decide)
  | stats c => simp [pieces, writeStats, writeFrame, lenBytes, le16]
  | diag event val => simp [pieces, writeDiag, writeFrame, lenBytes, le16]

theorem Act.length_buffers {a : Act} (h : a.own = true) :
    ∀ buf ∈ buffers a.events, buf.length ≤ 65520 := by
  have hwrites : ∀ bufs : List (List UInt8), buffers (writes bufs) = bufs := fun bufs ↦ by
    simp [buffers, writes, List.filterMap_map, Function.comp_def, ServiceEvent.written?]
  have hpieces : ∀ e ∈ a.emissions, ∀ buf ∈ e.pieces, buf.length ≤ 65520 := fun e he ↦
    Emission.length_pieces (Act.fits_emissions h e he)
  cases a with
  | effect e =>
      intro buf hbuf
      change buf ∈ buffers ((onWorkerEffect e).flatMap fun m ↦ writes m.pieces) at hbuf
      rw [buffers, List.filterMap_flatMap] at hbuf
      obtain ⟨m, hm, hbuf⟩ := List.mem_flatMap.mp hbuf
      exact hpieces m hm buf (hwrites m.pieces ▸ hbuf)
  | say e => exact hwrites e.pieces ▸ hpieces e (List.mem_singleton_self e)
  | command c =>
      cases c with
      | handleReset => simp [Act.events, hwrites]
      | _ => exact fun buf hbuf ↦ absurd hbuf List.not_mem_nil
  | _ => exact fun buf hbuf ↦ absurd hbuf List.not_mem_nil

theorem length_buffers_acts {acts : List Act} (h : ∀ a ∈ acts, a.own = true) :
    ∀ buf ∈ buffers (acts.flatMap Act.events), buf.length ≤ 65520 := by
  intro buf hbuf
  rw [buffers, List.filterMap_flatMap] at hbuf
  obtain ⟨a, ha, hbuf⟩ := List.mem_flatMap.mp hbuf
  exact Act.length_buffers (h a ha) buf hbuf

theorem length_buffers_step (s : Service) (i : ServiceStep) :
    ∀ buf ∈ buffers (serviceStep s i).2, buf.length ≤ 65520 := by
  have hown := run_tell_own s [i]
  rw [run_cons, run_nil, List.append_nil] at hown
  rw [serviceStep_eq_tell]
  exact length_buffers_acts hown

/-! ## The invariant -/

/-- The bytes that wait for the service, and those written by it, below `2 ^ 32`. -/
def Bounded (start : Service) (greet : List ServiceEvent) (out : List IpcEvent) : Prop :=
  (posted out).length < 2 ^ 32 ∧
    (wire (greet ++ (run serviceStep start (turns out)).2)).length < 2 ^ 32

/-- A poll of the server ends only when it has read all that the host has written. -/
def Drained (out : List IpcEvent) : Prop :=
  ∀ pre now io post, out = pre ++ .turn (.serve (.empty now) io) :: post →
    bytesRead (turns pre) = posted pre

structure Moored (start : Service) (greet : List ServiceEvent) (s : IpcService)
    (out : List IpcEvent) : Prop where
  service : (run serviceStep start (turns out)).1 = s.service
  wire : sent out ++ s.outbox.flatten = wire (greet ++ (run serviceStep start (turns out)).2)
  small : ∀ buf ∈ s.outbox, buf.length ≤ 65520
  inbound : (Ring.ofFile kIpcV2RBase s.file).Carries (posted out)
    (bytesRead (turns out) ++ s.ahead)
  allIn : bytesRead (turns out) ++ s.ahead ++ (Ring.ofFile kIpcV2RBase s.file).unread = posted out
  outbound : (Ring.ofFile kIpcR2VBase s.file).Carries (sent out) (heard out)
  drained : Drained out

section

variable {start : Service} {greet : List ServiceEvent} {s : IpcService} {out : List IpcEvent}

theorem Bounded.of_append {new : List IpcEvent} (h : Bounded start greet (out ++ new)) :
    Bounded start greet out := by
  obtain ⟨hposted, hwire⟩ := h
  rw [posted_append, List.length_append] at hposted
  rw [turns_append, run_append, ← List.append_assoc, wire_append, List.length_append] at hwire
  exact ⟨by omega, by omega⟩

theorem Drained.append (h : Drained out) {e : IpcEvent}
    (he : ∀ now io, e = .turn (.serve (.empty now) io) → bytesRead (turns out) = posted out) :
    Drained (out ++ [e]) := by
  intro pre now io post hsplit
  rcases List.append_eq_append_iff.mp hsplit with ⟨mid, hpre, hmid⟩ | ⟨mid, hout, hmid⟩
  · cases mid with
    | nil =>
        rw [List.append_nil] at hpre
        obtain ⟨heq, -⟩ := List.cons_eq_cons.mp hmid
        exact hpre ▸ he now io heq
    | cons x mid => simp at hmid
  · cases mid with
    | nil =>
        rw [List.append_nil] at hout
        obtain ⟨heq, -⟩ := List.cons_eq_cons.mp hmid
        exact hout ▸ he now io heq.symm
    | cons x mid =>
        obtain ⟨heq, -⟩ := List.cons_eq_cons.mp hmid
        exact h pre now io mid (by rw [hout, ← heq])

namespace Moored

/-- The service takes a step behind a read that may have moved bytes. -/
theorem turn (h : Moored start greet s out) (hfree : s.outbox = []) {s' : IpcService}
    (hframe : s'.service = s.service ∧ s'.outbox = s.outbox) (i : ServiceStep)
    (hin : (Ring.ofFile kIpcV2RBase s'.file).Carries (posted out)
      (bytesRead (turns out) ++ bytesRead [i] ++ s'.ahead))
    (hall : bytesRead (turns out) ++ bytesRead [i] ++ s'.ahead ++
      (Ring.ofFile kIpcV2RBase s'.file).unread = posted out)
    (hout : (Ring.ofFile kIpcR2VBase s'.file).Carries (sent out) (heard out))
    (hlast : ∀ now io, i = .serve (.empty now) io → bytesRead (turns out) = posted out) :
    Moored start greet (s'.turn i).1 (out ++ (s'.turn i).2) := by
  obtain ⟨hservice, hwire, -, -, -, -, hdrained⟩ := h
  obtain ⟨hsame, -⟩ := hframe
  have hturn : (s'.turn i).2 = [.turn i] := rfl
  have hturns : turns (out ++ [.turn i]) = turns out ++ [i] := turns_append _ _
  have hrun : run serviceStep start (turns out ++ [i]) =
      ((serviceStep s'.service i).1, (run serviceStep start (turns out)).2 ++
        (serviceStep s'.service i).2) := by
    rw [run_append, hservice, ← hsame, run_cons, run_nil, List.append_nil]
  rw [hfree, List.flatten_nil, List.append_nil] at hwire
  have hsent : sent (out ++ [.turn i]) = sent out := by
    rw [sent_append]
    exact List.append_nil _
  have hposted : posted (out ++ [.turn i]) = posted out := by
    rw [posted_append]
    exact List.append_nil _
  have hheard : heard (out ++ [.turn i]) = heard out := by
    rw [heard_append]
    exact List.append_nil _
  rw [hturn]
  refine ⟨?_, ?_, length_buffers_step _ i, ?_, ?_, ?_, ?_⟩
  · rw [hturns, hrun]
    rfl
  · rw [hturns, hrun, hsent, ← List.append_assoc, wire_append, ← hwire]
    rfl
  · rw [hturns, bytesRead_append, hposted]
    exact hin
  · rw [hturns, bytesRead_append, hposted]
    exact hall
  · rw [hsent, hheard]
    exact hout
  · refine hdrained.append fun now io heq ↦ ?_
    cases heq
    exact hlast now io rfl

theorem serve (h : Moored start greet s out) (hbounded : Bounded start greet out) (r : RxByte)
    (io : HandlerInput) :
    Moored start greet (ipcStep s (.serve r io)).1 (out ++ (ipcStep s (.serve r io)).2) := by
  by_cases hbusy : s.outbox ≠ [] ∨ s.service.atWorker
  case pos =>
    have hstep : ipcStep s (.serve r io) = (s, []) := if_pos hbusy
    rwa [hstep, List.append_nil]
  case neg =>
    have hstep : ipcStep s (.serve r io) =
        s.readByte.1.turn (.serve (IpcService.readOp r s.readByte.2) io) := if_neg hbusy
    obtain ⟨hfree, -⟩ := not_or.mp hbusy
    obtain ⟨hin, hall, hnone⟩ := IpcService.readByte_spec h.inbound h.allIn hbounded.1
    have hbyte : bytesRead [.serve (IpcService.readOp r s.readByte.2) io] =
        s.readByte.2.toList := by
      cases s.readByte.2 <;> rfl
    have hout : (Ring.ofFile kIpcR2VBase s.readByte.1.file).Carries (sent out) (heard out) := by
      rcases s.readByte_cases with ⟨hfile, -⟩ | ⟨-, hfile, -⟩
      · rw [hfile]
        exact h.outbound
      · rw [hfile]
        exact (h.outbound.apart (.drain 4096) (.inl le_rfl) (Nat.zero_le _)).1
    rw [hstep]
    refine h.turn (not_not.mp hfree) s.readByte_frame _ ?_ ?_ hout fun now io' heq ↦ ?_
    · rw [hbyte]
      exact hin
    · rw [hbyte]
      exact hall
    · cases hread : s.readByte.2 with
      | none => exact hnone hread
      | some b =>
          rw [hread] at heq
          cases heq

theorem poll (h : Moored start greet s out) (io : RadioService.PollInput) :
    Moored start greet (ipcStep s (.poll io)).1 (out ++ (ipcStep s (.poll io)).2) := by
  by_cases hbusy : s.outbox ≠ []
  case pos =>
    have hstep : ipcStep s (.poll io) = (s, []) := if_pos hbusy
    rwa [hstep, List.append_nil]
  case neg =>
    have hstep : ipcStep s (.poll io) = s.turn (.poll io) := if_neg hbusy
    have hbytes : bytesRead (turns out) ++ bytesRead [.poll io] = bytesRead (turns out) :=
      List.append_nil _
    rw [hstep]
    refine h.turn (not_not.mp hbusy) ⟨rfl, rfl⟩ _ ?_ ?_ h.outbound fun now io' heq ↦ by cases heq
    · rw [hbytes]
      exact h.inbound
    · rw [hbytes]
      exact h.allIn

/-- What happens at the rings while the service itself takes no step. -/
theorem beside (h : Moored start greet s out) {s' : IpcService} {e : IpcEvent}
    (hturns : turns [e] = []) (hservice : s'.service = s.service)
    (hwire : sent [e] ++ s'.outbox.flatten = s.outbox.flatten)
    (hsmall : ∀ buf ∈ s'.outbox, buf.length ≤ 65520)
    (hin : (Ring.ofFile kIpcV2RBase s'.file).Carries (posted out ++ posted [e])
      (bytesRead (turns out) ++ s'.ahead))
    (hall : bytesRead (turns out) ++ s'.ahead ++ (Ring.ofFile kIpcV2RBase s'.file).unread =
      posted out ++ posted [e])
    (hout : (Ring.ofFile kIpcR2VBase s'.file).Carries (sent out ++ sent [e])
      (heard out ++ heard [e])) :
    Moored start greet s' (out ++ [e]) := by
  have hsame : turns (out ++ [e]) = turns out := by rw [turns_append, hturns, List.append_nil]
  refine ⟨?_, ?_, hsmall, ?_, ?_, ?_, ?_⟩
  · rw [hsame, hservice]
    exact h.service
  · rw [hsame, sent_append, List.append_assoc, hwire]
    exact h.wire
  · rw [hsame, posted_append]
    exact hin
  · rw [hsame, posted_append]
    exact hall
  · rw [sent_append, heard_append]
    exact hout
  · refine h.drained.append fun now io heq ↦ ?_
    rw [heq] at hturns
    cases hturns

theorem sent_le (h : Moored start greet s out) (hbounded : Bounded start greet out) :
    (sent out ++ s.outbox.flatten).length < 2 ^ 32 := by
  rw [h.wire]
  exact hbounded.2

theorem flush (h : Moored start greet s out) (hbounded : Bounded start greet out) :
    Moored start greet (ipcStep s .flush).1 (out ++ (ipcStep s .flush).2) := by
  cases hbox : s.outbox with
  | nil =>
    have hstep : ipcStep s .flush = (s, []) := by
      rw [ipcStep, hbox]
    rwa [hstep, List.append_nil]
  | cons buf rest =>
    have hstep : ipcStep s .flush =
        ({ s with file := writeAll kIpcR2VBase s.file buf, outbox := rest }, [.sent buf]) := by
      rw [ipcStep, hbox]
    have hsmall := h.small
    have htotal := h.sent_le hbounded
    rw [hbox] at hsmall htotal
    have hbuf : written [.write buf] = buf := List.append_nil buf
    have hlen : (written [.write buf]).length ≤ 65520 := by
      rw [hbuf]
      exact hsmall buf List.mem_cons_self
    have hsent : (sent out ++ written [.write buf]).length < 2 ^ 32 := by
      rw [List.flatten_cons, List.length_append, List.length_append] at htotal
      rw [List.length_append, hbuf]
      omega
    obtain ⟨hin, hunread⟩ := h.inbound.apart (.write buf) (.inr le_rfl) hlen
    have hnone : posted out ++ posted [.sent buf] = posted out := List.append_nil _
    rw [hstep]
    refine h.beside rfl rfl ?_ (List.forall_mem_cons.mp hsmall).2 ?_ ?_ ?_
    · rw [hbox]
      exact congrArg (· ++ rest.flatten) hbuf
    · rw [hnone]
      exact hin
    · rw [hnone, ← h.allIn]
      exact congrArg (_ ++ ·) hunread
    · exact h.outbound.step (.write buf) hlen hsent

theorem hostWrite (h : Moored start greet s out) {buf : List UInt8}
    (hbounded : Bounded start greet (out ++ [.posted buf])) (hfits : HostFits s (.hostWrite buf)) :
    Moored start greet (ipcStep s (.hostWrite buf)).1 (out ++ [.posted buf]) := by
  have hbuf : written [.write buf] = buf := List.append_nil buf
  have hroom : (Ring.ofFile kIpcV2RBase s.file).used + buf.length ≤ 65520 := hfits
  have hlen : (written [.write buf]).length ≤ 65520 := by
    rw [hbuf]
    omega
  have htotal : (posted out ++ written [.write buf]).length < 2 ^ 32 := by
    have hposted := hbounded.1
    rwa [posted_append] at hposted
  have hin := h.inbound.step (.write buf) hlen htotal
  have hall := h.inbound.exact_step h.allIn (.write buf) hlen htotal hfits
  have hnone : ∀ got : List UInt8, got ++ (ringStep kIpcV2RBase s.file (.write buf)).2 = got :=
    List.append_nil
  rw [hnone] at hin hall
  have hsent : sent out ++ sent [.posted buf] = sent out := List.append_nil _
  have hheard : heard out ++ heard [.posted buf] = heard out := List.append_nil _
  refine h.beside rfl rfl rfl h.small hin hall ?_
  rw [hsent, hheard]
  exact (h.outbound.apart (.write buf) (.inl le_rfl) hlen).1

theorem hostRead (h : Moored start greet s out) (hbounded : Bounded start greet out)
    (limit : UInt32) :
    Moored start greet (ipcStep s (.hostRead limit)).1
      (out ++ (ipcStep s (.hostRead limit)).2) := by
  have hlen : (written [.drain limit]).length ≤ 65520 := Nat.zero_le _
  have hsent : (sent out ++ written [.drain limit]).length < 2 ^ 32 := by
    have htotal := h.sent_le hbounded
    rw [List.length_append] at htotal
    have hnone : sent out ++ written [.drain limit] = sent out := List.append_nil _
    rw [hnone]
    omega
  obtain ⟨hin, hunread⟩ := h.inbound.apart (.drain limit) (.inr le_rfl) hlen
  have hposted : posted out ++ posted [.heard (readRing kIpcR2VBase limit s.file).2] =
      posted out := List.append_nil _
  have hheard : heard [.heard (readRing kIpcR2VBase limit s.file).2] =
      (ringStep kIpcR2VBase s.file (.drain limit)).2 := List.append_nil _
  refine h.beside rfl rfl rfl h.small ?_ ?_ ?_
  · rw [hposted]
    exact hin
  · rw [hposted, ← h.allIn]
    exact congrArg (_ ++ ·) hunread
  · rw [hheard]
    exact h.outbound.step (.drain limit) hlen hsent

theorem step (h : Moored start greet s out) {i : IpcStep}
    (hbounded : Bounded start greet (out ++ (ipcStep s i).2)) (hfits : HostFits s i) :
    Moored start greet (ipcStep s i).1 (out ++ (ipcStep s i).2) := by
  have hbefore := hbounded.of_append
  cases i with
  | serve r io => exact h.serve hbefore r io
  | poll io => exact h.poll io
  | flush => exact h.flush hbefore
  | hostWrite buf => exact h.hostWrite hbounded hfits
  | hostRead limit => exact h.hostRead hbefore limit

end Moored

end

/-! ## Runs -/

theorem readHeader_initFile (size : ℕ) (f : Buffer) :
    readHeader kIpcR2VBase (initFile size f) = ⟨0, 0⟩ ∧
      readHeader kIpcV2RBase (initFile size f) = ⟨0, 0⟩ := by
  have hzero : le32 0 ++ le32 0 = [0, 0, 0, 0, 0, 0, 0, 0] := by decide
  unfold initFile readHeader
  rw [hzero]
  simp [Buffer.word32, writeBlock, kIpcR2VBase, kIpcV2RBase, u32]

theorem Ring.Carries.empty {base : ℕ} {f : Buffer} (h : readHeader base f = ⟨0, 0⟩) :
    (Ring.ofFile base f).Carries [] [] ∧ (Ring.ofFile base f).unread = [] := by
  have hhead : (Ring.ofFile base f).head = 0 := congrArg RingHeader.head h
  have htail : (Ring.ofFile base f).tail = 0 := congrArg RingHeader.tail h
  have hholds := Ring.Holds.empty ⟨hhead, htail⟩
  exact ⟨⟨hholds, List.nil_sublist _⟩, List.suffix_nil.mp hholds.unread⟩

theorem Moored.init (service : Service) (size : ℕ) (f : Buffer) (io : HandlerInput) :
    Moored service (respond io service .greeting).2 (.init service size f io) [] := by
  obtain ⟨hout, hin⟩ := readHeader_initFile size f
  obtain ⟨hcarries, hunread⟩ := Ring.Carries.empty hin
  refine ⟨rfl, ?_, ?_, hcarries, hunread, (Ring.Carries.empty hout).1, ?_⟩
  · rw [turns, List.filterMap_nil, run_nil, List.append_nil]
    rfl
  · change ∀ buf ∈ buffers (respond io service .greeting).2, buf.length ≤ 65520
    rw [← serverActs_events]
    exact length_buffers_acts (serverActs_own service io .greeting)
  · exact fun pre now io post h ↦ absurd h.symm (List.append_ne_nil_of_right_ne_nil _ (by simp))

/-- A host that resets its node through the file, and reads the answer. -/
def resetOnce : List IpcStep :=
  [.hostWrite [tagX], .flush, .flush, .flush, .serve { byte := 0, now := 10 } {}, .flush,
    .serve { byte := 0, now := 11 } {}, .hostRead 4096]

end RadioService.Serial
