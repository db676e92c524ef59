import RadioService.Machine.Bytes
import RadioService.Machine.Rings
import RadioService.Machine.Runs

/-!
# The rings of the shared file

Each direction of the cross-core link is a ring in a file: two counters, then
the cells.  `writeAll` and the read loop of `readByte` are given as what they do
behind their look at the counters, one `lseek` with its `read` or `write` at a
time.  A `Ring` is what both sides see of the file.
-/

namespace RadioService.Serial

open Bytes Blocks Rings Machine

def kIpcR2VBase : ℕ := 0x00000
def kIpcV2RBase : ℕ := 0x10000
def kIpcRingCap : UInt32 := 65520

structure RingHeader where
  head : UInt32
  tail : UInt32
deriving DecidableEq

def readHeader (base : ℕ) (f : Buffer) : RingHeader := ⟨f.word32 base, f.word32 (base + 4)⟩

/-- One `lseek` and the `write` behind it. -/
structure FileWrite where
  pos : ℕ
  data : List UInt8
deriving DecidableEq

def FileWrite.apply (f : Buffer) (x : FileWrite) : Buffer := writeBlock f x.pos x.data

def headWrite (base : ℕ) (head : UInt32) : FileWrite := ⟨base, le32 head⟩
def tailWrite (base : ℕ) (tail : UInt32) : FileWrite := ⟨base + 4, le32 tail⟩

/-- How many of `n` bytes from cell `off` on stand before the end of the ring. -/
def firstPart (off n : UInt32) : UInt32 :=
  if off + n ≤ kIpcRingCap then n else kIpcRingCap - off

/-! ## Writing -/

/-- The tail that makes room for `len` bytes, when they do not fit. -/
def makeRoom (h : RingHeader) (len : ℕ) : Option UInt32 :=
  let stale := h.head - h.tail > kIpcRingCap ∨ len > kIpcRingCap.toNat
  let used := if stale then 0 else h.head - h.tail
  if used.toNat + len > kIpcRingCap.toNat then
    -- bytes are counted here, wherever the frames begin
    some (h.head - (kIpcRingCap - UInt32.ofNat len))
  else
    none

def dataWrites (base : ℕ) (head : UInt32) (buf : List UInt8) : List FileWrite :=
  let off := head % kIpcRingCap
  let n := UInt32.ofNat buf.length
  let first := firstPart off n
  ⟨base + 16 + off.toNat, buf.take first.toNat⟩ ::
    if n > first then [⟨base + 16, (buf.drop first.toNat).take (n - first).toNat⟩] else []

/-- What `writeAll` writes, given the counters it read. -/
def writePlan (base : ℕ) (h : RingHeader) (buf : List UInt8) : List FileWrite :=
  ((makeRoom h buf.length).toList.map (tailWrite base)) ++ dataWrites base h.head buf ++
    [headWrite base (h.head + UInt32.ofNat buf.length)]

def writeAll (base : ℕ) (f : Buffer) (buf : List UInt8) : Buffer :=
  (writePlan base (readHeader base f) buf).foldl FileWrite.apply f

/-! ## Reading -/

/-- What a round of the read loop does, given the counters it read. -/
inductive ReadPlan where
  | nothing
  /-- More than the ring holds: skip to the head. -/
  | discard (head : UInt32)
  | copy (tail take : UInt32)
deriving DecidableEq

def readPlan (h : RingHeader) (limit : UInt32) : ReadPlan :=
  let avail := h.head - h.tail
  if h.head = h.tail then .nothing
  else if avail > kIpcRingCap then .discard h.head
  else .copy h.tail (if avail < limit then avail else limit)

def copyFirst (base : ℕ) (tail take : UInt32) (f : Buffer) : List UInt8 :=
  let off := tail % kIpcRingCap
  readBlock f (base + 16 + off.toNat) (firstPart off take).toNat

def copySecond (base : ℕ) (tail take : UInt32) (f : Buffer) : List UInt8 :=
  let first := firstPart (tail % kIpcRingCap) take
  if take > first then readBlock f (base + 16) (take - first).toNat else []

/-- A round of the read loop with a buffer of `limit` bytes, and what it reads. -/
def readRing (base : ℕ) (limit : UInt32) (f : Buffer) : Buffer × List UInt8 :=
  match readPlan (readHeader base f) limit with
  | .nothing => (f, [])
  | .discard head => ((tailWrite base head).apply f, [])
  | .copy tail take =>
    ((tailWrite base (tail + take)).apply f,
      copyFirst base tail take f ++ copySecond base tail take f)

inductive RingOp where
  | write (buf : List UInt8)
  | drain (limit : UInt32)
deriving DecidableEq

def ringStep (base : ℕ) : Step Buffer RingOp UInt8
  | f, .write buf => (writeAll base f buf, [])
  | f, .drain limit => readRing base limit f

/-! ## The ring in the file -/

@[ext] structure Ring where
  head : UInt32
  tail : UInt32
  cells : ℕ → UInt8

namespace Ring

def ofFile (base : ℕ) (f : Buffer) : Ring :=
  ⟨f.word32 base, f.word32 (base + 4), fun i ↦ f (base + 16 + i)⟩

def used (r : Ring) : ℕ := (r.head - r.tail).toNat

/-- The bytes that wait, oldest first. -/
def unread (r : Ring) : List UInt8 := arc r.cells kIpcRingCap.toNat r.tail.toNat r.used

@[simp] theorem length_unread (r : Ring) : r.unread.length = r.used := length_arc _ _ _ _

end Ring

theorem word32_writeBlock (f : Buffer) (i : ℕ) (v : UInt32) :
    Buffer.word32 (writeBlock f i (le32 v)) i = v := by
  simp [Buffer.word32, writeBlock, le32]

theorem word32_writeBlock_out {f : Buffer} {i off : ℕ} {data : List UInt8}
    (h : i + 4 ≤ off ∨ off + data.length ≤ i) :
    Buffer.word32 (writeBlock f off data) i = f.word32 i := by
  rw [Buffer.word32, writeBlock_out (by omega), writeBlock_out (by omega),
    writeBlock_out (by omega), writeBlock_out (by omega)]
  rfl

section

variable (base : ℕ) (f : Buffer)

@[simp] theorem readHeader_eq :
    readHeader base f = ⟨(Ring.ofFile base f).head, (Ring.ofFile base f).tail⟩ := rfl

theorem ofFile_headWrite (head : UInt32) :
    Ring.ofFile base ((headWrite base head).apply f) =
      { Ring.ofFile base f with head := head } := by
  refine Ring.ext (word32_writeBlock f base head) ?_ (funext fun i ↦ ?_)
  · exact word32_writeBlock_out (.inr (by simp [headWrite]))
  · exact writeBlock_out (.inr (by simp [headWrite]; omega))

theorem ofFile_tailWrite (tail : UInt32) :
    Ring.ofFile base ((tailWrite base tail).apply f) =
      { Ring.ofFile base f with tail := tail } := by
  refine Ring.ext ?_ (word32_writeBlock f (base + 4) tail) (funext fun i ↦ ?_)
  · exact word32_writeBlock_out (.inl (by simp [tailWrite]))
  · exact writeBlock_out (.inr (by simp [tailWrite]; omega))

theorem ofFile_dataWrite (off : ℕ) (data : List UInt8) :
    Ring.ofFile base ((FileWrite.mk (base + 16 + off) data).apply f) =
      { Ring.ofFile base f with
        cells := writeBlock (Ring.ofFile base f).cells off data } := by
  refine Ring.ext ?_ ?_ (funext fun i ↦ ?_)
  · exact word32_writeBlock_out (.inl (by simp; omega))
  · exact word32_writeBlock_out (.inl (by simp; omega))
  · have hsub : base + 16 + i - (base + 16 + off) = i - off := by omega
    simp [Ring.ofFile, FileWrite.apply, writeBlock, hsub]

/-! ## The parts of a block -/

variable {base f}

theorem kIpcRingCap_toNat : kIpcRingCap.toNat = 65520 := rfl

theorem mod_kIpcRingCap (v : UInt32) : (v % kIpcRingCap).toNat = v.toNat % 65520 := rfl

theorem firstPart_toNat (off n : UInt32) (hoff : off.toNat < 65520) (hn : n.toNat ≤ 65520) :
    (firstPart off n).toNat = min n.toNat (65520 - off.toNat) := by
  have hsum : (off + n).toNat = off.toNat + n.toNat := by
    rw [UInt32.toNat_add]
    omega
  unfold firstPart
  split
  · have h := UInt32.le_iff_toNat_le.mp ‹off + n ≤ kIpcRingCap›
    rw [hsum, kIpcRingCap_toNat] at h
    omega
  · have h := mt UInt32.le_iff_toNat_le.mpr ‹¬off + n ≤ kIpcRingCap›
    rw [hsum, kIpcRingCap_toNat] at h
    have hle : off ≤ kIpcRingCap := UInt32.le_iff_toNat_le.mpr hoff.le
    rw [UInt32.toNat_sub_of_le _ _ hle, kIpcRingCap_toNat]
    omega

/-- The part of a block in front of the wrap, from a counter on. -/
theorem firstPart_counter (v n : UInt32) (hn : n.toNat ≤ 65520) :
    (firstPart (v % kIpcRingCap) n).toNat = min n.toNat (65520 - v.toNat % 65520) :=
  firstPart_toNat (v % kIpcRingCap) n (Nat.mod_lt _ (by decide)) hn

theorem length_toUInt32 {buf : List UInt8} (hlen : buf.length ≤ 65520) :
    (UInt32.ofNat buf.length).toNat = buf.length := by
  rw [UInt32.toNat_ofNat']
  omega

theorem firstPart_length (head : UInt32) {buf : List UInt8} (hlen : buf.length ≤ 65520) :
    (firstPart (head % kIpcRingCap) (UInt32.ofNat buf.length)).toNat =
      min buf.length (65520 - head.toNat % 65520) := by
  have hn := length_toUInt32 hlen
  rw [firstPart_counter head _ (hn.trans_le hlen), hn]

/-- Behind the first part the second write takes all the rest. -/
theorem take_rest {buf : List UInt8} (hlen : buf.length ≤ 65520) {first : UInt32}
    (hfirst : first.toNat ≤ buf.length) :
    (buf.drop first.toNat).take (UInt32.ofNat buf.length - first).toNat =
      buf.drop first.toNat := by
  have hn := length_toUInt32 hlen
  have hle : first ≤ UInt32.ofNat buf.length := by
    rw [UInt32.le_iff_toNat_le, hn]
    exact hfirst
  rw [UInt32.toNat_sub_of_le _ _ hle, hn]
  exact List.take_of_length_le (by rw [List.length_drop])

theorem ofFile_dataWrites {head : UInt32} {buf : List UInt8} (hlen : buf.length ≤ 65520) :
    Ring.ofFile base ((dataWrites base head buf).foldl FileWrite.apply f) =
      { Ring.ofFile base f with
        cells := writeArc (Ring.ofFile base f).cells 65520 head.toNat buf } := by
  have hn := length_toUInt32 hlen
  have hoff : head.toNat % 65520 < 65520 := Nat.mod_lt _ (by decide)
  have hfirst := firstPart_length head hlen
  have htake : buf.take (firstPart (head % kIpcRingCap) (UInt32.ofNat buf.length)).toNat =
      buf.take (65520 - head.toNat % 65520) := by
    rw [hfirst, List.take_eq_take_iff]
    omega
  simp only [dataWrites, mod_kIpcRingCap, htake, gt_iff_lt, UInt32.lt_iff_toNat_lt, hn]
  split
  · have hrest : (buf.drop (firstPart (head % kIpcRingCap) (UInt32.ofNat buf.length)).toNat).take
        (UInt32.ofNat buf.length - firstPart (head % kIpcRingCap)
          (UInt32.ofNat buf.length)).toNat = buf.drop (65520 - head.toNat % 65520) := by
      rw [take_rest hlen (by omega), hfirst, Nat.min_eq_right (by omega)]
    rw [hrest, List.foldl_cons, List.foldl_cons, List.foldl_nil]
    have hsecond := ofFile_dataWrite base ((FileWrite.mk (base + 16 + head.toNat % 65520)
      (buf.take (65520 - head.toNat % 65520))).apply f) 0 (buf.drop (65520 - head.toNat % 65520))
    rw [Nat.add_zero, ofFile_dataWrite] at hsecond
    exact hsecond
  · have hnone : buf.drop (65520 - head.toNat % 65520) = [] :=
      List.drop_eq_nil_of_le (by omega)
    rw [List.foldl_cons, List.foldl_nil, ofFile_dataWrite, writeArc, hnone, writeBlock_nil]

end

end RadioService.Serial
