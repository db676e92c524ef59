import RadioService.IpcFifo

/-!
# Corrupt counters

What a write leaves to a reader when the counters in the file hold anything.  The
reader takes rounds of at most 4096 bytes and begins each at the counter modulo the
capacity, so that a round that begins past the wrap of the counter is off.
-/

namespace RadioService.Serial

open Bytes Blocks Rings Machine

/-! ## Reading until nothing is left -/

def drains (k : ℕ) : List RingOp := List.replicate k (.drain 4096)

def readToEnd (base : ℕ) (f : Buffer) : List UInt8 := (run (ringStep base) f (drains 16)).2

/-- The position from which a reader with this tail takes byte `j`. -/
def readerPos (tail : UInt32) (j : ℕ) : ℕ :=
  (tail.toNat + j / 4096 * 4096) % 2 ^ 32 + j % 4096

def Ring.drained (r : Ring) (n : ℕ) : Ring := { r with tail := r.tail + .ofNat n }

section

variable {base : ℕ} {f : Buffer}

theorem ofFile_readRing (limit : UInt32) (hused : (Ring.ofFile base f).used ≤ 65520) :
    Ring.ofFile base (readRing base limit f).1 =
      (Ring.ofFile base f).drained ((Ring.ofFile base f).taken limit) := by
  obtain ⟨-, hhead, htail, -, -⟩ := readRing_spec limit hused
  refine Ring.ext hhead htail ?_
  unfold readRing
  split
  · rfl
  · exact (congrArg Ring.cells (ofFile_tailWrite base f _) :)
  · exact (congrArg Ring.cells (ofFile_tailWrite base f _) :)

theorem used_drained {r : Ring} {n : ℕ} (hn : n ≤ r.used) : (r.drained n).used = r.used - n := by
  have hlt : r.used < 2 ^ 32 := (r.head - r.tail).toNat_lt
  refine toNat_sub_of_eq_add (by omega) ?_
  change r.head = r.tail + .ofNat n + .ofNat (r.used - n)
  rw [UInt32.add_assoc, ← UInt32.ofNat_add, Nat.add_sub_cancel' hn]
  exact r.head_eq

theorem readerPos_lt (tail : UInt32) {j : ℕ} (hj : j < 4096) :
    readerPos tail j = tail.toNat + j := by
  have htail := tail.toNat_lt
  unfold readerPos
  omega

theorem readerPos_add (tail : UInt32) (j : ℕ) :
    readerPos (tail + .ofNat 4096) j = readerPos tail (4096 + j) := by
  unfold readerPos
  rw [UInt32.toNat_add, UInt32.toNat_ofNat']
  omega

theorem run_drains (k : ℕ) (hused : (Ring.ofFile base f).used ≤ 65520) :
    let r := Ring.ofFile base f
    let n := min r.used (4096 * k)
    (run (ringStep base) f (drains k)).2 =
        (List.range n).map (fun j ↦ r.cells (readerPos r.tail j % 65520)) ∧
      Ring.ofFile base (run (ringStep base) f (drains k)).1 = r.drained n := by
  induction k generalizing f with
  | zero =>
      intro r n
      have hzero : n = 0 := Nat.min_zero _
      rw [hzero]
      exact ⟨rfl, Ring.ext rfl (UInt32.add_zero _).symm rfl⟩
  | succ k ih =>
      intro r n
      let t := r.taken 4096
      have ht : t = min r.used 4096 := rfl
      have hfits : r.used ≤ 65520 := hused
      obtain ⟨hread, -, -, -, -⟩ := readRing_spec 4096 hused
      have hring : Ring.ofFile base (readRing base 4096 f).1 = r.drained t :=
        ofFile_readRing 4096 hused
      have hused' : (r.drained t).used = r.used - t := used_drained (by omega)
      obtain ⟨hrest, hlast⟩ := ih (f := (readRing base 4096 f).1) (by rw [hring, hused']; omega)
      rw [hring] at hrest hlast
      have hn : n = t + min (r.drained t).used (4096 * k) := by
        rw [hused']
        change min r.used (4096 * (k + 1)) = _
        omega
      have hcons : drains (k + 1) = .drain 4096 :: drains k := rfl
      rw [hcons, run_cons]
      refine ⟨?_, ?_⟩
      · rw [hn, List.range_add, List.map_append, List.map_map]
        refine congrArg₂ (· ++ ·) ?_ (hrest.trans (List.map_congr_left fun j hj ↦ ?_))
        · refine hread.trans ((take_arc (Nat.min_le_left _ _)).trans
            (List.map_congr_left fun j hj ↦ ?_))
          have hlt : j < t := List.mem_range.mp hj
          rw [readerPos_lt r.tail (by omega)]
          rfl
        · have hlt : j < min (r.drained t).used (4096 * k) := List.mem_range.mp hj
          have hfull : t = 4096 := by omega
          rw [Function.comp_apply, hfull, ← readerPos_add]
          rfl
      · refine hlast.trans ?_
        rw [hn, Ring.drained, Ring.drained, Ring.drained, UInt32.add_assoc, ← UInt32.ofNat_add]

theorem readToEnd_eq (hused : (Ring.ofFile base f).used ≤ 65520) :
    readToEnd base f = (List.range (Ring.ofFile base f).used).map fun j ↦
      (Ring.ofFile base f).cells (readerPos (Ring.ofFile base f).tail j % 65520) := by
  have hall : min (Ring.ofFile base f).used (4096 * 16) = (Ring.ofFile base f).used := by omega
  have hread := (run_drains 16 hused).1
  rw [hall] at hread
  exact hread

/-- Counters too far apart lose everything that waits. -/
theorem readRing_stale (limit : UInt32) (hstale : 65520 < (Ring.ofFile base f).used) :
    (readRing base limit f).2 = [] ∧
      Ring.ofFile base (readRing base limit f).1 =
        { Ring.ofFile base f with tail := (Ring.ofFile base f).head } := by
  have hne : (Ring.ofFile base f).head ≠ (Ring.ofFile base f).tail := fun h ↦ by
    have hzero := (Ring.empty_of_eq h).1
    omega
  have hgt : (Ring.ofFile base f).head - (Ring.ofFile base f).tail > kIpcRingCap :=
    UInt32.lt_iff_toNat_lt.mpr hstale
  have hplan : readPlan (readHeader base f) limit = .discard (Ring.ofFile base f).head := by
    rw [readHeader_eq, readPlan, if_neg hne, if_pos hgt]
  rw [readRing, hplan]
  exact ⟨rfl, ofFile_tailWrite base f _⟩

/-- Behind these rounds nothing is left, whatever the counters were. -/
theorem readToEnd_empties (base : ℕ) (f : Buffer) :
    let r := Ring.ofFile base (run (ringStep base) f (drains 16)).1
    r.head = r.tail := by
  rcases Nat.lt_or_ge 65520 (Ring.ofFile base f).used with hstale | hused
  · obtain ⟨-, hring⟩ := readRing_stale 4096 hstale
    have hempty : (Ring.ofFile base (readRing base 4096 f).1).used = 0 :=
      (Ring.empty_of_eq (by rw [hring])).1
    have hnone : (Ring.ofFile base (readRing base 4096 f).1).used ≤ 65520 := by omega
    have hrest := (run_drains 15 hnone).2
    rw [hempty, Nat.zero_min] at hrest
    have hcons : drains 16 = .drain 4096 :: drains 15 := rfl
    have hstep : ringStep base f (.drain 4096) = readRing base 4096 f := rfl
    rw [hcons, run_cons, hstep]
    dsimp only
    rw [hrest, hring]
    exact (UInt32.add_zero _).symm
  · have hrest := (run_drains 16 hused).2
    have hall : min (Ring.ofFile base f).used (4096 * 16) = (Ring.ofFile base f).used := by omega
    rw [hall] at hrest
    dsimp only
    rw [hrest]
    exact (Ring.ofFile base f).head_eq

/-! ## Behind a write -/

/-- A write that finds the counters too far apart leaves the tail alone. -/
theorem ofFile_writeAll_stale {buf : List UInt8} (hstale : 65520 < (Ring.ofFile base f).used)
    (hlen : buf.length ≤ 65520) :
    let r := Ring.ofFile base f
    Ring.ofFile base (writeAll base f buf) =
      { head := r.head + .ofNat buf.length
        tail := r.tail
        cells := writeArc r.cells 65520 r.head.toNat buf } := by
  intro r
  have hnone : makeRoom ⟨r.head, r.tail⟩ buf.length = none := by
    have hgt : r.head - r.tail > kIpcRingCap ∨ buf.length > kIpcRingCap.toNat :=
      .inl (UInt32.lt_iff_toNat_lt.mpr hstale)
    have hfits : ¬(0 : UInt32).toNat + buf.length > kIpcRingCap.toNat := by
      rw [kIpcRingCap_toNat, UInt32.toNat_zero]
      omega
    rw [makeRoom]
    simp only [if_pos hgt, if_neg hfits]
  rw [writeAll, writePlan, List.foldl_append, List.foldl_append, readHeader_eq, hnone,
    List.foldl_cons, List.foldl_nil, ofFile_headWrite, ofFile_dataWrites hlen]
  rfl

def RingHeader.avail (h : RingHeader) (n : ℕ) : ℕ := min ((h.head - h.tail).toNat + n) 65520

def RingHeader.tailBehind (h : RingHeader) (n : ℕ) : UInt32 :=
  h.head + .ofNat n - .ofNat (h.avail n)

theorem ofFile_writeAll_sound {buf : List UInt8} (hused : (Ring.ofFile base f).used ≤ 65520)
    (hlen : buf.length ≤ 65520) :
    let r := Ring.ofFile base f
    Ring.ofFile base (writeAll base f buf) =
      { head := r.head + .ofNat buf.length
        tail := (readHeader base f).tailBehind buf.length
        cells := writeArc r.cells 65520 r.head.toNat buf } := by
  intro r
  rw [ofFile_writeAll hused hlen]
  refine Ring.ext rfl ?_ rfl
  change (if r.used + buf.length > 65520 then r.head - (kIpcRingCap - .ofNat buf.length)
    else r.tail) = r.head + .ofNat buf.length - .ofNat (min (r.used + buf.length) 65520)
  split
  · rw [Nat.min_eq_right (by omega)]
    change _ = r.head + .ofNat buf.length - kIpcRingCap
    grind
  · rw [Nat.min_eq_left (by omega), UInt32.ofNat_add]
    have heq := r.head_eq
    grind

theorem used_writeAll_sound {buf : List UInt8} (hused : (Ring.ofFile base f).used ≤ 65520)
    (hlen : buf.length ≤ 65520) :
    (Ring.ofFile base (writeAll base f buf)).used = (readHeader base f).avail buf.length := by
  have hle : (readHeader base f).avail buf.length ≤ 65520 := Nat.min_le_right _ _
  refine toNat_sub_of_eq_add (by omega) ?_
  rw [ofFile_writeAll_sound hused hlen]
  dsimp only [RingHeader.tailBehind, readHeader_eq]
  grind

end

/-! ## Cells -/

theorem wrapped_mod_ne (x : ℕ) : (x + 4294967296) % 65520 ≠ x % 65520 := by omega

/-- A round that begins past the wrap of the counter is off, and so is one that
begins in front of it for what was written behind it. -/
theorem readerPos_mod_iff (tail : UInt32) {d i : ℕ} (hi : d + i < 65520) :
    readerPos tail (d + i) % 65520 = ((tail + .ofNat d).toNat + i) % 65520 ↔
      ((d + i) / 4096 * 4096 < 2 ^ 32 - tail.toNat ↔ d < 2 ^ 32 - tail.toNat) := by
  have htail := tail.toNat_lt
  have hsplit := Nat.div_add_mod (d + i) 4096
  have hhead : (tail + .ofNat d).toNat = (tail.toNat + d) % 4294967296 := by
    rw [UInt32.toNat_add, UInt32.toNat_ofNat', Nat.add_mod_mod]
  have hpow : 2 ^ 32 = 4294967296 := rfl
  rw [readerPos, hhead]
  simp only [hpow] at htail ⊢
  generalize tail.toNat = t at *
  generalize (d + i) / 4096 = q at *
  generalize (d + i) % 4096 = m at *
  have hlow : ∀ x, x < 4294967296 → x % 4294967296 = x := fun x hx ↦ Nat.mod_eq_of_lt hx
  have hhigh : ∀ x, 4294967296 ≤ x → x < 8589934592 → x % 4294967296 = x - 4294967296 := by
    omega
  rcases Nat.lt_or_ge (t + q * 4096) 4294967296 with hq | hq <;>
    rcases Nat.lt_or_ge (t + d) 4294967296 with hd | hd
  · rw [hlow _ hq, hlow _ hd]
    have hsame : t + q * 4096 + m = t + d + i := by omega
    exact iff_of_true (by rw [hsame]) (by omega)
  · rw [hlow _ hq, hhigh _ hd (by omega)]
    have hsame : t + q * 4096 + m = t + d - 4294967296 + i + 4294967296 := by omega
    rw [hsame]
    exact iff_of_false (wrapped_mod_ne _) (by omega)
  · rw [hhigh _ hq (by omega), hlow _ hd]
    have hsame : t + d + i = t + q * 4096 - 4294967296 + m + 4294967296 := by omega
    rw [hsame]
    exact iff_of_false (wrapped_mod_ne _).symm (by omega)
  · rw [hhigh _ hq (by omega), hhigh _ hd (by omega)]
    have hsame : t + q * 4096 - 4294967296 + m = t + d - 4294967296 + i := by omega
    exact iff_of_true (by rw [hsame]) (by omega)

/-- The offset of the first round that begins at or past the wrap of the counter. -/
def laterRound (gap : ℕ) : ℕ := (gap + 4095) / 4096 * 4096

theorem rounds_match_iff {d n gap : ℕ} (hn : 0 < n) :
    (∀ i < n, (d + i) / 4096 * 4096 < gap ↔ d < gap) ↔
      laterRound gap ≤ d ∨ d < gap ∧ d + n ≤ laterRound gap := by
  unfold laterRound
  constructor
  · intro h
    have hfirst := h 0 hn
    have hlast := h (n - 1) (by omega)
    omega
  · intro h i hi
    omega

theorem isSuffix_range_map {α : Type} {buf : List α} {g : ℕ → α} {d : ℕ} :
    buf <:+ (List.range (d + buf.length)).map g ↔
      ∀ i (hi : i < buf.length), g (d + i) = buf[i] := by
  have hdrop : ((List.range (d + buf.length)).map g).drop d =
      (List.range buf.length).map fun i ↦ g (d + i) := by
    rw [List.range_add, List.map_append, List.map_map]
    exact List.drop_left' (by simp)
  have hlen : ((List.range (d + buf.length)).map g).length - buf.length = d := by simp
  rw [List.suffix_iff_eq_drop, hlen, hdrop]
  constructor
  · intro h i hi
    rw [List.getElem_of_eq h hi]
    simp
  · intro h
    exact List.ext_getElem (by simp) fun i hi _ ↦ by simp [h i hi]

theorem exists_pos {c q : ℕ} (p : ℕ) (hq : q < c) : ∃ k < c, (p + k) % c = q := by
  have hp : p % c < c := Nat.mod_lt p (by omega)
  have hsplit := Nat.div_add_mod p c
  refine ⟨(q + c - p % c) % c, Nat.mod_lt _ (by omega), ?_⟩
  have hsum : p + (q + c - p % c) = q + c + c * (p / c) := by omega
  rw [Nat.add_mod_mod, hsum, Nat.add_mul_mod_self_left, Nat.add_mod_right, Nat.mod_eq_of_lt hq]

theorem writeArc_mark {c p n i q : ℕ} (hq : q < c) (hn : n ≤ c)
    (h : writeArc (fun _ ↦ (0 : UInt8)) c p ((List.replicate n 0).set i 1) q = 1) :
    q = (p + i) % c := by
  obtain ⟨k, hk, rfl⟩ := exists_pos p hq
  have hlen : ((List.replicate n (0 : UInt8)).set i 1).length = n := by simp
  rcases Nat.lt_or_ge k n with hin | hout
  · rw [writeArc_in (by omega) (by omega), List.getElem_set] at h
    split at h
    · rename_i hik
      rw [hik]
    · rw [List.getElem_replicate] at h
      exact absurd h (by decide)
  · rw [writeArc_out (by omega) hk] at h
    exact absurd h (by decide)

/-! ## Repair -/

/-- A write leaves counters that a reader takes, and the reader gets the buffer
last. -/
def Repaired (base : ℕ) (f : Buffer) (buf : List UInt8) : Prop :=
  (Ring.ofFile base (writeAll base f buf)).used ≤ 65520 ∧
    buf <:+ readToEnd base (writeAll base f buf)

/-- The counters found are at most the capacity apart; and no round of the reader begins past
the wrap of its counter, but for those behind which the whole buffer lies. -/
def Repairs (h : RingHeader) (n : ℕ) : Prop :=
  let gap := 2 ^ 32 - (h.tailBehind n).toNat
  let d := h.avail n - n
  (h.head - h.tail).toNat ≤ 65520 ∧
    (laterRound gap ≤ d ∨ d < gap ∧ d + n ≤ laterRound gap)

theorem avail_split {h : RingHeader} {n : ℕ} (hn : n ≤ 65520) :
    h.avail n - n + n = h.avail n ∧ h.avail n ≤ 65520 ∧
      h.tailBehind n + .ofNat (h.avail n - n) = h.head := by
  have hle : h.avail n ≤ 65520 := Nat.min_le_right _ _
  have hge : n ≤ h.avail n := by
    unfold RingHeader.avail
    omega
  refine ⟨Nat.sub_add_cancel hge, hle, ?_⟩
  have hsum : UInt32.ofNat (h.avail n) = .ofNat (h.avail n - n) + .ofNat n := by
    rw [← UInt32.ofNat_add, Nat.sub_add_cancel hge]
  rw [RingHeader.tailBehind, hsum]
  grind

/-- From counters at most the capacity apart, the reader gets the buffer last exactly if it
takes its cells. -/
theorem repaired_iff_cells {base : ℕ} {f : Buffer} {buf : List UInt8} {h : RingHeader}
    (hh : readHeader base f = h) (hused : (h.head - h.tail).toNat ≤ 65520)
    (hlen : buf.length ≤ 65520) :
    Repaired base f buf ↔ ∀ i (hi : i < buf.length),
      writeArc (Ring.ofFile base f).cells 65520 h.head.toNat buf
        (readerPos (h.tailBehind buf.length) (h.avail buf.length - buf.length + i) % 65520) =
      buf[i] := by
  subst hh
  obtain ⟨hsplit, hle, -⟩ := avail_split (h := readHeader base f) hlen
  have hused' := used_writeAll_sound hused hlen
  have hread := readToEnd_eq (f := writeAll base f buf) (hused'.trans_le hle)
  rw [hused', ofFile_writeAll_sound hused hlen, ← hsplit] at hread
  rw [Repaired, and_iff_right (hused'.trans_le hle), hread]
  exact isSuffix_range_map

theorem not_repaired_of_stale {base : ℕ} {f : Buffer} {buf : List UInt8}
    (hstale : 65520 < (Ring.ofFile base f).used) (hpos : 0 < buf.length)
    (hlen : buf.length ≤ 65520) : ¬Repaired base f buf := by
  rintro ⟨hused, hsuffix⟩
  have hlt : (Ring.ofFile base f).used < 2 ^ 32 :=
    ((Ring.ofFile base f).head - (Ring.ofFile base f).tail).toNat_lt
  have hused' : (Ring.ofFile base (writeAll base f buf)).used =
      ((Ring.ofFile base f).used + buf.length) % 2 ^ 32 := by
    have hdiff : (Ring.ofFile base f).head + .ofNat buf.length - (Ring.ofFile base f).tail =
        (Ring.ofFile base f).head - (Ring.ofFile base f).tail + .ofNat buf.length := by grind
    rw [Ring.used, ofFile_writeAll_stale hstale hlen]
    dsimp only
    rw [hdiff, UInt32.toNat_add, UInt32.toNat_ofNat', Nat.add_mod_mod]
    rfl
  have hle := hsuffix.length_le
  rw [readToEnd_eq hused, List.length_map, List.length_range] at hle
  omega

def fileAt (base : ℕ) (h : RingHeader) : Buffer :=
  (tailWrite base h.tail).apply ((headWrite base h.head).apply fun _ ↦ 0)

theorem ofFile_fileAt (base : ℕ) (h : RingHeader) :
    Ring.ofFile base (fileAt base h) = ⟨h.head, h.tail, fun _ ↦ 0⟩ := by
  rw [fileAt, ofFile_tailWrite, ofFile_headWrite]
  rfl

/-- Whatever the cells and the buffer of `n` bytes hold, a write repairs these
counters exactly if they are at most the capacity apart and the reader's rounds do not
come between the buffer and the wrap of its counter. -/
theorem repaired_iff (base : ℕ) (h : RingHeader) {n : ℕ} (hpos : 0 < n) (hn : n ≤ 65520) :
    (∀ f buf, readHeader base f = h → buf.length = n → Repaired base f buf) ↔ Repairs h n := by
  obtain ⟨hsplit, hle, hhead⟩ := avail_split (h := h) hn
  have hcells : Repairs h n ↔ (h.head - h.tail).toNat ≤ 65520 ∧ ∀ i < n,
      readerPos (h.tailBehind n) (h.avail n - n + i) % 65520 = (h.head.toNat + i) % 65520 := by
    refine and_congr_right fun _ ↦ ((rounds_match_iff hpos).symm.trans ?_)
    refine forall₂_congr fun i hi ↦ ?_
    rw [← readerPos_mod_iff (h.tailBehind n) (by omega), hhead]
  rw [hcells]
  constructor
  · intro hall
    have hfile := ofFile_fileAt base h
    have hheader : readHeader base (fileAt base h) = h := by rw [readHeader_eq, hfile]
    have hused : (h.head - h.tail).toNat ≤ 65520 := by
      refine not_lt.mp fun hstale ↦ ?_
      have hzeros := hall (fileAt base h) (List.replicate n 0) hheader List.length_replicate
      refine not_repaired_of_stale ?_ ?_ ?_ hzeros
      · rw [hfile]
        exact hstale
      · rwa [List.length_replicate]
      · rwa [List.length_replicate]
    refine ⟨hused, fun i hi ↦ ?_⟩
    let buf := (List.replicate n (0 : UInt8)).set i 1
    have hbuf : buf.length = n := by simp [buf]
    have hmark := (repaired_iff_cells hheader hused (hbuf.trans_le hn)).mp
      (hall (fileAt base h) buf hheader hbuf) i (hbuf.symm ▸ hi)
    have hone : buf[i] = 1 := List.getElem_set_self _
    rw [hone, hbuf, hfile] at hmark
    exact writeArc_mark (Nat.mod_lt _ (by decide)) hn hmark
  · rintro ⟨hused, hsame⟩ f buf hheader rfl
    refine (repaired_iff_cells hheader hused hn).mpr fun i hi ↦ ?_
    rw [hsame i hi]
    exact writeArc_in hn hi

/-- A full ring whose counter is about to wrap: the write moves the tail, and the reader's
sixteenth round begins at the wrap. -/
theorem repaired_wrapping :
    let h : RingHeader := ⟨4077, 4294905853⟩
    (h.head - h.tail).toNat = 65520 ∧ h.tailBehind 3 = 4294905856 ∧
      Repaired kIpcR2VBase (fileAt kIpcR2VBase h) [7, 8, 9] := by
  have hrepairs : Repairs ⟨4077, 4294905853⟩ 3 := by
    unfold Repairs
    decide
  have hheader : readHeader kIpcR2VBase (fileAt kIpcR2VBase ⟨4077, 4294905853⟩) =
      ⟨4077, 4294905853⟩ := by rw [readHeader_eq, ofFile_fileAt]
  exact ⟨by decide, by decide,
    (repaired_iff kIpcR2VBase _ (by decide) (by decide)).mpr hrepairs _ [7, 8, 9] hheader rfl⟩

/-- A tail of 2^31 stays behind a write of one byte to head 0, and the reader gets
nothing. -/
theorem stale_tail_kept :
    let f := fileAt kIpcR2VBase ⟨0, 0x80000000⟩
    readHeader kIpcR2VBase f = ⟨0, 0x80000000⟩ ∧
      readHeader kIpcR2VBase (writeAll kIpcR2VBase f [7]) = ⟨1, 0x80000000⟩ ∧
      65520 < (Ring.ofFile kIpcR2VBase (writeAll kIpcR2VBase f [7])).used ∧
      readToEnd kIpcR2VBase (writeAll kIpcR2VBase f [7]) = [] :=
  ⟨by decide, by decide, by decide, by decide⟩

end RadioService.Serial
