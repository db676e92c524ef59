import RadioService.IpcRing

/-!
# The ring as a queue

What a write and a drain do to the bytes that wait: a write appends and drops
the oldest that no longer fit, a drain takes from the front.  That holds as long
as the counters have not wrapped between the oldest byte that waits and the next
to be written; the capacity does not divide `2 ^ 32`.
-/

namespace RadioService.Serial

open Bytes Blocks Rings Machine

/-! ## Counters -/

theorem toNat_sub_of_eq_add {h t : UInt32} {n : ℕ} (hn : n < 2 ^ 32) (heq : h = t + .ofNat n) :
    (h - t).toNat = n := by
  rw [heq, UInt32.add_comm, UInt32.add_sub_cancel, UInt32.toNat_ofNat']
  exact Nat.mod_eq_of_lt hn

namespace Ring

variable (r : Ring)

theorem head_eq : r.head = r.tail + .ofNat r.used := by
  rw [used, UInt32.ofNat_toNat, UInt32.add_comm, UInt32.sub_add_cancel]

theorem empty_of_eq {r : Ring} (h : r.head = r.tail) : r.used = 0 ∧ r.unread = [] := by
  have hused : r.used = 0 := by
    rw [Ring.used, h, UInt32.sub_self]
    rfl
  exact ⟨hused, List.eq_nil_of_length_eq_zero (r.length_unread.trans hused)⟩

theorem used_of_le {r : Ring} (h : r.tail ≤ r.head) : r.used = r.head.toNat - r.tail.toNat :=
  UInt32.toNat_sub_of_le _ _ h

def discarded (len : ℕ) : ℕ := r.used + len - 65520

def taken (limit : UInt32) : ℕ := min r.used limit.toNat

end Ring

section

variable {base : ℕ} {f : Buffer}

/-! ## Writing -/

theorem makeRoom_eq {r : Ring} {len : ℕ} (hused : r.used ≤ 65520) (hlen : len ≤ 65520) :
    makeRoom ⟨r.head, r.tail⟩ len =
      if r.used + len > 65520 then some (r.head - (kIpcRingCap - UInt32.ofNat len)) else none := by
  have hstale : ¬(r.head - r.tail > kIpcRingCap ∨ len > kIpcRingCap.toNat) := by
    rw [gt_iff_lt, UInt32.lt_iff_toNat_lt, kIpcRingCap_toNat]
    exact not_or.mpr ⟨not_lt.mpr hused, not_lt.mpr hlen⟩
  rw [makeRoom]
  simp only [if_neg hstale]
  rfl

theorem ofFile_writeAll {buf : List UInt8} (hused : (Ring.ofFile base f).used ≤ 65520)
    (hlen : buf.length ≤ 65520) :
    let r := Ring.ofFile base f
    Ring.ofFile base (writeAll base f buf) =
      { head := r.head + .ofNat buf.length
        tail := if r.used + buf.length > 65520 then
          r.head - (kIpcRingCap - .ofNat buf.length) else r.tail
        cells := writeArc r.cells 65520 r.head.toNat buf } := by
  intro r
  rw [writeAll, writePlan, List.foldl_append, List.foldl_append, readHeader_eq,
    makeRoom_eq hused hlen, List.foldl_cons, List.foldl_nil, ofFile_headWrite,
    ofFile_dataWrites hlen]
  by_cases hfull : r.used + buf.length > 65520
  · rw [if_pos hfull, if_pos hfull, Option.toList_some, List.map_cons, List.map_nil,
      List.foldl_cons, List.foldl_nil, ofFile_tailWrite]
  · rw [if_neg hfull, if_neg hfull]
    rfl

/-- Unless the counters have wrapped since the oldest byte, a write appends and
drops the oldest bytes that do not fit. -/
theorem writeAll_spec {buf : List UInt8} (hused : (Ring.ofFile base f).used ≤ 65520)
    (hlen : buf.length ≤ 65520)
    (hstraight : (Ring.ofFile base f).tail ≤ (Ring.ofFile base f).head) :
    let r := Ring.ofFile base f
    let r' := Ring.ofFile base (writeAll base f buf)
    let d := r.discarded buf.length
    r'.head = r.head + .ofNat buf.length ∧ r'.tail = r.tail + .ofNat d ∧
      r'.used = r.used + buf.length - d ∧ r'.unread = (r.unread ++ buf).drop d := by
  intro r r' d
  have hr' : r' = _ := ofFile_writeAll hused hlen
  have hn : r.used = r.head.toNat - r.tail.toNat := Ring.used_of_le hstraight
  have hle : r.tail.toNat ≤ r.head.toNat := hstraight
  have hd : d = r.used + buf.length - 65520 := rfl
  have hhead : r'.head = r.head + .ofNat buf.length := by rw [hr']
  have htail : r'.tail = r.tail + .ofNat d := by
    rw [hr']
    by_cases hfull : r.used + buf.length > 65520
    · have hroom : kIpcRingCap - .ofNat buf.length = .ofNat (r.used - d) := by
        apply UInt32.toNat_inj.mp
        have hsmall : UInt32.ofNat buf.length ≤ kIpcRingCap := by
          rw [UInt32.le_iff_toNat_le, length_toUInt32 hlen]
          exact hlen
        rw [UInt32.toNat_sub_of_le _ _ hsmall, length_toUInt32 hlen, kIpcRingCap_toNat,
          UInt32.toNat_ofNat']
        omega
      have hsplit : r.used = d + (r.used - d) := by omega
      have heq := r.head_eq
      rw [hsplit, UInt32.ofNat_add, ← UInt32.add_assoc] at heq
      rw [if_pos hfull, hroom, heq, UInt32.add_sub_cancel]
    · have hzero : d = 0 := by omega
      rw [if_neg hfull, hzero]
      exact (UInt32.add_zero r.tail).symm
  have hused' : r'.used = r.used + buf.length - d := by
    refine toNat_sub_of_eq_add (by omega) ?_
    rw [hhead, htail, UInt32.add_assoc, ← UInt32.ofNat_add]
    have hsum : d + (r.used + buf.length - d) = r.used + buf.length := by omega
    rw [hsum, UInt32.ofNat_add, ← UInt32.add_assoc, ← r.head_eq]
  refine ⟨hhead, htail, hused', ?_⟩
  have hpos : r'.tail.toNat = r.tail.toNat + d := by
    have := r.head.toNat_lt
    rw [htail, UInt32.toNat_add, UInt32.toNat_ofNat']
    omega
  have hcells : r'.cells = writeArc r.cells 65520 (r.tail.toNat + d + (r.used - d)) buf := by
    have hstart : r.tail.toNat + d + (r.used - d) = r.head.toNat := by omega
    rw [hr', hstart]
  have hlast : r.used + buf.length - d = (r.used - d) + buf.length := by omega
  rw [Ring.unread, kIpcRingCap_toNat, hpos, hused', hcells, hlast,
    arc_writeArc (by omega), ← drop_arc (by omega),
    List.drop_append_of_le_length (by rw [Ring.length_unread]; omega)]
  rfl

theorem writeAll_nil (hused : (Ring.ofFile base f).used ≤ 65520) :
    Ring.ofFile base (writeAll base f []) = Ring.ofFile base f := by
  rw [ofFile_writeAll hused (Nat.zero_le _), if_neg (by simpa using hused)]
  refine Ring.ext (UInt32.add_zero _) rfl ?_
  simp [writeArc]

/-- The data writes stay between the counters and the end of the ring. -/
theorem dataWrites_bounds {head : UInt32} {buf : List UInt8} (hlen : buf.length ≤ 65520) :
    ∀ x ∈ dataWrites base head buf,
      base + 16 ≤ x.pos ∧ x.pos + x.data.length ≤ base + 65536 := by
  have hoff : head.toNat % 65520 < 65520 := Nat.mod_lt _ (by decide)
  have hfirst := firstPart_length head hlen
  intro x hx
  rw [dataWrites, List.mem_cons] at hx
  rcases hx with rfl | hx
  · simp only [mod_kIpcRingCap, List.length_take]
    omega
  · split at hx
    · cases List.mem_singleton.mp hx
      simp only [List.length_take, List.length_drop]
      omega
    · cases hx

/-! ## Reading -/

theorem copyFirst_eq {tail take : UInt32} (htake : take.toNat ≤ 65520) :
    copyFirst base tail take f = arc (Ring.ofFile base f).cells 65520 tail.toNat
      (firstPart (tail % kIpcRingCap) take).toNat := by
  have hoff : tail.toNat % 65520 < 65520 := Nat.mod_lt _ (by decide)
  have hfirst := firstPart_counter tail take htake
  rw [arc_eq_readBlock (by omega), copyFirst, mod_kIpcRingCap]
  simp [readBlock, Ring.ofFile, Nat.add_assoc]

theorem copySecond_eq {tail take : UInt32} (htake : take.toNat ≤ 65520) :
    copySecond base tail take f = arc (Ring.ofFile base f).cells 65520
      (tail.toNat + (firstPart (tail % kIpcRingCap) take).toNat)
      (take.toNat - (firstPart (tail % kIpcRingCap) take).toNat) := by
  have hoff : tail.toNat % 65520 < 65520 := Nat.mod_lt _ (by decide)
  have hfirst := firstPart_counter tail take htake
  have hle : firstPart (tail % kIpcRingCap) take ≤ take := by
    rw [UInt32.le_iff_toNat_le]
    omega
  rw [copySecond]
  by_cases hmore : take > firstPart (tail % kIpcRingCap) take
  · rw [if_pos hmore, UInt32.toNat_sub_of_le _ _ hle]
    rw [gt_iff_lt, UInt32.lt_iff_toNat_lt] at hmore
    have hstart : (tail.toNat + (firstPart (tail % kIpcRingCap) take).toNat) % 65520 = 0 := by
      rw [hfirst]
      omega
    rw [arc_eq_readBlock (by rw [hstart]; omega), hstart]
    simp [readBlock, Ring.ofFile]
  · rw [if_neg hmore]
    rw [gt_iff_lt, UInt32.lt_iff_toNat_lt] at hmore
    rw [Nat.sub_eq_zero_of_le (not_lt.mp hmore), arc_zero]

theorem copy_eq {tail take : UInt32} (htake : take.toNat ≤ 65520) :
    copyFirst base tail take f ++ copySecond base tail take f =
      arc (Ring.ofFile base f).cells 65520 tail.toNat take.toNat := by
  have hoff : tail.toNat % 65520 < 65520 := Nat.mod_lt _ (by decide)
  have hfirst := firstPart_counter tail take htake
  rw [copyFirst_eq htake, copySecond_eq htake, ← arc_add, Nat.add_sub_cancel' (by omega)]

theorem readPlan_cases {r : Ring} (limit : UInt32) (hused : r.used ≤ 65520) :
    readPlan ⟨r.head, r.tail⟩ limit = .nothing ∧ r.used = 0 ∨
      ∃ take, readPlan ⟨r.head, r.tail⟩ limit = .copy r.tail take ∧
        take.toNat = r.taken limit := by
  rw [readPlan]
  by_cases hempty : r.head = r.tail
  · exact .inl ⟨if_pos hempty, (Ring.empty_of_eq hempty).1⟩
  · have hfit : ¬r.head - r.tail > kIpcRingCap := by
      rw [gt_iff_lt, UInt32.lt_iff_toNat_lt]
      exact not_lt.mpr hused
    rw [if_neg hempty, if_neg hfit]
    refine .inr ⟨_, rfl, ?_⟩
    rw [Ring.taken, Ring.used]
    split
    · exact (Nat.min_eq_left (UInt32.lt_iff_toNat_lt.mp ‹_›).le).symm
    · exact (Nat.min_eq_right (not_lt.mp (mt UInt32.lt_iff_toNat_lt.mpr ‹_›))).symm

/-- Unless a drain stops at the wrap or behind it with bytes left over, it takes
the oldest bytes. -/
theorem readRing_spec (limit : UInt32) (hused : (Ring.ofFile base f).used ≤ 65520) :
    let r := Ring.ofFile base f
    let r' := Ring.ofFile base (readRing base limit f).1
    let k := r.taken limit
    (readRing base limit f).2 = r.unread.take k ∧ r'.head = r.head ∧
      r'.tail = r.tail + .ofNat k ∧ r'.used = r.used - k ∧
      (r.tail.toNat + k < 2 ^ 32 ∨ k = r.used → r'.unread = r.unread.drop k) := by
  intro r r' k
  have hfits : r.used ≤ 65520 := hused
  have hk : k ≤ r.used := Nat.min_le_left _ _
  rcases readPlan_cases limit hused with ⟨hplan, hzero⟩ | ⟨take, hplan, htake⟩
  · have hk0 : k = 0 := Nat.le_zero.mp (hzero ▸ hk)
    have hread : readRing base limit f = (f, []) := by
      rw [readRing, readHeader_eq, hplan]
    have hr' : r' = r := by
      change Ring.ofFile base (readRing base limit f).1 = r
      rw [hread]
    rw [hread, hr', hk0]
    exact ⟨List.take_zero.symm, rfl, (UInt32.add_zero _).symm, (Nat.sub_zero _).symm,
      fun _ ↦ List.drop_zero.symm⟩
  · have hread : readRing base limit f = ((tailWrite base (r.tail + take)).apply f,
        copyFirst base r.tail take f ++ copySecond base r.tail take f) := by
      rw [readRing, readHeader_eq, hplan]
    have hr' : r' = { r with tail := r.tail + take } := by
      change Ring.ofFile base (readRing base limit f).1 = _
      rw [hread]
      exact ofFile_tailWrite base f _
    have htakeNat : take.toNat = k := htake
    have htail : r'.tail = r.tail + .ofNat k := by
      rw [hr', ← htakeNat, UInt32.ofNat_toNat]
    have hused' : r'.used = r.used - k := by
      refine toNat_sub_of_eq_add (by omega) ?_
      rw [htail, UInt32.add_assoc, ← UInt32.ofNat_add, Nat.add_sub_cancel' hk, hr']
      exact r.head_eq
    refine ⟨?_, by rw [hr'], htail, hused', fun hstop ↦ ?_⟩
    · rw [hread, copy_eq (by omega), htakeNat, Ring.unread, take_arc hk]
      rfl
    · have hcells : r'.cells = r.cells := by rw [hr']
      rw [Ring.unread, Ring.unread, hused', hcells, drop_arc hk]
      rcases hstop with hlt | hall
      · have hpos : r'.tail.toNat = r.tail.toNat + k := by
          rw [htail, UInt32.toNat_add, UInt32.toNat_ofNat']
          omega
        rw [hpos]
      · rw [hall, Nat.sub_self, arc_zero, arc_zero]

end

/-! ## Runs from zeroed counters -/

def written (ops : List RingOp) : List UInt8 :=
  ops.flatMap fun
    | .write buf => buf
    | .drain _ => []

theorem written_cons (op : RingOp) (ops : List RingOp) :
    written (op :: ops) = written [op] ++ written ops := by
  simp [written]

/-- A write appends and discards the oldest bytes that do not fit, and it keeps
off the counters and what lies behind the ring; a drain takes from the front. -/
def QueueStep (base : ℕ) (f : Buffer) (op : RingOp) : Prop :=
  let r := Ring.ofFile base f
  let r' := Ring.ofFile base (ringStep base f op).1
  match op with
  | .write buf =>
    r'.unread = (r.unread ++ buf).drop (r.discarded buf.length) ∧
      r'.tail.toNat = r.tail.toNat + r.discarded buf.length ∧
      ∀ x ∈ dataWrites base r.head buf, base + 16 ≤ x.pos ∧ x.pos + x.data.length ≤ base + 65536
  | .drain limit =>
    (ringStep base f op).2 = r.unread.take (r.taken limit) ∧
      r'.unread = r.unread.drop (r.taken limit) ∧
      r'.tail.toNat = r.tail.toNat + r.taken limit

theorem QueueStep.used_write {base : ℕ} {f : Buffer} {buf : List UInt8}
    (h : QueueStep base f (.write buf)) (hbuf : buf.length ≤ 65520) :
    (Ring.ofFile base (ringStep base f (.write buf)).1).used =
      min ((Ring.ofFile base f).used + buf.length) 65520 := by
  have hd : (Ring.ofFile base f).discarded buf.length =
      (Ring.ofFile base f).used + buf.length - 65520 := rfl
  have hunread := congrArg List.length h.1
  rw [Ring.length_unread, List.length_drop, List.length_append, Ring.length_unread] at hunread
  omega

theorem QueueStep.used_drain {base : ℕ} {f : Buffer} {limit : UInt32}
    (h : QueueStep base f (.drain limit)) :
    (Ring.ofFile base (ringStep base f (.drain limit)).1).used =
      (Ring.ofFile base f).used - limit.toNat := by
  have hd : (Ring.ofFile base f).taken limit = min (Ring.ofFile base f).used limit.toNat := rfl
  have hunread := congrArg List.length h.2.1
  rw [Ring.length_unread, List.length_drop, Ring.length_unread] at hunread
  omega

structure Ring.Holds (r : Ring) (ws : List UInt8) : Prop where
  head : r.head.toNat = ws.length
  tail : r.tail ≤ r.head
  used : r.used ≤ 65520
  unread : r.unread <:+ ws

theorem holds_step {base : ℕ} {f : Buffer} {ws : List UInt8} {op : RingOp}
    (h : (Ring.ofFile base f).Holds ws) (hlen : (written [op]).length ≤ 65520)
    (htotal : (ws ++ written [op]).length < 2 ^ 32) :
    QueueStep base f op ∧ (Ring.ofFile base (ringStep base f op).1).Holds (ws ++ written [op]) := by
  have hused := Ring.used_of_le h.tail
  have hle : (Ring.ofFile base f).tail.toNat ≤ (Ring.ofFile base f).head.toNat := h.tail
  have hhead := h.head
  have hmost := h.used
  rw [List.length_append] at htotal
  cases op with
  | write buf =>
      have hbuf : written [.write buf] = buf := List.append_nil buf
      rw [hbuf] at hlen htotal ⊢
      obtain ⟨hhead', htail', hused', hunread'⟩ := writeAll_spec h.used hlen h.tail
      have hn := length_toUInt32 hlen
      have hd : (Ring.ofFile base f).discarded buf.length =
          (Ring.ofFile base f).used + buf.length - 65520 := rfl
      have htailNat : (Ring.ofFile base (writeAll base f buf)).tail.toNat =
          (Ring.ofFile base f).tail.toNat + (Ring.ofFile base f).discarded buf.length := by
        rw [htail', UInt32.toNat_add, UInt32.toNat_ofNat']
        omega
      have hheadNat : (Ring.ofFile base (writeAll base f buf)).head.toNat =
          ws.length + buf.length := by
        rw [hhead', UInt32.toNat_add, hn]
        omega
      -- below 2 ^ 32 neither counter has wrapped, and the tail is still behind the head
      refine ⟨⟨hunread', htailNat, dataWrites_bounds hlen⟩, ⟨?_, ?_, ?_, ?_⟩⟩
      · rw [List.length_append]
        exact hheadNat
      · change (Ring.ofFile base (writeAll base f buf)).tail ≤
          (Ring.ofFile base (writeAll base f buf)).head
        rw [UInt32.le_iff_toNat_le]
        omega
      · exact hused'.trans_le (by omega)
      · refine List.IsSuffix.trans (hunread' ▸ List.drop_suffix _ _) ?_
        exact List.suffix_append_self_iff.mpr h.unread
  | drain limit =>
      have hnone : written [.drain limit] = [] := rfl
      rw [hnone, List.append_nil]
      obtain ⟨hread, hhead', htail', hused', hunread'⟩ := readRing_spec limit h.used
      have hk : (Ring.ofFile base f).taken limit ≤ (Ring.ofFile base f).used := Nat.min_le_left _ _
      have htailNat : (Ring.ofFile base (readRing base limit f).1).tail.toNat =
          (Ring.ofFile base f).tail.toNat + (Ring.ofFile base f).taken limit := by
        rw [htail', UInt32.toNat_add, UInt32.toNat_ofNat']
        omega
      have hrest := hunread' (.inl (by omega))
      refine ⟨⟨hread, hrest, htailNat⟩, ⟨?_, ?_, ?_, ?_⟩⟩
      · exact (congrArg UInt32.toNat hhead').trans h.head
      · change (Ring.ofFile base (readRing base limit f).1).tail ≤
          (Ring.ofFile base (readRing base limit f).1).head
        rw [UInt32.le_iff_toNat_le, hhead']
        omega
      · exact hused'.trans_le (by omega)
      · exact (hrest ▸ List.drop_suffix _ _ : _ <:+ _).trans h.unread

theorem holds_run {base : ℕ} {f : Buffer} {ws : List UInt8} {ops : List RingOp}
    (h : (Ring.ofFile base f).Holds ws) (hlen : ∀ buf, .write buf ∈ ops → buf.length ≤ 65520)
    (htotal : (ws ++ written ops).length < 2 ^ 32) :
    Along (ringStep base) (QueueStep base) f ops ∧
      (Ring.ofFile base (run (ringStep base) f ops).1).Holds (ws ++ written ops) := by
  induction ops generalizing f ws with
  | nil => exact ⟨trivial, by simpa [written] using h⟩
  | cons op ops ih =>
      rw [written_cons, ← List.append_assoc] at htotal ⊢
      have hop : (written [op]).length ≤ 65520 := by
        cases op with
        | write buf =>
            rw [written, List.flatMap_singleton]
            exact hlen buf List.mem_cons_self
        | drain limit => exact Nat.zero_le _
      have hpart : (ws ++ written [op]).length < 2 ^ 32 := by
        rw [List.length_append] at htotal
        omega
      obtain ⟨hqueue, hholds⟩ := holds_step h hop hpart
      obtain ⟨hrest, hfinal⟩ := ih hholds
        (fun buf hbuf ↦ hlen buf (List.mem_cons_of_mem op hbuf)) htotal
      exact ⟨⟨hqueue, hrest⟩, hfinal⟩

/-- From zeroed counters on, with fewer than `2 ^ 32` bytes written in all, the
ring is a queue that drops its oldest bytes: what waits is the end of what was
written, and each step moves just the bytes it has to. -/
theorem ring_drops_oldest (base : ℕ) (f : Buffer) (ops : List RingOp)
    (hzero : readHeader base f = ⟨0, 0⟩)
    (hlen : ∀ buf, .write buf ∈ ops → buf.length ≤ 65520)
    (htotal : (written ops).length < 2 ^ 32) :
    let r := Ring.ofFile base (run (ringStep base) f ops).1
    r.unread = (written ops).drop ((written ops).length - (r.head - r.tail).toNat) ∧
      (r.head - r.tail).toNat ≤ 65520 ∧ r.head.toNat = (written ops).length ∧
      Along (ringStep base) (QueueStep base) f ops := by
  have hhead : (Ring.ofFile base f).head = 0 := congrArg RingHeader.head hzero
  have htail : (Ring.ofFile base f).tail = 0 := congrArg RingHeader.tail hzero
  have hstart : (Ring.ofFile base f).Holds [] := by
    obtain ⟨hused, hunread⟩ := Ring.empty_of_eq (hhead.trans htail.symm)
    refine ⟨by rw [hhead]; rfl, by rw [hhead, htail]; exact UInt32.le_refl 0, by omega, ?_⟩
    exact hunread.symm ▸ List.suffix_rfl
  obtain ⟨hqueue, hholds⟩ := holds_run hstart hlen htotal
  refine ⟨?_, hholds.used, hholds.head, hqueue⟩
  have hend := List.suffix_iff_eq_drop.mp hholds.unread
  rw [Ring.length_unread] at hend
  exact hend

/-- A write that finds the ring full, and a drain behind it. -/
theorem ring_drops_oldest_overflowed :
    let ops : List RingOp := [.write (List.replicate 65520 0), .write [7, 8, 9], .drain 65500]
    (Ring.ofFile 0 (run (ringStep 0) (fun _ ↦ 0) ops).1).unread =
      List.replicate 17 0 ++ [7, 8, 9] := by
  have hfull : (List.replicate 65520 (0 : UInt8)).length = 65520 := List.length_replicate
  have hend : List.replicate 17 0 ++ [7, 8, 9] =
      (List.replicate 65520 (0 : UInt8) ++ [7, 8, 9]).drop 65503 := by
    rw [List.drop_append_of_le_length (by omega), List.drop_replicate]
  rw [hend]
  generalize List.replicate 65520 (0 : UInt8) = buf at hfull ⊢
  intro ops
  have hwritten : written ops = buf ++ [7, 8, 9] := by
    simp [ops, written]
  obtain ⟨hunread, -, -, hfirst, hsecond, hdrain, -⟩ :=
    ring_drops_oldest 0 (fun _ ↦ 0) ops (by decide) (by simp [ops, hfull])
      (by simp [hwritten, hfull])
  have hempty : (Ring.ofFile 0 fun _ ↦ 0).used = 0 := by decide
  have hone := hfirst.used_write hfull.le
  have htwo := hsecond.used_write (by decide)
  have hthree := hdrain.used_drain
  have hleft : (Ring.ofFile 0 (run (ringStep 0) (fun _ ↦ 0) ops).1).used = 20 := by
    rw [fst_run_cons, fst_run_cons, fst_run_cons, fst_run_nil, hthree, htwo, hone, hempty, hfull]
    decide
  have hpos : (buf ++ [7, 8, 9]).length - 20 = 65503 := by
    simp [hfull]
  rw [hunread, ← Ring.used, hleft, hwritten, hpos]

/-! ## Runs across the wrap of the counters -/

def Fits (base : ℕ) (f : Buffer) : RingOp → Prop
  | .write buf => (Ring.ofFile base f).used + buf.length ≤ 65520
  | .drain _ => True

/-- The counters do not wrap between bytes that wait: nothing is written while
the head has wrapped and the tail has not, and a drain that leaves something
over stops before the wrap. -/
def Unwrapped (base : ℕ) (f : Buffer) : RingOp → Prop
  | .write buf => buf = [] ∨ (Ring.ofFile base f).tail ≤ (Ring.ofFile base f).head
  | .drain limit =>
    let r := Ring.ofFile base f
    r.tail.toNat + r.taken limit < 2 ^ 32 ∨ r.taken limit = r.used

theorem write_unwrapped {base : ℕ} {f : Buffer} {buf : List UInt8}
    (hused : (Ring.ofFile base f).used ≤ 65520) (hlen : buf.length ≤ 65520)
    (hunwrapped : Unwrapped base f (.write buf)) :
    (Ring.ofFile base (writeAll base f buf)).used ≤ 65520 ∧
      (Ring.ofFile base (writeAll base f buf)).unread =
        ((Ring.ofFile base f).unread ++ buf).drop
          ((Ring.ofFile base f).discarded buf.length) := by
  have hd : (Ring.ofFile base f).discarded buf.length =
      (Ring.ofFile base f).used + buf.length - 65520 := rfl
  rcases hunwrapped with rfl | hstraight
  · have hzero : (Ring.ofFile base f).discarded ([] : List UInt8).length = 0 :=
      hd.trans (Nat.sub_eq_zero_of_le hused)
    rw [writeAll_nil hused, hzero, List.append_nil, List.drop_zero]
    exact ⟨hused, rfl⟩
  · obtain ⟨-, -, hused', hunread'⟩ := writeAll_spec hused hlen hstraight
    exact ⟨hused'.trans_le (by omega), hunread'⟩

theorem in_order_step {base : ℕ} {f : Buffer} {op : RingOp}
    (hused : (Ring.ofFile base f).used ≤ 65520) (hfits : Fits base f op)
    (hunwrapped : Unwrapped base f op) :
    (Ring.ofFile base (ringStep base f op).1).used ≤ 65520 ∧
      (ringStep base f op).2 ++ (Ring.ofFile base (ringStep base f op).1).unread =
        (Ring.ofFile base f).unread ++ written [op] := by
  cases op with
  | write buf =>
      have hbuf : written [.write buf] = buf := List.append_nil buf
      have hroom : (Ring.ofFile base f).used + buf.length ≤ 65520 := hfits
      have hlen : buf.length ≤ 65520 := by omega
      obtain ⟨hused', hunread'⟩ := write_unwrapped hused hlen hunwrapped
      have hzero : (Ring.ofFile base f).discarded buf.length = 0 := Nat.sub_eq_zero_of_le hroom
      rw [hzero, List.drop_zero] at hunread'
      rw [hbuf]
      exact ⟨hused', hunread'⟩
  | drain limit =>
      have hnone : written [.drain limit] = [] := rfl
      rw [hnone, List.append_nil]
      obtain ⟨hread, -, -, hused', hunread'⟩ := readRing_spec limit hused
      refine ⟨hused'.trans_le ((Nat.sub_le _ _).trans hused), ?_⟩
      change (readRing base limit f).2 ++ (Ring.ofFile base (readRing base limit f).1).unread = _
      rw [hread, hunread' hunwrapped, List.take_append_drop]

/-- From any common value of head and tail, in runs that do not overflow the ring
and whose counters do not wrap between bytes that wait, the reader gets the
bytes written, in order, and the rest waits. -/
theorem ring_in_order (base : ℕ) (f : Buffer) (ops : List RingOp)
    (hstart : (readHeader base f).head = (readHeader base f).tail)
    (hfits : Along (ringStep base) (Fits base) f ops)
    (hunwrapped : Along (ringStep base) (Unwrapped base) f ops) :
    (run (ringStep base) f ops).2 ++ (Ring.ofFile base (run (ringStep base) f ops).1).unread =
      written ops := by
  have hrun : ∀ (ops : List RingOp) (f : Buffer), (Ring.ofFile base f).used ≤ 65520 →
      Along (ringStep base) (Fits base) f ops → Along (ringStep base) (Unwrapped base) f ops →
      (run (ringStep base) f ops).2 ++ (Ring.ofFile base (run (ringStep base) f ops).1).unread =
        (Ring.ofFile base f).unread ++ written ops := by
    intro ops
    induction ops with
    | nil => intro f _ _ _; exact (List.append_nil _).symm
    | cons op ops ih =>
        intro f hused hfits hunwrapped
        obtain ⟨hused', hstep⟩ := in_order_step hused hfits.1 hunwrapped.1
        rw [run_cons, List.append_assoc, ih _ hused' hfits.2 hunwrapped.2,
          written_cons op ops, ← List.append_assoc, hstep, List.append_assoc]
  obtain ⟨hempty, hnothing⟩ := Ring.empty_of_eq (r := Ring.ofFile base f) hstart
  have h := hrun ops f (by omega) hfits hunwrapped
  rwa [hnothing, List.nil_append] at h

def ringAt (v : UInt32) : Buffer := (tailWrite 0 v).apply ((headWrite 0 v).apply fun _ ↦ 0)

/-- Two bytes across the wrap, written and drained at once. -/
theorem ring_in_order_across :
    (run (ringStep 0) (ringAt 0xFFFFFFFF) [.write [1, 2], .drain 4096, .write [3]]).2 ++
      (Ring.ofFile 0 (run (ringStep 0) (ringAt 0xFFFFFFFF)
        [.write [1, 2], .drain 4096, .write [3]]).1).unread = [1, 2, 3] :=
  ring_in_order 0 (ringAt 0xFFFFFFFF) [.write [1, 2], .drain 4096, .write [3]] (by decide)
    ⟨by unfold Fits; decide, trivial, by unfold Fits; decide, trivial⟩
    ⟨by unfold Unwrapped; decide, by unfold Unwrapped; decide, by unfold Unwrapped; decide,
      trivial⟩

/-- Written one byte at a time across the wrap, the second byte is lost. -/
theorem ring_loses_across :
    (readHeader 0 (ringAt 0xFFFFFFFF)).head = (readHeader 0 (ringAt 0xFFFFFFFF)).tail ∧
      Along (ringStep 0) (Fits 0) (ringAt 0xFFFFFFFF) [.write [1], .write [2], .drain 4096] ∧
      (run (ringStep 0) (ringAt 0xFFFFFFFF) [.write [1], .write [2], .drain 4096]).2 = [1, 0] ∧
      ¬(run (ringStep 0) (ringAt 0xFFFFFFFF) [.write [1], .write [2], .drain 4096]).2 <+:
        written [.write [1], .write [2], .drain 4096] := by
  refine ⟨by decide, ⟨?_, ?_, trivial, trivial⟩, by decide, by decide⟩ <;>
    unfold Fits <;> decide

/-! ## The two directions -/

theorem foldl_apply_out {base : ℕ} {i : ℕ} (hi : i < base ∨ base + 65536 ≤ i)
    {xs : List FileWrite} (hxs : ∀ x ∈ xs, base ≤ x.pos ∧ x.pos + x.data.length ≤ base + 65536)
    (f : Buffer) : xs.foldl FileWrite.apply f i = f i := by
  induction xs generalizing f with
  | nil => rfl
  | cons x xs ih =>
      obtain ⟨hlow, hhigh⟩ := hxs x List.mem_cons_self
      have hcell : x.apply f i = f i := writeBlock_out (by omega)
      exact (ih (fun y hy ↦ hxs y (List.mem_cons_of_mem x hy)) _).trans hcell

theorem ringStep_outside {base : ℕ} {f : Buffer} {op : RingOp} {i : ℕ}
    (hlen : (written [op]).length ≤ 65520) (hi : i < base ∨ base + 65536 ≤ i) :
    (ringStep base f op).1 i = f i := by
  have htail : ∀ v, base ≤ (tailWrite base v).pos ∧
      (tailWrite base v).pos + (tailWrite base v).data.length ≤ base + 65536 := fun v ↦ by
    simp [tailWrite]
  have hstore : ∀ v, (tailWrite base v).apply f i = f i := fun v ↦ by
    obtain ⟨hlow, hhigh⟩ := htail v
    exact writeBlock_out (by omega)
  cases op with
  | write buf =>
      have hbuf : written [.write buf] = buf := List.append_nil buf
      rw [hbuf] at hlen
      refine foldl_apply_out hi (fun x hx ↦ ?_) f
      simp only [writePlan, List.mem_append, List.mem_map, List.mem_singleton] at hx
      rcases hx with (⟨v, -, rfl⟩ | hx) | rfl
      · exact htail v
      · have hbounds := dataWrites_bounds hlen x hx
        omega
      · simp [headWrite]
  | drain limit =>
      change (readRing base limit f).1 i = f i
      unfold readRing
      split
      · rfl
      · exact hstore _
      · exact hstore _

/-- Neither its counters nor its waiting bytes change by calls on another ring. -/
theorem run_apart {base base' : ℕ} (hapart : base' + 65536 ≤ base ∨ base + 65536 ≤ base')
    (f : Buffer) (ops : List RingOp) (hlen : ∀ op ∈ ops, (written [op]).length ≤ 65520) :
    readHeader base' (run (ringStep base) f ops).1 = readHeader base' f ∧
      (Ring.ofFile base' (run (ringStep base) f ops).1).unread = (Ring.ofFile base' f).unread := by
  have hcells : ∀ i, base' ≤ i ∧ i < base' + 65536 → (run (ringStep base) f ops).1 i = f i := by
    intro i hi
    induction ops generalizing f with
    | nil => rfl
    | cons op ops ih =>
        have hrest := ih (ringStep base f op).1 fun op hop ↦ hlen op (List.mem_cons_of_mem _ hop)
        exact hrest.trans (ringStep_outside (hlen op List.mem_cons_self) (by omega))
  have hword : ∀ k, k + 4 ≤ 65536 →
      Buffer.word32 (run (ringStep base) f ops).1 (base' + k) = f.word32 (base' + k) := by
    intro k hk
    rw [Buffer.word32, hcells _ (by omega), hcells _ (by omega), hcells _ (by omega),
      hcells _ (by omega)]
    rfl
  have hhead := hword 0 (by omega)
  have htail := hword 4 (by omega)
  have hheader : readHeader base' (run (ringStep base) f ops).1 = readHeader base' f :=
    congrArg₂ RingHeader.mk hhead htail
  refine ⟨hheader, ?_⟩
  have hused : (Ring.ofFile base' (run (ringStep base) f ops).1).used =
      (Ring.ofFile base' f).used := congrArg (fun h ↦ (h.head - h.tail).toNat) hheader
  have hpos : (Ring.ofFile base' (run (ringStep base) f ops).1).tail = (Ring.ofFile base' f).tail :=
    congrArg RingHeader.tail hheader
  rw [Ring.unread, Ring.unread, hused, hpos]
  refine arc_congr fun i _ ↦ hcells _ ?_
  have hcell : ((Ring.ofFile base' f).tail.toNat + i) % kIpcRingCap.toNat < 65520 :=
    Nat.mod_lt _ (by decide)
  omega

/-- Traffic in one direction leaves the ring of the other alone. -/
theorem directions_apart (f : Buffer) (ops : List RingOp)
    (hlen : ∀ op ∈ ops, (written [op]).length ≤ 65520) :
    ((Ring.ofFile kIpcV2RBase (run (ringStep kIpcR2VBase) f ops).1).unread =
        (Ring.ofFile kIpcV2RBase f).unread) ∧
      (Ring.ofFile kIpcR2VBase (run (ringStep kIpcV2RBase) f ops).1).unread =
        (Ring.ofFile kIpcR2VBase f).unread :=
  ⟨(run_apart (.inr le_rfl) f ops hlen).2, (run_apart (.inl le_rfl) f ops hlen).2⟩

end RadioService.Serial
