import RadioService.RxTurn

/-!
# The receive loop on an endless stream

Nothing counts the turns of the receive loop.  On an endless stream of answers it
leaves when one of the turns says so, and it parks as many packets as come before
the last one of a burst.
-/

namespace RadioService

open Burst Traced

/-! ## The loop, turn by turn -/

/-- Where the loop is in front of turn `n`: its locals, or left, and the worker. -/
def loopAt (σ : ℕ → RxStep) (w : RadioWorker) : ℕ → RxNext × RadioWorker
  | 0 => (.again {}, w)
  | n + 1 =>
    match loopAt σ w n with
    | (.again l, w') => (((rxIter (σ n) l).run w').val, ((rxIter (σ n) l).run w').state)
    | (.leave, w') => (.leave, w')

/-- The locals in front of turn `n`. The worker has no part in them. -/
def localsAt (σ : ℕ → RxStep) : ℕ → RxNext
  | 0 => .again {}
  | n + 1 =>
    match localsAt σ n with
    | .again l => (σ n).next l
    | .leave => .leave

theorem loopAt_fst (σ : ℕ → RxStep) (w : RadioWorker) (n : ℕ) :
    (loopAt σ w n).1 = localsAt σ n := by
  induction n with
  | zero => rfl
  | succ n ih =>
      rw [loopAt, localsAt, ← ih]
      obtain ⟨next, w'⟩ := loopAt σ w n
      cases next with
      | again l => exact rxIter_val (σ n) l w'
      | leave => rfl

theorem loopAt_eq {σ : ℕ → RxStep} {n : ℕ} {next : RxNext} (h : localsAt σ n = next)
    (w : RadioWorker) : loopAt σ w n = (next, (loopAt σ w n).2) :=
  Prod.ext ((loopAt_fst σ w n).trans h) rfl

theorem localsAt_of_loopAt {σ : ℕ → RxStep} {w w' : RadioWorker} {n : ℕ} {next : RxNext}
    (h : loopAt σ w n = (next, w')) : localsAt σ n = next :=
  (loopAt_fst σ w n).symm.trans (congrArg Prod.fst h)

theorem localsAt_succ {σ : ℕ → RxStep} {n : ℕ} {l : RxLocals} (h : localsAt σ n = .again l) :
    localsAt σ (n + 1) = (σ n).next l := by
  rw [localsAt, h]

/-- On the first `n` answers of the stream the loop of a poll is where the stream
has brought it. -/
theorem rxLoop_stream (σ : ℕ → RxStep) (w : RadioWorker) (n : ℕ) (is : List RxStep) :
    ∃ log, (rxLoop ((List.range n).map σ ++ is) {}).run w =
      match loopAt σ w n with
      | (.again l, w') => ((rxLoop is l).run w').prepend log
      | (.leave, w') => ⟨(), w', log⟩ := by
  induction n generalizing is with
  | zero => exact ⟨[], rfl⟩
  | succ n ih =>
      obtain ⟨log, hrun⟩ := ih (σ n :: is)
      rw [List.range_succ, List.map_append, List.append_assoc, List.map_singleton,
        List.singleton_append, hrun, loopAt]
      obtain ⟨next, w'⟩ := loopAt σ w n
      cases next with
      | leave => exact ⟨log, rfl⟩
      | again l =>
          refine ⟨log ++ ((rxIter (σ n) l).run w').log, ?_⟩
          dsimp only
          rw [rxLoop, run_bind]
          cases ((rxIter (σ n) l).run w').val with
          | again l' => rw [Outcome.prepend_prepend]
          | leave => simp

/-! ## Leaving, and parking -/

def RxStep.parks (i : RxStep) (l : RxLocals) : Bool :=
  i.reads l && midBurst (i.pkt, i.rssi)

/-- The turn is the last: it reads a packet without a burst header, or the last one of a burst
with nothing behind it in the FIFO, or it reads none and finds no burst open, an error, or the
deadline passed. -/
def RxStep.ends (i : RxStep) (l : RxLocals) : Bool :=
  if i.reads l then
    !isBurst (i.pkt, i.rssi) || (!midBurst (i.pkt, i.rssi) && decide (i.afterLevel = 0))
  else
    !i.waits l

theorem next_leave_iff (i : RxStep) (l : RxLocals) : i.next l = .leave ↔ i.ends l = true := by
  have hlevel : i.afterLevel > 0 ↔ i.afterLevel ≠ 0 := UInt16.pos_iff_ne_zero
  unfold RxStep.next RxStep.ends
  cases i.reads l
  · cases i.waits l <;> simp
  · by_cases hmid : midBurst (i.pkt, i.rssi) = true
    · simp [hmid, isBurst_of_midBurst hmid]
    · cases hburst : isBurst (i.pkt, i.rssi) <;> by_cases hempty : i.afterLevel = 0 <;>
        simp [hmid, hlevel, hempty, hburst]

theorem next_of_parks {i : RxStep} {l : RxLocals} (h : i.parks l = true) :
    i.next l = .again ⟨true, i.burstNow + 10, l.queue ++ [(i.pkt, i.rssi)], true⟩ := by
  rw [RxStep.parks, Bool.and_eq_true] at h
  rw [RxStep.next, if_pos h.1, if_pos h.2]

theorem next_queue {i : RxStep} {l l' : RxLocals} (h : i.next l = .again l') :
    l'.queue.length ≤ l.queue.length + if i.parks l then 1 else 0 := by
  have hqueue : (i.sensed l).queue = l.queue := by
    unfold RxStep.sensed
    split <;> rfl
  cases hparks : i.parks l with
  | true =>
      cases (next_of_parks hparks).symm.trans h
      rw [List.length_append]
      rfl
  | false =>
      rw [RxStep.next] at h
      split at h
      · rename_i hreads
        have hlast : midBurst (i.pkt, i.rssi) = false := by
          rwa [RxStep.parks, hreads, Bool.true_and] at hparks
        rw [hlast, if_neg Bool.false_ne_true] at h
        split at h <;> cases h
        exact Nat.zero_le _
      · split at h <;> cases h
        exact le_of_eq (congrArg List.length hqueue)

/-! ## Bounded work -/

/-- At most 105 packets are parked, and the loop leaves. -/
def RxBounded (σ : ℕ → RxStep) (w : RadioWorker) : Prop :=
  (∀ n l w', loopAt σ w n = (.again l, w') → l.queue.length ≤ kMaxAirPacketsAlt.toNat) ∧
    ∃ n w', loopAt σ w n = (.leave, w')

/-- The packets parked stay at most 105 exactly if none comes on top of 105. -/
theorem parked_bounded_iff (σ : ℕ → RxStep) :
    (∀ n l, localsAt σ n = .again l → l.queue.length ≤ 105) ↔
      ∀ n l, localsAt σ n = .again l → (σ n).parks l = true → l.queue.length < 105 := by
  constructor
  · intro h n l hl hparks
    have hle := h (n + 1) _ ((localsAt_succ hl).trans (next_of_parks hparks))
    rw [List.length_append, List.length_singleton] at hle
    exact hle
  · intro h n
    induction n with
    | zero =>
        intro l hl
        cases hl
        exact Nat.zero_le _
    | succ n ih =>
        intro l' hl'
        cases hl : localsAt σ n with
        | leave => rw [localsAt, hl] at hl'; cases hl'
        | again l =>
            have hlen := next_queue ((localsAt_succ hl).symm.trans hl')
            have hle := ih l hl
            cases hparks : (σ n).parks l with
            | true =>
                have hlt := h n l hl hparks
                rw [hparks, if_pos rfl] at hlen
                omega
            | false =>
                rw [hparks, if_neg Bool.false_ne_true] at hlen
                omega

theorem exists_ends {σ : ℕ → RxStep} {n : ℕ} (h : localsAt σ n = .leave) :
    ∃ m l, localsAt σ m = .again l ∧ (σ m).ends l = true := by
  induction n with
  | zero => cases h
  | succ n ih =>
      cases hl : localsAt σ n with
      | leave => exact ih hl
      | again l => exact ⟨n, l, hl, (next_leave_iff _ _).mp ((localsAt_succ hl).symm.trans h)⟩

/-- The loop leaves with at most 105 packets parked on the way exactly if no packet
of an unfinished burst comes on top of 105 parked ones and one of its turns is a last
one. -/
theorem rx_bounded_iff (σ : ℕ → RxStep) (w : RadioWorker) :
    RxBounded σ w ↔
      (∀ n l, localsAt σ n = .again l → (σ n).parks l = true → l.queue.length < 105) ∧
        ∃ n l, localsAt σ n = .again l ∧ (σ n).ends l = true := by
  refine and_congr ?_ ⟨fun ⟨n, w', hn⟩ ↦ exists_ends (localsAt_of_loopAt hn),
    fun ⟨n, l, hl, hends⟩ ↦ ?_⟩
  · rw [← parked_bounded_iff]
    exact ⟨fun h n l hl ↦ h n l _ (loopAt_eq hl w),
      fun h n l w' hn ↦ h n l (localsAt_of_loopAt hn)⟩
  · exact ⟨n + 1, _, loopAt_eq ((localsAt_succ hl).trans ((next_leave_iff _ _).mpr hends)) w⟩

/-- The first packet of a burst, over and over: all of them are parked, and the loop
never leaves. -/
theorem rx_unbounded :
    let pkt := (⟨kMagic, 7, 0, 2, 600, 0⟩ : Header).packet
    let σ : ℕ → RxStep := fun _ ↦ .reading pkt
    (decodeHeader pkt.bytes).isSome ∧
      (∀ n, ∃ l w, loopAt σ booted.state n = (.again l, w) ∧ l.queue.length = n) ∧
      ¬RxBounded σ booted.state := by
  intro pkt σ
  have hmid : midBurst (pkt, 0) = true := by decide +kernel
  have hparks : ∀ l, (RxStep.reading pkt).parks l = true := fun l ↦ by
    rw [RxStep.parks, reading_reads, reading_rssi, reading_pkt, hmid]
    rfl
  have hgoes : ∀ n, ∃ l, localsAt σ n = .again l ∧ l.queue.length = n := by
    intro n
    induction n with
    | zero => exact ⟨{}, rfl, rfl⟩
    | succ n ih =>
        obtain ⟨l, hl, hlen⟩ := ih
        refine ⟨_, (localsAt_succ hl).trans (next_of_parks (hparks l)), ?_⟩
        rw [List.length_append, hlen]
        rfl
  refine ⟨by decide +kernel, fun n ↦ ?_, fun h ↦ ?_⟩
  · obtain ⟨l, hl, hlen⟩ := hgoes n
    exact ⟨l, _, loopAt_eq hl _, hlen⟩
  · obtain ⟨n, w', hn⟩ := h.2
    obtain ⟨l, hl, -⟩ := hgoes n
    exact absurd (hl.symm.trans (localsAt_of_loopAt hn)) (by simp)

end RadioService
