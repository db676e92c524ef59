import RadioService.BurstRoundTrip
import RadioService.TxTerminals

/-!
# The ids of consecutive bursts

The id of a burst is a hash of 16 bits of a counter and the clock, 0 being sent as 1.
Nothing compares it with the id before it: two consecutive ids are equal exactly if
their hashes collide.
-/

namespace RadioService

open Burst Machine Traced

/-! ## The hash -/

def entropy (tvSec tvNsec counter : UInt32) : UInt32 :=
  tvNsec ^^^ (tvSec * 0x9E3779B9) ^^^ (counter * 0x85EBCA6B)

/-- The upper half on top of the lower half. -/
def fold (e : UInt32) : UInt16 := (e ^^^ (e >>> 16)).toUInt16

theorem burstId_eq_fold (tvSec tvNsec counter : UInt32) :
    burstId tvSec tvNsec counter =
      if fold (entropy tvSec tvNsec counter) = 0 then 1 else fold (entropy tvSec tvNsec counter) :=
  rfl

theorem burstId_ne_zero (tvSec tvNsec counter : UInt32) : burstId tvSec tvNsec counter ≠ 0 := by
  rw [burstId_eq_fold]
  split
  · decide
  · assumption

theorem le_one_iff {h : UInt16} : h ≤ 1 ↔ h = 0 ∨ h = 1 := by
  rw [UInt16.le_iff_toNat_le, ← UInt16.toNat_inj, ← UInt16.toNat_inj]
  change h.toNat ≤ 1 ↔ h.toNat = 0 ∨ h.toNat = 1
  omega

/-- The hashes 0 and 1 give the same id. -/
theorem sent_eq_iff {h h' : UInt16} :
    (if h = 0 then 1 else h) = (if h' = 0 then 1 else h') ↔ h = h' ∨ h ≤ 1 ∧ h' ≤ 1 := by
  rw [le_one_iff, le_one_iff]
  have hcases : ∀ k : UInt16, k = 0 ∨ k ≠ 0 ∧ (if k = 0 then 1 else k) = k := by
    intro k
    by_cases hk : k = 0
    · exact .inl hk
    · exact .inr ⟨hk, if_neg hk⟩
  rcases hcases h with rfl | ⟨hne, heq⟩ <;> rcases hcases h' with rfl | ⟨hne', heq'⟩
  · exact iff_of_true rfl (.inl rfl)
  · rw [if_pos rfl, heq']
    constructor
    · intro hone
      exact .inr ⟨.inl rfl, .inr hone.symm⟩
    · rintro (hsame | ⟨-, hzero | hone⟩)
      · exact absurd hsame.symm hne'
      · exact absurd hzero hne'
      · exact hone.symm
  · rw [if_pos rfl, heq]
    constructor
    · intro hone
      exact .inr ⟨.inr hone, .inl rfl⟩
    · rintro (hsame | ⟨hzero | hone, -⟩)
      · exact absurd hsame hne
      · exact absurd hzero hne
      · exact hone
  · rw [heq, heq']
    constructor
    · exact .inl
    · rintro (hsame | ⟨hzero | hone, hzero' | hone'⟩)
      · exact hsame
      · exact absurd hzero hne
      · exact absurd hzero hne
      · exact absurd hzero' hne'
      · exact hone.trans hone'.symm

theorem fold_bit (e : UInt32) {i : ℕ} (hi : i < 16) :
    (fold e).toBitVec.getLsbD i = (e.toBitVec.getLsbD i ^^ e.toBitVec.getLsbD (i + 16)) := by
  simp [fold, hi]
  grind

/-- Words with the same upper half have different hashes, whatever is mixed in. -/
theorem eq_of_fold {n n' x : UInt32} (hhigh : n >>> 16 = n' >>> 16)
    (hfold : fold (n ^^^ x) = fold (n' ^^^ x)) : n = n' := by
  have hupper : ∀ i < 16, n.toBitVec.getLsbD (i + 16) = n'.toBitVec.getLsbD (i + 16) := by
    intro i hi
    have hbit := congrArg (fun w : UInt32 ↦ w.toBitVec.getLsbD i) hhigh
    simpa [Nat.add_comm] using hbit
  have hlower : ∀ i < 16, n.toBitVec.getLsbD i = n'.toBitVec.getLsbD i := by
    intro i hi
    have hbit := congrArg (fun h : UInt16 ↦ h.toBitVec.getLsbD i) hfold
    simp only [fold_bit _ hi, UInt32.toBitVec_xor, BitVec.getLsbD_xor, hupper i hi] at hbit
    revert hbit
    cases n.toBitVec.getLsbD i <;> cases n'.toBitVec.getLsbD i <;>
      cases n'.toBitVec.getLsbD (i + 16) <;> cases x.toBitVec.getLsbD i <;>
      cases x.toBitVec.getLsbD (i + 16) <;> simp
  apply UInt32.toBitVec_inj.mp
  apply BitVec.eq_of_getLsbD_eq
  intro i hi
  by_cases hlow : i < 16
  · exact hlower i hlow
  · have hsplit : i - 16 + 16 = i := by omega
    rw [← hsplit]
    exact hupper (i - 16) (by omega)

/-! ## A run of bursts -/

/-- A burst that was sent: the clock and the counter it found, and its id. -/
structure SentBurst where
  tvSec : UInt32
  tvNsec : UInt32
  counter : UInt32
  id : UInt16
deriving DecidableEq

def SentBurst.entropy (b : SentBurst) : UInt32 :=
  RadioService.entropy b.tvSec b.tvNsec b.counter

/-- The bursts of a worker, one after the other; a payload of a refused size makes none. -/
def sendBursts : Step RadioWorker (TxFrame × BurstInput) SentBurst := fun w b ↦
  (((transmitBurst b.1 b.2).run w).state,
    if badBurstSize b.1.payload.length then
      []
    else
      [{ tvSec := b.2.tvSec, tvNsec := b.2.tvNsec, counter := w.burstIdCounter
         id := burstId b.2.tvSec b.2.tvNsec w.burstIdCounter }])

/-- The packets of a burst bear its id. -/
theorem transmitBurst_id {frame f : TxFrame} {io : BurstInput} {w : RadioWorker}
    {pkt : List UInt8} {st : Int16}
    (h : .radio (.startTransmit f pkt st) ∈ ((transmitBurst frame io).run w).events) :
    (Header.ofBytes pkt).burstId = burstId io.tvSec io.tvNsec w.burstIdCounter := by
  obtain ⟨-, hevents, -⟩ := transmitBurst_run frame io w
  rw [hevents, burstEffects, List.mem_flatMap] at h
  obtain ⟨idx, -, h⟩ := h
  obtain ⟨-, rfl, -⟩ := mem_packetEffects.mp h
  rw [burstPacket, encodePacket, List.append_assoc, ofBytes_toBytes]

theorem sendPackets_counter (c : UInt32) (frame : TxFrame) (id total : UInt16) (crc : UInt32)
    (attempt : ℕ → ℕ → Attempt) (idx n : ℕ) :
    Keeps (fun w : RadioWorker ↦ w.burstIdCounter = c)
      (sendPackets frame id total crc attempt idx n) := by
  induction n generalizing idx with
  | zero => exact Keeps.pure true
  | succ n ih =>
      have htry : Keeps (fun w : RadioWorker ↦ w.burstIdCounter = c)
          (tryPacket frame (encodePacket id (UInt16.ofNat idx) total frame.payload
            (UInt32.ofNat frame.payload.length) crc) (attempt idx) 0 3) := by
        intro w hw
        obtain ⟨-, -, mode, hstate⟩ := Drives.tryPacket frame
          (encodePacket id (UInt16.ofNat idx) total frame.payload
            (UInt32.ofNat frame.payload.length) crc) (attempt idx) 0 3 w
        rw [hstate]
        exact hw
      refine htry.bind fun _ ↦ Keeps.ite (Keeps.pure false) ?_
      exact Keeps.bind (Keeps.update fun _ hw ↦ hw) fun _ ↦ ih (idx + 1)

/-- A burst that is sent takes one value of the counter. -/
theorem transmitBurst_counter (frame : TxFrame) (io : BurstInput) (w : RadioWorker) :
    ((transmitBurst frame io).run w).state.burstIdCounter =
      if badBurstSize frame.payload.length then w.burstIdCounter else w.burstIdCounter + 1 := by
  cases hbad : badBurstSize frame.payload.length with
  | true => simp [transmitBurst, hbad]
  | false =>
      let w₁ : RadioWorker := { w with
        burstIdCounter := w.burstIdCounter + 1, st := { w.st with burstsTx := w.st.burstsTx + 1 } }
      have hsent := sendPackets_counter (w.burstIdCounter + 1) frame
        (burstId io.tvSec io.tvNsec w.burstIdCounter) (burstTotal frame.payload.length)
        (crc32 frame.payload) io.attempt 0 (burstTotal frame.payload.length).toNat w₁ rfl
      simpa [transmitBurst, hbad, w₁] using hsent

/-- What the bursts of a run are made of. -/
theorem sendBursts_run (w : RadioWorker) (bursts : List (TxFrame × BurstInput)) :
    let sent := (run sendBursts w bursts).2
    (∀ b ∈ sent, b.id = burstId b.tvSec b.tvNsec b.counter) ∧
      (∀ b ∈ sent.head?, b.counter = w.burstIdCounter) ∧
        sent.IsChain fun a b ↦ b.counter = a.counter + 1 := by
  induction bursts generalizing w with
  | nil => simp
  | cons b bursts ih =>
      obtain ⟨hid, hfirst, hchain⟩ := ih (sendBursts w b).1
      have hcounter : (sendBursts w b).1.burstIdCounter = _ := transmitBurst_counter b.1 b.2 w
      rw [run_cons]
      dsimp only
      by_cases hbad : badBurstSize b.1.payload.length = true
      · have hnone : (sendBursts w b).2 = [] := if_pos hbad
        rw [if_pos hbad] at hcounter
        rw [hnone, List.nil_append]
        exact ⟨hid, hcounter ▸ hfirst, hchain⟩
      · have hone : (sendBursts w b).2 = [{
            tvSec := b.2.tvSec, tvNsec := b.2.tvNsec, counter := w.burstIdCounter
            id := burstId b.2.tvSec b.2.tvNsec w.burstIdCounter }] := if_neg hbad
        rw [if_neg hbad] at hcounter
        rw [hone, List.singleton_append]
        refine ⟨?_, ?_, ?_⟩
        · intro c hc
          rcases List.mem_cons.mp hc with rfl | hc
          · rfl
          · exact hid c hc
        · rintro c hc
          cases hc
          rfl
        · rw [List.isChain_cons]
          exact ⟨fun c hc ↦ (hfirst c hc).trans hcounter, hchain⟩

/-- Every id is non-zero, and two consecutive ids are equal exactly if their hashes are, or
are 0 and 1.  Of the readings of the clock within 65536 ns, two give the same id to
the same counter only if that id is 1. -/
theorem consecutive_ids (w : RadioWorker) (bursts : List (TxFrame × BurstInput)) :
    (∀ b ∈ (run sendBursts w bursts).2, b.id ≠ 0) ∧
      (run sendBursts w bursts).2.IsChain (fun a b ↦ b.counter = a.counter + 1 ∧
        (a.id = b.id ↔ fold a.entropy = fold b.entropy ∨
          fold a.entropy ≤ 1 ∧ fold b.entropy ≤ 1)) ∧
      (∀ tvSec tvNsec tvNsec' counter : UInt32, tvNsec >>> 16 = tvNsec' >>> 16 →
        burstId tvSec tvNsec counter = burstId tvSec tvNsec' counter →
          tvNsec = tvNsec' ∨ burstId tvSec tvNsec counter = 1) ∧
      ∀ (frame f : TxFrame) (io : BurstInput) (w : RadioWorker) (pkt : List UInt8) (st : Int16),
        .radio (.startTransmit f pkt st) ∈ ((transmitBurst frame io).run w).events →
          (Header.ofBytes pkt).burstId = burstId io.tvSec io.tvNsec w.burstIdCounter := by
  obtain ⟨hid, -, hchain⟩ := sendBursts_run w bursts
  refine ⟨?_, ?_, ?_, fun frame f io w pkt st ↦ transmitBurst_id⟩
  · intro b hb
    rw [hid b hb]
    exact burstId_ne_zero _ _ _
  · refine hchain.imp_of_mem_imp fun a b ha hb hnext ↦ ⟨hnext, ?_⟩
    rw [hid a ha, hid b hb, burstId_eq_fold, burstId_eq_fold, sent_eq_iff]
    rfl
  · intro tvSec tvNsec tvNsec' counter hwindow hsame
    rw [burstId_eq_fold, burstId_eq_fold, sent_eq_iff] at hsame
    rcases hsame with hfold | ⟨hone, -⟩
    · left
      rw [entropy, entropy, UInt32.xor_assoc, UInt32.xor_assoc] at hfold
      exact eq_of_fold hwindow hfold
    · right
      rw [burstId_eq_fold]
      rcases le_one_iff.mp hone with hzero | hone
      · rw [if_pos hzero]
      · rw [hone]
        rfl

/-! ## A collision -/

/-- The clock in front of a burst is valid and not behind the one before. -/
def MonotonicClock (bursts : List (TxFrame × BurstInput)) : Prop :=
  (∀ b ∈ bursts, b.2.tvNsec < 1000000000) ∧
    bursts.IsChain fun a b ↦
      a.2.tvSec < b.2.tvSec ∨ a.2.tvSec = b.2.tvSec ∧ a.2.tvNsec ≤ b.2.tvNsec

/-- A burst of one byte that is confirmed at once. -/
def shortBurst (tvSec tvNsec : UInt32) : TxFrame × BurstInput :=
  (⟨0, [1]⟩, { tvSec := tvSec, tvNsec := tvNsec, attempt := fun _ _ ↦ ⟨0, 0, [⟨0, irqTxDone⟩]⟩ })

/-- The first two bursts of a worker, 5.034189 ms apart. -/
theorem consecutive_ids_equal :
    MonotonicClock [shortBurst 100 0, shortBurst 100 5034189] ∧
      (run sendBursts {} [shortBurst 100 0, shortBurst 100 5034189]).2 =
        [⟨100, 0, 1, 3695⟩, ⟨100, 5034189, 2, 3695⟩] ∧
      ¬∀ (w : RadioWorker) (bursts : List (TxFrame × BurstInput)), MonotonicClock bursts →
        (∀ b ∈ (run sendBursts w bursts).2, b.id ≠ 0) ∧
          (run sendBursts w bursts).2.IsChain fun a b ↦ a.id ≠ b.id := by
  have hclock : MonotonicClock [shortBurst 100 0, shortBurst 100 5034189] := by
    refine ⟨?_, ?_⟩
    · decide
    · decide
  have hcounter : (sendBursts {} (shortBurst 100 0)).1.burstIdCounter = 2 := by
    have hnext := transmitBurst_counter (shortBurst 100 0).1 (shortBurst 100 0).2 {}
    exact hnext.trans (if_neg (by decide))
  have hsent : (run sendBursts {} [shortBurst 100 0, shortBurst 100 5034189]).2 =
      [⟨100, 0, 1, 3695⟩, ⟨100, 5034189, 2, 3695⟩] := by
    have hfirst : (sendBursts {} (shortBurst 100 0)).2 = [⟨100, 0, 1, 3695⟩] := by decide
    have hsecond : ∀ w : RadioWorker, w.burstIdCounter = 2 →
        (sendBursts w (shortBurst 100 5034189)).2 = [⟨100, 5034189, 2, 3695⟩] := by
      intro w hw
      have hsize : ¬badBurstSize (shortBurst 100 5034189).1.payload.length = true := by decide
      have hid : burstId 100 5034189 2 = 3695 := by decide
      rw [sendBursts, if_neg hsize, hw]
      exact congrArg (fun id ↦ [SentBurst.mk 100 5034189 2 id]) hid
    rw [run_cons, run_cons, run_nil, hfirst, hsecond _ hcounter]
    rfl
  refine ⟨hclock, hsent, fun h ↦ ?_⟩
  obtain ⟨-, hchain⟩ := h _ _ hclock
  rw [hsent] at hchain
  exact (List.isChain_cons_cons.mp hchain).1 rfl

end RadioService
