import RadioService.BurstTrace
import RadioService.TxLedger

/-!
# What a terminal says about the air

A host resends a frame that was dropped and must not resend one that may have
been aired.  Whether the terminals tell the two apart depends on the answers of
the radio during the bursts.
-/

namespace RadioService

open Burst Traced Machine

/-! ## Bursts -/

theorem packetDone_iff {attempt : ℕ → Attempt} {k n : ℕ} :
    packetDone attempt k n = true ↔ ∃ j, k ≤ j ∧ j < k + n ∧ (attempt j).done = true := by
  induction n generalizing k with
  | zero => simp [packetDone, attemptsMade]; omega
  | succ n ih =>
      have hstep : packetDone attempt k (n + 1) =
          ((attempt k).done || packetDone attempt (k + 1) n) := by
        cases h : (attempt k).done <;> simp [packetDone, attemptsMade, h]
      rw [hstep, Bool.or_eq_true, ih]
      constructor
      · rintro (h | ⟨j, hle, hlt, h⟩)
        · exact ⟨k, le_rfl, by omega, h⟩
        · exact ⟨j, by omega, by omega, h⟩
      · rintro ⟨j, hle, hlt, h⟩
        rcases Nat.eq_or_lt_of_le hle with rfl | hlt'
        · exact .inl h
        · exact .inr ⟨j, hlt', by omega, h⟩

/-- The attempts made start something exactly if one of those allowed would. -/
theorem attemptsMade_start_iff {attempt : ℕ → Attempt} {k n : ℕ} :
    (∃ j ∈ attemptsMade attempt k n, (attempt j).st = errNone) ↔
      ∃ j, k ≤ j ∧ j < k + n ∧ (attempt j).st = errNone := by
  induction n generalizing k with
  | zero => simp [attemptsMade]; omega
  | succ n ih =>
      constructor
      · rintro ⟨j, hj, hst⟩
        rw [attemptsMade, List.mem_cons] at hj
        rcases hj with rfl | hj
        · exact ⟨j, le_rfl, by omega, hst⟩
        split at hj
        · cases hj
        · obtain ⟨i, hle, hlt, hst⟩ := ih.mp ⟨j, hj, hst⟩
          exact ⟨i, by omega, by omega, hst⟩
      · rintro ⟨j, hle, hlt, hst⟩
        by_cases hk : (attempt k).st = errNone
        · exact ⟨k, by simp [attemptsMade], hk⟩
        have hdone : ¬(attempt k).done = true := fun h ↦ hk (Attempt.st_of_done h)
        have hne : k ≠ j := fun h ↦ hk (h ▸ hst)
        obtain ⟨i, hi, hst'⟩ := (ih (k := k + 1)).mpr ⟨j, by omega, by omega, hst⟩
        exact ⟨i, by simp [attemptsMade, hdone, hi], hst'⟩

theorem mem_packetEffects {frame f : TxFrame} {pkt p : List UInt8} {attempt : ℕ → Attempt}
    {k n : ℕ} {st : Int16} :
    .radio (.startTransmit f p st) ∈ packetEffects frame pkt attempt k n ↔
      f = frame ∧ p = pkt ∧ ∃ j ∈ attemptsMade attempt k n, (attempt j).st = st := by
  have hattempt : ∀ j, .radio (.startTransmit f p st) ∈ (attempt j).effects frame pkt j ↔
      f = frame ∧ p = pkt ∧ (attempt j).st = st := by
    intro j
    by_cases hj : j > 0 <;> by_cases hst : (attempt j).st = errNone <;>
      simp [Attempt.effects, hj, hst, eq_comm]
  simp only [packetEffects, List.mem_flatMap, hattempt]
  constructor
  · rintro ⟨j, hj, hf, hp, hst⟩
    exact ⟨hf, hp, j, hj, hst⟩
  · rintro ⟨hf, hp, j, hj, hst⟩
    exact ⟨j, hj, hf, hp, hst⟩

theorem first_mem_packetsMade {attempt : ℕ → ℕ → Attempt} {idx n : ℕ} (hn : 0 < n) :
    idx ∈ packetsMade attempt idx n := by
  obtain ⟨m, rfl⟩ := Nat.exists_eq_add_one.mpr hn
  simp [packetsMade]

/-- A packet behind the first is tried only when the first is confirmed. -/
theorem packetsMade_cases {attempt : ℕ → ℕ → Attempt} {idx n i : ℕ}
    (h : i ∈ packetsMade attempt idx n) :
    i = idx ∨ packetDone (attempt idx) 0 3 = true := by
  cases n with
  | zero => cases h
  | succ n =>
      rw [packetsMade, List.mem_cons] at h
      refine h.imp_right fun h ↦ ?_
      by_contra hdone
      simp [hdone] at h

/-- A burst starts something exactly if one of the attempts at its first packet
does. -/
theorem burst_starts_iff {frame : TxFrame} {io : BurstInput} {id : UInt16} :
    (∃ p, .radio (.startTransmit frame p errNone) ∈ burstEffects frame io id) ↔
      badBurstSize frame.payload.length = false ∧
        ∃ k < 3, (io.attempt 0 k).st = errNone := by
  cases hbad : badBurstSize frame.payload.length with
  | true => simp [burstEffects, burstPackets, hbad]
  | false =>
      have hpos : 0 < (burstTotal frame.payload.length).toNat := by
        rw [Nat.pos_iff_ne_zero]
        intro hzero
        have htotal : burstTotal frame.payload.length = 0 := UInt16.toNat_inj.mp hzero
        simp [badBurstSize, htotal] at hbad
      have hfirst : (∃ j ∈ attemptsMade (io.attempt 0) 0 3, (io.attempt 0 j).st = errNone) ↔
          ∃ k < 3, (io.attempt 0 k).st = errNone := by
        simp [attemptsMade_start_iff]
      simp only [burstEffects, burstPackets, hbad, List.mem_flatMap, mem_packetEffects, true_and]
      rw [← hfirst]
      constructor
      · rintro ⟨p, i, hi, rfl, hstart⟩
        rcases packetsMade_cases hi with rfl | hdone
        · exact hstart
        · obtain ⟨k, -, hk, hdone⟩ := packetDone_iff.mp hdone
          rw [hfirst]
          exact ⟨k, by omega, Attempt.st_of_done hdone⟩
      · intro hstart
        exact ⟨_, 0, first_mem_packetsMade hpos, rfl, hstart⟩

/-- A burst gets through, or the radio never starts on it. -/
def BurstDecided (io : BurstInput) (payload : List UInt8) : Prop :=
  badBurstSize payload.length = true ∨
    (∀ idx < (burstTotal payload.length).toNat, ∃ k < 3, (io.attempt idx k).done = true) ∨
    ∀ k < 3, (io.attempt 0 k).st ≠ errNone

theorem burstDone_iff {io : BurstInput} {len : ℕ} :
    burstDone io len = true ↔ badBurstSize len = false ∧
      ∀ idx < (burstTotal len).toNat, ∃ k < 3, (io.attempt idx k).done = true := by
  simp [burstDone, allDone, packetDone_iff]

/-- The terminal of a burst is `kOk` or its frame was not started, exactly if
the burst is decided. -/
theorem burst_decided_iff (frame : TxFrame) {io : BurstInput} {id : UInt16} :
    ((∃ p, .radio (.startTransmit frame p errNone) ∈ burstEffects frame io id) →
        burstDone io frame.payload.length = true) ↔ BurstDecided io frame.payload := by
  rw [burst_starts_iff, burstDone_iff, BurstDecided]
  cases badBurstSize frame.payload.length with
  | true => simp
  | false =>
      simp only [true_and, Bool.false_eq_true, false_or]
      rw [imp_iff_or_not]
      refine or_congr_right ?_
      push Not
      rfl

/-! ## Terminals -/

/-- The terminals issued and those the worker thread is about to issue. -/
def told (s : TxSystem) (out : List TxEvent) : List (TxFrame × Terminal) :=
  terminals out ++ s.stage.due

/-- Some packet of the frame was handed to the air. -/
def Started (out : List TxEvent) (frame : TxFrame) : Prop := (frame, errNone) ∈ starts out

/-- `kDropped` only for frames that were never started, and `kFailed` for those
started that did not get through. -/
structure Truthful (s : TxSystem) (out : List TxEvent) : Prop where
  dropped : ∀ frame, (frame, .kDropped) ∈ told s out → ¬Started out frame
  failed : ∀ frame t, (frame, t) ∈ told s out → Started out frame → t ≠ .kOk → t = .kFailed

theorem truthful_iff {s : TxSystem} {out : List TxEvent} :
    Truthful s out ↔ ∀ p ∈ told s out, Started out p.1 → p.2 = .kOk ∨ p.2 = .kFailed := by
  constructor
  · intro h p hp hstarted
    by_cases hok : p.2 = .kOk
    · exact .inl hok
    · exact .inr (h.failed p.1 p.2 hp hstarted hok)
  · intro h
    refine ⟨fun frame hdropped hstarted ↦ ?_, fun frame t ht hstarted hok ↦ ?_⟩
    · simpa using h _ hdropped hstarted
    · exact (h _ ht hstarted).resolve_left hok

/-- A step whose burst, if it makes one, is decided. -/
def StepDecided (s : TxSystem) : TxStep → Prop
  | .burst io => ∀ frame, s.stage = .bursting frame → BurstDecided io frame.payload
  | _ => True

theorem stepDecided_of {s : TxSystem} {i : TxStep}
    (hi : ∀ io frame, i = .burst io → s.stage ≠ .bursting frame) : StepDecided s i := by
  cases i with
  | burst io => exact fun frame hs ↦ absurd hs (hi io frame rfl)
  | _ => trivial

/-- What a section adds to the terminals and to the packets started. -/
inductive Tells (s : TxSystem) : TxStep → List (TxFrame × Terminal) → List (TxFrame × Int16) → Prop
  | nothing {i : TxStep} (hi : StepDecided s i) : Tells s i [] []
  | drained : Tells s .drain (s.worker.txQ.map (·, .kDropped)) []
  | burst {frame : TxFrame} {io : BurstInput} (hs : s.stage = .bursting frame) :
      Tells s (.burst io) [(frame, burstTerminal (burstDone io frame.payload.length))]
        (starts (shown ((burstFrame frame io).run s.worker)))

/-- `next` follows `s` by adding these. -/
def Adds (s : TxSystem) (i : TxStep) (next : TxSystem × List TxEvent) : Prop :=
  ∃ ts ss, Tells s i ts ss ∧ terminals next.2 ++ next.1.stage.due = s.stage.due ++ ts ∧
    starts next.2 = ss

namespace Adds

variable {s : TxSystem} {i : TxStep}

theorem stay {next : TxSystem} (hi : StepDecided s i) (hdue : next.stage.due = s.stage.due) :
    Adds s i (next, []) := ⟨[], [], .nothing hi, by simp [terminals, hdue], rfl⟩

theorem perform_frameless {α : Type} {m : Work α} (hm : Frameless m) {next : α → Stage}
    (hdue : ∀ a, (next a).due = s.stage.due) (hi : StepDecided s i) :
    Adds s i (s.perform m next) := by
  refine ⟨[], [], .nothing hi, ?_, hm.starts_shown s.worker⟩
  simp [TxSystem.perform, hm.terminals_shown, hdue]

theorem answering {next : TxSystem × List TxEvent} (hi : StepDecided s i)
    (hstage : next.1.stage = s.stage) (hterminals : terminals next.2 = [])
    (hstarts : starts next.2 = []) : Adds s i next :=
  ⟨[], [], .nothing hi, by rw [hterminals, hstage]; simp, hstarts⟩

theorem step : Adds s i (txStep s i) := by
  generalize hnext : txStep s i = next
  cases hnext ▸ Passes.step (s := s) (i := i) with
  | check payload =>
      unfold TxSystem.check
      split <;> exact answering trivial rfl rfl rfl
  | push i =>
      unfold TxSystem.push
      split <;> exact answering trivial rfl rfl rfl
  | restage hi hdue _ => exact stay (stepDecided_of hi) hdue
  | frameless hi hm hdue _ =>
      exact perform_frameless hm hdue (stepDecided_of fun io _ h ↦ absurd h (hi io))
  | drain hs =>
      refine ⟨_, _, .drained, ?_, ?_⟩
      · simp [TxSystem.perform, drainTxQ, terminals, hs, Stage.due]
      · simp [TxSystem.perform, drainTxQ, starts]
  | report hs =>
      refine ⟨[], [], .nothing trivial, ?_, ?_⟩
      · simp [TxSystem.perform, terminals, TxEvent.terminal?, hs, Stage.due]
      · simp [TxSystem.perform, starts, TxEvent.start?]
  | pop hs =>
      refine ⟨[], [], .nothing trivial, ?_, ?_⟩ <;>
        rcases hq : s.worker.txQ with _ | ⟨frame, rest⟩ <;>
          simp [TxSystem.perform, popFrame, terminals, starts, hs, hq, Stage.due]
  | @burst frame io hs =>
      refine ⟨_, _, .burst hs, ?_, rfl⟩
      obtain ⟨hval, -⟩ := burstFrame_run frame io s.worker
      simp [TxSystem.perform, (TxOnly.burstFrame frame io).terminals_shown, hs, Stage.due, hval]
  | finish hs =>
      refine ⟨[], [], .nothing trivial, ?_, ?_⟩
      · simp [TxSystem.perform, terminals, TxEvent.terminal?, hs, Stage.due]
      · simp [TxSystem.perform, starts, TxEvent.start?]

end Adds

/-! ## Runs -/

theorem told_step {s : TxSystem} {i : TxStep} {ts : List (TxFrame × Terminal)}
    (out : List TxEvent)
    (h : terminals (txStep s i).2 ++ (txStep s i).1.stage.due = s.stage.due ++ ts) :
    told (txStep s i).1 (out ++ (txStep s i).2) = told s out ++ ts := by
  rw [told, told, terminals_append, List.append_assoc, h, List.append_assoc]

theorem started_append {out es : List TxEvent} {frame : TxFrame} :
    Started (out ++ es) frame ↔ Started out frame ∨ Started es frame := by
  simp [Started]

/-- A frame on its way to the radio or in the queue has no terminal yet. -/
theorem Ledger.not_told {s : TxSystem} {out : List TxEvent} (h : Ledger s out) {frame : TxFrame}
    (hmem : frame ∈ s.stage.popped ++ s.worker.txQ) : frame ∉ (told s out).map Prod.fst := by
  have hnodup := h.accepted_nodup
  rw [h.conserved, List.append_assoc] at hnodup
  exact fun htold ↦ List.disjoint_of_nodup_append hnodup htold hmem

/-- Nor has any of its packets been started. -/
theorem Ledger.not_started {s : TxSystem} {out : List TxEvent} (h : Ledger s out)
    {frame : TxFrame} (hmem : frame ∈ s.stage.popped ++ s.worker.txQ) : ¬Started out frame :=
  fun hstarted ↦ h.not_told hmem (h.started _ hstarted)

/-- What has its terminal is not started again. -/
theorem Ledger.not_restarted {s : TxSystem} {out : List TxEvent} (h : Ledger s out)
    {frame : TxFrame} (htold : frame ∈ (told s out).map Prod.fst) (later : List TxStep)
    (st : Int16) : (frame, st) ∉ starts (run txStep s later).2 := by
  induction later generalizing s out with
  | nil => exact List.not_mem_nil
  | cons i later ih =>
      obtain ⟨ts, ss, htells, hnext, hss⟩ := Adds.step (s := s) (i := i)
      have htold' : frame ∈ (told (txStep s i).1 (out ++ (txStep s i).2)).map Prod.fst := by
        rw [told_step out hnext, List.map_append]
        exact List.mem_append_left _ htold
      have hrest := ih (h.step i) htold'
      rw [run_cons, starts_append, hss, List.mem_append, not_or]
      refine ⟨?_, hrest⟩
      cases htells with
      | nothing | drained => exact List.not_mem_nil
      | @burst other io hs =>
          intro hmem
          have hsame : frame = other := (TxOnly.burstFrame other io).starts_shown s.worker _ hmem
          have hpopped : frame ∈ s.stage.popped ++ s.worker.txQ := by
            simp [hs, hsame, Stage.popped]
          exact h.not_told hpopped htold

/-- Nor does it get another terminal. -/
theorem Ledger.not_retold {s : TxSystem} {out : List TxEvent} (h : Ledger s out)
    {frame : TxFrame} (htold : frame ∈ (terminals out).map Prod.fst) (later : List TxStep)
    (t : Terminal) : (frame, t) ∉ terminals (run txStep s later).2 := by
  intro hmem
  have hfinal : Ledger (run txStep s later).1 (out ++ (run txStep s later).2) :=
    run_history (fun _ _ i h ↦ Ledger.step i h) h
  have hnodup := hfinal.accepted_nodup
  rw [hfinal.balance, terminals_append, List.map_append, List.append_assoc,
    List.append_assoc] at hnodup
  refine List.disjoint_of_nodup_append hnodup htold (List.mem_append_left _ ?_)
  exact List.mem_map_of_mem hmem

theorem started_shown_iff {α : Type} {o : Outcome RadioWorker Effect α} {frame : TxFrame} :
    Started (shown o) frame ↔ ∃ p, .radio (.startTransmit frame p errNone) ∈ o.events := by
  simp only [Started, starts, List.mem_filterMap, mem_shown, Outcome.events, List.mem_map]
  constructor
  · rintro ⟨e, ⟨q, hq, rfl⟩, hstart⟩
    unfold TxEvent.start? at hstart
    split at hstart
    · next f p st heq =>
        cases hstart
        exact ⟨p, q, hq, TxEvent.effect.inj heq⟩
    · cases hstart
  · rintro ⟨p, q, hq, heq⟩
    exact ⟨.effect q.2, ⟨q, hq, rfl⟩, by rw [heq]; rfl⟩

theorem started_burst_iff {frame : TxFrame} {io : BurstInput} {w : RadioWorker} :
    Started (shown ((burstFrame frame io).run w)) frame ↔
      ∃ p, .radio (.startTransmit frame p errNone) ∈
        burstEffects frame io (burstId io.tvSec io.tvNsec w.burstIdCounter) := by
  obtain ⟨-, hevents, -⟩ := burstFrame_run frame io w
  rw [started_shown_iff, hevents]
  have harm : ∀ p, Effect.radio (.startTransmit frame p errNone) ∉ armEffects w.toSettings := by
    intro p
    unfold armEffects
    split <;> simp
  simp [harm]

theorem truthful_step_iff {s : TxSystem} {out : List TxEvent} (h : Ledger s out) (i : TxStep) :
    Truthful (txStep s i).1 (out ++ (txStep s i).2) ↔ Truthful s out ∧ StepDecided s i := by
  obtain ⟨ts, ss, htells, htold, hss⟩ := Adds.step (s := s) (i := i)
  rw [truthful_iff, truthful_iff, told_step out htold]
  simp only [started_append]
  have hstarted : ∀ frame, Started (txStep s i).2 frame ↔ (frame, errNone) ∈ ss := fun frame ↦ by
    rw [Started, hss]
  simp only [hstarted]
  cases htells with
  | nothing hi => simp [hi]
  | drained =>
      have hqueued : ∀ frame ∈ s.worker.txQ, ¬Started out frame := fun frame hframe ↦
        h.not_started (List.mem_append_right _ hframe)
      refine ⟨fun htrue ↦ ⟨fun p hp hp' ↦ ?_, trivial⟩, fun htrue p hp hp' ↦ ?_⟩
      · exact htrue p (List.mem_append_left _ hp) (.inl hp')
      rcases List.mem_append.mp hp with hp | hp
      · exact htrue.1 p hp (by simpa using hp')
      · obtain ⟨frame, hframe, rfl⟩ := List.mem_map.mp hp
        exact absurd (by simpa using hp') (hqueued frame hframe)
  | @burst frame io hs =>
      have hpopped : frame ∈ s.stage.popped ++ s.worker.txQ := by simp [hs, Stage.popped]
      -- no terminal issued or due is of the frame that this burst starts
      have hown : ∀ p ∈ told s out, ¬((p.1, errNone) ∈
          starts (shown ((burstFrame frame io).run s.worker))) := fun p hp hmem ↦ by
        have hsame := (TxOnly.burstFrame frame io).starts_shown s.worker _ hmem
        exact h.not_told hpopped (hsame ▸ List.mem_map_of_mem hp)
      have hnew : Started out frame ∨ (frame, errNone) ∈
          starts (shown ((burstFrame frame io).run s.worker)) ↔
            ∃ p, .radio (.startTransmit frame p errNone) ∈
              burstEffects frame io (burstId io.tvSec io.tvNsec s.worker.burstIdCounter) := by
        rw [← started_burst_iff]
        exact or_iff_right (h.not_started hpopped)
      have hterminal : ∀ ok, burstTerminal ok = .kOk ∨ burstTerminal ok = .kFailed ↔
          ok = true := by
        rintro (_ | _) <;> simp [burstTerminal]
      have hdecided : StepDecided s (.burst io) ↔ BurstDecided io frame.payload := by
        simp [StepDecided, hs]
      rw [hdecided, ← burst_decided_iff frame, ← hnew]
      simp only [List.forall_mem_append, List.forall_mem_singleton, hterminal]
      refine and_congr_left fun _ ↦ forall₂_congr fun p hp ↦ ?_
      simp [hown p hp]

/-- In a run, all terminals tell the truth exactly if all bursts are decided. -/
theorem terminals_truthful_iff (io : InitInput) (steps : List TxStep) :
    Truthful (run txStep (.start io) steps).1 (run txStep (.start io) steps).2 ↔
      Along txStep StepDecided (.start io) steps := by
  have hstart : Truthful (.start io) [] :=
    truthful_iff.mpr fun p hp ↦ by simp [told, terminals, TxSystem.start, Stage.due] at hp
  have hrun := run_history_iff steps (I := Ledger) (P := Truthful) (c := StepDecided)
    (fun _ _ i h ↦ h.step i) (fun _ _ i h ↦ truthful_step_iff h i) (Ledger.start io)
  simpa [hstart] using hrun

/-- A one-packet frame that is started three times and never confirmed: it may
have been aired, and is reported as not sent. -/
theorem started_frame_dropped :
    let silent : BurstInput := ⟨0, 0, fun _ _ ↦ ⟨0, 0, []⟩⟩
    let last := run txStep (.start {}) [.check [1], .push 0, .gate, .pop, .burst silent, .finish]
    terminals last.2 = [(⟨0, [1]⟩, .kDropped)] ∧
      starts last.2 = List.replicate 3 (⟨0, [1]⟩, errNone) ∧ ¬Truthful last.1 last.2 := by
  refine ⟨by decide +kernel, by decide +kernel, fun h ↦ ?_⟩
  exact h.dropped ⟨0, [1]⟩ (by decide +kernel)
    (show (⟨⟨0, [1]⟩, errNone⟩ : TxFrame × Int16) ∈ _ by decide +kernel)

end RadioService
