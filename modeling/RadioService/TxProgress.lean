import RadioService.Airings

/-!
# Every queued frame is answered

A poll that ends with the radio up, no scan, no cut and a role that transmits has
taken the first frame off the queue and answered it; other calls add frames at the
back, or drop them all with an answer for each.  So a frame waits for no more open
polls than there are frames before it.
-/

namespace RadioService

open Machine

open Traced hiding run

/-! ## Moving up -/

/-- Every frame of `q` is answered, or has at least `n` frames fewer before it in `q'`. -/
def Serves (n : ℕ) (q : List TxFrame) (es : List Effect) (q' : List TxFrame) : Prop :=
  ∀ front frame back, q = front ++ frame :: back →
    (∃ t, .onTxTerminal frame t ∈ es) ∨
      ∃ front' back', q' = front' ++ frame :: back' ∧ front'.length + n ≤ front.length

namespace Serves

variable {n m : ℕ} {q q' q'' : List TxFrame} {es es' : List Effect}

theorem stay (q : List TxFrame) (es : List Effect) : Serves 0 q es q :=
  fun front _ back hq ↦ .inr ⟨front, back, hq, le_rfl⟩

theorem trans (h : Serves n q es q') (h' : Serves m q' es' q'') :
    Serves (n + m) q (es ++ es') q'' := by
  intro front frame back hq
  rcases h front frame back hq with ⟨t, ht⟩ | ⟨front', back', hq', hlen⟩
  · exact .inl ⟨t, List.mem_append_left es' ht⟩
  rcases h' front' frame back' hq' with ⟨t, ht⟩ | ⟨front'', back'', hq'', hlen'⟩
  · exact .inl ⟨t, List.mem_append_right es ht⟩
  · exact .inr ⟨front'', back'', hq'', by omega⟩

/-- The first frame is answered, and the others move up. -/
theorem serve {frame : TxFrame} {t : Terminal} (rest : List TxFrame)
    (ht : .onTxTerminal frame t ∈ es) : Serves 1 (frame :: rest) es rest := by
  intro front frame' back hq
  cases front with
  | nil =>
      cases hq
      exact .inl ⟨t, ht⟩
  | cons first front =>
      obtain ⟨-, rfl⟩ := List.cons.inj hq
      exact .inr ⟨front, back, rfl, le_rfl⟩

/-- All frames are answered at once. -/
theorem drain (hes : ∀ frame ∈ q, ∃ t, .onTxTerminal frame t ∈ es) : Serves n q es q' := by
  rintro front frame back rfl
  exact .inl (hes frame (List.mem_append_right front List.mem_cons_self))

theorem push (q new : List TxFrame) (es : List Effect) : Serves 0 q es (q ++ new) := by
  rintro front frame back rfl
  exact .inr ⟨front, back ++ new, List.append_assoc _ _ _, le_rfl⟩

theorem of_nil : Serves n [] es q' := by
  intro front frame back hq
  exact absurd hq.symm (List.append_ne_nil_of_right_ne_nil front (List.cons_ne_nil frame back))

end Serves

/-- `m` moves every frame up by `n`, or answers it. -/
def ServesQueue {α : Type} (n : ℕ) (m : Work α) (w : RadioWorker) : Prop :=
  Serves n w.txQ (m.run w).events (m.run w).state.txQ

namespace ServesQueue

variable {α β : Type} {n k : ℕ} {w : RadioWorker}

theorem of_frameless {m : Work α} (hm : Frameless m) (w : RadioWorker) : ServesQueue 0 m w := by
  unfold ServesQueue
  rw [(hm w).1]
  exact .stay _ _

theorem bind {m : Work α} {g : α → Work β} (hm : ServesQueue n m w)
    (hg : ServesQueue k (g (m.run w).val) (m.run w).state) : ServesQueue (n + k) (m >>= g) w := by
  unfold ServesQueue
  rw [run_bind, Outcome.events_prepend, Outcome.prepend_state]
  exact hm.trans hg

end ServesQueue

/-! ## Polls -/

/-- The radio is up, and nothing stands against a transmission. -/
def txOpen (w : RadioWorker) : Bool := w.radioOk && !txGateClosed w

/-- The frames served by a poll that ends in `w`. -/
def served (w : RadioWorker) : ℕ := if txOpen w then 1 else 0

theorem served_settings {w w' : RadioWorker} (h : w.toSettings = w'.toSettings) :
    served w = served w' := by
  unfold served txOpen txGateClosed
  rw [h]

theorem ServesQueue.serviceTxQueue (io : BurstInput) (w : RadioWorker) :
    ServesQueue (if txGateClosed w then 0 else 1) (serviceTxQueue io) w := by
  unfold ServesQueue
  cases hgate : txGateClosed w with
  | true =>
      have hrun : (RadioService.serviceTxQueue io).run w = ⟨(), w, []⟩ := by
        simp [RadioService.serviceTxQueue, hgate]
      rw [hrun]
      exact .stay w.txQ []
  | false =>
      cases hq : w.txQ with
      | nil => exact .of_nil
      | cons frame rest =>
          obtain ⟨hstate, hevents⟩ := serviceTxQueue_run io hgate hq
          have hrest : ((RadioService.serviceTxQueue io).run w).state.txQ = rest := by
            rw [hstate]
            exact congrArg Prod.snd (TxOnly.burstFrame frame io _).1
          rw [hrest, hevents]
          exact .serve rest (List.mem_append_right _ List.mem_cons_self)

/-- The transmission at the end of a poll. -/
theorem ServesQueue.gated (io : BurstInput) {w : RadioWorker} (hok : w.radioOk = true) :
    ServesQueue (served w) (do
      if !w.scanActive then
        RadioService.serviceTxQueue io : Work Unit) w := by
  have hserved : served w = if txGateClosed w then 0 else 1 := by
    simp only [served, txOpen, hok]
    cases txGateClosed w <;> rfl
  rw [hserved]
  cases hscan : w.scanActive with
  | false => exact ServesQueue.serviceTxQueue io w
  | true =>
      have hclosed : txGateClosed w = true := by simp [txGateClosed, hscan]
      rw [hclosed]
      exact .of_frameless (Frame.pure ()) w

theorem ServesQueue.afterScan (io : PollInput) (w : RadioWorker) :
    ServesQueue (served ((afterScan io).run w).state) (afterScan io) w := by
  unfold ServesQueue
  rw [served_settings (afterScan_keeps io w).1, afterScan_run]
  cases hok : w.radioOk with
  | false =>
      have hserved : served w = 0 := by simp [served, txOpen, hok]
      rw [hserved]
      exact .stay w.txQ []
  | true =>
      rw [if_neg (Bool.not_eq_true _ ▸ rfl)]
      split
      · exact gated io.burst hok
      · let w' := ((rxLoop io.rx {}).run w).state
        have hloop : w'.toSettings = w.toSettings := (KeepsSettings.rxLoop io.rx {} w).1
        have hok' : w'.radioOk = true := (congrArg Settings.radioOk hloop).trans hok
        have hrx : ServesQueue 0 (rxLoop io.rx {}) w :=
          .of_frameless (RxOnly.rxLoop _ _).frameless w
        have hrest : ServesQueue (served w') (do
            let w ← read
            if !w.scanActive then
              RadioService.serviceTxQueue io.burst : Work Unit) w' := gated io.burst hok'
        rw [served_settings hloop] at hrest
        have hboth := hrx.bind (g := fun _ ↦ _) hrest
        rwa [Nat.zero_add] at hboth

theorem ServesQueue.thermalTick (now : UInt32) (io : ThermalInput) (w : RadioWorker) :
    ServesQueue 0 (thermalTick now io) w := by
  have hrules : GuardRules fun m ↦ ∀ w, ServesQueue 0 m w :=
    Calm.rules.lift (fun hm hg w ↦ (hm w).bind (hg _ _)) fun h ↦ of_frameless h.frameless
  refine hrules.thermalTick now io (of_frameless (Frame.update fun _ ↦ rfl))
    (of_frameless (readLevel_sensorOnly _).setsUp.calm.frameless) (fun w ↦ .drain ?_) w
  intro frame hframe
  refine ⟨.kDropped, ?_⟩
  simpa [drainTxQ, reportDropped, Outcome.events, Function.comp_def] using hframe

/-- A poll that ends open has served a frame. -/
theorem ServesQueue.pollOnce (io : PollInput) (w : RadioWorker) :
    ServesQueue (served ((pollOnce io).run w).state) (pollOnce io) w := by
  let w₁ := ((RadioService.thermalTick io.nowMs io.thermal).run w).state
  have htick : ServesQueue 0 (RadioService.thermalTick io.nowMs io.thermal) w :=
    thermalTick io.nowMs io.thermal w
  have hstate : ((RadioService.pollOnce io).run w).state = ((afterTick io).run w₁).state := by
    rw [pollOnce_eq, run_bind, Outcome.prepend_state]
  have hrest : ServesQueue (served ((afterTick io).run w₁).state) (afterTick io) w₁ := by
    unfold ServesQueue
    rw [afterTick_run]
    split
    · have hclosed : served w₁ = 0 := by
        have hgate : txGateClosed w₁ = true := by simp_all [txGateClosed]
        simp [served, txOpen, hgate]
      rw [run_pure, hclosed]
      exact .stay w₁.txQ []
    · split
      · have hscan : ServesQueue 0 (RadioService.scanTick io.nowMs io.scanFreqSt) w₁ :=
          of_frameless (Scans.scanTick _ _).quiet.calm.frameless w₁
        have hserve := hscan.bind (g := fun _ ↦ RadioService.afterScan io) (afterScan io _)
        rwa [Nat.zero_add] at hserve
      · exact afterScan io w₁
  have hboth := htick.bind (g := fun _ ↦ afterTick io) hrest
  rw [hstate, pollOnce_eq]
  rwa [Nat.zero_add] at hboth

/-! ## Runs -/

/-- The frames served by a call. -/
def Call.served (c : Call) (w : RadioWorker) : ℕ :=
  match c with
  | .pollOnce _ => RadioService.served (workerStep w c).1
  | _ => 0

theorem workerStep_serves (w : RadioWorker) (c : Call) :
    Serves (c.served w) w.txQ ((workerStep w c).2.map Prod.snd) (workerStep w c).1.txQ := by
  cases c with
  | applyConfig cfg io => exact ServesQueue.of_frameless (frameless_applyConfig cfg io) w
  | startScan p now freqSt => exact ServesQueue.of_frameless (frameless_startScan p now freqSt) w
  | pollOnce io => exact ServesQueue.pollOnce io w
  | enqueueTx frame =>
      obtain ⟨-, hq | hq⟩ := workerStep_enqueueTx frame w
      · rw [hq]
        exact .stay w.txQ _
      · rw [hq]
        exact .push w.txQ [frame] _

/-- The polls of a run that end with the radio up and open to transmission. -/
def openPolls : RadioWorker → List Call → ℕ
  | _, [] => 0
  | w, c :: calls => c.served w + openPolls (workerStep w c).1 calls

theorem run_serves (w : RadioWorker) (calls : List Call) :
    Serves (openPolls w calls) w.txQ ((run workerStep w calls).2.map Prod.snd)
      (run workerStep w calls).1.txQ := by
  induction calls generalizing w with
  | nil => exact .stay w.txQ []
  | cons c calls ih =>
      rw [run_cons, List.map_append]
      exact (workerStep_serves w c).trans (ih _)

/-- Whatever else goes on, a queued frame is answered as soon as more polls have
been open to transmission than there are frames before it. -/
theorem queued_frame_answered {w : RadioWorker} {front back : List TxFrame} {frame : TxFrame}
    (hq : w.txQ = front ++ frame :: back) (calls : List Call)
    (hopen : front.length < openPolls w calls) :
    ∃ t, .onTxTerminal frame t ∈ (run workerStep w calls).2.map Prod.snd := by
  rcases run_serves w calls front frame back hq with hanswered | ⟨front', -, -, hlen⟩
  · exact hanswered
  · omega

/-- Two frames are queued, and the second is answered in the second poll. -/
theorem queued_frame_answered_twice :
    ∃ t, .onTxTerminal ⟨1, [2]⟩ t ∈ (run workerStep
      { radioOk := true, txQ := [⟨0, [1]⟩, ⟨1, [2]⟩] }
      [.pollOnce (pollAt 4000 0), .enqueueTx ⟨2, [3]⟩,
        .pollOnce (pollAt 8000 0)]).2.map Prod.snd := by
  have hq : [⟨0, [1]⟩, ⟨1, [2]⟩] = [⟨0, [1]⟩] ++ (⟨1, [2]⟩ : TxFrame) :: [] := rfl
  exact queued_frame_answered hq _ (by decide +kernel)

end RadioService
