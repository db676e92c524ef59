import RadioService.RxDelivery
import RadioService.WorkerRun

/-!
# What a run hears

Over a whole run of the worker, the packets handed up are some of those read, in
the order read; and all of them if every one has a burst header.
-/

namespace RadioService

open Burst Traced Machine

/-! ## Polls -/

/-- Of the packets read, those handed up: in order, and all of them if all have
a burst header. -/
def Faithful (rs ds : List (Packet × Int16)) : Prop :=
  ds.Sublist rs ∧ ((∀ p ∈ rs, isBurst p = true) → ds = rs)

namespace Faithful

variable {rs rs' ds ds' : List (Packet × Int16)}

theorem refl (rs : List (Packet × Int16)) : Faithful rs rs := ⟨List.Sublist.refl rs, fun _ ↦ rfl⟩

theorem append (h : Faithful rs ds) (h' : Faithful rs' ds') : Faithful (rs ++ rs') (ds ++ ds') := by
  refine ⟨h.1.append h'.1, fun hall ↦ ?_⟩
  obtain ⟨hleft, hright⟩ := List.forall_mem_append.mp hall
  rw [h.2 hleft, h'.2 hright]

/-- A packet without a burst header, and nothing handed up. -/
theorem reject {p : Packet × Int16} (hp : isBurst p = false) (q : List (Packet × Int16)) :
    Faithful (q ++ [p]) [] := by
  refine ⟨List.nil_sublist _, fun hall ↦ ?_⟩
  have hburst := hall p (by simp)
  rw [hp] at hburst
  cases hburst

end Faithful

/-- A turn and what follows it. -/
theorem Turn.faithful {l : RxLocals} {next : RxNext} {rs rs' ds ds' : List (Packet × Int16)}
    (hturn : Turn l next rs ds) (hleave : next = .leave → rs' = [] ∧ ds' = [])
    (hagain : ∀ l', next = .again l' → Faithful (l'.queue ++ rs') ds') :
    Faithful (l.queue ++ (rs ++ rs')) (ds ++ ds') := by
  cases hturn with
  | wait hq => exact hq ▸ hagain _ rfl
  | flush =>
      obtain ⟨rfl, rfl⟩ := hleave rfl
      exact Faithful.refl _
  | park hp hq =>
      have hrest := hagain _ rfl
      rw [hq] at hrest
      rwa [List.append_assoc] at hrest
  | finish hp hlast hq =>
      have hrest := hagain _ rfl
      rw [hq] at hrest
      rw [← List.append_assoc]
      exact (Faithful.refl _).append hrest
  | close hp hlast =>
      obtain ⟨rfl, rfl⟩ := hleave rfl
      rw [List.append_nil, List.append_nil]
      exact Faithful.refl _
  | reject hp =>
      obtain ⟨rfl, rfl⟩ := hleave rfl
      exact Faithful.reject hp l.queue

theorem rxLoop_faithful (is : List RxStep) (l : RxLocals) :
    Hears (fun _ rs ds ↦ Faithful (l.queue ++ rs) ds) (rxLoop is l) := by
  induction is generalizing l with
  | nil =>
      intro w
      obtain ⟨-, hrs, hds⟩ := rxIter_silent l w
      have hlog : ((rxLoop [] l).run w).log =
          ((rxIter (.silent l.burstDeadlineMs) l).run w).log := by
        simp [rxLoop]
      rw [hlog, hrs, hds, List.append_nil]
      exact Faithful.refl _
  | cons i is ih =>
      refine Hears.bind (rxIter_hears i l) fun next rs ds hturn w ↦ ?_
      refine hturn.faithful ?_ ?_
      · rintro rfl
        exact ⟨rfl, rfl⟩
      · rintro l' rfl
        exact ih l' w

/-- A program that neither reads nor hands up, behind. -/
theorem Hears.before {α β : Type} {Q : List (Packet × Int16) → List (Packet × Int16) → Prop}
    {m : Work α} {g : α → Work β} (hm : Hears (fun _ ↦ Q) m) (hg : ∀ v, Deaf (g v)) :
    Hears (fun _ ↦ Q) (m >>= g) := by
  refine Hears.bind hm fun v rs ds hQ ↦ Hears.of_deaf (hg v) fun _ ↦ ?_
  rwa [List.append_nil, List.append_nil]

theorem pollOnce_faithful (io : PollInput) :
    Hears (fun _ rs ds ↦ Faithful rs ds) (pollOnce io) := by
  have hnone : Faithful [] [] := Faithful.refl []
  have hgated : ∀ w : RadioWorker, Deaf (do
      if !w.scanActive then
        serviceTxQueue io.burst : Work Unit) :=
    fun w ↦ (Deaf.serviceTxQueue io.burst).ite (Frame.pure ())
  have hrest : Hears (fun _ rs ds ↦ Faithful rs ds) (afterScan io) := by
    refine Hears.behind Frame.read fun w ↦ Hears.ite (fun _ ↦ Hears.pure hnone) fun _ ↦
      Hears.ite (fun _ ↦ Hears.of_deaf (hgated w) fun _ ↦ hnone) fun _ ↦ ?_
    exact Hears.before (rxLoop_faithful io.rx {}) fun _ ↦ Frame.read.bind hgated
  rw [pollOnce_eq]
  refine Hears.behind (Deaf.thermalTick _ _) fun _ ↦ Hears.behind Frame.read fun _ ↦
    Hears.ite (fun _ ↦ Hears.pure hnone) fun _ ↦ Hears.ite (fun _ ↦ ?_) fun _ ↦ hrest
  exact Hears.behind (Scans.scanTick _ _).quiet.calm.deaf fun _ ↦ hrest

def heardPackets (es : List Effect) : List (Packet × Int16) := es.filterMap Effect.read?

def handedUp (es : List Effect) : List (Packet × Int16) := es.filterMap Effect.delivered?

@[simp] theorem heardPackets_append (es es' : List Effect) :
    heardPackets (es ++ es') = heardPackets es ++ heardPackets es' := List.filterMap_append

@[simp] theorem handedUp_append (es es' : List Effect) :
    handedUp (es ++ es') = handedUp es ++ handedUp es' := List.filterMap_append

theorem workerStep_faithful (w : RadioWorker) (c : Call) :
    Faithful (heardPackets ((workerStep w c).2.map Prod.snd))
      (handedUp ((workerStep w c).2.map Prod.snd)) := by
  have hexec : Hears (fun _ rs ds ↦ Faithful rs ds) c.exec := by
    have hnone : Faithful [] [] := Faithful.refl []
    cases c with
    | applyConfig cfg io =>
        have hdeaf : Deaf (discard (applyConfig cfg io)) :=
          (Quiet.calm (Frame.discard (Quiet.rules.applyConfig cfg io))).deaf
        exact Hears.of_deaf hdeaf fun _ ↦ hnone
    | startScan p now freqSt =>
        exact Hears.of_deaf (Scans.startScan p now freqSt).quiet.calm.deaf fun _ ↦ hnone
    | pollOnce io => exact pollOnce_faithful io
    | enqueueTx frame =>
        exact Hears.of_deaf (enqueueTx_frame (fun _ _ _ ↦ rfl) frame).discard fun _ ↦ hnone
  have hlog := hexec w
  simp only [readPackets, delivered] at hlog
  rw [heardPackets, handedUp, List.filterMap_map, List.filterMap_map]
  exact hlog

theorem run_faithful (w : RadioWorker) (calls : List Call) :
    Faithful (heardPackets ((run workerStep w calls).2.map Prod.snd))
      (handedUp ((run workerStep w calls).2.map Prod.snd)) := by
  induction calls generalizing w with
  | nil => exact Faithful.refl []
  | cons c calls ih =>
      rw [run_cons, List.map_append, heardPackets_append, handedUp_append]
      exact (workerStep_faithful w c).append (ih _)

end RadioService
