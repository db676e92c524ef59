import RadioService.Sessions
import RadioService.Wire

/-!
# Requests and replies

A host is owed one reply, `G` or `E`, for every command but `S`, `Q` and `X`, and
is greeted with one.  A `T` command is answered at once if it is refused and by
its terminal if it is accepted, so the replies owed are the frames in the queue.
-/

namespace RadioService.Serial

open Burst Machine Streams

/-! ## Counting -/

def Emission.isReply : Emission → Bool
  | ready _ | error _ _ => true
  | _ => false

def replies (frames : List Emission) : ℕ := frames.countP Emission.isReply

@[simp] theorem replies_append (es es' : List Emission) :
    replies (es ++ es') = replies es + replies es' := List.countP_append

theorem replies_received (es : List Emission) :
    replies (es.map Emission.received) = replies es := by
  rw [replies, List.countP_map]
  exact List.countP_congr fun e _ ↦ by cases e <;> rfl

def Command.due : Command → ℕ
  | writeReady _ | writeError _ _ | handleConfig _ _ | handleTx _ => 1
  | _ => 0

def Act.due : Act → ℕ
  | command c => c.due
  | greeting => 1
  | _ => 0

/-- The replies that the commands handled call for. -/
def requests (acts : List Act) : ℕ := (acts.map Act.due).sum

@[simp] theorem requests_append (acts acts' : List Act) :
    requests (acts ++ acts') = requests acts + requests acts' := by
  simp [requests]

/-! ## The balance -/

/-- Replies written and to come, for requests and for frames accepted before. -/
def balance (acts : List Act) : ℤ :=
  replies (emissions acts) + (accepted (txEvents (acts.flatMap Act.events))).length -
    requests acts - (terminals (txEvents (acts.flatMap Act.events))).length

@[simp] theorem balance_append (acts acts' : List Act) :
    balance (acts ++ acts') = balance acts + balance acts' := by
  simp only [balance, accepted, emissions_append, replies_append, requests_append,
    List.flatMap_append, txEvents_append, answered_append, terminals_append, List.length_append]
  omega

theorem balance_cons (a : Act) (acts : List Act) :
    balance (a :: acts) = balance [a] + balance acts := balance_append [a] acts

theorem balance_effect (e : Effect) : balance [.effect e] = 0 := by
  have hevents : txEvents ([Act.effect e].flatMap Act.events) = [.effect e] := by
    rw [List.flatMap_singleton]
    exact txEvents_called e
  rw [balance, hevents]
  cases e with
  | onTxTerminal frame t => cases t <;> rfl
  | _ => rfl

theorem balance_performActs {α : Type} (s : Service) (m : Work α) :
    balance (s.performActs m) = 0 := by
  unfold Service.performActs
  induction (m.run s.worker).events with
  | nil => rfl
  | cons e es ih => rw [List.map_cons, balance_cons, ih, balance_effect]; rfl

theorem balance_sweepActs (s : Service) (io : HandlerInput) (p : ScanParams) :
    balance (s.sweepActs io p) = 0 := by
  rw [Service.sweepActs, balance_cons, balance_performActs]
  rfl

theorem balance_say (e : Emission) : balance [.say e] = if e.isReply then 1 else 0 := by
  have hevents : txEvents ([Act.say e].flatMap Act.events) = [] := by
    rw [List.flatMap_singleton]
    exact txEvents_writes e.pieces
  rw [balance, hevents]
  cases e <;> rfl

theorem balance_command (c : Command) : balance [.command c] = -c.due := by
  cases c <;> rfl

theorem balance_answer (frame : TxFrame) (t : Terminal) :
    balance [.answer frame t] = if t = .kOk then 1 else 0 := by
  cases t <;> rfl

theorem enqueueTx_answer (frame : TxFrame) (w : RadioWorker) :
    ((enqueueTx frame).run w).val = .kOk ∨ ((enqueueTx frame).run w).val = .kBusy := by
  by_cases hrefused : enqueueRefused w = true
  · simp [enqueueTx, hrefused]
  · by_cases hfull : w.txQ.length ≥ 16 <;> simp [enqueueTx, pushFrame, hrefused, hfull]

theorem balance_commandActs (s : Service) (io : HandlerInput) (c : Command) :
    balance (s.commandActs io c) = c.due := by
  cases c with
  | handleConfig body len =>
      change balance (s.configActs io body) = 1
      unfold Service.configActs
      dsimp only
      split
      · rw [balance_append, balance_sweepActs, balance_say]
        rfl
      · rw [balance_append, balance_performActs, balance_say]
        split <;> rfl
  | handleTx payload =>
      change balance (s.txActs payload) = 1
      unfold Service.txActs
      dsimp only
      rw [balance_append, balance_performActs, balance_cons, balance_answer, balance_say]
      rcases enqueueTx_answer ⟨s.calls, payload⟩ s.worker with h | h <;> rw [h] <;> rfl
  | handleScanQ count dwell freqs =>
      change balance (s.scanQActs io count dwell freqs) = 0
      unfold Service.scanQActs
      split
      · rfl
      · exact balance_sweepActs s io _
  | handleReset | storeWindow => rfl
  | forceStats | writeReady | writeError => exact balance_say _

theorem balance_serverActs (s : Service) (io : HandlerInput) (e : ServerEvent) :
    balance (s.serverActs io e) = 0 := by
  cases e with
  | command c =>
      rw [Service.serverActs, balance_cons, balance_command, balance_commandActs]
      omega
  | greeting =>
      rw [Service.serverActs, balance_cons .greeting, balance_cons (.say _), balance_say,
        Service.statsAct, balance_say]
      rfl
  | periodicStats => exact balance_say _

theorem balance_run (s : Service) (is : List ServiceStep) : balance (run tell s is).2 = 0 := by
  have hbalance : Tells fun _ next ↦ balance next.2 = 0 :=
    { stay := fun _ _ ↦ rfl
      trans := fun h h' ↦ (balance_append _ _).trans (by rw [h, h']; rfl)
      server := balance_serverActs
      poll := fun s _ ↦ balance_performActs s _ }
  exact hbalance.run s is

/-! ## What a host is owed -/

/-- From the start, the frames accepted are those reported and those queued. -/
theorem accepted_length (tcp : Bool) (now : UInt32) (io : InitInput) (is : List ServiceStep) :
    let next := run serviceStep (.boot tcp now io) is
    (accepted (txEvents next.2)).length =
      (terminals (txEvents next.2)).length + next.1.worker.txQ.length := by
  obtain ⟨steps, hsteps⟩ := sections.run (.boot tcp now io) is
  have hledger := run_ledger io steps
  have hstart : TxSystem.start io = (Service.boot tcp now io).system := rfl
  rw [hstart, hsteps] at hledger
  have hbalance := congrArg List.length hledger.balance
  simpa [Service.system, Stage.inFlight, Stage.due, Stage.popped] using hbalance

end RadioService.Serial
