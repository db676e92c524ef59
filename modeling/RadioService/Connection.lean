import RadioService.Polls

/-!
# The connection, one event at a time

A poll of the serial server is a client accepted, bytes read one after the
other, and the end of the reading.  Here each of these is a step of its own, so
that what happens between two bytes of one poll can be talked about.
-/

namespace RadioService.Serial

open Bytes Machine

inductive ServerOp where
  | accept (now : UInt32)
  | byte (r : RxByte)
  /-- Nothing to read. -/
  | empty (now : UInt32)
  /-- The peer is gone. -/
  | close
deriving DecidableEq

/-- A client accepted: the parser starts anew, as far as it is reset. -/
def acceptClient (s : SerialServer) (now : UInt32) : SerialServer :=
  { s with
    connected := true
    parser := { s.parser with state := .tag, skipRemain := 0, have_ := 0 }
    lastStatsMs := now }

def serverStep : Step SerialServer ServerOp ServerEvent
  | s, .accept now =>
    if s.isTcp && !s.connected then (acceptClient s now, [.greeting]) else (s, [])
  | s, .byte r => if s.connected then feed s r else (s, [])
  | s, .empty now => if s.connected then maybeEmitStats s now else (s, [])
  | s, .close => ({ s with connected := false }, [])

def PollInput.ops (io : PollInput) : List ServerOp :=
  io.accept.toList.map .accept ++ io.reads.map .byte ++
    [match io.last with
      | .empty now => .empty now
      | .closed => .close]

theorem feed_connected (s : SerialServer) (r : RxByte) : (feed s r).1.connected = s.connected :=
  (feed_eq_receive s r).2.1

theorem run_serverStep_reads {s : SerialServer} (h : s.connected = true) (reads : List RxByte) :
    run serverStep s (reads.map .byte) = run feed s reads := by
  induction reads generalizing s with
  | nil => rfl
  | cons r reads ih =>
      have hstep : serverStep s (.byte r) = feed s r := if_pos h
      rw [List.map_cons, run_cons, run_cons, hstep, ih ((feed_connected s r).trans h)]

theorem run_feed_connected (s : SerialServer) (reads : List RxByte) :
    (run feed s reads).1.connected = s.connected := by
  induction reads generalizing s with
  | nil => rfl
  | cons r reads ih => exact (ih (feed s r).1).trans (feed_connected s r)

theorem run_serverStep_gone {s : SerialServer} (h : s.connected = false) (reads : List RxByte) :
    run serverStep s (reads.map .byte) = (s, []) := by
  induction reads with
  | nil => rfl
  | cons r reads ih =>
      have hstep : serverStep s (.byte r) = (s, []) := by simp [serverStep, h]
      rw [List.map_cons]
      exact run_step hstep ih

theorem pollOnce_eq_run (s : SerialServer) (io : PollInput) :
    pollOnce s io = run serverStep s io.ops := by
  have hdrain : ∀ s : SerialServer, drain s io = run serverStep s (io.reads.map .byte ++
      [match io.last with
        | .empty now => .empty now
        | .closed => .close]) := by
    intro s
    cases hconn : s.connected with
    | false =>
        have hclosed : { s with connected := false } = s := by rw [← hconn]
        rw [run_append, run_serverStep_gone hconn]
        cases hlast : io.last <;> simp [drain, serverStep, hconn, hclosed]
    | true =>
        rw [run_append, run_serverStep_reads hconn]
        have hopen := (run_feed_connected s io.reads).trans hconn
        cases hlast : io.last <;> simp [drain, serverStep, hconn, hlast, hopen]
  rw [PollInput.ops, List.append_assoc, run_append, ← hdrain]
  by_cases hwait : (s.isTcp && !s.connected) = true
  · cases haccept : io.accept with
    | none =>
        have hgone : s.connected = false := by simp_all
        simp [pollOnce, haccept, drain, hgone]
    | some now => simp [pollOnce, hwait, haccept, serverStep, acceptClient]
  · cases haccept : io.accept <;> simp [pollOnce, hwait, serverStep]

/-! ## What the steps keep -/

theorem maybeEmitStats_isTcp (s : SerialServer) (now : UInt32) :
    (maybeEmitStats s now).1.isTcp = s.isTcp := by
  unfold maybeEmitStats
  split <;> rfl

theorem feed_isTcp (s : SerialServer) (r : RxByte) : (feed s r).1.isTcp = s.isTcp := by
  unfold feed
  dsimp only
  split
  · rfl
  · exact maybeEmitStats_isTcp _ _

theorem serverStep_isTcp (s : SerialServer) (op : ServerOp) :
    (serverStep s op).1.isTcp = s.isTcp := by
  cases op with
  | accept now =>
      rw [serverStep]
      split <;> rfl
  | byte r =>
      rw [serverStep]
      split
      · exact feed_isTcp s r
      · rfl
  | empty now =>
      rw [serverStep]
      split
      · exact maybeEmitStats_isTcp s now
      · rfl
  | close => rfl

theorem run_serverStep_isTcp (s : SerialServer) (ops : List ServerOp) :
    (run serverStep s ops).1.isTcp = s.isTcp := by
  induction ops generalizing s with
  | nil => rfl
  | cons op ops ih => exact (ih _).trans (serverStep_isTcp s op)

end RadioService.Serial
