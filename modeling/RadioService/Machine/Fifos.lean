import RadioService.Machine.Runs

/-!
# A FIFO behind a stream of commands

A device keeps a FIFO that commands clear, fill and send.  Whatever was in it,
a device that is told to clear its FIFO, then to take a block in any number of
pieces and then to send, sends that block.
-/

namespace Fifos

open Machine

variable {α κ : Type*}

inductive FifoOp (α : Type*) where
  | clear
  | push (xs : List α)
  | send
deriving DecidableEq

/-- A step of the device; what it sends it has no more. -/
def fifoStep : Step (List α) (FifoOp α) (List α)
  | _, .clear => ([], [])
  | q, .push xs => (q ++ xs, [])
  | q, .send => ([], [q])

/-- Commands of a bus, some of which mean something to the FIFO. -/
def obey (mean : κ → Option (FifoOp α)) (q : List α) (cmds : List κ) : List α × List (List α) :=
  run fifoStep q (cmds.filterMap mean)

variable {mean : κ → Option (FifoOp α)}

theorem obey_append (q : List α) (cmds cmds' : List κ) :
    obey mean q (cmds ++ cmds') = ((obey mean (obey mean q cmds).1 cmds').1,
      (obey mean q cmds).2 ++ (obey mean (obey mean q cmds).1 cmds').2) := by
  unfold obey
  rw [List.filterMap_append, run_append]

theorem obey_cons (q : List α) (c : κ) (cmds : List κ) :
    obey mean q (c :: cmds) = ((obey mean (obey mean q [c]).1 cmds).1,
      (obey mean q [c]).2 ++ (obey mean (obey mean q [c]).1 cmds).2) :=
  obey_append q [c] cmds

/-- Commands that mean nothing to the FIFO. -/
theorem obey_silent {cmds : List κ} (h : ∀ c ∈ cmds, mean c = none) (q : List α) :
    obey mean q cmds = (q, []) := by
  unfold obey
  rw [List.filterMap_eq_nil_iff.mpr h, run_nil]

theorem obey_one {c : κ} {op : FifoOp α} (h : mean c = some op) (q : List α) :
    obey mean q [c] = fifoStep q op := by
  unfold obey
  rw [List.filterMap_cons_some h, List.filterMap_nil, run_cons, run_nil, List.append_nil]

end Fifos
