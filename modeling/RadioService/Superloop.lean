import RadioService.Polls

/-!
# The superloop and the idle kill

The main loop takes turns: the serial server reads every byte that has arrived,
then the worker polls and the loop sleeps, for any time.  The idle kill of the
parser measures the time between reads.  A turn that is slow inside a frame
therefore kills the frame, and the frames that survive are those whose bytes
are read close enough to one another.
-/

namespace RadioService.Serial

open Burst Bytes Machine

/-! ## The schedule -/

/-- A byte of the host's stream and the time it reaches the transport. -/
structure HostByte where
  byte : UInt8
  arrivedMs : ℕ

/-- The byte as a server without delay would read it. -/
def HostByte.prompt (b : HostByte) : RxByte :=
  { byte := b.byte, now := UInt32.ofNat b.arrivedMs }

/-- A byte with the times it is read and done with. -/
structure TimedRead where
  host : HostByte
  readMs : ℕ
  doneMs : ℕ

def TimedRead.rx (r : TimedRead) : RxByte where
  byte := r.host.byte
  now := UInt32.ofNat r.readMs
  forceNow := UInt32.ofNat r.doneMs
  tickNow := UInt32.ofNat r.doneMs

/-- The times one turn of the loop takes: over the `n`-th byte it reads, and
for the worker's poll together with the sleep behind it. -/
structure Turn where
  handleMs : ℕ → ℕ
  workMs : ℕ

/-- Read on as long as the next byte has arrived; the clock at the end. -/
def readArrived (handleMs : ℕ → ℕ) : (clock n : ℕ) → List HostByte → List TimedRead × ℕ
  | clock, _, [] => ([], clock)
  | clock, n, b :: bs =>
    if b.arrivedMs ≤ clock then
      let (reads, done) := readArrived handleMs (clock + handleMs n) (n + 1) bs
      (⟨b, clock, clock + handleMs n⟩ :: reads, done)
    else
      ([], clock)

/-- What every turn reads, and its clock when there is no more to read. -/
def superloop : ℕ → List HostByte → List Turn → List (List TimedRead × ℕ)
  | _, _, [] => []
  | clock, bytes, t :: ts =>
    let (reads, done) := readArrived t.handleMs clock 0 bytes
    (reads, done) :: superloop (done + t.workMs) (bytes.drop reads.length) ts

def superloopPolls (clock : ℕ) (bytes : List HostByte) (turns : List Turn) :
    List PollInput :=
  (superloop clock bytes turns).map fun t ↦
    { reads := t.1.map TimedRead.rx, last := .empty (UInt32.ofNat t.2) }

def superloopReads (clock : ℕ) (bytes : List HostByte) (turns : List Turn) :
    List TimedRead :=
  (superloop clock bytes turns).flatMap Prod.fst

theorem readArrived_isPrefix (handleMs : ℕ → ℕ) (clock n : ℕ) (bytes : List HostByte) :
    (readArrived handleMs clock n bytes).1.map TimedRead.host ++
      bytes.drop (readArrived handleMs clock n bytes).1.length = bytes := by
  induction bytes generalizing clock n with
  | nil => rfl
  | cons b bs ih =>
      unfold readArrived
      split
      · exact congrArg (b :: ·) (ih (clock + handleMs n) (n + 1))
      · rfl

/-- The superloop reads the stream in order and leaves nothing out. -/
theorem superloopReads_isPrefix (clock : ℕ) (bytes : List HostByte) (turns : List Turn) :
    (superloopReads clock bytes turns).map TimedRead.host <+: bytes := by
  induction turns generalizing clock bytes with
  | nil => exact List.nil_prefix
  | cons t ts ih =>
      have hhead := readArrived_isPrefix t.handleMs clock 0 bytes
      have htail := ih ((readArrived t.handleMs clock 0 bytes).2 + t.workMs)
        (bytes.drop (readArrived t.handleMs clock 0 bytes).1.length)
      simp only [superloopReads, superloop, List.flatMap_cons, List.map_append]
      conv_rhs => rw [← hhead]
      exact (List.prefix_append_right_inj _).mpr htail

theorem superloopPolls_reads (clock : ℕ) (bytes : List HostByte) (turns : List Turn) :
    (superloopPolls clock bytes turns).flatMap (·.reads) =
      (superloopReads clock bytes turns).map TimedRead.rx := by
  simp [superloopPolls, superloopReads, List.flatMap_map, List.map_flatMap]

/-! ## Frames read on time -/

/-- The parser without the idle kill. -/
def undelayed : Step ClockedParser RxByte Command := fun c r ↦
  ({ c with parser := (consume c.parser r.byte).1, lastArrivalMs := r.now },
    (consume c.parser r.byte).2)

/-- Every byte that continues a frame of the stream, as the bytes alone make
the frames, is read at most 100 ms after the byte before it. -/
def FramesReadOnTime (p : Parser) (reads : List RxByte) : Prop :=
  ∀ xs a b ys, reads = xs ++ a :: b :: ys →
    ¬Idle (run consume p ((xs ++ [a]).map (·.byte))).1 → b.now - a.now ≤ 100

theorem run_undelayed (c : ClockedParser) (reads : List RxByte) :
    (run undelayed c reads).1.parser = (run consume c.parser (reads.map (·.byte))).1 ∧
      (run undelayed c reads).1.parserFramesKilled = c.parserFramesKilled ∧
      (run undelayed c reads).2 = (run consume c.parser (reads.map (·.byte))).2 := by
  induction reads generalizing c with
  | nil => exact ⟨rfl, rfl, rfl⟩
  | cons r reads ih =>
      obtain ⟨hparser, hkilled, hcalls⟩ := ih (undelayed c r).1
      exact ⟨hparser, hkilled, congrArg ((consume c.parser r.byte).2 ++ ·) hcalls⟩

theorem onTime_iff_undelayed {c : ClockedParser} {reads : List RxByte} :
    OnTime c reads ↔ Along undelayed (fun c r ↦ resyncs c r.now = false) c reads := by
  refine Along.congr_machine receive undelayed fun c r hr ↦ ?_
  have hstay : idleResync c r.now = c := by simp [idleResync, hr]
  simp [receive, undelayed, hstay]

/-- No byte finds a frame idle too long exactly if all frames are read on time. -/
theorem onTime_iff {c : ClockedParser} {reads : List RxByte} (h : Idle c.parser) :
    OnTime c reads ↔ FramesReadOnTime c.parser reads := by
  have hresync : ∀ (c : ClockedParser) (now : UInt32), resyncs c now = false ↔
      (¬Idle c.parser → now - c.lastArrivalMs ≤ 100) := by
    intro c now
    rw [← busy_eq_false, resyncs, Bool.and_eq_false_iff, decide_eq_false_iff_not, gt_iff_lt,
      UInt32.not_lt]
    exact or_iff_not_imp_left
  simp only [onTime_iff_undelayed, hresync, Along_iff_forall]
  constructor
  · rintro hall xs a b ys rfl hframe
    have hb := hall (xs ++ [a]) b ys (by simp)
    rw [(run_undelayed c (xs ++ [a])).1] at hb
    simpa [run_append, undelayed] using hb hframe
  · rintro hall xs b ys rfl hframe
    rcases List.eq_nil_or_concat' xs with rfl | ⟨xs, a, rfl⟩
    · exact absurd h hframe
    · rw [(run_undelayed c (xs ++ [a])).1] at hframe
      simpa [run_append, undelayed] using hall xs a b ys (by simp) hframe

/-- Without kills the parser does what the bytes say. -/
theorem run_receive_of_onTime {c : ClockedParser} {reads : List RxByte} (h : OnTime c reads) :
    (run receive c reads).1.parser = (run consume c.parser (reads.map (·.byte))).1 ∧
      (run receive c reads).1.parserFramesKilled = c.parserFramesKilled ∧
      (run receive c reads).2 = (run consume c.parser (reads.map (·.byte))).2 := by
  have hsim := run_simulates receive undelayed
    (R := fun c d ↦ c = d) (c := fun c r ↦ resyncs c r.now = false) some id (by
      rintro c _ r rfl hr
      have hstay : idleResync c r.now = c := by simp [idleResync, hr]
      simp [receive, undelayed, hstay]) rfl h
  simp only [List.map_id, List.filterMap_some] at hsim
  rw [hsim.1, hsim.2]
  exact run_undelayed c reads

/-! ## Schedules that harm no frame -/

/-- A run of the polls that reads what `prompt` reads without delay: no frame
is killed and no drain cut short, and the handlers are called as without
delay. -/
structure Unharmed (s : SerialServer) (polls : List PollInput) (prompt : List RxByte) :
    Prop where
  alive : OnTime s.toClockedParser (polls.flatMap (·.reads))
  killed : (run pollOnce s polls).1.parserFramesKilled = s.parserFramesKilled
  parser : (run pollOnce s polls).1.parser = (run receive s.toClockedParser prompt).1.parser
  calls : (run pollOnce s polls).2.filterMap ServerEvent.command? =
    (run receive s.toClockedParser prompt).2

/-- Consecutive bytes reach the transport at most 100 ms apart. -/
def SteadyArrival (bytes : List HostByte) : Prop :=
  bytes.IsChain fun a b ↦ a.arrivedMs ≤ b.arrivedMs ∧ b.arrivedMs ≤ a.arrivedMs + 100

instance (bytes : List HostByte) : Decidable (SteadyArrival bytes) :=
  inferInstanceAs (Decidable (List.IsChain _ _))

theorem prompt_onTime {c : ClockedParser} {bytes : List HostByte} (h : Idle c.parser)
    (harrive : SteadyArrival bytes) :
    OnTime c (bytes.map HostByte.prompt) := by
  refine OnTime.of_gaps h ((List.isChain_map _).mpr (harrive.imp ?_))
  rintro a b ⟨hle, hgap⟩
  have hsub : UInt32.ofNat b.arrivedMs - UInt32.ofNat a.arrivedMs =
      UInt32.ofNat (b.arrivedMs - a.arrivedMs) := (UInt32.ofNat_sub hle).symm
  have hsmall : b.arrivedMs - a.arrivedMs ≤ 100 := by omega
  simp only [HostByte.prompt, hsub, UInt32.le_iff_toNat_le]
  rw [UInt32.toNat_ofNat_of_lt' (hsmall.trans_lt (by decide))]
  exact hsmall

/-- A superloop does no harm exactly if it reads the frames of the stream on
time. -/
theorem superloop_unharmed_iff (s : SerialServer) (clock : ℕ) (bytes : List HostByte)
    (turns : List Turn) (hconn : s.connected) (hidle : Idle s.parser)
    (harrive : SteadyArrival bytes) :
    Unharmed s (superloopPolls clock bytes turns)
        ((superloopReads clock bytes turns).map fun r ↦ r.host.prompt) ↔
      FramesReadOnTime s.parser ((superloopReads clock bytes turns).map TimedRead.rx) := by
  have hreads := superloopPolls_reads clock bytes turns
  constructor
  · intro h
    rw [← onTime_iff hidle, ← hreads]
    exact h.alive
  · intro h
    rw [← onTime_iff (c := s.toClockedParser) hidle] at h
    have hopen : ∀ io ∈ superloopPolls clock bytes turns, ∃ now, io.last = .empty now := by
      intro io hio
      obtain ⟨t, -, rfl⟩ := List.mem_map.mp hio
      exact ⟨_, rfl⟩
    obtain ⟨hclocked, hcalls⟩ := run_pollOnce hconn hopen
    rw [hreads] at hclocked hcalls
    obtain ⟨hparser, hkilled, hcommands⟩ := run_receive_of_onTime h
    have hprompt : OnTime s.toClockedParser
        ((superloopReads clock bytes turns).map fun r ↦ r.host.prompt) := by
      have hsteady := harrive.prefix (superloopReads_isPrefix clock bytes turns)
      simpa [Function.comp_def] using prompt_onTime hidle hsteady
    obtain ⟨hparser', -, hcommands'⟩ := run_receive_of_onTime hprompt
    have hsame : ((superloopReads clock bytes turns).map fun r ↦ r.host.prompt).map (·.byte) =
        ((superloopReads clock bytes turns).map TimedRead.rx).map (·.byte) := by
      simp [HostByte.prompt, TimedRead.rx]
    rw [hsame] at hparser' hcommands'
    refine ⟨hreads ▸ h, ?_, ?_, ?_⟩
    · rw [hclocked, hkilled]
    · rw [hclocked, hparser, hparser']
    · rw [hcalls, hcommands, hcommands']

/-- A `W` command whose body arrives 50 ms behind its tag, read by a loop that
sleeps 60 ms a turn. -/
theorem superloop_unharmed_window :
    Unharmed {} (superloopPolls 0 (⟨0x57, 0⟩ :: List.replicate 8 ⟨1, 50⟩)
        (List.replicate 2 ⟨fun _ ↦ 0, 60⟩))
      ((superloopReads 0 (⟨0x57, 0⟩ :: List.replicate 8 ⟨1, 50⟩)
        (List.replicate 2 ⟨fun _ ↦ 0, 60⟩)).map fun r ↦ r.host.prompt) :=
  (superloop_unharmed_iff {} 0 (⟨0x57, 0⟩ :: List.replicate 8 ⟨1, 50⟩)
    (List.replicate 2 ⟨fun _ ↦ 0, 60⟩) rfl ⟨rfl, rfl⟩ (by decide)).mpr
    ((onTime_iff (c := {}) ⟨rfl, rfl⟩).mp
      ⟨rfl, rfl, rfl, rfl, rfl, rfl, rfl, rfl, rfl, trivial⟩)

/-- A `W` command whose body arrives 50 ms behind its tag, read by a loop that
sleeps 250 ms after the tag: the frame is killed and the command lost. -/
theorem superloop_kills_window :
    let bytes : List HostByte := ⟨0x57, 0⟩ :: List.replicate 8 ⟨1, 50⟩
    let turns : List Turn := List.replicate 2 ⟨fun _ ↦ 0, 250⟩
    SteadyArrival bytes ∧
      (run pollOnce {} (superloopPolls 0 bytes turns)).1.parserFramesKilled = 1 ∧
      (run pollOnce {} (superloopPolls 0 bytes turns)).2.filterMap ServerEvent.command? = [] ∧
      (run receive {} (bytes.map HostByte.prompt)).2 =
        [.storeWindow 0x01010101 0x01010101, .writeReady 511] ∧
      ¬Unharmed {} (superloopPolls 0 bytes turns) (bytes.map HostByte.prompt) := by
  have hkilled : (run pollOnce {} (superloopPolls 0 (⟨0x57, 0⟩ :: List.replicate 8 ⟨1, 50⟩)
      (List.replicate 2 ⟨fun _ ↦ 0, 250⟩))).1.parserFramesKilled = 1 := by decide +kernel
  refine ⟨by decide, hkilled, by decide +kernel, by decide +kernel, fun h ↦ ?_⟩
  exact absurd (hkilled.symm.trans h.killed) (by decide)

end RadioService.Serial
