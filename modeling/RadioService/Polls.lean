import RadioService.HostCommands

/-!
# Commands read through the polls of the serial server

The clock makes a difference to the parser only where a frame is killed.  In
runs without kills the server's polls call what the parser calls on the bytes,
so the commands of a host arrive as it encoded them.
-/

namespace RadioService.Serial

open Burst Bytes Machine

/-! ## The parser behind the clock -/

theorem busy_eq_false {p : Parser} : busy p = false ↔ Idle p := by
  simp [busy, Idle]

/-- No byte finds a frame that has been idle too long. -/
def OnTime (c : ClockedParser) (reads : List RxByte) : Prop :=
  Along receive (fun c r ↦ resyncs c r.now = false) c reads

/-- Gaps of at most 100 ms between the bytes, from an idle parser on. -/
theorem OnTime.of_gaps {c : ClockedParser} {reads : List RxByte} (h : Idle c.parser)
    (hgaps : reads.IsChain (fun a b ↦ b.now - a.now ≤ 100)) : OnTime c reads := by
  have hwait : ∀ c : ClockedParser, ∀ reads : List RxByte,
      (∀ r ∈ reads.head?, resyncs c r.now = false) →
      reads.IsChain (fun a b ↦ b.now - a.now ≤ 100) → OnTime c reads := by
    intro c reads hhead hgaps
    induction reads generalizing c with
    | nil => trivial
    | cons r reads ih =>
        rw [List.isChain_cons] at hgaps
        refine ⟨hhead r rfl, ih _ ?_ hgaps.2⟩
        intro b hb
        have hgap := hgaps.1 b hb
        simp only [resyncs, receive, Bool.and_eq_false_iff, decide_eq_false_iff_not, gt_iff_lt,
          UInt32.not_lt]
        exact Or.inr hgap
  refine hwait c reads ?_ hgaps
  intro r _
  simp [resyncs, busy_eq_false.mpr h]

/-- `receive`, showing which bytes the parser takes for a tag. -/
def watchReceive : Step ClockedParser RxByte Seen := fun c r ↦
  ((receive c r).1, (watch (idleResync c r.now).parser r.byte).2)

/-- The bytes that reach the parser as a tag. -/
def tagReads : Step ClockedParser RxByte UInt8 := fun c r ↦
  ((receive c r).1, if Idle (idleResync c r.now).parser then [r.byte] else [])

theorem receive_eq_view (c : ClockedParser) (r : RxByte) :
    receive c r = ((watchReceive c r).1, (watchReceive c r).2.filterMap Seen.call?) := by
  refine Prod.ext rfl ?_
  by_cases h : Idle (idleResync c r.now).parser <;>
    simp [watchReceive, watch, receive, h, List.filterMap_cons, Function.comp_def]

theorem tagReads_eq_view (c : ClockedParser) (r : RxByte) :
    tagReads c r = ((watchReceive c r).1, (watchReceive c r).2.filterMap Seen.tag?) := by
  refine Prod.ext rfl ?_
  by_cases h : Idle (idleResync c r.now).parser <;>
    simp [tagReads, watchReceive, watch, h]

/-- As long as no frame is killed the clock makes no difference. -/
theorem run_watchReceive {c : ClockedParser} {reads : List RxByte} (h : OnTime c reads) :
    (run watchReceive c reads).1.parser = (run watch c.parser (reads.map (·.byte))).1 ∧
      (run watchReceive c reads).2 = (run watch c.parser (reads.map (·.byte))).2 := by
  have hon : Along watchReceive (fun c r ↦ resyncs c r.now = false) c reads :=
    (Along.congr_machine receive watchReceive fun _ _ _ ↦ rfl).mp h
  have hstep : ∀ c p r, c.parser = p → resyncs c r.now = false →
      (watchReceive c r).1.parser = (watch p r.byte).1 ∧
        (watchReceive c r).2.filterMap some = (watch p r.byte).2 := by
    rintro c p r rfl hr
    have hstay : idleResync c r.now = c := by simp [idleResync, hr]
    simp [watchReceive, watch, receive, hstay]
  simpa using run_simulates watchReceive watch some RxByte.byte hstep rfl hon

/-! ## The server -/

theorem maybeEmitStats_keeps (s : SerialServer) (now : UInt32) :
    (maybeEmitStats s now).1.toClockedParser = s.toClockedParser ∧
      (maybeEmitStats s now).1.connected = s.connected ∧
      (maybeEmitStats s now).2.filterMap ServerEvent.command? = [] := by
  unfold maybeEmitStats
  split <;> simp [ServerEvent.command?]

/-- The server's read loop calls what the parser calls. -/
theorem feed_eq_receive (s : SerialServer) (r : RxByte) :
    (feed s r).1.toClockedParser = (receive s.toClockedParser r).1 ∧
      (feed s r).1.connected = s.connected ∧
      (feed s r).2.filterMap ServerEvent.command? = (receive s.toClockedParser r).2 := by
  have hcalls : ∀ l : List Command, (l.map ServerEvent.command).filterMap
      ServerEvent.command? = l := by
    intro l
    simp [List.filterMap_map, Function.comp_def, ServerEvent.command?]
  simp only [feed, List.filterMap_append, hcalls]
  split
  · simp
  · obtain ⟨hparser, hconn, hcommands⟩ := maybeEmitStats_keeps
      { s with
        toClockedParser := (receive s.toClockedParser r).1
        lastStatsMs := if .forceStats ∈ (receive s.toClockedParser r).2 then r.forceNow
          else s.lastStatsMs } r.tickNow
    exact ⟨hparser, hconn, by rw [hcommands, List.append_nil]⟩

theorem pollOnce_eq_receive {s : SerialServer} {io : PollInput} (hconn : s.connected)
    (hopen : ∃ now, io.last = .empty now) :
    (pollOnce s io).1.toClockedParser = (run receive s.toClockedParser io.reads).1 ∧
      (pollOnce s io).1.connected ∧
      (pollOnce s io).2.filterMap ServerEvent.command? =
        (run receive s.toClockedParser io.reads).2 := by
  obtain ⟨now, hnow⟩ := hopen
  obtain ⟨⟨hparser, hconn'⟩, hcalls⟩ := run_simulates feed receive
    (R := fun s c ↦ s.toClockedParser = c ∧ s.connected) (c := fun _ _ ↦ True)
    ServerEvent.command? id (s := s) (by
      rintro s c r ⟨rfl, hs⟩ -
      obtain ⟨hparser, hkeep, hcalls⟩ := feed_eq_receive s r
      exact ⟨⟨hparser, hkeep ▸ hs⟩, hcalls⟩) ⟨rfl, hconn⟩
    (.of_forall (fun _ (_ : _ ∈ io.reads) _ ↦ trivial) s)
  rw [List.map_id] at hparser hcalls
  obtain ⟨hstats, hstay, hnone⟩ := maybeEmitStats_keeps (run feed s io.reads).1 now
  have hpoll : pollOnce s io =
      ((maybeEmitStats (run feed s io.reads).1 now).1,
        (run feed s io.reads).2 ++ (maybeEmitStats (run feed s io.reads).1 now).2) := by
    simp [pollOnce, drain, hconn, hnow]
  rw [hpoll]
  refine ⟨hstats.trans hparser, hstay ▸ hconn', ?_⟩
  rw [List.filterMap_append, hnone, List.append_nil, hcalls]

/-- Polls of an open transport, over all the bytes they read. -/
theorem run_pollOnce {s : SerialServer} {polls : List PollInput} (hconn : s.connected)
    (hopen : ∀ io ∈ polls, ∃ now, io.last = .empty now) :
    (run pollOnce s polls).1.toClockedParser =
        (run receive s.toClockedParser (polls.flatMap (·.reads))).1 ∧
      (run pollOnce s polls).2.filterMap ServerEvent.command? =
        (run receive s.toClockedParser (polls.flatMap (·.reads))).2 := by
  obtain ⟨⟨hparser, -⟩, hcalls⟩ := run_refines pollOnce receive
    (R := fun s c ↦ s.toClockedParser = c ∧ s.connected)
    (c := fun _ io ↦ ∃ now, io.last = .empty now) ServerEvent.command? PollInput.reads (by
      rintro s c io ⟨rfl, hs⟩ hio
      obtain ⟨hparser, hkeep, hcalls⟩ := pollOnce_eq_receive hs hio
      exact ⟨⟨hparser, hkeep⟩, hcalls⟩) ⟨rfl, hconn⟩
    (.of_forall (fun io hio _ ↦ hopen io hio) s)
  exact ⟨hparser, hcalls⟩

/-! ## Decoding undoes encoding -/

/-- The polls that read an encoded list of items, from an idle parser and with
at most 100 ms between the bytes: every handler call in order and once, a tag
looked for at the first byte of every item and nowhere else, and an idle
parser at the end. -/
theorem pollOnce_decodes (items : List HostItem) (polls : List PollInput) (s : SerialServer)
    (hconn : s.connected) (hidle : Idle s.parser)
    (hopen : ∀ io ∈ polls, ∃ now, io.last = .empty now)
    (hbytes : (polls.flatMap (·.reads)).map (·.byte) = items.flatMap HostItem.encode)
    (hgaps : (polls.flatMap (·.reads)).IsChain fun a b ↦ b.now - a.now ≤ 100) :
    (run pollOnce s polls).2.filterMap ServerEvent.command? = items.flatMap HostItem.calls ∧
      (run tagReads s.toClockedParser (polls.flatMap (·.reads))).2 = items.map HostItem.lead ∧
      (run pollOnce s polls).1.parser.state = .tag ∧
      (run pollOnce s polls).1.parser.skipRemain = 0 := by
  obtain ⟨hparser, hcalls⟩ := run_pollOnce hconn hopen
  obtain ⟨hseenParser, hseen⟩ := run_watchReceive (OnTime.of_gaps hidle hgaps)
  obtain ⟨q, hq, hitems⟩ := watch_items hidle items
  rw [hbytes, hitems] at hseenParser hseen
  refine ⟨?_, ?_, ?_⟩
  · rw [hcalls, run_view receive_eq_view, hseen]
    exact calls_of_items items
  · rw [run_view tagReads_eq_view, hseen]
    exact tags_of_items items
  · have hfinal : (run pollOnce s polls).1.parser = q := by
      rw [hparser, run_view receive_eq_view, hseenParser]
    rw [hfinal]
    exact hq

/-- A stats request, a `T` frame of length 0 and a payload that is a tag byte,
cut by two polls inside the payload's head. -/
theorem pollOnce_decodes_cut :
    (run pollOnce {} [
      { reads := [⟨0x53, 10, 10, 10⟩, ⟨0x54, 20, 20, 20⟩, ⟨0x58, 20, 20, 20⟩, ⟨0, 21, 21, 21⟩,
          ⟨0, 22, 22, 22⟩, ⟨0x54, 30, 30, 30⟩, ⟨0x58, 31, 31, 31⟩], last := .empty 40 },
      { reads := [⟨1, 120, 120, 120⟩, ⟨0, 121, 121, 121⟩, ⟨0x53, 130, 130, 130⟩],
        last := .empty 131 }]).2.filterMap ServerEvent.command? =
      [.forceStats, .writeError 0x02 "bad tx len", .handleTx [0x53]] :=
  (pollOnce_decodes [.stats, .badTx [] (.inl rfl) (by decide), .tx [0x53] (by decide)]
    [{ reads := [⟨0x53, 10, 10, 10⟩, ⟨0x54, 20, 20, 20⟩, ⟨0x58, 20, 20, 20⟩, ⟨0, 21, 21, 21⟩,
          ⟨0, 22, 22, 22⟩, ⟨0x54, 30, 30, 30⟩, ⟨0x58, 31, 31, 31⟩], last := .empty 40 },
      { reads := [⟨1, 120, 120, 120⟩, ⟨0, 121, 121, 121⟩, ⟨0x53, 130, 130, 130⟩],
        last := .empty 131 }]
    {} rfl ⟨rfl, rfl⟩ (by simp) (by decide) (by decide)).1

end RadioService.Serial
