import RadioService.SimDevice
import RadioService.Polls

/-!
# The simulator's parser against the service's

Both parsers look at the same bytes at the same times.  They recognise the same
commands as long as the service drains no byte that the simulator takes for a
tag, and no `W` frame begins while the simulator still keeps bytes of a killed one.
-/

namespace RadioService.Serial

open Burst Bytes Machine

/-- The simulator's call that answers to a call of the service.  Its `ready`
behind a `W` frame is the service's, which stores the window first. -/
def Command.simCall? : Command → Option SimCall
  | .forceStats => some .statsFrame
  | .handleReset => some .reset
  | .storeWindow _ _ => none
  | .writeReady _ => some .ready
  | .handleConfig body _ => some (.handleConfig body)
  | .handleTx payload => some (.handleTx payload)
  | .handleScanQ count dwell freqs => some (.runFakeSweep freqs count dwell)
  | .writeError code msg => some (.error code msg)

/-! ## The state switches -/

/-- The fields that the frame under way reads hold the same bytes. -/
def SameFrame (d : SimParser) (p : Parser) : Prop :=
  match d.state with
  | .tag | .scanCount => True
  | .txMagic | .lenLo => p.tag = d.tag
  | .lenHi => p.tag = d.tag ∧ p.frameLen.toNat = d.frameLen
  | .setWindow => p.have_ = d.winBody.length
  | .config => p.frameLen.toNat = d.frameLen ∧ p.configBody.bytes p.have_ = d.cfgBody
  | .payload => p.frameLen.toNat = d.frameLen ∧ p.txBuf.bytes p.have_ = d.buf
  | .scanBody => p.scanCount = d.scanCount ∧ d.scanCount ≤ 16 ∧ p.scanHave.toNat = d.scanHave ∧
    p.qbuf.bytes d.scanHave = d.qbuf ∧ d.scanHave < 4 + d.scanCount.toNat * 4

/-- The service drains between two frames only. -/
structure Twins (d : SimParser) (p : Parser) : Prop where
  state : p.state = d.state
  skip : d.state ≠ .tag → p.skipRemain = 0
  frame : SameFrame d p

/-- Both steps recognise the same and lead to twins. -/
def StepTwins (x : SimParser × List SimCall) (y : Parser × List Command) : Prop :=
  Twins x.1 y.1 ∧ x.2 = y.2.filterMap Command.simCall?

def tags : List UInt8 := [tagT, tagW, tagC, tagS, tagQ, tagX]

section

variable {d : SimParser} {p : Parser}

theorem Twins.between (hd : d.state = .tag) (hp : p.state = .tag) : Twins d p := by
  refine ⟨hp.trans hd.symm, fun hbusy ↦ absurd hd hbusy, ?_⟩
  rw [SameFrame, hd]
  trivial

theorem onTag_twins (hd : d.state = .tag) (hp : Idle p) {b : UInt8}
    (hwindow : b = tagW → d.winBody = []) : StepTwins (d.onTag b) (onTag p b) := by
  obtain ⟨hstate, hskip⟩ := hp
  unfold SimParser.onTag onTag
  dsimp only
  by_cases hT : b = tagT
  · subst hT
    exact ⟨⟨rfl, fun _ ↦ hskip, rfl⟩, rfl⟩
  by_cases hC : b = tagC
  · subst hC
    exact ⟨⟨rfl, fun _ ↦ hskip, rfl⟩, rfl⟩
  by_cases hW : b = tagW
  · subst hW
    refine ⟨⟨rfl, fun _ ↦ hskip, ?_⟩, rfl⟩
    change 0 = d.winBody.length
    rw [hwindow rfl, List.length_nil]
  rw [if_neg hT, if_neg hT, if_neg hC, if_neg hW, if_neg hC, if_neg hW]
  split_ifs
  · exact ⟨.between hd hstate, rfl⟩
  · exact ⟨⟨rfl, fun _ ↦ hskip, trivial⟩, rfl⟩
  · exact ⟨.between hd hstate, rfl⟩
  · exact ⟨.between hd hstate, rfl⟩

/-- A byte that is no tag leaves the simulator where it is. -/
theorem onTag_stray {b : UInt8} (hb : b ∉ tags) : d.onTag b = ({ d with tag := b }, []) := by
  simp only [tags, List.mem_cons, List.not_mem_nil, or_false, not_or] at hb
  obtain ⟨hT, hW, hC, hS, hQ, hX⟩ := hb
  simp only [SimParser.onTag, hT, hW, hC, hS, hQ, hX, if_false]

theorem onTxMagic_twins (hskip : p.skipRemain = 0) (htag : p.tag = d.tag) (b : UInt8) :
    StepTwins (d.onTxMagic b) (onTxMagic p b) := by
  unfold SimParser.onTxMagic onTxMagic
  by_cases hX : b = tagX
  · subst hX
    exact ⟨⟨rfl, fun _ ↦ hskip, htag⟩, rfl⟩
  · rw [if_neg hX, if_pos hX]
    exact ⟨.between rfl rfl, rfl⟩

theorem onSetWindow_twins (hd : d.state = .setWindow) (hp : p.state = .setWindow)
    (hskip : p.skipRemain = 0) (hhave : p.have_ = d.winBody.length) (b : UInt8) :
    StepTwins (d.onSetWindow b) (onSetWindow p b) := by
  unfold SimParser.onSetWindow onSetWindow
  dsimp only
  rw [List.length_append, List.length_singleton, ← hhave]
  split_ifs
  · exact ⟨.between rfl rfl, rfl⟩
  · refine ⟨⟨hp.trans hd.symm, fun _ ↦ hskip, ?_⟩, rfl⟩
    unfold SameFrame
    dsimp only
    rw [hd]
    simp [hhave]

theorem onLenLo_twins (hskip : p.skipRemain = 0) (htag : p.tag = d.tag) (b : UInt8) :
    StepTwins (d.onLenLo b) (onLenLo p b) :=
  ⟨⟨rfl, fun _ ↦ hskip, htag, UInt8.toNat_toUInt16 b⟩, rfl⟩

theorem frameLen_or (len : UInt16) (b : UInt8) :
    (len ||| (b.toUInt16 <<< 8)).toNat = len.toNat ||| (b.toNat <<< 8) := by
  have hb := b.toNat_lt
  have hshift : b.toNat <<< 8 < 2 ^ 16 := by
    rw [Nat.shiftLeft_eq]
    omega
  rw [UInt16.toNat_or, UInt16.toNat_shiftLeft, UInt8.toNat_toUInt16]
  exact congrArg _ (Nat.mod_eq_of_lt hshift)

theorem onLenHi_twins (hskip : p.skipRemain = 0) (htag : p.tag = d.tag)
    (hlen : p.frameLen.toNat = d.frameLen) (b : UInt8) :
    StepTwins (d.onLenHi b) (onLenHi p b) := by
  have hnext : (p.frameLen ||| (b.toUInt16 <<< 8)).toNat = d.frameLen ||| (b.toNat <<< 8) := by
    rw [frameLen_or, hlen]
  unfold SimParser.onLenHi onLenHi
  dsimp only
  rw [← hnext, htag]
  generalize p.frameLen ||| (b.toUInt16 <<< 8) = len
  have hconfig : (len.toNat ≠ 15 ∧ len.toNat ≠ 17) ↔ (len ≠ 15 ∧ len ≠ 17) := by
    rw [Ne, Ne, Ne, Ne, ← UInt16.toNat_inj, ← UInt16.toNat_inj]
    rfl
  have htx : (len.toNat = 0 ∨ len.toNat > simMaxPayload) ↔
      (len = 0 ∨ len.toUInt32 > kMaxTotalPayload) := by
    rw [← UInt16.toNat_inj, gt_iff_lt, gt_iff_lt, UInt32.lt_iff_toNat_lt, UInt16.toNat_toUInt32]
    rfl
  simp only [hconfig, htx]
  split_ifs
  · exact ⟨.between rfl rfl, rfl⟩
  · exact ⟨⟨rfl, fun _ ↦ hskip, rfl, rfl⟩, rfl⟩
  · exact ⟨.between rfl rfl, rfl⟩
  · exact ⟨⟨rfl, fun _ ↦ hskip, rfl, rfl⟩, rfl⟩
  · exact ⟨.between rfl rfl, rfl⟩

theorem onConfig_twins (hd : d.state = .config) (hp : p.state = .config)
    (hskip : p.skipRemain = 0) (hlen : p.frameLen.toNat = d.frameLen)
    (hbody : p.configBody.bytes p.have_ = d.cfgBody) (b : UInt8) :
    StepTwins (d.onConfig b) (onConfig p b) := by
  have hstore := Buffer.bytes_store_succ p.configBody p.have_ b
  rw [hbody] at hstore
  unfold SimParser.onConfig onConfig
  dsimp only
  rw [← hstore, Buffer.length_bytes, hlen]
  split_ifs with hfull
  · rw [hfull]
    exact ⟨.between rfl rfl, rfl⟩
  · refine ⟨⟨hp.trans hd.symm, fun _ ↦ hskip, ?_⟩, rfl⟩
    unfold SameFrame
    dsimp only
    rw [hd]
    exact ⟨hlen, rfl⟩

theorem onPayload_twins (hd : d.state = .payload) (hp : p.state = .payload)
    (hskip : p.skipRemain = 0) (hlen : p.frameLen.toNat = d.frameLen)
    (hbody : p.txBuf.bytes p.have_ = d.buf) (b : UInt8) :
    StepTwins (d.onPayload b) (onPayload p b) := by
  have hstore := Buffer.bytes_store_succ p.txBuf p.have_ b
  rw [hbody] at hstore
  unfold SimParser.onPayload onPayload
  dsimp only
  rw [← hstore, Buffer.length_bytes, hlen]
  split_ifs with hfull
  · rw [hfull]
    exact ⟨.between rfl rfl, rfl⟩
  · refine ⟨⟨hp.trans hd.symm, fun _ ↦ hskip, ?_⟩, rfl⟩
    unfold SameFrame
    dsimp only
    rw [hd]
    exact ⟨hlen, rfl⟩

theorem onScanCount_twins (hskip : p.skipRemain = 0) (b : UInt8) :
    StepTwins (d.onScanCount b) (onScanCount p b) := by
  unfold SimParser.onScanCount onScanCount
  by_cases hcount : 1 ≤ b ∧ b ≤ 16
  · rw [if_pos hcount]
    exact ⟨⟨rfl, fun _ ↦ hskip, rfl, hcount.2, rfl, rfl, by dsimp only; omega⟩, rfl⟩
  · rw [if_neg hcount]
    exact ⟨.between rfl rfl, rfl⟩

theorem word32_eq_unpack {f : Buffer} {n : ℕ} {l : List UInt8} (h : f.bytes n = l) {i : ℕ}
    (hi : i + 4 ≤ n) : f.word32 i = unpackU32 (l.drop i) := by
  have hcell : ∀ k < 4, f (i + k) = (l.drop i).getD k 0 := by
    intro k hk
    rw [Buffer.eq_of_bytes h (by omega), List.getD_eq_getElem?_getD, List.getD_eq_getElem?_getD,
      List.getElem?_drop]
  rw [Buffer.word32, unpackU32, ← hcell 0 (by decide), ← hcell 1 (by decide),
    ← hcell 2 (by decide), ← hcell 3 (by decide)]
  rfl

theorem onScanBody_twins (hd : d.state = .scanBody) (hp : p.state = .scanBody)
    (hskip : p.skipRemain = 0) (hframe : SameFrame d p) (b : UInt8) :
    StepTwins (d.onScanBody b) (onScanBody p b) := by
  rw [SameFrame, hd] at hframe
  obtain ⟨hcount, hmost, hhave, hbody, hroom⟩ := hframe
  have hmost' : d.scanCount.toNat ≤ 16 := UInt8.le_iff_toNat_le.mp hmost
  have hnext : (p.scanHave + 1).toNat = d.scanHave + 1 := by
    rw [UInt8.toNat_add, hhave, UInt8.toNat_one, Nat.mod_eq_of_lt (by omega)]
  have hstore := Buffer.bytes_store_succ p.qbuf d.scanHave b
  rw [hbody] at hstore
  unfold SimParser.onScanBody onScanBody
  dsimp only
  rw [hnext, hhave, hcount]
  split_ifs with hfull
  · refine ⟨.between rfl rfl, ?_⟩
    have hfreqs : (List.range d.scanCount.toNat).map (fun i ↦
        (p.qbuf.store d.scanHave b).word32 (4 + i * 4)) =
          (List.range d.scanCount.toNat).map fun i ↦
            unpackU32 ((d.qbuf ++ [b]).drop (4 + i * 4)) := by
      refine List.map_congr_left fun i hi ↦ word32_eq_unpack hstore ?_
      have hin := List.mem_range.mp hi
      omega
    rw [hfreqs, word32_eq_unpack hstore (by omega)]
    rfl
  · refine ⟨⟨hp.trans hd.symm, fun _ ↦ hskip, ?_⟩, rfl⟩
    unfold SameFrame
    dsimp only
    rw [hd]
    exact ⟨rfl, hmost, hnext, hstore, by omega⟩

theorem switch_twins (h : Twins d p) (hskip : p.skipRemain = 0) {b : UInt8}
    (hwindow : p.state = .tag → b = tagW → d.winBody = []) :
    StepTwins (d.switch b) (switch p b) := by
  have hstate := h.state
  have hframe := h.frame
  rw [SameFrame] at hframe
  unfold SimParser.switch switch
  rw [hstate]
  cases hd : d.state with
  | tag => exact onTag_twins hd ⟨hstate.trans hd, hskip⟩ (hwindow (hstate.trans hd))
  | txMagic =>
      rw [hd] at hframe
      exact onTxMagic_twins hskip hframe b
  | setWindow =>
      rw [hd] at hframe
      exact onSetWindow_twins hd (hstate.trans hd) hskip hframe b
  | lenLo =>
      rw [hd] at hframe
      exact onLenLo_twins hskip hframe b
  | lenHi =>
      rw [hd] at hframe
      exact onLenHi_twins hskip hframe.1 hframe.2 b
  | config =>
      rw [hd] at hframe
      exact onConfig_twins hd (hstate.trans hd) hskip hframe.1 hframe.2 b
  | payload =>
      rw [hd] at hframe
      exact onPayload_twins hd (hstate.trans hd) hskip hframe.1 hframe.2 b
  | scanCount => exact onScanCount_twins hskip b
  | scanBody => exact onScanBody_twins hd (hstate.trans hd) hskip h.frame b

/-- The service takes this byte for a tag only if the simulator keeps nothing of a killed
window, and it drains no tag. -/
theorem consume_twins (h : Twins d p) {b : UInt8} (hdrain : 0 < p.skipRemain → b ∉ tags)
    (hwindow : Idle p → b = tagW → d.winBody = []) :
    StepTwins (d.switch b) (consume p b) := by
  unfold consume
  split_ifs with hskip
  · have hd : d.state = .tag := by
      refine not_not.mp fun hbusy ↦ ?_
      rw [h.skip hbusy] at hskip
      exact absurd hskip (by decide)
    rw [SimParser.switch, hd]
    dsimp only
    rw [onTag_stray (hdrain hskip)]
    exact ⟨.between hd (h.state.trans hd), rfl⟩
  · have hzero : p.skipRemain = 0 := UInt16.le_antisymm (UInt16.not_lt.mp hskip) (UInt16.zero_le)
    exact switch_twins h hzero fun hp ↦ hwindow ⟨hp, hzero⟩

end

/-! ## The clocks -/

/-- A byte and the time at which both read it. -/
structure Arrival where
  byte : UInt8
  now : ℕ

def Arrival.poll (a : Arrival) : SimPoll where
  now := a.now
  read := .byte a.byte a.now

/-- The service's clock has 32 bits. -/
def Arrival.read (a : Arrival) : RxByte where
  byte := a.byte
  now := .ofNat a.now

def simStep : Step SimParser Arrival SimCall := fun d a ↦ d.parse a.poll

def serveStep : Step ClockedParser Arrival Command := fun c a ↦ receive c a.read

/-- The step stays clear of what sets the parsers apart: a silence inside a frame that the
service's clock wraps to at most 100 ms, a tag among the bytes it drains, and a `W` that
finds bytes of a killed one at the simulator. -/
def StaysClear (x : SimParser × ClockedParser) (a : Arrival) : Prop :=
  let gap := a.now - x.1.lastArrival
  let p := (idleResync x.2 (.ofNat a.now)).parser
  (x.1.state ≠ .tag → 100 < gap → 100 < gap % 2 ^ 32) ∧
    (0 < p.skipRemain → a.byte ∉ tags) ∧
    (Idle p → a.byte = tagW → x.1.winBody = [])

instance (x : SimParser × ClockedParser) (a : Arrival) : Decidable (StaysClear x a) :=
  inferInstanceAs (Decidable (_ ∧ _ ∧ _))

section

variable {d : SimParser} {c : ClockedParser} {now : ℕ}

theorem resyncs_iff_late (h : Twins d c.parser) (hbusy : d.state ≠ .tag)
    (hclock : c.lastArrivalMs = .ofNat d.lastArrival) (hle : d.lastArrival ≤ now)
    (hgap : 100 < now - d.lastArrival → 100 < (now - d.lastArrival) % 2 ^ 32) :
    resyncs c (.ofNat now) = true ↔ 100 < now - d.lastArrival := by
  have hp : busy c.parser = true := by
    rw [busy, h.state]
    simp [hbusy]
  rw [resyncs, hp, Bool.true_and, decide_eq_true_iff, hclock, ← UInt32.ofNat_sub hle, gt_iff_lt,
    UInt32.lt_iff_toNat_lt, UInt32.toNat_ofNat']
  exact ⟨fun hlate ↦ hlate.trans_le (Nat.mod_le _ _), hgap⟩

theorem idleResync_twins (h : Twins d c.parser)
    (hclock : d.state ≠ .tag → c.lastArrivalMs = .ofNat d.lastArrival ∧ d.lastArrival ≤ now)
    (hgap : d.state ≠ .tag →
      100 < now - d.lastArrival → 100 < (now - d.lastArrival) % 2 ^ 32) :
    Twins (d.idleResync now) (idleResync c (.ofNat now)).parser := by
  unfold SimParser.idleResync idleResync
  by_cases hd : d.state = .tag
  · rw [if_neg fun hlate ↦ hlate.1 hd]
    by_cases hlate : resyncs c (.ofNat now) = true
    · rw [if_pos hlate]
      exact .between hd rfl
    · rw [if_neg hlate]
      exact h
  obtain ⟨hlast, hle⟩ := hclock hd
  have hlate := resyncs_iff_late h hd hlast hle (hgap hd)
  by_cases hidle : 100 < now - d.lastArrival
  · rw [if_pos ⟨hd, hidle⟩, if_pos (hlate.mpr hidle)]
    exact .between rfl rfl
  · rw [if_neg fun hboth ↦ hidle hboth.2, if_neg fun hboth ↦ hidle (hlate.mp hboth)]
    exact h

theorem switch_lastArrival (d : SimParser) (b : UInt8) :
    (d.switch b).1.lastArrival = d.lastArrival := by
  unfold SimParser.switch
  cases d.state with
  | tag => unfold SimParser.onTag; dsimp only; split_ifs <;> rfl
  | setWindow => unfold SimParser.onSetWindow; dsimp only; split_ifs <;> rfl
  | lenHi => unfold SimParser.onLenHi; dsimp only; split_ifs <;> rfl
  | config => unfold SimParser.onConfig; dsimp only; split_ifs <;> rfl
  | payload => unfold SimParser.onPayload; dsimp only; split_ifs <;> rfl
  | scanBody => unfold SimParser.onScanBody; dsimp only; split_ifs <;> rfl
  | txMagic => rfl
  | lenLo => rfl
  | scanCount => rfl

theorem simStep_lastArrival (d : SimParser) (a : Arrival) :
    (simStep d a).1.lastArrival = a.now := by
  unfold simStep SimParser.parse Arrival.poll
  exact switch_lastArrival _ _

theorem idleResync_winBody (d : SimParser) (now : ℕ) :
    (d.idleResync now).winBody = d.winBody := by
  unfold SimParser.idleResync
  split_ifs <;> rfl

/-- Twins whose clocks agree inside a frame. -/
structure InStep (x : SimParser × ClockedParser) : Prop where
  twins : Twins x.1 x.2.parser
  clock : x.1.state ≠ .tag → x.2.lastArrivalMs = .ofNat x.1.lastArrival

def Onward (x : SimParser × ClockedParser) (a : Arrival) : Prop :=
  x.1.state ≠ .tag → x.1.lastArrival ≤ a.now

theorem InStep.step {x : SimParser × ClockedParser} {a : Arrival} (h : InStep x)
    (hclear : StaysClear x a) (honward : Onward x a) :
    InStep (beside simStep serveStep x a).1 ∧
      (simStep x.1 a).2 = (serveStep x.2 a).2.filterMap Command.simCall? := by
  obtain ⟨hgap, hdrain, hwindow⟩ := hclear
  have htwins := idleResync_twins h.twins (fun hbusy ↦ ⟨h.clock hbusy, honward hbusy⟩) hgap
  have hread : Twins { x.1.idleResync a.now with lastArrival := a.now }
      (idleResync x.2 (.ofNat a.now)).parser := ⟨htwins.state, htwins.skip, htwins.frame⟩
  obtain ⟨hnext, hcalls⟩ := consume_twins hread hdrain fun hidle hW ↦
    (idleResync_winBody x.1 a.now).trans (hwindow hidle hW)
  refine ⟨⟨hnext, fun _ ↦ ?_⟩, hcalls⟩
  exact congrArg UInt32.ofNat (simStep_lastArrival x.1 a).symm

end

/-! ## Whole runs -/

theorem along_onward {x : SimParser × ClockedParser} {arrivals : List Arrival}
    (hsorted : arrivals.Pairwise fun a b ↦ a.now ≤ b.now)
    (hx : ∀ a ∈ arrivals, Onward x a) : Along (beside simStep serveStep) Onward x arrivals := by
  induction arrivals generalizing x with
  | nil => trivial
  | cons a arrivals ih =>
      obtain ⟨hfirst, hrest⟩ := List.pairwise_cons.mp hsorted
      refine ⟨hx a List.mem_cons_self, ih hrest fun b hb _ ↦ ?_⟩
      exact (simStep_lastArrival x.1 a).trans_le (hfirst b hb)

/-- A look at the clock that finds no byte does what the next look does anyway. -/
theorem idleResync_idleResync (d : SimParser) {t now : ℕ} (ht : t ≤ now) :
    (d.idleResync t).idleResync now = d.idleResync now := by
  unfold SimParser.idleResync
  by_cases hlate : d.state ≠ .tag ∧ t - d.lastArrival > 100
  · have hlate' : d.state ≠ .tag ∧ now - d.lastArrival > 100 := ⟨hlate.1, by omega⟩
    rw [if_pos hlate, if_pos hlate']
    exact if_neg fun hboth ↦ hboth.1 rfl
  · rw [if_neg hlate]

theorem run_idleResync (d : SimParser) {t : ℕ} {polls : List SimPoll}
    (ht : ∀ p ∈ polls, t ≤ p.now) :
    (run SimParser.parse (d.idleResync t) polls).2 = (run SimParser.parse d polls).2 := by
  cases polls with
  | nil => rfl
  | cons p polls =>
      have hp : SimParser.parse (d.idleResync t) p = SimParser.parse d p := by
        unfold SimParser.parse
        rw [idleResync_idleResync d (ht p List.mem_cons_self)]
      rw [run_cons, run_cons, hp]

/-- Turns without a byte change nothing of what is recognised. -/
theorem run_parse_filter (d : SimParser) {polls : List SimPoll}
    (hsorted : polls.Pairwise fun p q ↦ p.now ≤ q.now) :
    (run SimParser.parse d polls).2 =
      (run SimParser.parse d (polls.filter (·.read ≠ .nothing))).2 := by
  induction polls generalizing d with
  | nil => rfl
  | cons p polls ih =>
      obtain ⟨hfirst, hrest⟩ := List.pairwise_cons.mp hsorted
      by_cases hread : p.read = .nothing
      · have hsilent : SimParser.parse d p = (d.idleResync p.now, []) := by
          unfold SimParser.parse
          rw [hread]
        rw [List.filter_cons_of_neg (by simpa using hread), run_cons, hsilent, List.nil_append,
          ih _ hrest]
        exact run_idleResync d fun q hq ↦ hfirst q (List.mem_of_mem_filter hq)
      · rw [List.filter_cons_of_pos (by simpa using hread), run_cons, run_cons, ih _ hrest]

theorem run_receive_arrivals {c : ClockedParser} {reads : List RxByte} {arrivals : List Arrival}
    (h : reads.map (fun r ↦ (r.byte, r.now)) =
      arrivals.map fun a ↦ (a.byte, UInt32.ofNat a.now)) :
    run receive c reads = run serveStep c arrivals := by
  induction reads generalizing c arrivals with
  | nil =>
      rw [List.map_eq_nil_iff.mp h.symm]
      rfl
  | cons r reads ih =>
      cases arrivals with
      | nil => cases h
      | cons a arrivals =>
          obtain ⟨hhead, htail⟩ := List.cons_eq_cons.mp h
          obtain ⟨hbyte, hnow⟩ := Prod.mk.inj hhead
          have hstep : receive c r = serveStep c a := by
            unfold serveStep receive Arrival.read
            rw [hbyte, hnow]
          rw [run_cons, run_cons, hstep, ih htail]

/-- Both parsers, started between two frames, recognise the same commands in
the same order, however the bytes fall into turns of the simulator's loop and
polls of the service. -/
theorem sim_agrees (d : SimParser) (s : SerialServer) (polls : List SimPoll)
    (served : List PollInput) (arrivals : List Arrival) (hd : d.state = .tag)
    (hs : Idle s.parser) (hconn : s.connected)
    (hopen : ∀ io ∈ served, ∃ now, io.last = .empty now)
    (hsorted : polls.Pairwise fun p q ↦ p.now ≤ q.now)
    (hpolls : polls.filter (·.read ≠ .nothing) = arrivals.map Arrival.poll)
    (hreads : (served.flatMap (·.reads)).map (fun r ↦ (r.byte, r.now)) =
      arrivals.map fun a ↦ (a.byte, UInt32.ofNat a.now))
    (hclear : Along (beside simStep serveStep) StaysClear (d, s.toClockedParser) arrivals) :
    (run SimParser.parse d polls).2 =
      ((run pollOnce s served).2.filterMap ServerEvent.command?).filterMap Command.simCall? := by
  have hbytes : (run SimParser.parse d polls).2 = (run simStep d arrivals).2 := by
    rw [run_parse_filter d hsorted, hpolls]
    exact congrArg Prod.snd (run_map SimParser.parse Arrival.poll d arrivals)
  have harrivals : arrivals.Pairwise fun a b ↦ a.now ≤ b.now := by
    have hmapped : (arrivals.map Arrival.poll).Pairwise fun p q ↦ p.now ≤ q.now :=
      hpolls ▸ hsorted.filter _
    exact (List.pairwise_map (f := Arrival.poll)).mp hmapped
  have hstart : InStep (d, s.toClockedParser) :=
    ⟨.between hd hs.1, fun hbusy ↦ absurd hd hbusy⟩
  have honward := along_onward (x := (d, s.toClockedParser)) harrivals
    fun _ _ hbusy ↦ absurd hd hbusy
  rw [hbytes, (run_pollOnce hconn hopen).2, run_receive_arrivals hreads]
  refine Along.outputs_eq (Along.of_invariant (I := InStep)
    (fun x a hx hc ↦ (hx.step hc.1 hc.2).1) (fun x a hx hc ↦ (hx.step hc.1 hc.2).2) hstart
    (Along_and.mpr ⟨hclear, honward⟩))

/-- A `T` frame cut by a silence behind its magic, and a stats request. -/
theorem sim_agrees_cut :
    (run SimParser.parse {} [⟨0, .byte tagT 0⟩, ⟨7, .byte tagX 7⟩, ⟨57, .nothing⟩,
      ⟨107, .nothing⟩, ⟨108, .byte tagS 108⟩]).2 =
    ((run pollOnce {} [{ reads := [⟨tagT, 0, 0, 0⟩], last := .empty 1 },
      { reads := [⟨tagX, 7, 7, 7⟩, ⟨tagS, 108, 109, 109⟩], last := .empty 110 }]).2.filterMap
        ServerEvent.command?).filterMap Command.simCall? :=
  sim_agrees {} {} _ _ [⟨tagT, 0⟩, ⟨tagX, 7⟩, ⟨tagS, 108⟩] rfl ⟨rfl, rfl⟩ rfl
    (by simp) (by simp) rfl rfl ⟨by decide, by decide, by decide, trivial⟩

/-- The bytes, each with the time at which both read it: what the simulator
recognises, and what the service does. -/
def recognised (arrivals : List Arrival) : List SimCall × List SimCall :=
  ((run SimParser.parse {} (arrivals.map Arrival.poll)).2,
    ((run pollOnce {} [{ reads := arrivals.map Arrival.read, last := .empty 0 }]).2.filterMap
      ServerEvent.command?).filterMap Command.simCall?)

/-- An `S` behind a refused `T` frame; a `W` cut behind one byte of its body, and
another with seven; an `S` inside a `C` frame, 2^32 ms later. -/
theorem sim_disagrees :
    recognised [⟨tagT, 0⟩, ⟨tagX, 0⟩, ⟨0x01, 0⟩, ⟨0x60, 0⟩, ⟨tagS, 1⟩] =
        ([.error 0x02 "bad tx len", .statsFrame], [.error 0x02 "bad tx len"]) ∧
      recognised [⟨tagW, 0⟩, ⟨0, 0⟩, ⟨tagW, 101⟩, ⟨1, 101⟩, ⟨2, 101⟩, ⟨3, 101⟩, ⟨4, 101⟩,
        ⟨5, 101⟩, ⟨6, 101⟩, ⟨7, 101⟩] = ([.ready], []) ∧
      recognised [⟨tagC, 0⟩, ⟨tagS, 4294967296⟩] = ([.statsFrame], []) :=
  ⟨by decide +kernel, by decide +kernel, by decide +kernel⟩

end RadioService.Serial
