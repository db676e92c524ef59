import Mathlib.Data.UInt
import RadioService.Connection

/-!
# The parser forgets

Behind a silence or a new client the parser behaves as if nothing had been sent
before.  What is left over in its fields is written again before it is read: in
every state, two parsers act alike as soon as the fields that the state will
read agree.
-/

namespace RadioService.Serial

open Bytes Machine

/-! ## Parsers that act alike -/

/-- The first `n` cells agree. -/
def Agree (f g : Buffer) (n : ℕ) : Prop := ∀ i < n, f i = g i

/-- The fields that a frame under way reads agree. -/
def LiveAgree (p q : Parser) : Prop :=
  match p.state with
  | .tag | .scanCount => True
  | .txMagic | .lenLo => p.tag = q.tag
  | .lenHi => p.tag = q.tag ∧ p.frameLen = q.frameLen
  | .setWindow => p.have_ = q.have_ ∧ Agree p.windowBody q.windowBody p.have_
  | .config => p.frameLen = q.frameLen ∧ p.have_ = q.have_ ∧ Agree p.configBody q.configBody p.have_
  | .payload => p.frameLen = q.frameLen ∧ p.have_ = q.have_ ∧ Agree p.txBuf q.txBuf p.have_
  | .scanBody => p.scanCount = q.scanCount ∧ p.scanHave = q.scanHave ∧
    Agree p.qbuf q.qbuf p.scanHave.toNat

structure Alike (p q : Parser) : Prop where
  state : p.state = q.state
  skip : p.skipRemain = q.skipRemain
  live : LiveAgree p q

namespace Agree

variable {f g : Buffer} {n : ℕ}

theorem store (h : Agree f g n) (b : UInt8) : Agree (f.store n b) (g.store n b) (n + 1) := by
  intro i hi
  by_cases heq : i = n
  · rw [heq, Buffer.store, Buffer.store, Function.update_self, Function.update_self]
  · rw [Buffer.store, Buffer.store, Function.update_of_ne heq, Function.update_of_ne heq]
    exact h i (by omega)

theorem mono (h : Agree f g n) {m : ℕ} (hm : m ≤ n) : Agree f g m :=
  fun i hi ↦ h i (hi.trans_le hm)

theorem bytes (h : Agree f g n) : f.bytes n = g.bytes n :=
  List.map_congr_left fun i hi ↦ h i (List.mem_range.mp hi)

theorem word32 (h : Agree f g n) {i : ℕ} (hi : i + 4 ≤ n) : f.word32 i = g.word32 i := by
  rw [Buffer.word32, Buffer.word32, h i (by omega), h (i + 1) (by omega), h (i + 2) (by omega),
    h (i + 3) (by omega)]

end Agree

theorem Alike.of_idle {p q : Parser} (hp : Idle p) (hq : Idle q) : Alike p q := by
  obtain ⟨hstate, hskip⟩ := hp
  obtain ⟨hstate', hskip'⟩ := hq
  refine ⟨hstate.trans hstate'.symm, hskip.trans hskip'.symm, ?_⟩
  rw [LiveAgree, hstate]
  trivial

theorem Agree.zero (f g : Buffer) : Agree f g 0 := fun _ hi ↦ absurd hi (Nat.not_lt_zero _)

/-! ## The state switch -/

/-- Both steps call the same handlers and lead to parsers that act alike. -/
def StepAlike (x y : Parser × List Command) : Prop := Alike x.1 y.1 ∧ x.2 = y.2

section

variable {p q : Parser}

theorem onTag_alike (h : Alike p q) (hstate : p.state = .tag) (b : UInt8) :
    StepAlike (onTag p b) (onTag q b) := by
  have hstate' : q.state = .tag := h.state.symm.trans hstate
  have hstay : Alike { p with tag := b } { q with tag := b } := by
    refine ⟨h.state, h.skip, ?_⟩
    simp only [LiveAgree, hstate]
  unfold onTag
  dsimp only
  split_ifs
  · exact ⟨⟨rfl, h.skip, rfl⟩, rfl⟩
  · exact ⟨⟨rfl, h.skip, rfl, .zero _ _⟩, rfl⟩
  · exact ⟨⟨rfl, h.skip, rfl⟩, rfl⟩
  · exact ⟨hstay, rfl⟩
  · exact ⟨⟨rfl, h.skip, trivial⟩, rfl⟩
  · exact ⟨hstay, rfl⟩
  · exact ⟨hstay, rfl⟩

theorem onTxMagic_alike (h : Alike p q) (htag : p.tag = q.tag) (b : UInt8) :
    StepAlike (onTxMagic p b) (onTxMagic q b) := by
  unfold onTxMagic
  split_ifs
  · exact ⟨⟨rfl, h.skip, trivial⟩, rfl⟩
  · exact ⟨⟨rfl, h.skip, htag⟩, rfl⟩

theorem onSetWindow_alike (h : Alike p q) (hstate : p.state = .setWindow) (b : UInt8) :
    StepAlike (onSetWindow p b) (onSetWindow q b) := by
  have hlive := h.live
  rw [LiveAgree, hstate] at hlive
  obtain ⟨hhave, hbody⟩ := hlive
  have hstore := hbody.store b
  have hstate' : q.state = .setWindow := h.state.symm.trans hstate
  unfold onSetWindow
  dsimp only
  rw [← hhave]
  split_ifs with hfull
  · rw [hfull] at hstore
    refine ⟨⟨rfl, h.skip, trivial⟩, ?_⟩
    dsimp only
    rw [hstore.word32 (by decide), hstore.word32 (by decide)]
  · refine ⟨⟨h.state, h.skip, ?_⟩, rfl⟩
    unfold LiveAgree
    dsimp only
    rw [hstate]
    exact ⟨rfl, hstore⟩

theorem onLenHi_alike (h : Alike p q) (htag : p.tag = q.tag) (hlen : p.frameLen = q.frameLen)
    (b : UInt8) : StepAlike (onLenHi p b) (onLenHi q b) := by
  unfold onLenHi
  dsimp only
  rw [htag, hlen]
  split_ifs
  · exact ⟨⟨rfl, h.skip, trivial⟩, rfl⟩
  · exact ⟨⟨rfl, h.skip, rfl, rfl, .zero _ _⟩, rfl⟩
  · exact ⟨⟨rfl, rfl, trivial⟩, rfl⟩
  · exact ⟨⟨rfl, h.skip, rfl, rfl, .zero _ _⟩, rfl⟩
  · exact ⟨⟨rfl, h.skip, trivial⟩, rfl⟩

theorem onConfig_alike (h : Alike p q) (hstate : p.state = .config) (b : UInt8) :
    StepAlike (onConfig p b) (onConfig q b) := by
  have hlive := h.live
  rw [LiveAgree, hstate] at hlive
  obtain ⟨hlen, hhave, hbody⟩ := hlive
  have hstore := hbody.store b
  unfold onConfig
  dsimp only
  rw [← hhave, ← hlen]
  split_ifs with hfull
  · rw [hfull] at hstore
    refine ⟨⟨rfl, h.skip, trivial⟩, ?_⟩
    dsimp only
    rw [hstore.bytes]
  · refine ⟨⟨h.state, h.skip, ?_⟩, rfl⟩
    unfold LiveAgree
    dsimp only
    rw [hstate]
    exact ⟨rfl, rfl, hstore⟩

theorem onPayload_alike (h : Alike p q) (hstate : p.state = .payload) (b : UInt8) :
    StepAlike (onPayload p b) (onPayload q b) := by
  have hlive := h.live
  rw [LiveAgree, hstate] at hlive
  obtain ⟨hlen, hhave, hbody⟩ := hlive
  have hstore := hbody.store b
  unfold onPayload
  dsimp only
  rw [← hhave, ← hlen]
  split_ifs with hfull
  · rw [hfull] at hstore
    refine ⟨⟨rfl, h.skip, trivial⟩, ?_⟩
    dsimp only
    rw [hstore.bytes]
  · refine ⟨⟨h.state, h.skip, ?_⟩, rfl⟩
    unfold LiveAgree
    dsimp only
    rw [hstate]
    exact ⟨rfl, rfl, hstore⟩

theorem onScanCount_alike (h : Alike p q) (b : UInt8) :
    StepAlike (onScanCount p b) (onScanCount q b) := by
  unfold onScanCount
  split_ifs
  · exact ⟨⟨rfl, h.skip, rfl, rfl, .zero _ _⟩, rfl⟩
  · exact ⟨⟨rfl, h.skip, trivial⟩, rfl⟩

theorem onScanBody_alike (h : Alike p q) (hstate : p.state = .scanBody) (b : UInt8) :
    StepAlike (onScanBody p b) (onScanBody q b) := by
  have hlive := h.live
  rw [LiveAgree, hstate] at hlive
  obtain ⟨hcount, hhave, hbody⟩ := hlive
  have hnext : (p.scanHave + 1).toNat ≤ p.scanHave.toNat + 1 := by
    rw [UInt8.toNat_add]
    exact Nat.mod_le _ _
  have hstore := (hbody.store b).mono hnext
  unfold onScanBody
  dsimp only
  rw [← hhave, ← hcount]
  split_ifs with hfull
  · rw [hfull] at hstore
    refine ⟨⟨rfl, h.skip, trivial⟩, ?_⟩
    have hfreqs : (List.range p.scanCount.toNat).map (fun i ↦
        (p.qbuf.store p.scanHave.toNat b).word32 (4 + i * 4)) =
          (List.range p.scanCount.toNat).map fun i ↦
            (q.qbuf.store p.scanHave.toNat b).word32 (4 + i * 4) := by
      refine List.map_congr_left fun i hi ↦ hstore.word32 ?_
      have hin := List.mem_range.mp hi
      omega
    dsimp only
    rw [hstore.word32 (by omega), hfreqs]
  · refine ⟨⟨h.state, h.skip, ?_⟩, rfl⟩
    unfold LiveAgree
    dsimp only
    rw [hstate]
    exact ⟨rfl, rfl, hstore⟩

theorem consume_alike (h : Alike p q) (b : UInt8) : StepAlike (consume p b) (consume q b) := by
  unfold consume
  rw [← h.skip]
  split_ifs
  · refine ⟨⟨h.state, rfl, ?_⟩, rfl⟩
    exact h.live
  unfold switch
  rw [← h.state]
  have hlive := h.live
  cases hstate : p.state with
  | tag => exact onTag_alike h hstate b
  | txMagic =>
      rw [LiveAgree, hstate] at hlive
      exact onTxMagic_alike h hlive b
  | setWindow => exact onSetWindow_alike h hstate b
  | lenLo =>
      rw [LiveAgree, hstate] at hlive
      exact ⟨⟨rfl, h.skip, hlive, rfl⟩, rfl⟩
  | lenHi =>
      rw [LiveAgree, hstate] at hlive
      exact onLenHi_alike h hlive.1 hlive.2 b
  | config => exact onConfig_alike h hstate b
  | payload => exact onPayload_alike h hstate b
  | scanCount => exact onScanCount_alike h b
  | scanBody => exact onScanBody_alike h hstate b

end

/-! ## The same events at another time -/

/-- The byte, read when the clock is ahead by `start`. -/
def RxByte.delayed (start : UInt32) (r : RxByte) : RxByte where
  byte := r.byte
  now := start + r.now
  forceNow := start + r.forceNow
  tickNow := start + r.tickNow

def ServerOp.delayed (start : UInt32) : ServerOp → ServerOp
  | .accept now => .accept (start + now)
  | .byte r => .byte (r.delayed start)
  | .empty now => .empty (start + now)
  | .close => .close

def ServerOp.byte? : ServerOp → Option RxByte
  | .byte r => some r
  | _ => none

def firstByte (ops : List ServerOp) : Option RxByte := (ops.filterMap ServerOp.byte?).head?

/-- A session is over and these events follow, by a clock that starts at `start`:
the first byte comes after a silence of `d` ms (which matters inside a frame
only), or there is a new client. -/
inductive Separated (s : SerialServer) (start : UInt32) (ops : List ServerOp) :
    SerialServer → Prop
  | silence {d : ℕ} (hconn : s.connected = true) (hd : 100 < d) (hd' : d < 2 ^ 32)
      (hfirst : busy s.parser = true →
        ∀ r ∈ firstByte ops, start + r.now = s.lastArrivalMs + .ofNat d) :
      Separated s start ops s
  | client (now : UInt32) (htcp : s.isTcp = true) :
      Separated s start ops (run serverStep s [.close, .accept now]).1

/-- At the next byte both parsers act alike, once each has looked at its clock. -/
structure Aligned (start₁ start₂ : UInt32) (ops : List ServerOp) (s t : SerialServer) : Prop where
  isTcp : s.isTcp = t.isTcp
  connected : s.connected = t.connected
  next : s.connected = true → ∀ r ∈ firstByte ops,
    Alike (idleResync s.toClockedParser (start₁ + r.now)).parser
      (idleResync t.toClockedParser (start₂ + r.now)).parser

theorem idle_of_late {c : ClockedParser} {now : UInt32} (h : now - c.lastArrivalMs > 100) :
    Idle (idleResync c now).parser := by
  unfold idleResync
  split
  · exact ⟨rfl, rfl⟩
  · next hstay =>
      rw [resyncs, decide_eq_true h, Bool.and_true, Bool.not_eq_true] at hstay
      exact busy_eq_false.mp hstay

theorem idle_of_idle {c : ClockedParser} {now : UInt32} (h : Idle c.parser) :
    Idle (idleResync c now).parser := by
  have hstay : idleResync c now = c := by
    simp [idleResync, resyncs, busy_eq_false.mpr h]
  rw [hstay]
  exact h

theorem Separated.idle {s t : SerialServer} {start : UInt32} {ops : List ServerOp}
    (h : Separated s start ops t) :
    t.isTcp = s.isTcp ∧ t.connected = true ∧
      ∀ r ∈ firstByte ops, Idle (idleResync t.toClockedParser (start + r.now)).parser := by
  cases h with
  | @silence d hconn hd hd' hfirst =>
      refine ⟨rfl, hconn, fun r hr ↦ ?_⟩
      cases hbusy : busy s.parser
      · exact idle_of_idle (busy_eq_false.mp hbusy)
      refine idle_of_late ?_
      rw [hfirst hbusy r hr, UInt32.add_comm, UInt32.add_sub_cancel, gt_iff_lt,
        UInt32.lt_iff_toNat_lt, UInt32.toNat_ofNat', Nat.mod_eq_of_lt hd']
      exact hd
  | client now htcp =>
      have hstep : (run serverStep s [.close, .accept now]).1 =
          acceptClient { s with connected := false } now := by
        simp [serverStep, htcp]
      rw [hstep]
      exact ⟨rfl, rfl, fun r _ ↦ idle_of_idle ⟨rfl, rfl⟩⟩

theorem busy_alike {p q : Parser} (h : Alike p q) : busy p = busy q := by
  rw [busy, busy, h.state, h.skip]

theorem idleResync_alike {c d : ClockedParser} {now now' : UInt32} (h : Alike c.parser d.parser)
    (hgap : now - c.lastArrivalMs = now' - d.lastArrivalMs) :
    Alike (idleResync c now).parser (idleResync d now').parser := by
  have hresyncs : resyncs c now = resyncs d now' := by
    rw [resyncs, resyncs, busy_alike h, hgap]
  unfold idleResync
  rw [hresyncs]
  split
  · exact .of_idle ⟨rfl, rfl⟩ ⟨rfl, rfl⟩
  · exact h

theorem Aligned.step {start₁ start₂ : UInt32} {op : ServerOp} {ops : List ServerOp}
    {s t : SerialServer} (h : Aligned start₁ start₂ (op :: ops) s t) :
    Aligned start₁ start₂ ops (serverStep s (op.delayed start₁)).1
        (serverStep t (op.delayed start₂)).1 ∧
      (serverStep s (op.delayed start₁)).2.filterMap ServerEvent.command? =
        (serverStep t (op.delayed start₂)).2.filterMap ServerEvent.command? := by
  obtain ⟨htcp, hconn, hnext⟩ := h
  cases op with
  | accept now =>
      simp only [ServerOp.delayed, serverStep]
      rw [htcp, hconn]
      split
      · exact ⟨⟨htcp, rfl, fun _ r _ ↦ .of_idle (idle_of_idle ⟨rfl, rfl⟩)
          (idle_of_idle ⟨rfl, rfl⟩)⟩, rfl⟩
      · exact ⟨⟨htcp, hconn, hnext⟩, rfl⟩
  | byte r =>
      simp only [ServerOp.delayed, serverStep]
      rw [← hconn]
      split
      case isFalse hgone => exact ⟨⟨htcp, hconn, fun hopen ↦ absurd hopen hgone⟩, rfl⟩
      next hopen =>
        obtain ⟨hs, hsconn, hscalls⟩ := feed_eq_receive s (r.delayed start₁)
        obtain ⟨ht, htconn, htcalls⟩ := feed_eq_receive t (r.delayed start₂)
        obtain ⟨halike, hcalls⟩ := consume_alike (hnext hopen r rfl) r.byte
        have hparsers : Alike (receive s.toClockedParser (r.delayed start₁)).1.parser
            (receive t.toClockedParser (r.delayed start₂)).1.parser := halike
        refine ⟨⟨?_, by rw [hsconn, htconn, hconn], fun _ r' _ ↦ ?_⟩, ?_⟩
        · rw [feed_isTcp, feed_isTcp, htcp]
        · rw [hs, ht]
          -- both clocks show the same distance to the next byte
          refine idleResync_alike hparsers ?_
          change start₁ + r'.now - (start₁ + r.now) = start₂ + r'.now - (start₂ + r.now)
          rw [add_sub_add_left_eq_sub, add_sub_add_left_eq_sub]
        · rw [hscalls, htcalls]
          exact hcalls
  | empty now =>
      simp only [ServerOp.delayed, serverStep]
      rw [← hconn]
      split
      · obtain ⟨hs, hsconn, hscalls⟩ := maybeEmitStats_keeps s (start₁ + now)
        obtain ⟨ht, htconn, htcalls⟩ := maybeEmitStats_keeps t (start₂ + now)
        refine ⟨⟨?_, by rw [hsconn, htconn, hconn], fun hopen r hr ↦ ?_⟩, ?_⟩
        · rw [maybeEmitStats_isTcp, maybeEmitStats_isTcp, htcp]
        · rw [hs, ht]
          exact hnext (hsconn ▸ hopen) r hr
        · rw [hscalls, htcalls]
      · exact ⟨⟨htcp, hconn, hnext⟩, rfl⟩
  | close => exact ⟨⟨htcp, rfl, fun hopen ↦ by cases hopen⟩, rfl⟩

theorem Aligned.calls {start₁ start₂ : UInt32} {ops : List ServerOp} {s t : SerialServer}
    (h : Aligned start₁ start₂ ops s t) :
    (run serverStep s (ops.map (·.delayed start₁))).2.filterMap ServerEvent.command? =
      (run serverStep t (ops.map (·.delayed start₂))).2.filterMap ServerEvent.command? := by
  induction ops generalizing s t with
  | nil => rfl
  | cons op ops ih =>
      obtain ⟨hnext, hcalls⟩ := h.step
      simp only [List.map_cons, run_cons, List.filterMap_append]
      rw [hcalls, ih hnext]

/-- Whatever a server has been through, behind a silence of more than 100 ms or a
new client the same bytes at the same distances bring about the same calls. -/
theorem parser_forgets (s : SerialServer) (history₁ history₂ ops : List ServerOp)
    (start₁ start₂ : UInt32) {t₁ t₂ : SerialServer}
    (h₁ : Separated (run serverStep s history₁).1 start₁ ops t₁)
    (h₂ : Separated (run serverStep s history₂).1 start₂ ops t₂) :
    (run serverStep t₁ (ops.map (·.delayed start₁))).2.filterMap ServerEvent.command? =
      (run serverStep t₂ (ops.map (·.delayed start₂))).2.filterMap ServerEvent.command? := by
  obtain ⟨htcp₁, hconn₁, hidle₁⟩ := h₁.idle
  obtain ⟨htcp₂, hconn₂, hidle₂⟩ := h₂.idle
  refine Aligned.calls ⟨?_, hconn₁.trans hconn₂.symm, fun _ r hr ↦
    .of_idle (hidle₁ r hr) (hidle₂ r hr)⟩
  rw [htcp₁, htcp₂, run_serverStep_isTcp, run_serverStep_isTcp]

/-- A `T` cut off by a new client, and a `W` by a silence of 150 ms: the `X` that
follows is a reset in both. -/
theorem parser_forgets_cut :
    let s : SerialServer := { isTcp := true }
    let ops : List ServerOp := [.byte { byte := tagX, now := 0 }]
    (run serverStep (run serverStep (run serverStep s [.byte { byte := tagT, now := 7 }]).1
        [.close, .accept 9]).1 (ops.map (·.delayed 10))).2.filterMap ServerEvent.command? =
      (run serverStep (run serverStep s [.byte { byte := tagW, now := 0 }]).1
        (ops.map (·.delayed 150))).2.filterMap ServerEvent.command? :=
  parser_forgets { isTcp := true } [.byte { byte := tagT, now := 7 }]
    [.byte { byte := tagW, now := 0 }] [.byte { byte := tagX, now := 0 }] 10 150 (.client 9 rfl)
    (.silence (d := 150) rfl (by decide) (by decide) fun _ r hr ↦ by cases hr; rfl)

end RadioService.Serial
