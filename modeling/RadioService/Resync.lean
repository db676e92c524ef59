import RadioService.BufferSafety

/-!
# What is skipped of a killed frame

A frame that stays idle for too long is killed, and the rest of it should be
discarded before the parser looks for a tag again.  The parser looks for a tag
at once; the two agree only where nothing is left to discard.
-/

namespace RadioService.Serial

open Bytes Machine

/-! ## The documented rule -/

/-- How many bytes a frame has by the rules for a kill. -/
def expected (p : Parser) : ℕ :=
  match p.state with
  | .payload => p.frameLen.toNat
  | .config => 15
  | .setWindow => 8
  | _ => 0

/-- A byte more than 100 ms late kills the frame; it and what follows it without
another gap are discarded up to the expected length, and the byte behind that
is a tag. -/
def ResyncDocumented (c : ClockedParser) : Prop :=
  ∀ late rest, late.now - c.lastArrivalMs > 100 →
    (late :: rest).IsChain (fun a b ↦ b.now - a.now ≤ 100) →
    let skipped := (late :: rest).take (expected c.parser - c.parser.have_)
    (receive c late).1.parserFramesKilled = c.parserFramesKilled + 1 ∧
      (run receive c skipped).2 = [] ∧ (run tagReads c skipped).2 = [] ∧
      ∀ b ∈ (late :: rest)[expected c.parser - c.parser.have_]?,
        (tagReads (run receive c skipped).1 b).2 = [b.byte]

def Collecting (p : Parser) : Prop :=
  p.state = .payload ∨ p.state = .config ∨ p.state = .setWindow

/-- A late byte is a tag, whatever it belongs to. -/
theorem late_is_tag {c : ClockedParser} (hcollecting : Collecting c.parser) {late : RxByte}
    (hlate : late.now - c.lastArrivalMs > 100) :
    (receive c late).1.parserFramesKilled = c.parserFramesKilled + 1 ∧
      (tagReads c late).2 = [late.byte] := by
  have hbusy : busy c.parser = true := by
    rcases hcollecting with h | h | h <;> simp [busy, h]
  have hcounted : killCounted c.parser.state = true := by
    rcases hcollecting with h | h | h <;> simp [killCounted, h]
  have hresync : resyncs c late.now = true := by
    rw [resyncs, hbusy, Bool.true_and, decide_eq_true hlate]
  have hidle : Idle (idleResync c late.now).parser := by
    rw [idleResync, if_pos hresync]
    exact ⟨rfl, rfl⟩
  refine ⟨?_, if_pos hidle⟩
  simp [receive, idleResync, hresync, hcounted]

/-- In the frames that can be under way, the rule is kept exactly where nothing
is left to discard: with at least 15 bytes of a CONFIG of 17. -/
theorem resync_documented_iff (s₀ : SerialServer) (ops : List ServerOp) (hnew : s₀.parser = {}) :
    let c := (run serverStep s₀ ops).1.toClockedParser
    Collecting c.parser →
      (ResyncDocumented c ↔ c.parser.state = .config ∧ 15 ≤ c.parser.have_) := by
  intro c hcollecting
  have hstart : UnderWay s₀.parser [] := .between [] (hnew ▸ rfl)
  have hopen : BufferSafe c.parser := (hstart.run ops).bufferSafe
  constructor
  · intro hdoc
    -- a late byte on its own is a tag, so nothing may be left to discard
    let late : RxByte := { byte := 0, now := c.lastArrivalMs + 101 }
    have hlate : late.now - c.lastArrivalMs > 100 := by
      change c.lastArrivalMs + 101 - c.lastArrivalMs > 100
      rw [UInt32.add_comm, UInt32.add_sub_cancel]
      decide
    obtain ⟨-, -, htags, -⟩ := hdoc late [] hlate (List.isChain_singleton _)
    have hnone : expected c.parser - c.parser.have_ = 0 := by
      by_contra hsome
      rw [List.take_of_length_le (Nat.pos_of_ne_zero hsome)] at htags
      have htag := (late_is_tag hcollecting hlate).2
      rw [run_cons, htag] at htags
      cases htags
    rcases hcollecting with h | h | h
    · have hmore := (hopen.payload h).2
      rw [expected, h] at hnone
      simp only at hnone
      omega
    · rw [expected, h] at hnone
      simp only at hnone
      exact ⟨h, by omega⟩
    · have hmore := hopen.setWindow h
      rw [expected, h] at hnone
      simp only at hnone
      omega
  · rintro ⟨hconfig, hmost⟩ late rest hlate -
    have hnone : expected c.parser - c.parser.have_ = 0 := by
      rw [expected, hconfig]
      simp only
      omega
    obtain ⟨hkilled, htag⟩ := late_is_tag hcollecting hlate
    rw [hnone]
    refine ⟨hkilled, rfl, rfl, fun b hb ↦ ?_⟩
    cases hb
    exact htag

/-- The head of a CONFIG of 17 bytes and 15 bytes of its body, read at once. -/
def configCut : List ServerOp :=
  ([tagC, 17, 0] ++ List.replicate 15 0).map fun b ↦ .byte { byte := b, now := 0 }

/-- A CONFIG of 17 bytes that is killed two bytes before its end. -/
theorem resync_documented_config :
    ResyncDocumented (run serverStep {} configCut).1.toClockedParser := by
  have hstate : (run serverStep {} configCut).1.parser.state = .config := by decide +kernel
  have hhave : 15 ≤ (run serverStep {} configCut).1.parser.have_ := by decide +kernel
  exact (resync_documented_iff {} configCut rfl (.inr (.inl hstate))).mpr ⟨hstate, hhave⟩

/-- Behind the first byte of a `W` body, a byte that is 101 ms late is executed as
a stats request, where seven bytes should be discarded. -/
theorem killed_window_executed :
    let ops : List ServerOp := [.byte { byte := tagW, now := 0 }, .byte { byte := 1, now := 0 }]
    let c := (run serverStep {} ops).1.toClockedParser
    c.parser.state = .setWindow ∧ expected c.parser - c.parser.have_ = 7 ∧
      (receive c { byte := tagS, now := 101 }).2 = [.forceStats] ∧ ¬ResyncDocumented c := by
  intro ops c
  have hlate : (receive c { byte := tagS, now := 101 }).2 = [.forceStats] := by decide
  refine ⟨by decide, by decide, hlate, fun hdoc ↦ ?_⟩
  obtain ⟨-, hnothing, -, -⟩ := hdoc { byte := tagS, now := 101 } [] (by decide)
    (List.isChain_singleton _)
  have hskipped : [({ byte := tagS, now := 101 } : RxByte)].take
      (expected c.parser - c.parser.have_) = [{ byte := tagS, now := 101 }] := by decide
  rw [hskipped, run_cons, hlate] at hnothing
  cases hnothing

end RadioService.Serial
