import RadioService.RxDelivery
import RadioService.ScanRun

/-!
# The tally of a channel

While a scan is under way the receive loop counts what it reads: packets,
consensus frames and the best signal strength.  The counters hold what a list of
packets amounts to, and the loop adds to the list the packets that it reads.
-/

namespace RadioService

open Burst Traced

/-! ## Signal strengths -/

theorem rssiOf_range (avg low : UInt8) :
    -255 ≤ (rssiOf avg low).toInt ∧ (rssiOf avg low).toInt ≤ 0 := by
  have hlow : (low &&& 1).toNat ≤ 1 := by
    rw [UInt8.toNat_and]
    exact Nat.and_le_right
  have havg := avg.toNat_lt
  unfold rssiOf
  generalize (low &&& 1).toNat = bit at hlow
  have htrunc : Int.tdiv (-((2 * avg.toNat + bit : ℕ) : ℤ)) 2 =
      -((2 * avg.toNat + bit) / 2 : ℕ) := by
    rw [Int.neg_tdiv]
    norm_cast
  rw [htrunc, Int16.toInt_ofInt_of_le (by omega) (by omega)]
  omega

/-- A signal strength as the status bytes of the chip give it. -/
def RssiInRange (q : Packet × Int16) : Prop := -255 ≤ q.2.toInt ∧ q.2.toInt ≤ 0

abbrev ReadsInRange {α : Type} (m : Work α) : Prop :=
  Frame (fun _ : RadioWorker ↦ ()) (fun _ e ↦ ∀ q ∈ e.read?, RssiInRange q) m

theorem rxLoop_readsInRange (is : List RxStep) (l : RxLocals) : ReadsInRange (rxLoop is l) := by
  have hread : ∀ pkt avg low st,
      ReadsInRange (radioCall (.readData pkt (rssiOf avg low) st) : Work Unit) := by
    refine fun pkt avg low st ↦ Frame.issue fun _ q hq ↦ ?_
    rw [Option.mem_def, Effect.read?, Option.ite_none_right_eq_some] at hq
    obtain ⟨-, heq⟩ := hq
    cases heq
    exact rssiOf_range avg low
  have hdeaf : ∀ e : Effect, e.deaf = true → ∀ q ∈ e.read?, RssiInRange q := by
    intro e he q hq
    rw [Effect.read?_of_deaf he] at hq
    cases hq
  have hrules : RxRules fun m ↦ ReadsInRange m :=
    { pure := Frame.pure
      bind := Frame.bind
      ask := fun {op} hop ↦ Frame.issue fun _ ↦ hdeaf _ <| by
        cases op <;> first | rfl | cases hop
      arm := Frame.comp (f := fun w : RadioWorker ↦ (w.toSettings, w.txQ)) (fun _ ↦ ())
        (fun _ ↦ hdeaf) (Moves.armReceive (k := Effect.deaf) rfl)
      count := fun _ ↦ Frame.update fun _ ↦ rfl
      read := fun _ _ _ ↦ (hread _ _ _ _).bind fun _ ↦ Frame.update fun _ ↦ rfl
      fail := fun _ _ _ _ _ ↦ hread _ _ _ _
      deliver := fun ps ↦ Frame.issueAll fun e he _ ↦ by
        obtain ⟨p, -, rfl⟩ := List.mem_map.mp he
        exact fun _ hq ↦ by cases hq }
  exact hrules.rxLoop is l

/-! ## Counting -/

theorem Effect.read?_of_tallies {e : Effect} (h : e.tallies = false) : e.read? = none := by
  unfold Effect.read?
  split
  · cases h
  · rfl

/-- The best of the signal strengths, and of -128. -/
def bestOf (ps : List (Packet × Int16)) : ℤ := ps.foldl (fun best q ↦ max best q.2.toInt) (-128)

theorem bestOf_append (ps : List (Packet × Int16)) (q : Packet × Int16) :
    bestOf (ps ++ [q]) = max (bestOf ps) q.2.toInt := by
  simp [bestOf]

theorem bestOf_range {ps : List (Packet × Int16)} (hps : ∀ q ∈ ps, RssiInRange q) :
    -128 ≤ bestOf ps ∧ bestOf ps ≤ 0 := by
  induction ps using List.reverseRecOn with
  | nil => decide
  | append_singleton ps q ih =>
      obtain ⟨hlow, hhigh⟩ := ih fun q hq ↦ hps q (List.mem_append_left _ hq)
      have hq := (hps q (by simp)).2
      rw [bestOf_append]
      exact ⟨le_max_of_le_left hlow, max_le hhigh hq⟩

/-- A consensus frame, as the scan counts it. -/
def isConsensus (q : Packet × Int16) : Bool := isConsensusPrefix q.1.bytes

def tallyOf (ps : List (Packet × Int16)) : UInt32 × UInt32 × Int8 :=
  (UInt32.ofNat ps.length, UInt32.ofNat (ps.countP isConsensus), Int8.ofInt (bestOf ps))

/-- The counters behind one more packet of a scan. -/
def tallied (t : UInt32 × UInt32 × Int8) (q : Packet × Int16) : UInt32 × UInt32 × Int8 :=
  (t.1 + 1, if isConsensus q then t.2.1 + 1 else t.2.1,
    if q.2.toInt > t.2.2.toInt then q.2.toInt8 else t.2.2)

/-- In range the narrow counter of the signal strength loses nothing. -/
theorem toInt_bestOf {ps : List (Packet × Int16)} (hps : ∀ q ∈ ps, RssiInRange q) :
    (Int8.ofInt (bestOf ps)).toInt = bestOf ps := by
  obtain ⟨hlow, hhigh⟩ := bestOf_range hps
  exact Int8.toInt_ofInt_of_le (by omega) (by omega)

theorem tallyOf_append {ps : List (Packet × Int16)} {q : Packet × Int16}
    (hps : ∀ q ∈ ps, RssiInRange q) (hq : RssiInRange q) :
    tallyOf (ps ++ [q]) = tallied (tallyOf ps) q := by
  obtain ⟨hlow, -⟩ := bestOf_range hps
  have hbest := toInt_bestOf hps
  obtain ⟨-, hneg⟩ := hq
  refine Prod.ext ?_ (Prod.ext ?_ ?_)
  · simp [tallyOf, tallied]
  · by_cases hcons : isConsensus q <;> simp [tallyOf, tallied, hcons]
  · simp only [tallyOf, tallied, bestOf_append, hbest]
    split
    · rename_i hgt
      have hnarrow : q.2.toInt8.toInt = q.2.toInt := by
        rw [Int16.toInt_toInt8, Int.bmod_eq_of_le (by omega) (by omega)]
      rw [max_eq_right (le_of_lt hgt), ← hnarrow, Int8.ofInt_toInt]
    · rename_i hle
      rw [max_eq_left (not_lt.mp hle)]

theorem foldl_tallied {ps qs : List (Packet × Int16)} (hps : ∀ q ∈ ps, RssiInRange q)
    (hqs : ∀ q ∈ qs, RssiInRange q) :
    qs.foldl tallied (tallyOf ps) = tallyOf (ps ++ qs) := by
  induction qs generalizing ps with
  | nil => rw [List.append_nil, List.foldl_nil]
  | cons q qs ih =>
      obtain ⟨hq, hqs⟩ := List.forall_mem_cons.mp hqs
      have hps' : ∀ a ∈ ps ++ [q], RssiInRange a := by
        intro a ha
        rcases List.mem_append.mp ha with ha | ha
        · exact hps a ha
        · exact List.mem_singleton.mp ha ▸ hq
      rw [List.foldl_cons, ← tallyOf_append hps hq, ih hps' hqs, List.append_assoc]
      rfl

/-! ## The receive loop -/

/-- What a scan sees of an effect. -/
def scanHears (s : Bool × UInt32 × UInt32 × Int8) (e : Effect) :
    Bool × UInt32 × UInt32 × Int8 :=
  match e.read? with
  | some q => if s.1 then (s.1, tallied s.2 q) else s
  | none => s

theorem rxLoop_follows (is : List RxStep) (l : RxLocals) :
    Follows (fun w : RadioWorker ↦ (w.scanActive, w.tally)) scanHears (rxLoop is l) := by
  have hrules : RxRules fun m ↦
      Follows (fun w : RadioWorker ↦ (w.scanActive, w.tally)) scanHears m :=
    { pure := Follows.pure
      bind := Follows.bind
      ask := fun {op} hop ↦ Follows.issue fun _ ↦ by cases op <;> first | rfl | cases hop
      arm := Follows.read.bind fun _ ↦ (Follows.pure ()).ite <|
        Follows.bind (Follows.signal fun _ ↦ rfl) fun _ ↦ Follows.update fun _ ↦ rfl
      count := fun hu ↦ Follows.update fun w ↦ by
        obtain ⟨st, hw⟩ := hu w
        rw [hw]
        rfl
      read := fun pkt avg low ↦ Follows.signal fun w ↦ by
        cases hactive : w.scanActive <;> by_cases hcons : isConsensusPrefix pkt.bytes = true <;>
          simp [scanHears, Effect.read?, countRead, tallied, RadioWorker.tally, isConsensus,
            hactive, hcons]
      fail := fun _ _ _ _ hst ↦ Follows.issue fun _ ↦ by
        simp [scanHears, Effect.read?, hst]
      deliver := fun ps ↦ Follows.issueAll fun e he _ ↦ by
        obtain ⟨p, -, rfl⟩ := List.mem_map.mp he
        rfl }
  exact hrules.rxLoop is l

theorem foldl_scanHears (es : List Effect) (t : UInt32 × UInt32 × Int8) :
    es.foldl scanHears (true, t) = (true, (es.filterMap Effect.read?).foldl tallied t) := by
  induction es generalizing t with
  | nil => rfl
  | cons e es ih =>
      rw [List.foldl_cons]
      cases he : e.read? with
      | none =>
          rw [List.filterMap_cons_none he, ← ih]
          simp [scanHears, he]
      | some q =>
          rw [List.filterMap_cons_some he, List.foldl_cons, ← ih]
          simp [scanHears, he]

end RadioService
