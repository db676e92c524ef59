import RadioService.Connection

/-!
# What the parser writes, and what its handlers see

The parser's four arrays are filled by counters that several states share.  The
bytes of the frame under way say in which state the parser is and how far the
counter of that state has come: so no write leaves its array, and the body of a
frame is handed on with the bytes that were read since its tag, and no others.
-/

namespace RadioService.Serial

open Burst Bytes Machine

/-! ## The four arrays -/

inductive Area where
  | windowBody
  | configBody
  | txBuf
  | qbuf
deriving DecidableEq

namespace Area

def size : Area → ℕ
  | windowBody => 8
  | configBody => 17
  | txBuf => kMaxTotalPayload.toNat
  | qbuf => 4 + 16 * 4

def cells : Area → Parser → Buffer
  | windowBody, p => p.windowBody
  | configBody, p => p.configBody
  | txBuf, p => p.txBuf
  | qbuf, p => p.qbuf

end Area

/-- The cell that the next byte is stored in. -/
def storedIn (p : Parser) : Option (Area × ℕ) :=
  if p.skipRemain > 0 then
    none
  else
    match p.state with
    | .setWindow => some (.windowBody, p.have_)
    | .config => some (.configBody, p.have_)
    | .payload => some (.txBuf, p.have_)
    | .scanBody => some (.qbuf, p.scanHave.toNat)
    | _ => none

theorem cells_onTag (a : Area) (p : Parser) (b : UInt8) :
    a.cells (onTag p b).1 = a.cells p := by
  unfold onTag
  dsimp only
  split_ifs <;> cases a <;> rfl

theorem cells_onLenHi (a : Area) (p : Parser) (b : UInt8) :
    a.cells (onLenHi p b).1 = a.cells p := by
  unfold onLenHi
  dsimp only
  split_ifs <;> cases a <;> rfl

/-- A byte is stored in that cell, and no other cell of the arrays changes. -/
theorem cells_consume (a : Area) (p : Parser) (b : UInt8) :
    a.cells (consume p b).1 =
      match storedIn p with
      | some (a', i) => if a' = a then (a.cells p).store i b else a.cells p
      | none => a.cells p := by
  unfold consume storedIn
  split
  · cases a <;> rfl
  · unfold switch
    cases p.state with
    | tag => exact cells_onTag a p b
    | txMagic => cases a <;> rfl
    | setWindow =>
        unfold onSetWindow
        dsimp only
        split_ifs <;> cases a <;> simp_all [Area.cells]
    | lenLo => cases a <;> rfl
    | lenHi => exact cells_onLenHi a p b
    | config =>
        unfold onConfig
        dsimp only
        split_ifs <;> cases a <;> simp_all [Area.cells]
    | payload =>
        unfold onPayload
        dsimp only
        split_ifs <;> cases a <;> simp_all [Area.cells]
    | scanCount => cases a <;> rfl
    | scanBody =>
        unfold onScanBody
        dsimp only
        split_ifs <;> cases a <;> simp_all [Area.cells]

/-! ## The frame under way -/

/-- The bytes in front of the length of a frame that has one. -/
def head (tag : UInt8) : List UInt8 := if tag = tagT then [tagT, tagX] else [tag]

/-- The bytes of the frame that is under way, from its tag on. -/
inductive UnderWay (p : Parser) : List UInt8 → Prop
  /-- Whatever was read before, nothing is under way. -/
  | between (frame : List UInt8) (hstate : p.state = .tag) : UnderWay p frame
  | txMagic (hstate : p.state = .txMagic) (hskip : p.skipRemain = 0) (htag : p.tag = tagT) :
    UnderWay p [tagT]
  | lenLo (hstate : p.state = .lenLo) (hskip : p.skipRemain = 0)
    (htag : p.tag = tagT ∨ p.tag = tagC) : UnderWay p (head p.tag)
  | lenHi (lo : UInt8) (hstate : p.state = .lenHi) (hskip : p.skipRemain = 0)
    (htag : p.tag = tagT ∨ p.tag = tagC) (hlen : p.frameLen = lo.toUInt16) :
    UnderWay p (head p.tag ++ [lo])
  | setWindow (xs : List UInt8) (h : windowCollector.Holds p xs) (hroom : xs.length < 8) :
    UnderWay p (tagW :: xs)
  | config (len : UInt16) (xs : List UInt8) (hlen : len = 15 ∨ len = 17)
    (h : (configCollector len).Holds p xs) (hroom : xs.length < len.toNat) :
    UnderWay p (tagC :: le16 len ++ xs)
  | payload (len : UInt16) (xs : List UInt8) (hlen : 1 ≤ len.toNat ∧ len.toNat ≤ 24576)
    (h : (payloadCollector len).Holds p xs) (hroom : xs.length < len.toNat) :
    UnderWay p (tagT :: tagX :: le16 len ++ xs)
  | scanCount (hstate : p.state = .scanCount) (hskip : p.skipRemain = 0) : UnderWay p [tagQ]
  | scanBody (count : UInt8) (xs : List UInt8) (hpos : 1 ≤ count.toNat) (hcount : count.toNat ≤ 16)
    (h : (scanCollector count hcount).Holds p xs) (hroom : xs.length < 4 + count.toNat * 4) :
    UnderWay p (tagQ :: count :: xs)

/-- What the counters keep to in the states that use them. -/
structure BufferSafe (p : Parser) : Prop where
  setWindow : p.state = .setWindow → p.have_ < 8
  config : p.state = .config → (p.frameLen = 15 ∨ p.frameLen = 17) ∧ p.have_ < p.frameLen.toNat
  payload : p.state = .payload →
    (1 ≤ p.frameLen.toNat ∧ p.frameLen.toNat ≤ 24576) ∧ p.have_ < p.frameLen.toNat
  scanBody : p.state = .scanBody →
    (1 ≤ p.scanCount.toNat ∧ p.scanCount.toNat ≤ 16) ∧ p.scanHave.toNat < 4 + 4 * p.scanCount.toNat
  length : p.state = .lenLo ∨ p.state = .lenHi → p.tag = tagT ∨ p.tag = tagC

theorem UnderWay.bufferSafe {p : Parser} {frame : List UInt8} (h : UnderWay p frame) :
    BufferSafe p := by
  cases h with
  | between _ hstate => constructor <;> simp [hstate]
  | txMagic hstate => constructor <;> simp [hstate]
  | lenLo hstate _ htag => constructor <;> simp [hstate, htag]
  | lenHi _ hstate _ htag => constructor <;> simp [hstate, htag]
  | setWindow xs h hroom =>
      have hstate := h.state
      have hhave : p.have_ = xs.length := h.count
      constructor <;> simp [hstate, hhave, hroom]
  | config len xs hlen h hroom =>
      have hstate := h.state
      have hhave : p.have_ = xs.length := h.count
      have hframe : p.frameLen = len := h.keeps
      constructor <;> simp [hstate, hhave, hframe, hlen, hroom]
  | payload len xs hlen h hroom =>
      have hstate := h.state
      have hhave : p.have_ = xs.length := h.count
      have hframe : p.frameLen = len := h.keeps
      constructor <;> simp [hstate, hhave, hframe, hlen, hroom]
  | scanCount hstate => constructor <;> simp [hstate]
  | scanBody count xs hpos hcount h hroom =>
      have hstate := h.state
      have hhave : p.scanHave.toNat = xs.length := h.count
      have hframe : p.scanCount = count := h.keeps
      constructor <;> simp [hstate, hhave, hframe, hpos, hcount]
      omega

/-- A counter that is in its range stays inside its array. -/
theorem BufferSafe.inside {p : Parser} (h : BufferSafe p) {a : Area} {i : ℕ}
    (hstored : storedIn p = some (a, i)) : i < a.size := by
  unfold storedIn at hstored
  split at hstored
  · cases hstored
  · cases hstate : p.state <;> rw [hstate] at hstored <;> cases hstored
    · exact h.setWindow hstate
    · obtain ⟨hlen, hroom⟩ := h.config hstate
      have hsize : p.frameLen.toNat ≤ 17 := by
        rcases hlen with hlen | hlen <;> rw [hlen] <;> decide
      exact hroom.trans_le hsize
    · obtain ⟨⟨-, hsize⟩, hroom⟩ := h.payload hstate
      exact hroom.trans_le hsize
    · obtain ⟨⟨-, hsize⟩, hroom⟩ := h.scanBody hstate
      change p.scanHave.toNat < 68
      omega

/-! ## One byte -/

/-- The calls that hand on a body. -/
def Command.ofBody : Command → Bool
  | .storeWindow _ _ | .handleConfig _ _ | .handleTx _ | .handleScanQ _ _ _ => true
  | _ => false

/-- A body is handed on as the frame encodes it. -/
def HandsOn (frame : List UInt8) (commands : List Command) : Prop :=
  ∀ c ∈ commands, c.ofBody = true → ∃ i : HostItem, i.encode = frame ∧ commands = i.calls

theorem HandsOn.silent (frame : List UInt8) : HandsOn frame [] := by
  simp [HandsOn]

theorem HandsOn.item (i : HostItem) : HandsOn i.encode i.calls :=
  fun _ _ _ ↦ ⟨i, rfl, rfl⟩

/-- What a byte leaves behind belongs to the frame it ends. -/
def Follows (frame : List UInt8) (x : Parser × List Command) : Prop :=
  UnderWay x.1 frame ∧ HandsOn frame x.2

theorem Follows.quiet {p : Parser} {frame : List UInt8} (h : UnderWay p frame) :
    Follows frame (p, []) :=
  ⟨h, .silent frame⟩

theorem Follows.dropped {p : Parser} (frame : List UInt8) (h : p.state = .tag) :
    Follows frame (p, []) :=
  .quiet (.between frame h)

theorem Follows.complete {x : Parser × List Command} (i : HostItem) (hidle : Idle x.1)
    (hcalls : x.2 = i.calls) : Follows i.encode x :=
  ⟨.between _ hidle.1, hcalls ▸ .item i⟩

theorem follows_onTag {p : Parser} (h : Idle p) (b : UInt8) : Follows [b] (onTag p b) := by
  unfold onTag
  dsimp only
  split_ifs with hT hW hC hS hQ hX
  · rw [hT]
    exact .quiet (.txMagic rfl h.2 rfl)
  · rw [hW]
    exact .quiet (.setWindow [] ⟨rfl, h.2, rfl, rfl, trivial⟩ (by decide))
  · refine .quiet ?_
    have hhead : head b = [b] := by
      rw [hC]
      rfl
    exact hhead ▸ .lenLo rfl h.2 (.inr hC)
  · exact ⟨.between _ h.1, by simp [HandsOn, Command.ofBody]⟩
  · rw [hQ]
    exact .quiet (.scanCount rfl h.2)
  · exact ⟨.between _ h.1, by simp [HandsOn, Command.ofBody]⟩
  · exact .dropped _ h.1

theorem follows_onTxMagic {p : Parser} (hskip : p.skipRemain = 0) (htag : p.tag = tagT)
    (b : UInt8) : Follows [tagT, b] (onTxMagic p b) := by
  unfold onTxMagic
  by_cases hmagic : b = tagX
  · rw [if_neg (not_not.mpr hmagic), hmagic]
    refine .quiet ?_
    have hhead : head p.tag = [tagT, tagX] := by
      rw [htag]
      rfl
    exact hhead ▸ .lenLo rfl hskip (.inl htag)
  · rw [if_pos hmagic]
    exact .dropped _ rfl

theorem follows_onLenHi {p : Parser} (hskip : p.skipRemain = 0)
    (htag : p.tag = tagT ∨ p.tag = tagC) {lo : UInt8} (hlen : p.frameLen = lo.toUInt16)
    (b : UInt8) : Follows (head p.tag ++ [lo] ++ [b]) (onLenHi p b) := by
  have hword : p.frameLen ||| (b.toUInt16 <<< 8) = u16 lo b := by rw [hlen, u16]
  have hframe : head p.tag ++ [lo] ++ [b] = head p.tag ++ le16 (u16 lo b) := by
    rw [le16_u16, List.append_assoc]
    rfl
  rw [hframe]
  unfold onLenHi
  dsimp only
  rw [hword]
  rcases htag with htag | htag
  · have hother : ¬tagT = tagC := by decide
    rw [htag, if_neg hother, if_pos rfl]
    split_ifs with hbad
    · exact ⟨.between _ rfl, by simp [HandsOn, Command.ofBody]⟩
    · refine .quiet ?_
      have hgood : 1 ≤ (u16 lo b).toNat ∧ (u16 lo b).toNat ≤ 24576 := by
        have hiff := badLength_iff (u16 lo b).toNat_lt
        rw [UInt16.ofNat_toNat] at hiff
        rw [hiff] at hbad
        omega
      have hhead : head tagT ++ le16 (u16 lo b) = tagT :: tagX :: le16 (u16 lo b) ++ [] := by
        rw [List.append_nil]
        rfl
      rw [hhead]
      exact .payload (u16 lo b) [] hgood ⟨rfl, hskip, rfl, rfl, rfl⟩ hgood.1
  · rw [htag, if_pos rfl]
    split_ifs with hbad
    · exact ⟨.between _ rfl, by simp [HandsOn, Command.ofBody]⟩
    · refine .quiet ?_
      have hgood : u16 lo b = 15 ∨ u16 lo b = 17 := by
        rwa [not_and_or, not_not, not_not] at hbad
      have hpos : 0 < (u16 lo b).toNat := by
        rcases hgood with hgood | hgood <;> rw [hgood] <;> decide
      have hhead : head tagC ++ le16 (u16 lo b) = tagC :: le16 (u16 lo b) ++ [] := by
        rw [List.append_nil]
        rfl
      rw [hhead]
      exact .config (u16 lo b) [] hgood ⟨rfl, hskip, rfl, rfl, rfl⟩ hpos

theorem follows_onScanCount {p : Parser} (hskip : p.skipRemain = 0) (b : UInt8) :
    Follows [tagQ, b] (onScanCount p b) := by
  unfold onScanCount
  split_ifs with hcount
  · have hroom : ([] : List UInt8).length < 4 + b.toNat * 4 := by
      rw [List.length_nil]
      omega
    exact .quiet (.scanBody b [] (UInt8.le_iff_toNat_le.mp hcount.1)
      (UInt8.le_iff_toNat_le.mp hcount.2) ⟨rfl, hskip, rfl, rfl, rfl⟩ hroom)
  · exact .dropped _ rfl

/-- A byte of a body: it is stored, or it is the last one and the body goes on. -/
theorem Collector.Holds.follows {st : State} {need : ℕ} {K : Parser → Prop}
    {c : Collector st need K} {p : Parser} {xs : List UInt8} (h : c.Holds p xs)
    (hroom : xs.length < need) (lead : List UInt8)
    (hmore : ∀ q ys, c.Holds q ys → ys.length < need → UnderWay q (lead ++ ys))
    (hlast : ∀ q ys, c.Holds q ys → ys.length = need → Follows (lead ++ ys) (c.done q))
    (b : UInt8) : Follows (lead ++ xs ++ [b]) (switch p b) := by
  rw [List.append_assoc]
  have hlen : (xs ++ [b]).length = xs.length + 1 := by simp
  rcases Nat.lt_or_ge (xs ++ [b]).length need with hlt | hge
  · obtain ⟨hswitch, hnext⟩ := h.more hlt
    rw [hswitch]
    exact .quiet (hmore _ _ hnext hlt)
  · have hfull : (xs ++ [b]).length = need := by omega
    obtain ⟨hswitch, hnext⟩ := h.last hfull
    rw [hswitch]
    exact hlast _ _ hnext hfull

/-- The last byte of a body completes the item that the frame encodes. -/
theorem follows_window {p : Parser} {ys : List UInt8} (h : windowCollector.Holds p ys)
    (hlen : ys.length = 8) : Follows ([tagW] ++ ys) (windowCollector.done p) := by
  obtain ⟨words, hcount, rfl⟩ := exists_words 2 (hlen : ys.length = 2 * 4)
  obtain ⟨offset, period, rfl⟩ := List.length_eq_two.mp hcount
  have hbody : [offset, period].flatMap le32 = le32 offset ++ le32 period := by simp
  rw [hbody] at h ⊢
  obtain ⟨hcalls, hidle⟩ := window_done h
  exact .complete (.window offset period) hidle hcalls

theorem follows_config {len : UInt16} (hgood : len = 15 ∨ len = 17) {p : Parser}
    {ys : List UInt8} (h : (configCollector len).Holds p ys) (hlen : ys.length = len.toNat) :
    Follows (tagC :: le16 len ++ ys) ((configCollector len).done p) := by
  obtain ⟨hcalls, hidle⟩ := config_done h hlen
  have hsize : ys.length = 15 ∨ ys.length = 17 := by
    rw [hlen]
    rcases hgood with hgood | hgood <;> rw [hgood] <;> decide
  have hword : UInt16.ofNat ys.length = len := by rw [hlen, UInt16.ofNat_toNat]
  have hbyte : len.toUInt8 = UInt8.ofNat ys.length := by
    rw [hlen]
    rcases hgood with hgood | hgood <;> rw [hgood] <;> rfl
  rw [hbyte] at hcalls
  have hitem := Follows.complete (.config ys hsize) hidle hcalls
  rwa [HostItem.encode, HostItem.lead, HostItem.tail, hword] at hitem

theorem follows_payload {len : UInt16} (hgood : 1 ≤ len.toNat ∧ len.toNat ≤ 24576) {p : Parser}
    {ys : List UInt8} (h : (payloadCollector len).Holds p ys) (hlen : ys.length = len.toNat) :
    Follows (tagT :: tagX :: le16 len ++ ys) ((payloadCollector len).done p) := by
  obtain ⟨hcalls, hidle⟩ := payload_done h hlen
  have hsize : 1 ≤ ys.length ∧ ys.length ≤ 24576 := by rwa [hlen]
  have hword : UInt16.ofNat ys.length = len := by rw [hlen, UInt16.ofNat_toNat]
  have hitem := Follows.complete (.tx ys hsize) hidle hcalls
  rwa [HostItem.encode, HostItem.lead, HostItem.tail, hword] at hitem

theorem follows_scanBody {count : UInt8} (hpos : 1 ≤ count.toNat) {hcount : count.toNat ≤ 16}
    {p : Parser} {ys : List UInt8} (h : (scanCollector count hcount).Holds p ys)
    (hlen : ys.length = 4 + count.toNat * 4) :
    Follows ([tagQ, count] ++ ys) ((scanCollector count hcount).done p) := by
  have hwords : ys.length = (count.toNat + 1) * 4 := by omega
  obtain ⟨words, hlength, rfl⟩ := exists_words _ hwords
  obtain ⟨dwell, freqs, rfl⟩ := List.exists_cons_of_length_eq_add_one hlength
  have hfreqs : freqs.length = count.toNat := by simpa using hlength
  have hsize : 1 ≤ freqs.length ∧ freqs.length ≤ 16 := by omega
  have hbyte : count = UInt8.ofNat freqs.length := by rw [hfreqs, UInt8.ofNat_toNat]
  rw [List.flatMap_cons] at h ⊢
  obtain ⟨hcalls, hidle⟩ := scanBody_done hfreqs h
  have hitem := Follows.complete (.scanQ dwell freqs hsize) hidle (hbyte ▸ hcalls)
  rwa [HostItem.encode, HostItem.lead, HostItem.tail, ← hbyte] at hitem

/-- The frame that a byte belongs to: it goes on, or the byte is a tag. -/
def extended (p : Parser) (frame : List UInt8) (b : UInt8) : List UInt8 :=
  (if Idle p then [] else frame) ++ [b]

theorem UnderWay.consume {p : Parser} {frame : List UInt8} (h : UnderWay p frame) (b : UInt8) :
    Follows (extended p frame b) (consume p b) := by
  by_cases hskip : p.skipRemain = 0
  · rw [consume_eq_switch hskip, extended]
    have hbusy : p.state ≠ .tag → ¬Idle p := fun hstate hidle ↦ hstate hidle.1
    cases h with
    | between _ hstate =>
        have hidle : Idle p := ⟨hstate, hskip⟩
        rw [if_pos hidle, switch, hstate]
        exact follows_onTag hidle b
    | txMagic hstate _ htag =>
        rw [if_neg (hbusy (by simp [hstate])), switch, hstate]
        exact follows_onTxMagic hskip htag b
    | lenLo hstate _ htag =>
        rw [if_neg (hbusy (by simp [hstate])), switch, hstate]
        exact .quiet (.lenHi b rfl hskip htag rfl)
    | lenHi lo hstate _ htag hlen =>
        rw [if_neg (hbusy (by simp [hstate])), switch, hstate]
        exact follows_onLenHi hskip htag hlen b
    | setWindow xs h hroom =>
        rw [if_neg (hbusy (by simp [h.state]))]
        exact h.follows hroom [tagW] (fun q ys hq hlen ↦ .setWindow ys hq hlen)
          (fun q ys ↦ follows_window) b
    | config len xs hgood h hroom =>
        rw [if_neg (hbusy (by simp [h.state]))]
        exact h.follows hroom _ (fun q ys hq hlen ↦ .config len ys hgood hq hlen)
          (fun q ys ↦ follows_config hgood) b
    | payload len xs hgood h hroom =>
        rw [if_neg (hbusy (by simp [h.state]))]
        exact h.follows hroom _ (fun q ys hq hlen ↦ .payload len ys hgood hq hlen)
          (fun q ys ↦ follows_payload hgood) b
    | scanCount hstate =>
        rw [if_neg (hbusy (by simp [hstate])), switch, hstate]
        exact follows_onScanCount hskip b
    | scanBody count xs hpos hcount h hroom =>
        rw [if_neg (hbusy (by simp [h.state]))]
        exact h.follows hroom [tagQ, count]
          (fun q ys hq hlen ↦ .scanBody count ys hpos hcount hq hlen)
          (fun q ys ↦ follows_scanBody hpos) b
  · -- a refused frame is drained between two frames only
    have hstate : p.state = .tag := by
      cases h with
      | between _ hstate => exact hstate
      | txMagic _ hzero | lenLo _ hzero | lenHi _ _ hzero | scanCount _ hzero =>
          exact absurd hzero hskip
      | setWindow _ h | config _ _ _ h | payload _ _ _ h | scanBody _ _ _ _ h =>
          exact absurd h.skip hskip
    rw [Serial.consume, if_pos (UInt16.pos_iff_ne_zero.mpr hskip)]
    exact .dropped _ hstate

/-! ## Every run -/

theorem UnderWay.idleResync {c : ClockedParser} {frame : List UInt8}
    (h : UnderWay c.parser frame) (now : UInt32) :
    UnderWay (idleResync c now).parser frame := by
  unfold Serial.idleResync
  split
  · exact .between frame rfl
  · exact h

theorem UnderWay.receive {c : ClockedParser} {frame : List UInt8} (h : UnderWay c.parser frame)
    (r : RxByte) :
    UnderWay (receive c r).1.parser (extended (Serial.idleResync c r.now).parser frame r.byte) ∧
      HandsOn (extended (Serial.idleResync c r.now).parser frame r.byte) (receive c r).2 :=
  (h.idleResync r.now).consume r.byte

/-- The bytes of the current frame, behind an event: a byte goes on with it or
starts it anew, and so does a new client. -/
def frameAfter (s : SerialServer) (frame : List UInt8) : ServerOp → List UInt8
  | .accept _ => if s.isTcp && !s.connected then [] else frame
  | .byte r =>
    if s.connected then extended (idleResync s.toClockedParser r.now).parser frame r.byte
    else frame
  | .empty _ => frame
  | .close => frame

/-- The server with the bytes of the current frame beside it. -/
def tracked : Step (SerialServer × List UInt8) ServerOp ServerEvent := fun x op ↦
  (((serverStep x.1 op).1, frameAfter x.1 x.2 op), (serverStep x.1 op).2)

theorem run_tracked_fst (x : SerialServer × List UInt8) (ops : List ServerOp) :
    (run tracked x ops).1.1 = (run serverStep x.1 ops).1 := by
  induction ops generalizing x with
  | nil => rfl
  | cons op ops ih => exact ih (tracked x op).1

theorem UnderWay.serverStep {s : SerialServer} {frame : List UInt8}
    (h : UnderWay s.parser frame) (op : ServerOp) :
    UnderWay (serverStep s op).1.parser (frameAfter s frame op) ∧
      HandsOn (frameAfter s frame op)
        ((serverStep s op).2.filterMap ServerEvent.command?) := by
  cases op with
  | accept now =>
      rw [Serial.serverStep, frameAfter]
      split
      · exact ⟨.between _ rfl, .silent _⟩
      · exact ⟨h, .silent _⟩
  | byte r =>
      rw [Serial.serverStep, frameAfter]
      split
      · obtain ⟨hparser, -, hcalls⟩ := feed_eq_receive s r
        rw [hparser, hcalls]
        exact h.receive r
      · exact ⟨h, .silent _⟩
  | empty now =>
      rw [Serial.serverStep, frameAfter]
      split
      · obtain ⟨hparser, -, hcalls⟩ := maybeEmitStats_keeps s now
        rw [hparser, hcalls]
        exact ⟨h, .silent _⟩
      · exact ⟨h, .silent _⟩
  | close => exact ⟨h, .silent _⟩

theorem UnderWay.run {s : SerialServer} {frame : List UInt8} (h : UnderWay s.parser frame)
    (ops : List ServerOp) :
    UnderWay (run Serial.serverStep s ops).1.parser (run tracked (s, frame) ops).1.2 := by
  induction ops generalizing s frame with
  | nil => exact h
  | cons op ops ih => exact ih (h.serverStep op).1

/-- Polls are their events, one after the other. -/
theorem run_pollOnce_eq_run (s : SerialServer) (polls : List PollInput) :
    run pollOnce s polls = run serverStep s (polls.flatMap PollInput.ops) := by
  induction polls generalizing s with
  | nil => rfl
  | cons io polls ih =>
      rw [List.flatMap_cons, run_append, ← pollOnce_eq_run, run_cons, ih]

/-- From a parser between two frames on, whatever is read, when, and by which
client: the counters stay in their ranges, also between the bytes of a poll.  A
byte is stored in at most one cell, one that its array has, and a body is handed
on with the bytes read since its tag. -/
theorem parser_buffers_safe (s₀ : SerialServer) (hidle : Idle s₀.parser) :
    (∀ polls, BufferSafe (run pollOnce s₀ polls).1.parser) ∧
      ∀ ops : List ServerOp,
        let s := (run serverStep s₀ ops).1
        let frame := (run tracked (s₀, []) ops).1.2
        BufferSafe s.parser ∧
          ∀ r : RxByte,
            let p := (idleResync s.toClockedParser r.now).parser
            (∀ area i, storedIn p = some (area, i) → i < area.size) ∧
              (∀ area : Area, area.cells (receive s.toClockedParser r).1.parser =
                match storedIn p with
                | some (area', i) =>
                  if area' = area then (area.cells s.parser).store i r.byte
                  else area.cells s.parser
                | none => area.cells s.parser) ∧
              HandsOn (frameAfter s frame (.byte r))
                ((serverStep s (.byte r)).2.filterMap ServerEvent.command?) := by
  have hopen : UnderWay s₀.parser [] := .between [] hidle.1
  refine ⟨fun polls ↦ ?_, fun ops ↦ ?_⟩
  · rw [run_pollOnce_eq_run]
    exact (hopen.run _).bufferSafe
  · intro s frame
    have hnow : UnderWay s.parser frame := hopen.run ops
    refine ⟨hnow.bufferSafe, fun r ↦ ?_⟩
    intro p
    have hcells : ∀ area : Area, area.cells p = area.cells s.parser := by
      intro area
      change area.cells (idleResync s.toClockedParser r.now).parser = _
      unfold idleResync
      split
      · cases area <;> rfl
      · rfl
    refine ⟨fun area i ↦ (hnow.idleResync r.now).bufferSafe.inside, fun area ↦ ?_,
      (hnow.serverStep (.byte r)).2⟩
    rw [← hcells area]
    exact cells_consume area p r.byte

/-- The last byte of a payload, a byte that is a tag elsewhere. -/
theorem parser_buffers_safe_tx :
    let ops := [tagT, tagX, 1, 0].map fun b ↦ ServerOp.byte { byte := b, now := 0 }
    let s := (run serverStep {} ops).1
    BufferSafe s.parser ∧
      storedIn (idleResync s.toClockedParser 100).parser = some (.txBuf, 0) ∧
      HandsOn [tagT, tagX, 1, 0, tagS] [.handleTx [tagS]] := by
  intro ops s
  obtain ⟨hsafe, hbyte⟩ := (parser_buffers_safe {} ⟨rfl, rfl⟩).2 ops
  obtain ⟨-, -, hcalls⟩ := hbyte { byte := tagS, now := 100 }
  refine ⟨hsafe, by decide, ?_⟩
  have hframe : frameAfter s (run tracked ({}, []) ops).1.2
      (.byte { byte := tagS, now := 100 }) = [tagT, tagX, 1, 0, tagS] := by decide
  have hseen : (serverStep s (.byte { byte := tagS, now := 100 })).2.filterMap
      ServerEvent.command? = [.handleTx [tagS]] := by decide
  change HandsOn (frameAfter s (run tracked ({}, []) ops).1.2 _)
    ((serverStep s _).2.filterMap ServerEvent.command?) at hcalls
  rwa [hframe, hseen] at hcalls

end RadioService.Serial
