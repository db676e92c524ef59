import RadioService.Parser

/-!
# Host commands and their encoding

A host sends `HostItem`s: commands with the arguments the wire format admits,
and stray bytes between them.  The parser, started between two frames, makes
the calls of every item in order, however the bytes are spread over polls, and
looks for a tag at the first byte of an item only.
-/

namespace RadioService.Serial

open Burst Bytes Machine

/-- Between two frames, with nothing left to drain. -/
def Idle (p : Parser) : Prop := p.state = .tag ∧ p.skipRemain = 0

instance (p : Parser) : Decidable (Idle p) := inferInstanceAs (Decidable (_ ∧ _))

/-! ## Items and their bytes -/

/-- One thing a host may send. `badTx` is a `T` frame of a length that the
parser refuses, with as many bytes behind it. -/
inductive HostItem where
  | noise (b : UInt8) (h : b ∉ [tagT, tagW, tagC, tagS, tagQ, tagX])
  | tx (payload : List UInt8) (h : 1 ≤ payload.length ∧ payload.length ≤ 24576)
  | config (body : List UInt8) (h : body.length = 15 ∨ body.length = 17)
  | window (offset period : UInt32)
  | stats
  | reset
  | scanQ (dwell : UInt32) (freqs : List UInt32) (h : 1 ≤ freqs.length ∧ freqs.length ≤ 16)
  | badTx (body : List UInt8) (h : body.length = 0 ∨ 24576 < body.length)
    (h' : body.length < 65536)

namespace HostItem

def lead : HostItem → UInt8
  | noise b _ => b
  | tx _ _ => tagT
  | config _ _ => tagC
  | window _ _ => tagW
  | stats => tagS
  | reset => tagX
  | scanQ _ _ _ => tagQ
  | badTx _ _ _ => tagT

def tail : HostItem → List UInt8
  | noise _ _ => []
  | tx payload _ => tagX :: le16 (UInt16.ofNat payload.length) ++ payload
  | config body _ => le16 (UInt16.ofNat body.length) ++ body
  | window offset period => le32 offset ++ le32 period
  | stats => []
  | reset => []
  | scanQ dwell freqs _ => UInt8.ofNat freqs.length :: (le32 dwell ++ freqs.flatMap le32)
  | badTx body _ _ => tagX :: le16 (UInt16.ofNat body.length) ++ body

def encode (i : HostItem) : List UInt8 := i.lead :: i.tail

def calls : HostItem → List Command
  | noise _ _ => []
  | tx payload _ => [.handleTx payload]
  | config body _ => [.handleConfig body (UInt8.ofNat body.length)]
  | window offset period => [.storeWindow offset period, .writeReady 511]
  | stats => [.forceStats]
  | reset => [.handleReset]
  | scanQ dwell freqs _ => [.handleScanQ (UInt8.ofNat freqs.length) dwell freqs]
  | badTx _ _ _ => [.writeError 0x02 "bad tx len"]

end HostItem

/-! ## Watching the parser -/

/-- A byte taken for a tag, or a call. -/
inductive Seen where
  | tag (b : UInt8)
  | call (c : Command)
deriving DecidableEq

def Seen.call? : Seen → Option Command
  | .call c => some c
  | .tag _ => none

def Seen.tag? : Seen → Option UInt8
  | .tag b => some b
  | .call _ => none

@[simp] theorem Seen.call?_call (c : Command) : (Seen.call c).call? = some c := rfl

@[simp] theorem Seen.call?_tag (b : UInt8) : (Seen.tag b).call? = none := rfl

@[simp] theorem Seen.tag?_call (c : Command) : (Seen.call c).tag? = none := rfl

@[simp] theorem Seen.tag?_tag (b : UInt8) : (Seen.tag b).tag? = some b := rfl

/-- `consume`, showing which bytes it takes for a tag. -/
def watch (p : Parser) (b : UInt8) : Parser × List Seen :=
  ((consume p b).1, (if Idle p then [.tag b] else []) ++ (consume p b).2.map .call)

theorem watch_idle {p : Parser} (h : Idle p) (b : UInt8) :
    watch p b = ((onTag p b).1, .tag b :: (onTag p b).2.map .call) := by
  obtain ⟨hstate, hskip⟩ := h
  simp [watch, consume, switch, Idle, hstate, hskip]

theorem consume_eq_switch {p : Parser} (hskip : p.skipRemain = 0) (b : UInt8) :
    consume p b = switch p b := by
  simp [consume, hskip]

theorem watch_busy {p : Parser} (hskip : p.skipRemain = 0) (hstate : p.state ≠ .tag)
    (b : UInt8) : watch p b = ((switch p b).1, (switch p b).2.map .call) := by
  simp [watch, consume, Idle, hskip, hstate]

theorem watch_skip {p : Parser} (h : p.skipRemain > 0) (b : UInt8) :
    watch p b = ({ p with skipRemain := p.skipRemain - 1 }, []) := by
  have hidle : ¬Idle p := by
    rintro ⟨-, hskip⟩
    simp [hskip] at h
  simp [watch, consume, h, hidle]

/-! ## Collecting the body of a frame -/

/-- What the four collecting states share: a buffer, the count of the bytes in
it, and a fixed size `need` at which `done` is called.  `K` is what stays fixed
while the bytes come in. -/
structure Collector (st : State) (need : ℕ) (K : Parser → Prop) where
  buf : Parser → Buffer
  count : Parser → ℕ
  store : Parser → UInt8 → Parser
  done : Parser → Parser × List Command
  switch_eq : ∀ p b, K p → p.state = st → switch p b =
    if count (store p b) = need then done (store p b) else (store p b, [])
  store_state : ∀ p b, (store p b).state = p.state
  store_skip : ∀ p b, (store p b).skipRemain = p.skipRemain
  store_buf : ∀ p b, buf (store p b) = (buf p).store (count p) b
  store_count : ∀ p b, K p → count p < need → count (store p b) = count p + 1
  store_keeps : ∀ p b, K p → K (store p b)

namespace Collector

variable {st : State} {need : ℕ} {K : Parser → Prop}

/-- The bytes `xs` of the body are there, and more are to come. -/
structure Holds (c : Collector st need K) (p : Parser) (xs : List UInt8) : Prop where
  state : p.state = st
  skip : p.skipRemain = 0
  count : c.count p = xs.length
  bytes : (c.buf p).bytes xs.length = xs
  keeps : K p

theorem Holds.store {c : Collector st need K} {p : Parser} {xs : List UInt8}
    (h : c.Holds p xs) (b : UInt8) (hlen : xs.length < need) :
    c.Holds (c.store p b) (xs ++ [b]) := by
  refine ⟨?_, ?_, ?_, ?_, c.store_keeps p b h.keeps⟩
  · rw [c.store_state, h.state]
  · rw [c.store_skip, h.skip]
  · rw [c.store_count p b h.keeps (h.count ▸ hlen), h.count]
    simp
  · rw [c.store_buf, h.count, List.length_append, List.length_singleton,
      Buffer.bytes_store_succ, h.bytes]

/-- A byte with more to come behind it is stored. -/
theorem Holds.more {c : Collector st need K} {p : Parser} {xs : List UInt8} (h : c.Holds p xs)
    {b : UInt8} (hroom : (xs ++ [b]).length < need) :
    switch p b = (c.store p b, []) ∧ c.Holds (c.store p b) (xs ++ [b]) := by
  have hnext := h.store b (by simp at hroom; omega)
  refine ⟨?_, hnext⟩
  rw [c.switch_eq p b h.keeps h.state, if_neg (hnext.count ▸ hroom.ne)]

/-- The last byte is stored, and the body is done. -/
theorem Holds.last {c : Collector st need K} {p : Parser} {xs : List UInt8} (h : c.Holds p xs)
    {b : UInt8} (hfull : (xs ++ [b]).length = need) :
    switch p b = c.done (c.store p b) ∧ c.Holds (c.store p b) (xs ++ [b]) := by
  have hnext := h.store b (by simp at hfull; omega)
  refine ⟨?_, hnext⟩
  rw [c.switch_eq p b h.keeps h.state, if_pos (hnext.count.trans hfull)]

/-- A whole body is collected silently and handed to `done` with its last byte. -/
theorem run_body (c : Collector st need K) (out : List Command) (hst : st ≠ .tag)
    {p : Parser} {body : List UInt8} (h : c.Holds p [])
    (hlen : body.length = need) (hne : body ≠ [])
    (hdone : ∀ q, c.Holds q body → (c.done q).2 = out ∧ Idle (c.done q).1) :
    ∃ q, Idle q ∧ run watch p body = (q, out.map .call) := by
  have hrun : (run watch p body).2 = out.map .call ∧ Idle (run watch p body).1 := by
    refine run_collects (fun q xs ↦ c.Holds q xs) body ?_ ?_ [] h rfl hne
    · intro q xs b hq hmore
      obtain ⟨hswitch, hnext⟩ := hq.more (hlen ▸ hmore)
      rw [watch_busy hq.skip (hq.state ▸ hst), hswitch]
      exact ⟨rfl, hnext⟩
    · intro q xs b hq hlast
      obtain ⟨hswitch, hnext⟩ := hq.last (hlast ▸ hlen)
      obtain ⟨hout, hidle⟩ := hdone _ (hlast ▸ hnext)
      rw [watch_busy hq.skip (hq.state ▸ hst), hswitch]
      exact ⟨congrArg _ hout, hidle⟩
  exact ⟨_, hrun.2, Prod.ext rfl hrun.1⟩

end Collector

def payloadCollector (len : UInt16) :
    Collector .payload len.toNat (·.frameLen = len) where
  buf := (·.txBuf)
  count := (·.have_)
  store p b := { p with txBuf := p.txBuf.store p.have_ b, have_ := p.have_ + 1 }
  done p := ({ p with state := .tag }, [.handleTx (p.txBuf.bytes p.frameLen.toNat)])
  switch_eq p b hK hst := by simp [switch, hst, onPayload, ← hK]
  store_state _ _ := rfl
  store_skip _ _ := rfl
  store_buf _ _ := rfl
  store_count _ _ _ _ := rfl
  store_keeps _ _ hK := hK

def configCollector (len : UInt16) :
    Collector .config len.toNat (·.frameLen = len) where
  buf := (·.configBody)
  count := (·.have_)
  store p b := { p with configBody := p.configBody.store p.have_ b, have_ := p.have_ + 1 }
  done p := ({ p with state := .tag },
    [.handleConfig (p.configBody.bytes p.frameLen.toNat) p.frameLen.toUInt8])
  switch_eq p b hK hst := by simp [switch, hst, onConfig, ← hK]
  store_state _ _ := rfl
  store_skip _ _ := rfl
  store_buf _ _ := rfl
  store_count _ _ _ _ := rfl
  store_keeps _ _ hK := hK

def windowCollector : Collector .setWindow 8 (fun _ ↦ True) where
  buf := (·.windowBody)
  count := (·.have_)
  store p b := { p with windowBody := p.windowBody.store p.have_ b, have_ := p.have_ + 1 }
  done p := ({ p with
      state := .tag
      slotOffsetMs := p.windowBody.word32 0
      slotPeriodMs := p.windowBody.word32 4 },
    [.storeWindow (p.windowBody.word32 0) (p.windowBody.word32 4), .writeReady 511])
  switch_eq p b _ hst := by simp [switch, hst, onSetWindow]
  store_state _ _ := rfl
  store_skip _ _ := rfl
  store_buf _ _ := rfl
  store_count _ _ _ _ := rfl
  store_keeps _ _ hK := hK

/-- The count of a `Q` body is a byte; sixteen frequencies leave it room. -/
def scanCollector (count : UInt8) (hcount : count.toNat ≤ 16) :
    Collector .scanBody (4 + count.toNat * 4) (·.scanCount = count) where
  buf := (·.qbuf)
  count := (·.scanHave.toNat)
  store p b := { p with qbuf := p.qbuf.store p.scanHave.toNat b, scanHave := p.scanHave + 1 }
  done p := ({ p with state := .tag },
    [.handleScanQ p.scanCount (p.qbuf.word32 0)
      ((List.range p.scanCount.toNat).map fun i ↦ p.qbuf.word32 (4 + i * 4))])
  switch_eq p b hK hst := by simp [switch, hst, onScanBody, ← hK]
  store_state _ _ := rfl
  store_skip _ _ := rfl
  store_buf _ _ := rfl
  store_count p b _ hlt := by
    rw [UInt8.toNat_add, UInt8.toNat_one, Nat.mod_eq_of_lt (by omega)]
  store_keeps _ _ hK := hK

/-! ## What a complete body brings about -/

theorem payload_done {len : UInt16} {q : Parser} {payload : List UInt8}
    (h : (payloadCollector len).Holds q payload) (hlen : payload.length = len.toNat) :
    ((payloadCollector len).done q).2 = [.handleTx payload] ∧
      Idle ((payloadCollector len).done q).1 := by
  have hbytes : q.txBuf.bytes len.toNat = payload := by
    rw [← hlen]
    exact h.bytes
  have hframe : q.frameLen = len := h.keeps
  exact ⟨by simp only [payloadCollector, hframe, hbytes], rfl, h.skip⟩

theorem config_done {len : UInt16} {q : Parser} {body : List UInt8}
    (h : (configCollector len).Holds q body) (hlen : body.length = len.toNat) :
    ((configCollector len).done q).2 = [.handleConfig body len.toUInt8] ∧
      Idle ((configCollector len).done q).1 := by
  have hbytes : q.configBody.bytes len.toNat = body := by
    rw [← hlen]
    exact h.bytes
  have hframe : q.frameLen = len := h.keeps
  exact ⟨by simp only [configCollector, hframe, hbytes], rfl, h.skip⟩

theorem window_done {q : Parser} {offset period : UInt32}
    (h : windowCollector.Holds q (le32 offset ++ le32 period)) :
    (windowCollector.done q).2 = [.storeWindow offset period, .writeReady 511] ∧
      Idle (windowCollector.done q).1 := by
  have hoffset : q.windowBody.word32 0 = offset :=
    Buffer.word32_of_bytes [] (le32 period) h.bytes
  have hperiod : q.windowBody.word32 (le32 offset).length = period := by
    refine Buffer.word32_of_bytes (n := 8) _ [] ?_
    rw [List.append_nil]
    exact h.bytes
  rw [length_le32] at hperiod
  exact ⟨by simp only [windowCollector, hoffset, hperiod], rfl, h.skip⟩

theorem scanBody_done {count : UInt8} {hcount : count.toNat ≤ 16} {q : Parser} {dwell : UInt32}
    {freqs : List UInt32} (hlen : freqs.length = count.toNat)
    (h : (scanCollector count hcount).Holds q (le32 dwell ++ freqs.flatMap le32)) :
    ((scanCollector count hcount).done q).2 = [.handleScanQ count dwell freqs] ∧
      Idle ((scanCollector count hcount).done q).1 := by
  have hframe : q.scanCount = count := h.keeps
  have hdwell : q.qbuf.word32 0 = dwell :=
    Buffer.word32_of_bytes [] (freqs.flatMap le32) h.bytes
  have hfreqs : (List.range count.toNat).map (fun i ↦ q.qbuf.word32 (4 + i * 4)) = freqs := by
    rw [← hlen]
    exact Buffer.words_of_bytes (le32 dwell) h.bytes
  exact ⟨by simp only [scanCollector, hframe, hdwell, hfreqs], rfl, h.skip⟩

/-! ## The frames -/

/-- What becomes of a frame once its length is known. -/
def lengthRead (p : Parser) (len : UInt16) : Parser × List Command :=
  onLenHi { p with frameLen := len.toUInt8.toUInt16, state := .lenHi } (len >>> 8).toUInt8

theorem run_length {p : Parser} (hstate : p.state = .lenLo) (hskip : p.skipRemain = 0)
    (len : UInt16) :
    run watch p (le16 len) = ((lengthRead p len).1, (lengthRead p len).2.map .call) := by
  simp [le16, watch, consume, switch, Idle, onLenLo, lengthRead, hstate, hskip]

theorem lengthRead_tx {p : Parser} (htag : p.tag = tagT) (len : UInt16) :
    lengthRead p len =
      if len = 0 ∨ len.toUInt32 > kMaxTotalPayload then
        ({ p with frameLen := len, skipRemain := len, state := .tag },
          [.writeError 0x02 "bad tx len"])
      else
        ({ p with frameLen := len, have_ := 0, state := .payload }, []) := by
  have hword : len.toUInt8.toUInt16 ||| ((len >>> 8).toUInt8.toUInt16 <<< 8) = len := u16_split len
  have htc : tagT ≠ tagC := by decide
  simp only [lengthRead, onLenHi, htag, hword, htc, if_true, if_false]

theorem lengthRead_config {p : Parser} (htag : p.tag = tagC) {len : UInt16}
    (hlen : len = 15 ∨ len = 17) :
    lengthRead p len = ({ p with frameLen := len, have_ := 0, state := .config }, []) := by
  have hword : len.toUInt8.toUInt16 ||| ((len >>> 8).toUInt8.toUInt16 <<< 8) = len := u16_split len
  have hok : ¬(len ≠ 15 ∧ len ≠ 17) := by
    rintro ⟨h15, h17⟩
    exact hlen.elim h15 h17
  simp only [lengthRead, onLenHi, htag, hword, hok, if_true, if_false]

/-- The bytes of a refused frame are dropped one by one. -/
theorem run_skip {p : Parser} {body : List UInt8} (hstate : p.state = .tag)
    (hlen : p.skipRemain.toNat = body.length) :
    run watch p body = ({ p with skipRemain := 0 }, []) := by
  induction body generalizing p with
  | nil =>
      have hzero : p.skipRemain = 0 := UInt16.toNat_inj.mp hlen
      simp [← hzero]
  | cons b body ih =>
      have hpos : p.skipRemain > 0 := by
        rw [gt_iff_lt, UInt16.lt_iff_toNat_lt, hlen]
        simp
      have hnext : (p.skipRemain - 1).toNat = body.length := by
        rw [UInt16.toNat_sub_of_le]
        · simp [hlen]
        · rw [UInt16.le_iff_toNat_le, hlen]
          simp
      rw [run_cons, watch_skip hpos,
        ih (p := { p with skipRemain := p.skipRemain - 1 }) hstate hnext]
      rfl

/-- The lengths a `T` frame is refused for. -/
theorem badLength_iff {n : ℕ} (hn : n < 65536) :
    (UInt16.ofNat n = 0 ∨ (UInt16.ofNat n).toUInt32 > kMaxTotalPayload) ↔ n = 0 ∨ 24576 < n := by
  have hnat : (UInt16.ofNat n).toNat = n := UInt16.toNat_ofNat_of_lt hn
  rw [← UInt16.toNat_inj, gt_iff_lt, UInt32.lt_iff_toNat_lt, UInt16.toNat_toUInt32, hnat]
  rfl

theorem run_payload {p : Parser} {payload : List UInt8} (hstate : p.state = .payload)
    (hskip : p.skipRemain = 0) (hhave : p.have_ = 0)
    (hlen : payload.length = p.frameLen.toNat) (hne : payload ≠ []) :
    ∃ q, Idle q ∧ run watch p payload = (q, [.call (.handleTx payload)]) := by
  exact (payloadCollector p.frameLen).run_body [.handleTx payload] (by simp)
    ⟨hstate, hskip, hhave, rfl, rfl⟩ hlen hne fun q hq ↦ payload_done hq hlen

theorem run_config {p : Parser} {body : List UInt8} (hstate : p.state = .config)
    (hskip : p.skipRemain = 0) (hhave : p.have_ = 0)
    (hlen : body.length = p.frameLen.toNat) (hne : body ≠ []) :
    ∃ q, Idle q ∧
      run watch p body = (q, [.call (.handleConfig body p.frameLen.toUInt8)]) := by
  exact (configCollector p.frameLen).run_body
    [.handleConfig body p.frameLen.toUInt8] (by simp)
    ⟨hstate, hskip, hhave, rfl, rfl⟩ hlen hne fun q hq ↦ config_done hq hlen

theorem run_window {p : Parser} (offset period : UInt32) (hstate : p.state = .setWindow)
    (hskip : p.skipRemain = 0) (hhave : p.have_ = 0) :
    ∃ q, Idle q ∧ run watch p (le32 offset ++ le32 period) =
      (q, [.call (.storeWindow offset period), .call (.writeReady 511)]) := by
  exact windowCollector.run_body [.storeWindow offset period, .writeReady 511]
    (by simp) ⟨hstate, hskip, hhave, rfl, trivial⟩ rfl (by simp [le32]) fun q hq ↦ window_done hq

theorem run_scanBody {p : Parser} (dwell : UInt32) {freqs : List UInt32}
    (hstate : p.state = .scanBody) (hskip : p.skipRemain = 0) (hhave : p.scanHave = 0)
    (hlen : freqs.length = p.scanCount.toNat) (hcount : freqs.length ≤ 16) :
    ∃ q, Idle q ∧ run watch p (le32 dwell ++ freqs.flatMap le32) =
      (q, [.call (.handleScanQ p.scanCount dwell freqs)]) := by
  have hbody : (le32 dwell ++ freqs.flatMap le32).length = 4 + p.scanCount.toNat * 4 := by
    rw [List.length_append, length_le32, ← hlen]
    simp
  exact (scanCollector p.scanCount (hlen ▸ hcount)).run_body
    [.handleScanQ p.scanCount dwell freqs] (by simp)
    ⟨hstate, hskip, by simp [scanCollector, hhave], rfl, rfl⟩ hbody (by simp [le32])
    fun q hq ↦ scanBody_done hlen hq

theorem run_txHead {p : Parser} (h : Idle p) (len : UInt16) :
    ∃ q, q.tag = tagT ∧ q.skipRemain = 0 ∧
      run watch p (tagT :: tagX :: le16 len) =
        ((lengthRead q len).1, .tag tagT :: (lengthRead q len).2.map .call) := by
  let m : Parser := { p with tag := tagT, have_ := 0, state := .txMagic }
  let q : Parser := { p with tag := tagT, have_ := 0, state := .lenLo }
  have htag : watch p tagT = (m, [.tag tagT]) := watch_idle h tagT
  have hmagic : watch m tagX = (q, []) := watch_busy (p := m) h.2 (by simp [m]) tagX
  exact ⟨q, rfl, h.2, run_step htag (run_step hmagic (run_length (p := q) rfl h.2 len))⟩

theorem watch_tx {p : Parser} (h : Idle p) (payload : List UInt8)
    (hlen : 1 ≤ payload.length ∧ payload.length ≤ 24576) :
    ∃ q, Idle q ∧ run watch p (HostItem.tx payload hlen).encode =
      (q, [.tag tagT, .call (.handleTx payload)]) := by
  have hsize : payload.length < 65536 := by omega
  have hnat := UInt16.toNat_ofNat_of_lt hsize
  obtain ⟨q, htag, hskip, hhead⟩ := run_txHead h (UInt16.ofNat payload.length)
  rw [lengthRead_tx htag, if_neg (by rw [badLength_iff hsize]; omega)] at hhead
  obtain ⟨r, hr, hbody⟩ := run_payload
    (p := { q with frameLen := UInt16.ofNat payload.length, have_ := 0, state := .payload })
    rfl hskip rfl hnat.symm (List.ne_nil_of_length_pos hlen.1)
  exact ⟨r, hr, run_trans hhead hbody⟩

/-- A refused frame: as many bytes as announced are dropped behind its length. -/
theorem watch_badTx {p : Parser} (h : Idle p) (body : List UInt8)
    (hlen : body.length = 0 ∨ 24576 < body.length) (hsize : body.length < 65536) :
    ∃ q, Idle q ∧ run watch p (HostItem.badTx body hlen hsize).encode =
      (q, .tag tagT :: (HostItem.badTx body hlen hsize).calls.map .call) := by
  have hnat := UInt16.toNat_ofNat_of_lt hsize
  obtain ⟨q, htag, hskip, hhead⟩ := run_txHead h (UInt16.ofNat body.length)
  rw [lengthRead_tx htag, if_pos (by rwa [badLength_iff hsize])] at hhead
  exact ⟨_, ⟨rfl, rfl⟩, run_trans hhead (run_skip rfl hnat)⟩

theorem watch_config {p : Parser} (h : Idle p) (body : List UInt8)
    (hlen : body.length = 15 ∨ body.length = 17) :
    ∃ q, Idle q ∧ run watch p (HostItem.config body hlen).encode =
      (q, [.tag tagC, .call (.handleConfig body (UInt8.ofNat body.length))]) := by
  have hsize : body.length < 65536 := by omega
  have hnat := UInt16.toNat_ofNat_of_lt hsize
  have hbyte : (UInt16.ofNat body.length).toUInt8 = UInt8.ofNat body.length := by
    rcases hlen with hlen | hlen <;> rw [hlen] <;> rfl
  have hok : UInt16.ofNat body.length = 15 ∨ UInt16.ofNat body.length = 17 := by
    rcases hlen with hlen | hlen <;> rw [hlen] <;> simp
  let q : Parser := { p with tag := tagC, have_ := 0, state := .lenLo }
  have htag : watch p tagC = (q, [.tag tagC]) := watch_idle h tagC
  have hlength := run_length (p := q) rfl h.2 (UInt16.ofNat body.length)
  rw [lengthRead_config rfl hok] at hlength
  obtain ⟨r, hr, hbody⟩ := run_config
    (p := { q with frameLen := UInt16.ofNat body.length, have_ := 0, state := .config })
    rfl h.2 rfl hnat.symm (List.ne_nil_of_length_pos (by omega))
  rw [hbyte] at hbody
  exact ⟨r, hr, run_step htag (run_trans hlength hbody)⟩

theorem watch_scanQ {p : Parser} (h : Idle p) (dwell : UInt32) (freqs : List UInt32)
    (hlen : 1 ≤ freqs.length ∧ freqs.length ≤ 16) :
    ∃ q, Idle q ∧ run watch p (HostItem.scanQ dwell freqs hlen).encode =
      (q, [.tag tagQ, .call (.handleScanQ (UInt8.ofNat freqs.length) dwell freqs)]) := by
  let q : Parser := { p with tag := tagQ, have_ := 0, state := .scanCount }
  let n := UInt8.ofNat freqs.length
  have hn : n.toNat = freqs.length := UInt8.toNat_ofNat_of_lt (hlen.2.trans_lt (by decide))
  have hrange : n ≥ 1 ∧ n ≤ 16 := by
    simp only [ge_iff_le, UInt8.le_iff_toNat_le, hn]
    exact hlen
  have htag : watch p tagQ = (q, [.tag tagQ]) := watch_idle h tagQ
  have hcount : watch q n =
      ({ q with scanCount := n, scanHave := 0, state := .scanBody }, []) := by
    rw [watch_busy (p := q) h.2 (by simp [q])]
    simp [switch, onScanCount, q, hrange]
  obtain ⟨r, hr, hbody⟩ := run_scanBody
    (p := { q with scanCount := n, scanHave := 0, state := .scanBody })
    dwell rfl h.2 rfl hn.symm hlen.2
  exact ⟨r, hr, run_step htag (run_step hcount hbody)⟩

/-- The parser decodes one item and is idle again. -/
theorem watch_item {p : Parser} (h : Idle p) (i : HostItem) :
    ∃ q, Idle q ∧ run watch p i.encode = (q, .tag i.lead :: i.calls.map .call) := by
  cases i with
  | noise b hb =>
      simp only [List.mem_cons, List.not_mem_nil, or_false, not_or] at hb
      obtain ⟨hT, hW, hC, hS, hQ, hX⟩ := hb
      have htag : watch p b = ({ p with tag := b }, [.tag b]) := by
        rw [watch_idle h]
        simp [onTag, hT, hW, hC, hS, hQ, hX]
      exact ⟨{ p with tag := b }, h, run_step htag rfl⟩
  | stats => exact ⟨{ p with tag := tagS }, h, run_step (watch_idle h tagS) rfl⟩
  | reset => exact ⟨{ p with tag := tagX }, h, run_step (watch_idle h tagX) rfl⟩
  | tx payload hlen => exact watch_tx h payload hlen
  | badTx body hlen hsize => exact watch_badTx h body hlen hsize
  | config body hlen => exact watch_config h body hlen
  | window offset period =>
      let q : Parser := { p with tag := tagW, have_ := 0, state := .setWindow }
      have htag : watch p tagW = (q, [.tag tagW]) := watch_idle h tagW
      obtain ⟨r, hr, hbody⟩ := run_window (p := q) offset period rfl h.2 rfl
      exact ⟨r, hr, run_step htag hbody⟩
  | scanQ dwell freqs hlen => exact watch_scanQ h dwell freqs hlen

theorem watch_items {p : Parser} (h : Idle p) (items : List HostItem) :
    ∃ q, Idle q ∧ run watch p (items.flatMap HostItem.encode) =
      (q, items.flatMap fun i ↦ .tag i.lead :: i.calls.map .call) := by
  induction items generalizing p with
  | nil => exact ⟨p, h, rfl⟩
  | cons i items ih =>
      obtain ⟨q, hq, hitem⟩ := watch_item h i
      obtain ⟨r, hr, hrest⟩ := ih hq
      exact ⟨r, hr, run_trans hitem hrest⟩

theorem calls_of_items (items : List HostItem) :
    (items.flatMap fun i ↦ Seen.tag i.lead :: i.calls.map .call).filterMap Seen.call? =
      items.flatMap HostItem.calls := by
  simp [List.filterMap_flatMap, List.filterMap_cons, Function.comp_def]

theorem tags_of_items (items : List HostItem) :
    (items.flatMap fun i ↦ Seen.tag i.lead :: i.calls.map .call).filterMap Seen.tag? =
      items.map HostItem.lead := by
  have hnone : ∀ cs : List Command, (cs.map Seen.call).filterMap Seen.tag? = [] :=
    fun cs ↦ List.filterMap_eq_nil_iff.mpr (by simp)
  induction items with
  | nil => rfl
  | cons i items ih =>
      rw [List.flatMap_cons, List.filterMap_append, ih, List.map_cons,
        List.filterMap_cons_some (Seen.tag?_tag i.lead), hnone]
      rfl

end RadioService.Serial
