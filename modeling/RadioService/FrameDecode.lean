import RadioService.Emissions
import RadioService.Machine.Streams

/-!
# Telling device frames apart

The documented grammar of device frames, as the host decodes it.  No frame is
the beginning of another, so a stream of frames has one reading.
-/

namespace RadioService.Serial

open Bytes Stats Streams

/-! ## The grammar -/

/-- The stats body, every counter at its documented offset. -/
def decodeBody (b : List UInt8) : Counters where
  burstsTx := u32 (b.getD 0 0) (b.getD 1 0) (b.getD 2 0) (b.getD 3 0)
  burstsRx := u32 (b.getD 4 0) (b.getD 5 0) (b.getD 6 0) (b.getD 7 0)
  packetsTx := u32 (b.getD 8 0) (b.getD 9 0) (b.getD 10 0) (b.getD 11 0)
  packetsRx := u32 (b.getD 12 0) (b.getD 13 0) (b.getD 14 0) (b.getD 15 0)
  crcErrors := u32 (b.getD 16 0) (b.getD 17 0) (b.getD 18 0) (b.getD 19 0)
  hostTxDropped := u32 (b.getD 20 0) (b.getD 21 0) (b.getD 22 0) (b.getD 23 0)
  burstMode := b.getD 24 0
  zero25 := b.getD 25 0
  pendingTxValid := b.getD 26 0
  restartRxPending := b.getD 27 0
  zero28 := b.getD 28 0
  pad := (b.getD 29 0, b.getD 30 0, b.getD 31 0)
  uptimeMs := u32 (b.getD 32 0) (b.getD 33 0) (b.getD 34 0) (b.getD 35 0)
  uartRingDrops := u32 (b.getD 36 0) (b.getD 37 0) (b.getD 38 0) (b.getD 39 0)
  stagingOverwrites := u32 (b.getD 40 0) (b.getD 41 0) (b.getD 42 0) (b.getD 43 0)
  burstIdConflicts := u32 (b.getD 44 0) (b.getD 45 0) (b.getD 46 0) (b.getD 47 0)
  hwReceivedPackets := u32 (b.getD 48 0) (b.getD 49 0) (b.getD 50 0) (b.getD 51 0)
  hwCrcErrors := u32 (b.getD 52 0) (b.getD 53 0) (b.getD 54 0) (b.getD 55 0)
  hwLengthErrors := u32 (b.getD 56 0) (b.getD 57 0) (b.getD 58 0) (b.getD 59 0)
  hwCrcOk := u32 (b.getD 60 0) (b.getD 61 0) (b.getD 62 0) (b.getD 63 0)
  parserFramesKilled := u32 (b.getD 64 0) (b.getD 65 0) (b.getD 66 0) (b.getD 67 0)

theorem decodeBody_serialize (c : Counters) : decodeBody (serialize c) = c := by
  cases c
  simp [decodeBody, serialize, le32]

def decodeReady : List UInt8 → Option (Emission × List UInt8)
  | lo :: hi :: rest => some (.ready (u16 lo hi), rest)
  | _ => none

def decodeError : List UInt8 → Option (Emission × List UInt8)
  | code :: msgLen :: rest =>
    if rest.length < msgLen.toNat then none
    else some (.error code (rest.take msgLen.toNat), rest.drop msgLen.toNat)
  | _ => none

def decodeStats : List UInt8 → Option (Emission × List UInt8)
  | lo :: hi :: rest =>
    if u16 lo hi ≠ 68 ∨ rest.length < 68 then none
    else some (.stats (decodeBody (rest.take 68)), rest.drop 68)
  | _ => none

/-- The signal strength stands behind the packet; a longer packet is rejected. -/
def decodeRx : List UInt8 → Option (Emission × List UInt8)
  | lo :: hi :: rest =>
    let len := (u16 lo hi).toNat
    if len > 24576 then none
    else
      match rest.drop len with
      | r₀ :: r₁ :: rest' => some (.rx (rest.take len) (u16 r₀ r₁).toInt16, rest')
      | _ => none
  | _ => none

/-- Six bytes, the last of them unused. -/
def decodeDiag : List UInt8 → Option (Emission × List UInt8)
  | lo :: hi :: event :: b₀ :: b₁ :: b₂ :: b₃ :: _ :: rest =>
    if u16 lo hi ≠ 6 then none else some (.diag event (u32 b₀ b₁ b₂ b₃), rest)
  | _ => none

def decodeFrame : List UInt8 → Option (Emission × List UInt8)
  | [] => none
  | tag :: bytes =>
    if tag = tagG then decodeReady bytes
    else if tag = tagR then decodeRx bytes
    else if tag = tagE then decodeError bytes
    else if tag = tagStats then decodeStats bytes
    else if tag = tagD then decodeDiag bytes
    else none

/-! ## One frame -/

namespace Emission

/-- Packets are no longer than a payload. -/
def fits : Emission → Prop
  | rx pkt _ => pkt.length ≤ 24576
  | _ => True

/-- What arrives of an emission: messages are cut. -/
def received : Emission → Emission
  | error code msg => error code ((cString msg).take 64)
  | e => e

end Emission

section

variable (rest : List UInt8)

theorem decodeFrame_ready (maxPayload : UInt16) :
    decodeFrame ((Emission.ready maxPayload).bytes ++ rest) = some (.ready maxPayload, rest) := by
  simp [Emission.bytes, Emission.pieces, writeReady, decodeFrame, decodeReady, le16]

theorem decodeFrame_error (code : UInt8) (msg : List UInt8) :
    decodeFrame ((Emission.error code msg).bytes ++ rest) =
      some (.error code ((cString msg).take 64), rest) := by
  have hbytes : (Emission.error code msg).bytes ++ rest =
      tagE :: code :: UInt8.ofNat ((cString msg).take 64).length ::
        ((cString msg).take 64 ++ rest) := by
    simp [Emission.bytes, Emission.pieces, writeError]
  have hshort : ((cString msg).take 64).length ≤ 64 := List.length_take_le 64 _
  generalize (cString msg).take 64 = cut at hbytes hshort
  have hlen : (UInt8.ofNat cut.length).toNat = cut.length := by
    rw [UInt8.toNat_ofNat']
    omega
  rw [hbytes]
  simp [decodeFrame, decodeError, hlen, tagE, tagG, tagR]

theorem decodeFrame_stats (c : Counters) :
    decodeFrame ((Emission.stats c).bytes ++ rest) = some (.stats c, rest) := by
  have hlen : u16 68 0 = 68 := by decide
  have hbytes : (Emission.stats c).bytes ++ rest =
      tagStats :: 68 :: 0 :: (serialize c ++ rest) := by
    have hhead : lenBytes 68 = [68, 0] := by decide
    rw [Emission.bytes_stats, hhead]
    simp only [List.cons_append, List.nil_append]
  have hbody := decodeBody_serialize c
  have hsize := length_serialize c
  generalize serialize c = body at hbytes hbody hsize
  have hcut : (body ++ rest).take 68 = body := List.take_left' hsize
  have hrest : (body ++ rest).drop 68 = rest := List.drop_left' hsize
  rw [hbytes]
  simp [decodeFrame, decodeStats, hlen, hcut, hrest, hbody, hsize, tagStats, tagG, tagR, tagE]

theorem decodeFrame_rx {pkt : List UInt8} (hfit : pkt.length ≤ 24576) (rssi : Int16) :
    decodeFrame ((Emission.rx pkt rssi).bytes ++ rest) = some (.rx pkt rssi, rest) := by
  have hlen : (UInt16.ofNat pkt.length).toNat = pkt.length := by
    rw [UInt16.toNat_ofNat']
    omega
  have hbytes : (Emission.rx pkt rssi).bytes ++ rest =
      tagR :: (UInt16.ofNat pkt.length).toUInt8 :: (UInt16.ofNat pkt.length >>> 8).toUInt8 ::
        (pkt ++ (le16 rssi.toUInt16 ++ rest)) := by
    rw [Emission.bytes_rx, List.append_assoc, List.append_assoc]
    rfl
  generalize UInt16.ofNat pkt.length = len at hlen hbytes
  rw [hbytes]
  simp [decodeFrame, decodeRx, hlen, le16, tagR, tagG, hfit]

theorem decodeFrame_diag (event : UInt8) (val : UInt32) :
    decodeFrame ((Emission.diag event val).bytes ++ rest) = some (.diag event val, rest) := by
  have hlen : u16 6 0 = 6 := by decide
  have hbytes : (Emission.diag event val).bytes ++ rest =
      tagD :: 6 :: 0 :: event :: (le32 val ++ 0 :: rest) := by
    rw [Emission.bytes_diag, List.append_assoc, List.cons_append, List.append_assoc]
    rfl
  rw [hbytes]
  simp [decodeFrame, decodeDiag, hlen, le32, tagD, tagG, tagR, tagE, tagStats]

end

theorem Emission.bytes_ne_nil (e : Emission) : e.bytes ≠ [] := by
  cases e with
  | ready => simp [bytes, pieces, writeReady]
  | error => simp [bytes, pieces, writeError]
  | stats => simp [bytes_stats]
  | rx => simp [bytes_rx]
  | diag => simp [bytes_diag]

/-- Whatever follows an emission, the host takes just it off the stream. -/
theorem decodeFrame_undoes {e : Emission} (hfit : e.fits) :
    Undoes decodeFrame Emission.bytes Emission.received e := by
  refine ⟨e.bytes_ne_nil, fun rest ↦ ?_⟩
  cases e with
  | ready maxPayload => exact decodeFrame_ready rest maxPayload
  | error code msg => exact decodeFrame_error rest code msg
  | stats c => exact decodeFrame_stats rest c
  | rx pkt rssi => exact decodeFrame_rx rest hfit rssi
  | diag event val => exact decodeFrame_diag rest event val

/-! ## Streams of frames -/

def decodeStream (bytes : List UInt8) : Option (List Emission) := decodeAll decodeFrame bytes

/-- The host reads off a stream of emissions what was emitted: the same frames
in order, messages cut at 64 bytes. -/
theorem decodeStream_emissions (es : List Emission) (hfit : ∀ e ∈ es, e.fits) :
    decodeStream (es.flatMap Emission.bytes) = some (es.map Emission.received) :=
  decodeAll_flatMap fun e he ↦ decodeFrame_undoes (hfit e he)

/-- A packet that is a `G` frame, behind an error and in front of a diagnosis. -/
theorem decodeStream_nested :
    decodeStream ([.error 4 (literal "tx queue full"), .rx [0x47, 0xFF, 1] (-77),
        .diag 50 915000000].flatMap Emission.bytes) =
      some [.error 4 (literal "tx queue full"), .rx [0x47, 0xFF, 1] (-77), .diag 50 915000000] :=
  (decodeStream_emissions [.error 4 (literal "tx queue full"), .rx [0x47, 0xFF, 1] (-77),
    .diag 50 915000000] (by simp [Emission.fits])).trans (by decide)

end RadioService.Serial
