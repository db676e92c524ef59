import Mathlib.Logic.Function.Iterate
import RadioService.Machine.Bytes

/-!
# The on-air burst format

A payload goes on the air as a burst of fixed-size packets: a 16-byte header,
a chunk of the payload, zeros up to the packet size.
-/

namespace RadioService.Burst

open Bytes

def kMagic : UInt16 := 0x4642
def kMaxTotalPayload : UInt32 := 24576
def kPacketPayload : UInt16 := 511
def kChunk : UInt16 := kPacketPayload - 16
def kMaxPackets : UInt16 := 50
def kMaxAirPacketsAlt : UInt16 := 105
def kHeaderLen : ℕ := 16

/-- One round of the reflected CRC register; the mask is all ones exactly when
the bit shifted out is set. -/
def crc32Bit (crc : UInt32) : UInt32 :=
  (crc >>> 1) ^^^ (0xEDB88320 &&& (0 - (crc &&& 1)))

def crc32Byte (crc : UInt32) (data : UInt8) : UInt32 :=
  crc32Bit^[8] (crc ^^^ data.toUInt32)

def crc32 (data : List UInt8) : UInt32 :=
  if data = [] then 0 else ~~~ data.foldl crc32Byte 0xFFFFFFFF

structure Header where
  magic : UInt16
  burstId : UInt16
  packetIdx : UInt16
  totalPackets : UInt16
  totalPayloadLen : UInt32
  payloadCrc32 : UInt32
deriving DecidableEq

/-- The packed header, as `memcpy` copies it out on a little-endian core. -/
def Header.toBytes (h : Header) : List UInt8 :=
  le16 h.magic ++ le16 h.burstId ++ le16 h.packetIdx ++ le16 h.totalPackets ++
    le32 h.totalPayloadLen ++ le32 h.payloadCrc32

def Header.ofBytes (p : List UInt8) : Header where
  magic := u16 (p.getD 0 0) (p.getD 1 0)
  burstId := u16 (p.getD 2 0) (p.getD 3 0)
  packetIdx := u16 (p.getD 4 0) (p.getD 5 0)
  totalPackets := u16 (p.getD 6 0) (p.getD 7 0)
  totalPayloadLen := u32 (p.getD 8 0) (p.getD 9 0) (p.getD 10 0) (p.getD 11 0)
  payloadCrc32 := u32 (p.getD 12 0) (p.getD 13 0) (p.getD 14 0) (p.getD 15 0)

/-- How many payload bytes packet `idx` takes; the difference wraps when the
packet starts past the end of the payload. -/
def chunkTake (idx : UInt16) (totalLen : UInt32) : UInt32 :=
  let take := totalLen - idx.toUInt32 * kChunk.toUInt32
  if take > kChunk.toUInt32 then kChunk.toUInt32 else take

def encodePacket (burstId idx total : UInt16) (payload : List UInt8)
    (totalLen payloadCrc : UInt32) : List UInt8 :=
  let off := (idx.toUInt32 * kChunk.toUInt32).toNat
  let take := (chunkTake idx totalLen).toNat
  (Header.mk kMagic burstId idx total totalLen payloadCrc).toBytes ++
    (payload.drop off).take take ++
      List.replicate (kPacketPayload.toNat - kHeaderLen - take) 0

def decodeHeader (pkt : List UInt8) : Option Header :=
  if pkt.length < kHeaderLen then
    none
  else
    let h := Header.ofBytes pkt
    if h.magic ≠ kMagic then
      none
    else if h.totalPackets = 0 ∨ h.totalPackets > kMaxAirPacketsAlt then
      none
    else if h.totalPayloadLen = 0 ∨ h.totalPayloadLen > kMaxTotalPayload then
      none
    else if h.packetIdx ≥ h.totalPackets then
      none
    else
      some h

/-- A consensus frame ("SLRF") or a burst chunk ("BF"). -/
def isConsensusPrefix (p : List UInt8) : Bool :=
  (p.take 4 == [0x53, 0x4C, 0x52, 0x46]) || (p.take 2 == [0x42, 0x46])

/-- An air packet as the receive buffer holds it. -/
structure Packet where
  bytes : List UInt8
  size : bytes.length = kPacketPayload.toNat
deriving DecidableEq

end RadioService.Burst
