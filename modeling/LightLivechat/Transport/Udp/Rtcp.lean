import LightLivechat.Config
import LightLivechat.Lib.Bytes
import LightLivechat.Lib.Walk

/-! RTP headers, NACKs, compound RTCP, retransmission packets and the feedback the
server builds itself. -/

namespace LightLivechat.Transport.Udp

open LightLivechat.Lib.Bytes LightLivechat.Lib.Walk LightLivechat.Config

structure RtpHeader where
  pt : U8
  marker : Bool
  seq : U16
  timestamp : U32
  ssrc : U32
  headerLen : Nat
  deriving DecidableEq

def parseRtpHeader (buf : Bytes) : RtpHeader :=
  if buf.length < rtpHeaderMinSize then ⟨0, false, 0, 0, 0, 0⟩
  else
    let b1 := byteAt buf 1
    let cc := (byteAt buf 0 &&& 0x0F).toNat
    { pt := b1 &&& 0x7F
      marker := b1 &&& 0x80 ≠ 0
      seq := be16 buf 2
      timestamp := be32 buf 4
      ssrc := be32 buf 8
      headerLen := 12 + cc * 4 }

structure NackItem where
  mediaSsrc : U32
  pid : U16
  blp : U16
  deriving DecidableEq

def fciAt (buf : Bytes) (mediaSsrc : U32) (fciEnd : Nat) : Reader NackItem := fun fciOff =>
  if fciOff + 4 ≤ fciEnd then
    some (⟨mediaSsrc, be16 buf fciOff, be16 buf (fciOff + 2)⟩, fciOff + 4)
  else none

/-- The items of the packet at an offset; none unless it is a generic NACK. -/
def nackItemsAt (buf : Bytes) : Reader (List NackItem) := fun offset =>
  if offset + 4 ≤ buf.length then
    let fmt := byteAt buf offset &&& 0x1F
    let pt := byteAt buf (offset + 1)
    let pktLen := ((be16 buf (offset + 2)).toNat + 1) * 4
    let found :=
      if pt = rtcpPtNack ∧ fmt = rtcpFmtNack ∧ offset + 12 ≤ buf.length then
        let fciEnd := min (offset + pktLen) buf.length
        items (fciAt buf (be32 buf (offset + 8)) fciEnd) fciEnd (offset + 12)
      else []
    some (found, offset + pktLen)
  else none

def parseRtcpNack (buf : Bytes) : List NackItem := (items (nackItemsAt buf) buf.length 0).flatten

structure RtcpBlockRef where
  offset : Nat
  length : Nat
  mediaSsrc : U32
  deriving DecidableEq

structure CompoundRtcpParsed where
  nackBlocks : List Bytes
  relayBlocks : List RtcpBlockRef
  deriving DecidableEq

/-- One packet of a compound: its two type fields and where it lies. -/
structure RtcpPacketRef where
  fmt : U8
  pt : U8
  block : RtcpBlockRef
  deriving DecidableEq

def rtcpPacketAt (buf : Bytes) : Reader RtcpPacketRef := fun offset =>
  if offset + 4 ≤ buf.length then
    let fmt := byteAt buf offset &&& 0x1F
    let pt := byteAt buf (offset + 1)
    let pktLen := ((be16 buf (offset + 2)).toNat + 1) * 4
    if pktLen = 0 ∨ offset + pktLen > buf.length then none
    else
      let mediaSsrc := if offset + 12 ≤ buf.length then be32 buf (offset + 8) else 0
      some (⟨fmt, pt, ⟨offset, pktLen, mediaSsrc⟩⟩, offset + pktLen)
  else none

namespace RtcpPacketRef

def isNack (p : RtcpPacketRef) : Bool := p.pt = rtcpPtNack ∧ p.fmt = rtcpFmtNack

def isRelayed (p : RtcpPacketRef) : Bool :=
  ¬ p.isNack ∧ (p.pt = rtcpPtRr ∨ (p.pt = rtcpPtPsfb ∧ p.fmt = rtcpFmtPli) ∨
    (p.pt = rtcpPtPsfb ∧ p.fmt = rtcpFmtRemb))

end RtcpPacketRef

def splitCompoundRtcp (buf : Bytes) : CompoundRtcpParsed :=
  let packets := items (rtcpPacketAt buf) buf.length 0
  { nackBlocks := (packets.filter fun p => p.isNack).map fun p =>
      slice buf p.block.offset p.block.length
    relayBlocks := (packets.filter fun p => p.isRelayed).map fun p => p.block }

def assembleCompound (blocks : List Bytes) : Bytes := blocks.flatten

def expandNack (pid blp : U16) : List U16 :=
  pid :: (List.range 16).filterMap fun i =>
    if blp &&& (1 : U16) <<< i ≠ 0 then some (pid + BitVec.ofNat 16 (i + 1)) else none

def buildRtxPacket (original : Bytes) (rtxSsrc : U32) (rtxSeq : U16) : Bytes :=
  if original.length < rtpHeaderMinSize then []
  else
    let cc := (byteAt original 0 &&& 0x0F).toNat
    let headerLen := 12 + cc * 4
    if original.length < headerLen then []
    else
      let origSeq := be16 original 2
      let payload := original.drop headerLen
      let rtx := original.take headerLen
      let rtx := write rtx 1 [rtxPayloadType]
      let rtx := write rtx 2 (toBe16 rtxSeq)
      let rtx := write rtx 8 (toBe32 rtxSsrc)
      rtx ++ toBe16 origSeq ++ payload

def buildPli (mediaSsrc : U32) : Bytes := [0x81, 206, 0, 2] ++ toBe32 0 ++ toBe32 mediaSsrc

def encodeRembBitrate (bps : BitVec 64) : U8 × U32 :=
  let (exp, mantissa) := shrink 64 0 bps
  (exp, mantissa.setWidth 32)
where
  /-- Every shift halves the mantissa, so 64 of them are enough. -/
  shrink : Nat → U8 → BitVec 64 → U8 × BitVec 64
    | 0, exp, mantissa => (exp, mantissa)
    | fuel + 1, exp, mantissa =>
      if mantissa > 0x3FFFF then shrink fuel (exp + 1) (mantissa >>> 1) else (exp, mantissa)

/-- The media SSRC field stays zero; the SSRC meant is the last field. -/
def buildRemb (bitrateBps : BitVec 64) (mediaSsrc : U32) : Bytes :=
  let (exp, mantissa) := encodeRembBitrate bitrateBps
  let bitrate : Bytes :=
    [1, exp <<< 2 ||| ((mantissa >>> 16).setWidth 8 &&& 0x03), (mantissa >>> 8).setWidth 8,
      mantissa.setWidth 8]
  [0x8F, 206, 0, 5] ++ toBe32 0 ++ toBe32 0 ++ [0x52, 0x45, 0x4D, 0x42] ++ bitrate ++
    toBe32 mediaSsrc

end LightLivechat.Transport.Udp
