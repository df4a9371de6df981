/-! The constants of `config.rs` that the modelled functions read. -/

namespace LightLivechat.Config

def zombieTimeoutMs : Nat := 120000

def roomMaxCapacity : Nat := 1000
def roomDefaultCapacity : Nat := 1000

def demuxStunMin : BitVec 8 := 0x00
def demuxStunMax : BitVec 8 := 0x03
def demuxDtlsMin : BitVec 8 := 0x14
def demuxDtlsMax : BitVec 8 := 0x3F
def demuxRtpMin : BitVec 8 := 0x80
def demuxRtpMax : BitVec 8 := 0xBF

def egressQueueSize : Nat := 256

def rtpHeaderMinSize : Nat := 12
def udpRecvBufSize : Nat := 2048

def rtpCacheSize : Nat := 512
def rtxPayloadType : BitVec 8 := 97
def rtcpPtNack : BitVec 8 := 205
def rtcpFmtNack : BitVec 8 := 1

def rtcpPtRr : BitVec 8 := 201
def rtcpPtPsfb : BitVec 8 := 206
def rtcpFmtPli : BitVec 8 := 1
def rtcpFmtRemb : BitVec 8 := 15

def twccExtmapId : BitVec 8 := 6
def twccRecorderCapacity : Nat := 8192
def rtcpPtRtpfb : BitVec 8 := 205

inductive RoomMode where
  | conference
  | ptt
  deriving DecidableEq

inductive BweMode where
  | twcc
  | remb
  deriving DecidableEq

def floorMaxBurstMs : Nat := 30000
def floorPingTimeoutMs : Nat := 5000

end LightLivechat.Config
