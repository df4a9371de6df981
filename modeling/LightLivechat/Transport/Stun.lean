import LightLivechat.Lib.Std
import LightLivechat.Lib.Walk

/-! STUN messages: the parser, the integrity check and the binding response.
HMAC-SHA1 and CRC-32 are the third-party primitives the source calls. -/

namespace LightLivechat.Transport.Stun

open LightLivechat.Lib.Bytes LightLivechat.Lib.Std LightLivechat.Lib.Walk

def magicCookie : U32 := 0x2112A442
def headerSize : Nat := 20

def bindingRequest : U16 := 0x0001
def bindingResponse : U16 := 0x0101

def attrUsername : U16 := 0x0006
def attrMessageIntegrity : U16 := 0x0008
def attrXorMappedAddress : U16 := 0x0020
def attrUseCandidate : U16 := 0x0025
def attrFingerprint : U16 := 0x8028
def attrSoftware : U16 := 0x8022

def addrFamilyIpv4 : U8 := 0x01
def addrFamilyIpv6 : U8 := 0x02

structure Primitives where
  hmacSha1 : Bytes → Bytes → Vector U8 20
  crc32 : Bytes → U32

structure StunAttribute where
  attrType : U16
  value : Bytes
  deriving DecidableEq

structure StunMessage where
  msgType : U16
  length : U16
  transactionId : Vector U8 12
  attributes : List StunAttribute
  raw : Bytes

def align4 (n : Nat) : Nat := (n + 3) / 4 * 4

def attrAt (buf : Bytes) (totalLen : Nat) : Reader StunAttribute := fun offset =>
  if offset + 4 ≤ totalLen then
    let attrLen := (be16 buf (offset + 2)).toNat
    if offset + 4 + attrLen > totalLen then none
    else some (⟨be16 buf offset, slice buf (offset + 4) attrLen⟩, offset + 4 + align4 attrLen)
  else none

def parse (buf : Bytes) : Option StunMessage :=
  if buf.length < headerSize then none
  else if byteAt buf 0 &&& 0xC0 ≠ 0 then none
  else if be32 buf 4 ≠ magicCookie then none
  else
    let length := be16 buf 2
    if length.toNat % 4 ≠ 0 then none
    else
      let totalLen := headerSize + length.toNat
      if buf.length < totalLen then none
      else some {
        msgType := be16 buf 0
        length := length
        transactionId := Vector.ofFn fun i => byteAt buf (8 + i)
        attributes := items (attrAt buf totalLen) totalLen headerSize
        raw := buf.take totalLen }

namespace StunMessage

def getAttr (msg : StunMessage) (attrType : U16) : Option StunAttribute :=
  msg.attributes.find? fun a => a.attrType = attrType

def username (msg : StunMessage) : Option String :=
  (msg.getAttr attrUsername).bind fun a => Str.fromUtf8 a.value

def hasUseCandidate (msg : StunMessage) : Bool := (msg.getAttr attrUseCandidate).isSome

def messageIntegrity (msg : StunMessage) : Option Bytes :=
  (msg.getAttr attrMessageIntegrity).map fun a => a.value

end StunMessage

/-- The headers alone, without a check that the value they announce is there. -/
def attrHeaderAt (raw : Bytes) : Reader (U16 × Nat) := fun offset =>
  if offset + 4 ≤ raw.length then
    some ((be16 raw offset, offset), offset + 4 + align4 (be16 raw (offset + 2)).toNat)
  else none

def findAttrOffset (raw : Bytes) (targetType : U16) : Option Nat :=
  ((items (attrHeaderAt raw) raw.length headerSize).find? fun h => h.1 = targetType).map (·.2)

def verifyMessageIntegrity (c : Primitives) (msg : StunMessage) (key : Bytes) : Bool :=
  match msg.messageIntegrity, findAttrOffset msg.raw attrMessageIntegrity with
  | some receivedHmac, some miOffset =>
    let adjustedLen := BitVec.ofNat 16 (miOffset - headerSize + 24)
    let tmp := write (msg.raw.take miOffset) 2 (toBe16 adjustedLen)
    (c.hmacSha1 tmp key).toList = receivedHmac
  | _, _ => false

def iceIntegrityKey (password : String) : Bytes := Str.asBytes password

def writeAttr (buf : Bytes) (attrType : U16) (value : Bytes) : Bytes :=
  buf ++ toBe16 attrType ++ toBe16 (BitVec.ofNat 16 value.length) ++ value ++
    List.replicate ((4 - value.length % 4) % 4) 0

def xorBytes (a b : Bytes) : Bytes := List.zipWith (· ^^^ ·) a b

def encodeXorMappedAddress (addr : SocketAddr) (transactionId : Vector U8 12) : Bytes :=
  let xport (port : U16) := toBe16 (port ^^^ magicCookie.extractLsb' 16 16)
  match addr with
  | .v4 ip port => [0x00, addrFamilyIpv4] ++ xport port ++ xorBytes (toBe32 ip) (toBe32 magicCookie)
  | .v6 ip port _ _ =>
    [0x00, addrFamilyIpv6] ++ xport port ++
      xorBytes (octets ip) (toBe32 magicCookie ++ transactionId.toList)
where
  octets (ip : BitVec 128) : Bytes := (List.range 16).map fun i => ip.extractLsb' (120 - 8 * i) 8

/-- The length field, counting `extra` bytes still to be written. -/
def setLength (buf : Bytes) (extra : Nat) : Bytes :=
  write buf 2 (toBe16 (BitVec.ofNat 16 (buf.length - headerSize + extra)))

def buildBindingResponse (c : Primitives) (transactionId : Vector U8 12) (remoteAddr : SocketAddr)
    (integrityKey : Bytes) : Bytes :=
  let buf := toBe16 bindingResponse ++ toBe16 0 ++ toBe32 magicCookie ++ transactionId.toList
  let buf := writeAttr buf attrXorMappedAddress (encodeXorMappedAddress remoteAddr transactionId)
  let buf := writeAttr buf attrSoftware (Str.asBytes "light-livechat")
  let buf := setLength buf 24
  let buf := writeAttr buf attrMessageIntegrity (c.hmacSha1 buf integrityKey).toList
  let buf := setLength buf 8
  let buf := writeAttr buf attrFingerprint (toBe32 (c.crc32 buf ^^^ 0x5354554E))
  setLength buf 0

theorem attrAt_advances (buf : Bytes) (totalLen : Nat) :
    Advances (attrAt buf totalLen) totalLen where
  lt := by
    intro i b j h
    simp only [attrAt] at h
    split at h
    · split at h
      · cases h
      · cases h
        omega
    · cases h
  bound := by
    intro i b j h
    simp only [attrAt] at h
    split at h
    · omega
    · cases h

theorem attrHeaderAt_advances (raw : Bytes) : Advances (attrHeaderAt raw) raw.length where
  lt := by
    intro i b j h
    simp only [attrHeaderAt] at h
    split at h
    · cases h
      omega
    · cases h
  bound := by
    intro i b j h
    simp only [attrHeaderAt] at h
    split at h
    · omega
    · cases h

theorem verifyMessageIntegrity_eq_false (c : Primitives) {msg : StunMessage} (key : Bytes)
    (h : msg.getAttr attrMessageIntegrity = none) : verifyMessageIntegrity c msg key = false := by
  simp [verifyMessageIntegrity, StunMessage.messageIntegrity, h]

end LightLivechat.Transport.Stun
