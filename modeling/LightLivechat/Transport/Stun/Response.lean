import LightLivechat.Transport.Stun.Format
import LightLivechat.Transport.Stun.Writer

/-! The binding response read back: the address, the digest over the part before it
and the checksum at the end. -/

namespace LightLivechat.Transport.Stun

open LightLivechat.Lib.Bytes LightLivechat.Lib.Std LightLivechat.Lib.Tlv

def be128 (b : Bytes) : BitVec 128 := be32 b 0 ++ be32 b 4 ++ (be32 b 8 ++ be32 b 12)

/-- Un-XOR a mapped address; it carries no flow information and no scope. -/
def decodeXorMappedAddress (value : Bytes) (transactionId : Vector U8 12) : Option SocketAddr :=
  let port := be16 value 2 ^^^ magicCookie.extractLsb' 16 16
  let mask := toBe32 magicCookie ++ transactionId.toList
  if byteAt value 1 = addrFamilyIpv4 ∧ value.length = 8 then
    some (.v4 (be32 (xorBytes (value.drop 4) mask) 0) port)
  else if byteAt value 1 = addrFamilyIpv6 ∧ value.length = 20 then
    some (.v6 (be128 (xorBytes (value.drop 4) mask)) port 0 0)
  else none

def withoutScope : SocketAddr → SocketAddr
  | .v4 ip port => .v4 ip port
  | .v6 ip port _ _ => .v6 ip port 0 0

theorem xorBytes_xorBytes (a b tail : Bytes) (h : a.length ≤ b.length) :
    xorBytes (xorBytes a b) (b ++ tail) = a := by
  induction a generalizing b with
  | nil => rfl
  | cons x a ih =>
    cases b with
    | nil => simp at h
    | cons y b =>
      have hx : x ^^^ y ^^^ y = x := by rw [BitVec.xor_assoc, BitVec.xor_self, BitVec.xor_zero]
      have hrest := ih b (by simpa using h)
      simp only [xorBytes] at hrest
      simp only [xorBytes, List.zipWith_cons_cons, List.cons_append, hx, hrest]

theorem length_xorBytes (a b : Bytes) : (xorBytes a b).length = min a.length b.length :=
  List.length_zipWith

theorem length_octets (ip : BitVec 128) : (encodeXorMappedAddress.octets ip).length = 16 := by
  simp [encodeXorMappedAddress.octets]

theorem be128_octets (ip : BitVec 128) : be128 (encodeXorMappedAddress.octets ip) = ip := by
  have hbyte : ∀ k < 16, byteAt (encodeXorMappedAddress.octets ip) k =
      ip.extractLsb' (120 - 8 * k) 8 := by
    intro k hk
    rw [byteAt_eq_getElem (by rw [length_octets]; exact hk)]
    simp [encodeXorMappedAddress.octets]
  have h16 : ∀ k < 15, be16 (encodeXorMappedAddress.octets ip) k =
      ip.extractLsb' (112 - 8 * k) 16 := by
    intro k hk
    rw [be16, hbyte k (by omega), hbyte (k + 1) (by omega),
      BitVec.extractLsb'_append_extractLsb'_eq_extractLsb' (by omega)]
    congr 1
    omega
  have h32 : ∀ k < 13, be32 (encodeXorMappedAddress.octets ip) k =
      ip.extractLsb' (96 - 8 * k) 32 := by
    intro k hk
    rw [be32, h16 k (by omega), h16 (k + 2) (by omega),
      BitVec.extractLsb'_append_extractLsb'_eq_extractLsb' (by omega)]
    congr 1
    omega
  rw [be128, h32 0 (by omega), h32 4 (by omega), h32 8 (by omega), h32 12 (by omega),
    BitVec.extractLsb'_append_extractLsb'_eq_extractLsb' (by rfl),
    BitVec.extractLsb'_append_extractLsb'_eq_extractLsb' (by rfl),
    BitVec.extractLsb'_append_extractLsb'_eq_extractLsb' (by rfl)]
  exact BitVec.extractLsb'_eq_self

section

variable (family : U8) (port : U16) (ip : Bytes)

theorem xport_fields : byteAt ([0x00, family] ++ toBe16 port ++ ip) 1 = family ∧
    be16 ([0x00, family] ++ toBe16 port ++ ip) 2 = port ∧
    ([0x00, family] ++ toBe16 port ++ ip).drop 4 = ip ∧
    ([0x00, family] ++ toBe16 port ++ ip).length = ip.length + 4 := by
  refine ⟨rfl, ?_, rfl, rfl⟩
  rw [List.append_assoc, be16_append_right _ (by simp), be16_append_left _ (by simp)]
  exact be16_toBe16 port

end

theorem decode_encodeXorMappedAddress (addr : SocketAddr) (transactionId : Vector U8 12) :
    decodeXorMappedAddress (encodeXorMappedAddress addr transactionId) transactionId =
      some (withoutScope addr) := by
  have hport : ∀ port : U16, port ^^^ magicCookie.extractLsb' 16 16 ^^^
      magicCookie.extractLsb' 16 16 = port := fun port => by
    rw [BitVec.xor_assoc, BitVec.xor_self, BitVec.xor_zero]
  have hcookie : (toBe32 magicCookie).length = 4 := rfl
  have htid : transactionId.toList.length = 12 := Vector.length_toList
  cases addr with
  | v4 ip port =>
    obtain ⟨hfamily, hfield, hip, hlen⟩ := xport_fields addrFamilyIpv4
      (port ^^^ magicCookie.extractLsb' 16 16) (xorBytes (toBe32 ip) (toBe32 magicCookie))
    have height : (xorBytes (toBe32 ip) (toBe32 magicCookie)).length + 4 = 8 := rfl
    simp only [decodeXorMappedAddress, encodeXorMappedAddress, hfamily, hfield, hip, hlen, height,
      hport, and_self, if_true]
    rw [xorBytes_xorBytes _ _ _ (by simp), be32_toBe32]
    rfl
  | v6 ip port flowinfo scopeId =>
    have hmask : (encodeXorMappedAddress.octets ip).length =
        (toBe32 magicCookie ++ transactionId.toList).length := by
      rw [length_octets, List.length_append, hcookie, htid]
    obtain ⟨hfamily, hfield, hip, hlen⟩ := xport_fields addrFamilyIpv6
      (port ^^^ magicCookie.extractLsb' 16 16)
      (xorBytes (encodeXorMappedAddress.octets ip) (toBe32 magicCookie ++ transactionId.toList))
    have htwenty : (xorBytes (encodeXorMappedAddress.octets ip)
        (toBe32 magicCookie ++ transactionId.toList)).length + 4 = 20 := by
      rw [length_xorBytes, ← hmask, Nat.min_self, length_octets]
    have hundo := xorBytes_xorBytes (encodeXorMappedAddress.octets ip)
      (toBe32 magicCookie ++ transactionId.toList) [] (Nat.le_of_eq hmask)
    rw [List.append_nil] at hundo
    simp only [decodeXorMappedAddress, encodeXorMappedAddress, hfamily, hfield, hip, hlen, htwenty,
      hport, hundo, be128_octets]
    rfl

theorem length_encodeXorMappedAddress (addr : SocketAddr) (transactionId : Vector U8 12) :
    (encodeXorMappedAddress addr transactionId).length ≤ 20 := by
  cases addr with
  | v4 ip port => exact Nat.le_of_lt (by decide : 8 < 20)
  | v6 ip port flowinfo scopeId =>
    rw [encodeXorMappedAddress, (xport_fields _ _ _).2.2.2, length_xorBytes, length_octets]
    omega

section

variable (c : Primitives) (transactionId : Vector U8 12) (addr : SocketAddr) (key : Bytes)

def addressRecord : Record :=
  .zeroPadded attrXorMappedAddress (encodeXorMappedAddress addr transactionId)
    (Nat.lt_of_le_of_lt (length_encodeXorMappedAddress addr transactionId) (by decide))

def softwareRecord : Record :=
  .zeroPadded attrSoftware (Str.asBytes "light-livechat") (by decide)

/-- What the digest is taken over: the header counts the digest itself. -/
def signedPart : Bytes :=
  setLength (header bindingResponse 0 transactionId ++
    [addressRecord transactionId addr, softwareRecord].flatMap Record.bytes) 24

def integrityRecord : Record :=
  .zeroPadded attrMessageIntegrity (c.hmacSha1 (signedPart transactionId addr) key).toList (by simp)

/-- What the checksum is taken over: the header counts the checksum itself. -/
def checkedPart : Bytes :=
  setLength (header bindingResponse 0 transactionId ++
    [addressRecord transactionId addr, softwareRecord,
      integrityRecord c transactionId addr key].flatMap Record.bytes) 8

def fingerprintRecord : Record :=
  .zeroPadded attrFingerprint
    (toBe32 (c.crc32 (checkedPart c transactionId addr key) ^^^ 0x5354554E)) (by simp)

def responseRecords : List Record :=
  [addressRecord transactionId addr, softwareRecord, integrityRecord c transactionId addr key,
    fingerprintRecord c transactionId addr key]

theorem length_responseRecords :
    ((responseRecords c transactionId addr key).flatMap Record.bytes).length < 65536 := by
  have haddr := length_encodeXorMappedAddress addr transactionId
  have hsoftware : (Str.asBytes "light-livechat").length = 14 := by decide
  simp only [responseRecords, List.flatMap_cons, List.flatMap_nil, List.length_append,
    Record.length_bytes, addressRecord, softwareRecord, integrityRecord, fingerprintRecord,
    Record.zeroPadded, hsoftware, Vector.length_toList, length_toBe32, List.length_nil]
  omega

def response : Message :=
  .ofRecords bindingResponse transactionId (responseRecords c transactionId addr key) (by decide)
    (length_responseRecords c transactionId addr key)

theorem writeAttr_checked : setLength (writeAttr (signedPart transactionId addr)
      attrMessageIntegrity (c.hmacSha1 (signedPart transactionId addr) key).toList) 8 =
    checkedPart c transactionId addr key := by
  obtain ⟨digest, hdigest⟩ : ∃ d, d = (c.hmacSha1 (signedPart transactionId addr) key).toList :=
    ⟨_, rfl⟩
  have hlen : digest.length < 65536 := by simp [hdigest]
  rw [← hdigest, signedPart, setLength_header, setLength_writeAttr _ _ _ _ _ hlen]
  subst hdigest
  rfl

/-- Each length field counts what the next attribute needs; the last one counts all. -/
theorem buildBindingResponse_eq :
    buildBindingResponse c transactionId addr key = (response c transactionId addr key).bytes := by
  have hheader : toBe16 bindingResponse ++ toBe16 0 ++ toBe32 magicCookie ++ transactionId.toList =
      header bindingResponse 0 transactionId := by simp [header]
  have hsigned : setLength (writeAttr (writeAttr (header bindingResponse 0 transactionId)
      attrXorMappedAddress (encodeXorMappedAddress addr transactionId))
      attrSoftware (Str.asBytes "light-livechat")) 24 = signedPart transactionId addr := by
    have haddr : writeAttr (header bindingResponse 0 transactionId) attrXorMappedAddress
        (encodeXorMappedAddress addr transactionId) = header bindingResponse 0 transactionId ++
          [addressRecord transactionId addr].flatMap Record.bytes := by
      rw [writeAttr_eq, List.flatMap_singleton]
      rfl
    rw [haddr, setLength_writeAttr _ _ _ _ _ (by decide)]
    rfl
  have hlast : setLength (writeAttr (checkedPart c transactionId addr key) attrFingerprint
      (toBe32 (c.crc32 (checkedPart c transactionId addr key) ^^^ 0x5354554E))) 0 =
      (response c transactionId addr key).bytes := by
    obtain ⟨crc, hcrc⟩ : ∃ x, x = c.crc32 (checkedPart c transactionId addr key) ^^^ 0x5354554E :=
      ⟨_, rfl⟩
    rw [← hcrc, checkedPart, setLength_header, setLength_writeAttr _ _ _ _ _ (by simp),
      setLength_header, response, Message.ofRecords_bytes]
    subst hcrc
    rfl
  simp only [buildBindingResponse, hheader, hsigned, writeAttr_checked, hlast]

theorem length_fingerprintRecord :
    (fingerprintRecord c transactionId addr key).bytes.length = 8 := by
  simp only [Record.length_bytes, fingerprintRecord, Record.zeroPadded, length_toBe32]

theorem signedPart_eq : setLength ((response c transactionId addr key).bytes.take
      ((response c transactionId addr key).bytes.length - 32)) 24 =
    signedPart transactionId addr := by
  have hmi : (integrityRecord c transactionId addr key).bytes.length = 24 := by
    simp only [Record.length_bytes, integrityRecord, Record.zeroPadded, Vector.length_toList]
  have hfp := length_fingerprintRecord c transactionId addr key
  obtain ⟨ℓ, hℓ⟩ : ∃ ℓ, (response c transactionId addr key).bytes =
      header bindingResponse ℓ transactionId ++
        [addressRecord transactionId addr, softwareRecord].flatMap Record.bytes ++
        ((integrityRecord c transactionId addr key).bytes ++
          (fingerprintRecord c transactionId addr key).bytes) := by
    refine ⟨(response c transactionId addr key).length, ?_⟩
    rw [Message.bytes, List.append_assoc]
    congr 1
    simp [response, responseRecords]
  rw [hℓ, List.take_left' (by simp only [List.length_append, hmi, hfp]; omega), setLength_header,
    signedPart, setLength_header]

theorem checkedPart_eq : (response c transactionId addr key).bytes.take
      ((response c transactionId addr key).bytes.length - 8) =
    checkedPart c transactionId addr key := by
  have hfp := length_fingerprintRecord c transactionId addr key
  have hsplit : (response c transactionId addr key).bytes =
      checkedPart c transactionId addr key ++ (fingerprintRecord c transactionId addr key).bytes := by
    have hrecords : responseRecords c transactionId addr key =
        [addressRecord transactionId addr, softwareRecord,
          integrityRecord c transactionId addr key] ++
          [fingerprintRecord c transactionId addr key] := rfl
    rw [response, Message.ofRecords_bytes, checkedPart, setLength_header, hrecords,
      List.flatMap_append, List.flatMap_singleton, List.length_append, hfp, List.append_assoc]
  rw [hsplit, List.length_append, hfp, Nat.add_sub_cancel, List.take_left' rfl]

theorem verifyMessageIntegrity_response (key' : Bytes) :
    verifyMessageIntegrity c (response c transactionId addr key).parsed key' = true ↔
      c.hmacSha1 (signedPart transactionId addr) key' =
        c.hmacSha1 (signedPart transactionId addr) key := by
  have hbefore : ∀ y ∈ [addressRecord transactionId addr, softwareRecord],
      y.kind ≠ attrMessageIntegrity := by
    simp [addressRecord, softwareRecord, Record.zeroPadded, attrXorMappedAddress, attrSoftware,
      attrMessageIntegrity]
  have hrecords : (response c transactionId addr key).records =
      [addressRecord transactionId addr, softwareRecord] ++
        integrityRecord c transactionId addr key ::
          [fingerprintRecord c transactionId addr key] := rfl
  rw [verifyMessageIntegrity_parsed c hrecords rfl hbefore, decide_eq_true_eq]
  exact Vector.toList_inj

end

section

variable (c : Primitives) (transactionId : Vector U8 12) (addr : SocketAddr) (key : Bytes)

/-- What the client reads of a response to it. -/
structure ReadsBack (resp : Bytes) (msg : StunMessage) : Prop where
  msgType : msg.msgType = bindingResponse
  echoes : msg.transactionId = transactionId
  length : headerSize + msg.length.toNat = resp.length
  address : (msg.getAttr attrXorMappedAddress).bind
    (fun a => decodeXorMappedAddress a.value transactionId) = some (withoutScope addr)
  verifies : verifyMessageIntegrity c msg key = true
  others : ∀ key', verifyMessageIntegrity c msg key' = true →
    c.hmacSha1 (setLength (resp.take (resp.length - 32)) 24) key' =
      c.hmacSha1 (setLength (resp.take (resp.length - 32)) 24) key
  fingerprint : msg.attributes.getLast? = some
    ⟨attrFingerprint, toBe32 (c.crc32 (resp.take (resp.length - 8)) ^^^ 0x5354554E)⟩

theorem buildBindingResponse_reads_back :
    ∃ msg, parse (buildBindingResponse c transactionId addr key) = some msg ∧
      ReadsBack c transactionId addr key (buildBindingResponse c transactionId addr key) msg := by
  rw [buildBindingResponse_eq]
  obtain ⟨x, hx⟩ : ∃ x, x = response c transactionId addr key := ⟨_, rfl⟩
  rw [← hx]
  have hparse := x.parse_bytes []
  rw [List.append_nil] at hparse
  refine ⟨x.parsed, hparse, ?_⟩
  subst hx
  exact {
    msgType := rfl
    echoes := rfl
    length := by rw [Message.length_bytes, Message.parsed, Message.length_toNat]
    address := by
      have hfind : (response c transactionId addr key).parsed.getAttr attrXorMappedAddress =
          some (.ofRecord (addressRecord transactionId addr)) :=
        List.find?_cons_of_pos (by rfl)
      rw [hfind]
      exact decode_encodeXorMappedAddress addr transactionId
    verifies := (verifyMessageIntegrity_response c transactionId addr key key).mpr rfl
    others := fun key' h => by
      rw [signedPart_eq]
      exact (verifyMessageIntegrity_response c transactionId addr key key').mp h
    fingerprint := by
      rw [checkedPart_eq]
      rfl }

end

end LightLivechat.Transport.Stun
