import LightLivechat.Lib.Bytes

/-! RTP packets, read as the format lays them out: the fixed header, the contributing
sources, a header extension when there is one, the payload. -/

namespace LightLivechat.Lib.Rtp

open LightLivechat.Lib.Bytes

structure Header where
  version : BitVec 2
  padding : Bool
  marker : Bool
  payloadType : BitVec 7
  seq : U16
  timestamp : U32
  ssrc : U32
  csrcs : List U32
  deriving DecidableEq

/-- A header extension, its length in words. -/
@[ext]
structure Extension where
  profile : U16
  words : U16
  data : Bytes
  length : data.length = 4 * words.toNat
  deriving DecidableEq

structure Packet extends Header where
  extension : Option Extension
  payload : Bytes
  deriving DecidableEq

def Extension.bytes (e : Extension) : Bytes := toBe16 e.profile ++ (toBe16 e.words ++ e.data)

def extensionBytes (e : Option Extension) : Bytes := e.elim [] Extension.bytes

def csrcCount (b : Bytes) : Nat := (byteAt b 0 &&& 0x0F).toNat

def hasExtension (b : Bytes) : Bool := byteAt b 0 &&& 0x10 ≠ 0

/-- Where the contributing sources end. -/
def headerLen (b : Bytes) : Nat := 12 + 4 * csrcCount b

def payloadStart (b : Bytes) : Nat :=
  if hasExtension b then headerLen b + 4 + 4 * (be16 b (headerLen b + 2)).toNat else headerLen b

def readHeader (b : Bytes) : Header where
  version := (byteAt b 0).extractLsb' 6 2
  padding := byteAt b 0 &&& 0x20 ≠ 0
  marker := byteAt b 1 &&& 0x80 ≠ 0
  payloadType := (byteAt b 1).extractLsb' 0 7
  seq := be16 b 2
  timestamp := be32 b 4
  ssrc := be32 b 8
  csrcs := (List.range (csrcCount b)).map fun i => be32 b (12 + 4 * i)

/-- A byte string is a packet when the parts its header announces are there. -/
def read (b : Bytes) : Option Packet :=
  if h : payloadStart b ≤ b.length then
    some {
      toHeader := readHeader b
      extension :=
        if hx : hasExtension b then
          some {
            profile := be16 b (headerLen b)
            words := be16 b (headerLen b + 2)
            data := slice b (headerLen b + 4) (4 * (be16 b (headerLen b + 2)).toNat)
            length := length_slice (by rwa [payloadStart, if_pos hx] at h) }
        else none
      payload := b.drop (payloadStart b) }
  else none

theorem headerLen_le_payloadStart (b : Bytes) : headerLen b ≤ payloadStart b := by
  rw [payloadStart]
  split <;> omega

section

variable {b : Bytes} {p : Packet}

theorem payloadStart_le (h : read b = some p) : payloadStart b ≤ b.length := by
  simp only [read] at h
  split at h
  · assumption
  · cases h

theorem read_toHeader (h : read b = some p) : p.toHeader = readHeader b := by
  simp only [read] at h
  split at h
  · cases h
    rfl
  · cases h

theorem read_payload (h : read b = some p) : p.payload = b.drop (payloadStart b) := by
  simp only [read] at h
  split at h
  · cases h
    rfl
  · cases h

theorem read_extension (h : read b = some p) : p.extension.isSome = hasExtension b ∧
    ∀ e, p.extension = some e → e.profile = be16 b (headerLen b) ∧
      e.words = be16 b (headerLen b + 2) ∧
      e.data = slice b (headerLen b + 4) (4 * (be16 b (headerLen b + 2)).toNat) := by
  simp only [read] at h
  split at h
  · cases h
    by_cases hx : hasExtension b
    · rw [dif_pos hx, hx]
      refine ⟨rfl, fun e he => ?_⟩
      cases he
      exact ⟨rfl, rfl, rfl⟩
    · simp [hx]
  · cases h

theorem exists_read (h : payloadStart b ≤ b.length) : ∃ p, read b = some p := ⟨_, dif_pos h⟩

theorem drop_headerLen (h : read b = some p) :
    b.drop (headerLen b) = extensionBytes p.extension ++ p.payload := by
  have hle := payloadStart_le h
  have hpayload := read_payload h
  symm
  simp only [read, dif_pos hle, Option.some.injEq] at h
  subst h
  by_cases hx : hasExtension b
  · rw [payloadStart, if_pos hx] at hle
    simp only [dif_pos hx, extensionBytes, Option.elim_some, Extension.bytes, payloadStart,
      if_pos hx]
    rw [toBe16_be16 (by omega), toBe16_be16 (by omega), List.append_assoc, List.append_assoc,
      slice_append_drop, slice_append_drop b (headerLen b + 2), slice_append_drop]
  · simp only [dif_neg hx, extensionBytes, Option.elim_none, payloadStart, if_neg hx,
      List.nil_append]

end

/-- Whether a packet can be read, and its payload, do not depend on what the fixed header says
behind its first byte. -/
theorem read_of_drop {a b : Bytes} {p : Packet} (hzero : byteAt a 0 = byteAt b 0)
    (hlen : a.length = b.length) (hdrop : a.drop 12 = b.drop 12) (h : read b = some p) :
    ∃ q, read a = some q ∧ q.payload = p.payload := by
  have hcount : csrcCount a = csrcCount b := by rw [csrcCount, hzero, csrcCount]
  have hheaderLen : headerLen a = headerLen b := by rw [headerLen, hcount, headerLen]
  have hwords : be16 a (headerLen b + 2) = be16 b (headerLen b + 2) := by
    have hsplit : headerLen b + 2 = 12 + (4 * csrcCount b + 2) := by rw [headerLen, Nat.add_assoc]
    rw [hsplit, ← be16_drop a, ← be16_drop b, hdrop]
  have hstart : payloadStart a = payloadStart b := by
    rw [payloadStart, hasExtension, hzero, hheaderLen, hwords, payloadStart, hasExtension]
  have hmin : 12 ≤ payloadStart b :=
    Nat.le_trans (Nat.le_add_right 12 _) (headerLen_le_payloadStart b)
  obtain ⟨q, hq⟩ := exists_read (b := a) (by rw [hstart, hlen]; exact payloadStart_le h)
  have hrest : ∀ x : Bytes, x.drop (payloadStart b) = (x.drop 12).drop (payloadStart b - 12) := by
    intro x
    rw [List.drop_drop, Nat.add_sub_cancel' hmin]
  refine ⟨q, hq, ?_⟩
  rw [read_payload hq, read_payload h, hstart, hrest a, hdrop, ← hrest b]

theorem readHeader_append {a : Bytes} (h : headerLen a ≤ a.length) (b : Bytes) :
    readHeader (a ++ b) = readHeader a ∧ headerLen (a ++ b) = headerLen a ∧
      hasExtension (a ++ b) = hasExtension a := by
  have hmin : 12 ≤ a.length := Nat.le_trans (Nat.le_add_right 12 _) h
  have hzero : byteAt (a ++ b) 0 = byteAt a 0 := byteAt_append_left b (by omega)
  have hcount : csrcCount (a ++ b) = csrcCount a := by rw [csrcCount, hzero, csrcCount]
  have hone : byteAt (a ++ b) 1 = byteAt a 1 := byteAt_append_left b (by omega)
  have hseq : be16 (a ++ b) 2 = be16 a 2 := be16_append_left b (by omega)
  have hts : be32 (a ++ b) 4 = be32 a 4 := be32_append_left b (by omega)
  have hssrc : be32 (a ++ b) 8 = be32 a 8 := be32_append_left b (by omega)
  have hcsrcs : ((List.range (csrcCount a)).map fun i => be32 (a ++ b) (12 + 4 * i)) =
      (List.range (csrcCount a)).map fun i => be32 a (12 + 4 * i) := by
    refine List.map_congr_left fun i hi => be32_append_left b ?_
    have := List.mem_range.mp hi
    rw [headerLen] at h
    omega
  exact ⟨by simp only [readHeader, hzero, hcount, hone, hseq, hts, hssrc, hcsrcs],
    by rw [headerLen, hcount, headerLen], by rw [hasExtension, hzero, hasExtension]⟩

theorem Extension.fields_at (e : Extension) (a payload : Bytes) :
    be16 (a ++ (e.bytes ++ payload)) a.length = e.profile ∧
      be16 (a ++ (e.bytes ++ payload)) (a.length + 2) = e.words ∧
      slice (a ++ (e.bytes ++ payload)) (a.length + 4) (4 * e.words.toNat) = e.data := by
  refine ⟨?_, ?_, ?_⟩
  · rw [be16_append_right _ (Nat.le_refl _), Nat.sub_self, bytes, List.append_assoc,
      be16_append_left _ (by simp), be16_toBe16]
  · rw [be16_append_right _ (by omega), Nat.add_sub_cancel_left, bytes, List.append_assoc,
      be16_append_right _ (by simp), List.append_assoc, be16_append_left _ (by simp)]
    exact be16_toBe16 _
  · have hsplit : a ++ (e.bytes ++ payload) =
        (a ++ (toBe16 e.profile ++ toBe16 e.words)) ++ e.data ++ payload := by simp [bytes]
    have hstart : a.length + 4 = (a ++ (toBe16 e.profile ++ toBe16 e.words)).length := by simp
    rw [hsplit, hstart, ← e.length, slice_append]

theorem Extension.length_bytes (e : Extension) : e.bytes.length = 4 + 4 * e.words.toNat := by
  simp only [bytes, List.length_append, length_toBe16, e.length]
  omega

theorem read_append {a : Bytes} (ha : a.length = headerLen a) {e : Option Extension}
    (he : hasExtension a = e.isSome) (payload : Bytes) :
    read (a ++ (extensionBytes e ++ payload)) =
      some { toHeader := readHeader a, extension := e, payload := payload } := by
  obtain ⟨buf, hbuf⟩ : ∃ b, b = a ++ (extensionBytes e ++ payload) := ⟨_, rfl⟩
  obtain ⟨hheader, hlen, hx⟩ :=
    readHeader_append (Nat.le_of_eq ha.symm) (extensionBytes e ++ payload)
  rw [← hbuf] at hheader hlen hx ⊢
  rw [← ha] at hlen
  have hpayload : payloadStart buf = (a ++ extensionBytes e).length := by
    rw [payloadStart, hx, hlen, he, List.length_append]
    cases e with
    | none => rfl
    | some x =>
      have hwords : be16 buf (a.length + 2) = x.words := hbuf ▸ (x.fields_at a payload).2.1
      simp only [Option.isSome_some, if_true, hwords, extensionBytes, Option.elim_some,
        x.length_bytes, Nat.add_assoc]
  obtain ⟨p, hp⟩ : ∃ p, read buf = some p := by
    refine exists_read ?_
    rw [hpayload, hbuf, List.length_append, List.length_append, List.length_append]
    omega
  have htoHeader : p.toHeader = readHeader a := (read_toHeader hp).trans hheader
  have hdrop : p.payload = payload := by
    rw [read_payload hp, hpayload, hbuf, ← List.append_assoc, List.drop_left' rfl]
  have hextension : p.extension = e := by
    obtain ⟨hsome, hfields⟩ := read_extension hp
    rw [hx, he] at hsome
    cases e with
    | none => simpa using hsome
    | some x =>
      obtain ⟨y, hy⟩ := Option.isSome_iff_exists.mp hsome
      obtain ⟨hprofile, hwords, hdata⟩ := hbuf ▸ x.fields_at a payload
      obtain ⟨hyprofile, hywords, hydata⟩ := hlen ▸ hfields y hy
      rw [hwords, hdata] at hydata
      rw [hy, Extension.ext (hyprofile.trans hprofile) (hywords.trans hwords) hydata]
  rw [hp, ← htoHeader, ← hdrop, ← hextension]

/-- An element of an extension in the one-byte-header form. -/
structure Element where
  id : BitVec 4
  data : Bytes
  proper : id ≠ 0 ∧ id ≠ 15
  nonempty : 1 ≤ data.length
  short : data.length ≤ 16
  deriving DecidableEq

/-- The header octet holds the id and one less than the length. -/
def Element.bytes (e : Element) : Bytes := (e.id ++ BitVec.ofNat 4 (e.data.length - 1)) :: e.data

/-- An element, or an octet of padding. -/
def itemBytes (item : Option Element) : Bytes := item.elim [0] Element.bytes

/-- What ends the elements early: the reserved id, with anything after it. -/
def Ends (tail : Bytes) : Prop :=
  tail = [] ∨ ∃ (low : BitVec 4) (rest : Bytes), tail = (15#4 ++ low) :: rest

theorem low_nibble (hi lo : BitVec 4) : (hi ++ lo : U8) &&& 0x0F = lo.setWidth 8 := by
  have hmask : (0x0F : U8) = 0#4 ++ BitVec.allOnes 4 := rfl
  rw [hmask, BitVec.and_append, BitVec.and_zero, BitVec.and_allOnes]
  apply BitVec.eq_of_getLsbD_eq
  intro i h
  rw [BitVec.getLsbD_append, BitVec.getLsbD_setWidth]
  by_cases hlow : i < 4
  · simp [hlow, h]
  · simp [hlow, BitVec.getLsbD_of_ge lo i (by omega)]

theorem high_nibble (hi lo : BitVec 4) : (hi ++ lo : U8) >>> 4 &&& 0x0F = hi.setWidth 8 := by
  have hshift : (hi ++ lo : U8) >>> 4 = 0#4 ++ hi := by
    apply BitVec.eq_of_getLsbD_eq
    intro i h
    rw [BitVec.getLsbD_ushiftRight, BitVec.getLsbD_append, BitVec.getLsbD_append,
      if_neg (by omega), Nat.add_sub_cancel_left]
    by_cases hlow : i < 4
    · simp [hlow]
    · simp [hlow, BitVec.getLsbD_of_ge hi i (by omega)]
  rw [hshift, low_nibble]

theorem setWidth_inj {x y : BitVec 4} (h : x.setWidth 8 = y.setWidth 8) : x = y := by
  simpa using congrArg (BitVec.setWidth 4) h

theorem append_ne_zero {hi : BitVec 4} (h : hi ≠ 0) (lo : BitVec 4) : (hi ++ lo : U8) ≠ 0 := by
  intro hzero
  have hnibble := high_nibble hi lo
  rw [hzero] at hnibble
  exact h (setWidth_inj hnibble.symm)

namespace Element

variable (e : Element)

theorem header_octet : e.id ++ BitVec.ofNat 4 (e.data.length - 1) ≠ (0 : U8) ∧
    (e.id ++ BitVec.ofNat 4 (e.data.length - 1) : U8) >>> 4 &&& 0x0F = e.id.setWidth 8 ∧
    ((e.id ++ BitVec.ofNat 4 (e.data.length - 1) : U8) &&& 0x0F).toNat + 1 = e.data.length ∧
    e.id.setWidth 8 ≠ (15 : U8) := by
  have hnonempty := e.nonempty
  have hshort := e.short
  refine ⟨append_ne_zero e.proper.1 _, high_nibble _ _, ?_, fun h => e.proper.2 ?_⟩
  · rw [low_nibble, BitVec.toNat_setWidth, BitVec.toNat_ofNat]
    omega
  · exact setWidth_inj h

theorem length_bytes : e.bytes.length = 1 + e.data.length := by
  rw [bytes, List.length_cons, Nat.add_comm]

end Element

end LightLivechat.Lib.Rtp
