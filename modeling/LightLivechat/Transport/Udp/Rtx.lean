import LightLivechat.Lib.Rtp
import LightLivechat.Transport.Udp.Rtcp

/-! Retransmission packets read as RTP: the original's header under another SSRC, the
original's sequence number in front of its payload. -/

namespace LightLivechat.Transport.Udp

open LightLivechat.Lib LightLivechat.Lib.Bytes LightLivechat.Lib.Rtp LightLivechat.Config

def decapsulate (q : Packet) : Packet :=
  { q with seq := be16 q.payload 0, payload := q.payload.drop 2 }

structure Retransmits (p q : Packet) (rtxSsrc : U32) (rtxSeq : U16) : Prop where
  ssrc : q.ssrc = rtxSsrc
  seq : q.seq = rtxSeq
  payloadType : q.payloadType = 97
  timestamp : q.timestamp = p.timestamp
  csrcs : q.csrcs = p.csrcs
  extension : q.extension = p.extension
  payload : q.payload = toBe16 p.seq ++ p.payload
  restores : decapsulate q =
    { p with payloadType := q.payloadType, ssrc := q.ssrc, marker := q.marker }

def rtxHeader (original : Bytes) (rtxSsrc : U32) (rtxSeq : U16) : Bytes :=
  let rtx := write (original.take (headerLen original)) 1 [rtxPayloadType]
  let rtx := write rtx 2 (toBe16 rtxSeq)
  write rtx 8 (toBe32 rtxSsrc)

section

variable {original : Bytes} (rtxSsrc : U32) (rtxSeq : U16)

theorem buildRtxPacket_eq (h : headerLen original ≤ original.length) :
    buildRtxPacket original rtxSsrc rtxSeq =
      rtxHeader original rtxSsrc rtxSeq ++
        (toBe16 (be16 original 2) ++ original.drop (headerLen original)) := by
  have hlen : 12 + (byteAt original 0 &&& 0x0F).toNat * 4 = headerLen original := by
    rw [headerLen, csrcCount, Nat.mul_comm]
  have hmin : 12 ≤ headerLen original := Nat.le_add_right 12 _
  simp only [buildRtxPacket, rtpHeaderMinSize, hlen, if_neg (Nat.not_lt.mpr h),
    if_neg (show ¬ original.length < 12 by omega), rtxHeader, List.append_assoc]

theorem rtxHeader_bytes (h : headerLen original ≤ original.length) :
    (rtxHeader original rtxSsrc rtxSeq).length = headerLen original ∧
      byteAt (rtxHeader original rtxSsrc rtxSeq) 1 = rtxPayloadType ∧
      be16 (rtxHeader original rtxSsrc rtxSeq) 2 = rtxSeq ∧
      be32 (rtxHeader original rtxSsrc rtxSeq) 8 = rtxSsrc ∧
      ∀ i, i < headerLen original → i ≠ 1 → (i < 2 ∨ 4 ≤ i) → (i < 8 ∨ 12 ≤ i) →
        byteAt (rtxHeader original rtxSsrc rtxSeq) i = byteAt original i := by
  have hmin : 12 ≤ headerLen original := Nat.le_add_right 12 _
  obtain ⟨w0, hw0⟩ : ∃ w, w = original.take (headerLen original) := ⟨_, rfl⟩
  obtain ⟨w1, hw1⟩ : ∃ w, w = write w0 1 [rtxPayloadType] := ⟨_, rfl⟩
  obtain ⟨w2, hw2⟩ : ∃ w, w = write w1 2 (toBe16 rtxSeq) := ⟨_, rfl⟩
  obtain ⟨w3, hw3⟩ : ∃ w, w = write w2 8 (toBe32 rtxSsrc) := ⟨_, rfl⟩
  have hrtx : rtxHeader original rtxSsrc rtxSeq = w3 := by rw [hw3, hw2, hw1, hw0]; rfl
  have h0 : w0.length = headerLen original := by rw [hw0, List.length_take, Nat.min_eq_left h]
  have h1 : w1.length = headerLen original := by
    rw [hw1, length_write (by simp only [List.length_singleton]; omega), h0]
  have h2 : w2.length = headerLen original := by
    rw [hw2, length_write (by rw [length_toBe16]; omega), h1]
  have h3 : w3.length = headerLen original := by
    rw [hw3, length_write (by rw [length_toBe32]; omega), h2]
  rw [hrtx]
  refine ⟨h3, ?_, ?_, by rw [hw3, be32_write_same (by omega)], fun i hi hne hseq hssrc => ?_⟩
  · rw [hw3, byteAt_write (by rw [length_toBe32]; omega), if_neg (by omega), hw2,
      byteAt_write (by rw [length_toBe16]; omega), if_neg (by omega), hw1]
    exact byteAt_write_in (k := 0) (by simp only [List.length_singleton]; omega) (by simp)
  · rw [hw3, be16_write_disjoint (by rw [length_toBe32]; omega) (by omega), hw2,
      be16_write_same (by omega)]
  · rw [hw3, byteAt_write (by rw [length_toBe32]; omega), if_neg (by rw [length_toBe32]; omega),
      hw2, byteAt_write (by rw [length_toBe16]; omega), if_neg (by rw [length_toBe16]; omega),
      hw1, byteAt_write (by simp only [List.length_singleton]; omega),
      if_neg (by simp only [List.length_singleton]; omega), hw0, byteAt_take hi]

theorem readHeader_rtxHeader (h : headerLen original ≤ original.length) :
    headerLen (rtxHeader original rtxSsrc rtxSeq) = headerLen original ∧
      hasExtension (rtxHeader original rtxSsrc rtxSeq) = hasExtension original ∧
      readHeader (rtxHeader original rtxSsrc rtxSeq) =
        { readHeader original with
          marker := false, payloadType := 97, seq := rtxSeq, ssrc := rtxSsrc } := by
  have hmin : 12 ≤ headerLen original := Nat.le_add_right 12 _
  obtain ⟨-, hone, hseq, hssrc, hbyte⟩ := rtxHeader_bytes rtxSsrc rtxSeq h
  generalize rtxHeader original rtxSsrc rtxSeq = w at hone hseq hssrc hbyte ⊢
  have hzero : byteAt w 0 = byteAt original 0 :=
    hbyte 0 (by omega) (by omega) (by omega) (by omega)
  have hword : ∀ i, i + 4 ≤ headerLen original → 4 ≤ i → (i + 4 ≤ 8 ∨ 12 ≤ i) →
      be32 w i = be32 original i := by
    intro i hi h4 hssrc
    simp only [be32, be16]
    rw [hbyte i (by omega) (by omega) (by omega) (by omega),
      hbyte (i + 1) (by omega) (by omega) (by omega) (by omega),
      hbyte (i + 2) (by omega) (by omega) (by omega) (by omega),
      hbyte (i + 2 + 1) (by omega) (by omega) (by omega) (by omega)]
  have hcount : csrcCount w = csrcCount original := by rw [csrcCount, hzero, csrcCount]
  have hcsrcs : ((List.range (csrcCount original)).map fun i => be32 w (12 + 4 * i)) =
      (List.range (csrcCount original)).map fun i => be32 original (12 + 4 * i) := by
    refine List.map_congr_left fun i hi => hword _ ?_ (by omega) (by omega)
    have := List.mem_range.mp hi
    rw [headerLen]
    omega
  refine ⟨by rw [headerLen, hcount, headerLen], by rw [hasExtension, hzero, hasExtension], ?_⟩
  simp only [readHeader, hzero, hone, hseq, hword 4 (by omega) (by omega) (by omega), hssrc, hcount,
    hcsrcs]
  rfl

end

section

variable {original : Bytes} {p : Packet} (rtxSsrc : U32) (rtxSeq : U16)

/-- Behind the header come the number, the original's extension and its payload. -/
theorem buildRtxPacket_split (h : read original = some p) :
    buildRtxPacket original rtxSsrc rtxSeq =
      rtxHeader original rtxSsrc rtxSeq ++
        (toBe16 p.seq ++ (extensionBytes p.extension ++ p.payload)) := by
  have hle := Nat.le_trans (headerLen_le_payloadStart original) (payloadStart_le h)
  rw [buildRtxPacket_eq _ _ hle, drop_headerLen h, read_toHeader h]
  rfl

/-- The number goes unnoticed in front of an extension block that repeats it. -/
theorem retransmits_of_repeats (h : read original = some p)
    (hrepeat : ∀ e, p.extension = some e → ∃ n, e.bytes = (List.replicate n (toBe16 p.seq)).flatten) :
    ∃ q, read (buildRtxPacket original rtxSsrc rtxSeq) = some q ∧
      Retransmits p q rtxSsrc rtxSeq := by
  have hle := Nat.le_trans (headerLen_le_payloadStart original) (payloadStart_le h)
  have hlen := (rtxHeader_bytes rtxSsrc rtxSeq hle).1
  obtain ⟨hheaderLen, hx, hheader⟩ := readHeader_rtxHeader rtxSsrc rtxSeq hle
  have hcommute : toBe16 p.seq ++ extensionBytes p.extension =
      extensionBytes p.extension ++ toBe16 p.seq := by
    cases he : p.extension with
    | none => simp [extensionBytes]
    | some e =>
      obtain ⟨n, hn⟩ := hrepeat e he
      simp only [extensionBytes, Option.elim_some, hn, append_flatten_replicate]
  rw [buildRtxPacket_split rtxSsrc rtxSeq h, ← List.append_assoc (toBe16 p.seq), hcommute,
    List.append_assoc, read_append (hlen.trans hheaderLen.symm)
      (hx.trans (read_extension h).1.symm), hheader, ← read_toHeader h]
  exact ⟨_, rfl, {
    ssrc := rfl
    seq := rfl
    payloadType := rfl
    timestamp := rfl
    csrcs := rfl
    extension := rfl
    payload := rfl
    restores := by
      have hnumber : be16 (toBe16 p.seq ++ p.payload) 0 = p.seq := by
        rw [be16_append_left _ (by simp), be16_toBe16]
      simp only [decapsulate, hnumber, List.drop_left' (length_toBe16 p.seq)] }⟩

/-- A retransmission is right exactly when the number commutes with the extension block,
that is when the block repeats it (or there is none). -/
theorem buildRtxPacket_retransmits_iff (h : read original = some p) :
    (∃ q, read (buildRtxPacket original rtxSsrc rtxSeq) = some q ∧
        Retransmits p q rtxSsrc rtxSeq) ↔
      ∀ e, p.extension = some e → ∃ n, e.bytes = (List.replicate n (toBe16 p.seq)).flatten := by
  have hle := Nat.le_trans (headerLen_le_payloadStart original) (payloadStart_le h)
  have hlen := (rtxHeader_bytes rtxSsrc rtxSeq hle).1
  have hheaderLen := (readHeader_rtxHeader rtxSsrc rtxSeq hle).1
  have hsplit := buildRtxPacket_split rtxSsrc rtxSeq h
  constructor
  · rintro ⟨q, hq, hr⟩ e he
    have hbuilt : headerLen (buildRtxPacket original rtxSsrc rtxSeq) =
        (rtxHeader original rtxSsrc rtxSeq).length := by
      rw [hsplit, (readHeader_append (by omega) _).2.1, hheaderLen, hlen]
    have hdrop := drop_headerLen hq
    rw [hbuilt, hsplit, List.drop_left' rfl, hr.extension, hr.payload, he, ← List.append_assoc,
      ← List.append_assoc] at hdrop
    have hcommute : toBe16 p.seq ++ e.bytes = e.bytes ++ toBe16 p.seq :=
      List.append_cancel_right hdrop
    refine ⟨2 + 2 * e.words.toNat, eq_flatten_replicate hcommute ?_⟩
    rw [e.length_bytes, length_toBe16]
    omega
  · exact retransmits_of_repeats rtxSsrc rtxSeq h

end

/-- A packet with an extension of one word, as browsers send it. -/
def extendedPacket : Bytes :=
  [0x90, 96, 0, 7, 0, 0, 0, 1, 0, 0, 0, 2, 0xBE, 0xDE, 0, 1, 0x51, 1, 2, 0, 42]

def barePacket : Bytes := [0x80, 96, 0, 7, 0, 0, 0, 1, 0, 0, 0, 2, 42]

theorem buildRtxPacket_retransmits_iff_bare : ∃ p, read barePacket = some p ∧
    ((∃ q, read (buildRtxPacket barePacket 9 5) = some q ∧ Retransmits p q 9 5) ↔
      ∀ e, p.extension = some e → ∃ n, e.bytes = (List.replicate n (toBe16 p.seq)).flatten) :=
  ⟨_, rfl, buildRtxPacket_retransmits_iff 9 5 rfl⟩

/-- The number ends up where the extension's profile is read. -/
theorem extension_displaced :
    ¬ ∀ (original : Bytes) (p : Packet) (rtxSsrc : U32) (rtxSeq : U16), read original = some p →
      ∃ q, read (buildRtxPacket original rtxSsrc rtxSeq) = some q ∧
        Retransmits p q rtxSsrc rtxSeq := by
  intro h
  obtain ⟨q, hread, -⟩ := h extendedPacket _ 9 5 rfl
  cases hread

end LightLivechat.Transport.Udp
