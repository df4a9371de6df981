import LightLivechat.Lib.Rtp
import LightLivechat.Lib.Vp8
import LightLivechat.Room.PttRewriter

/-! What the keyframe check looks at: the octet after the descriptor, whatever partition
it is of. -/

namespace LightLivechat.Room

open LightLivechat.Lib LightLivechat.Lib.Bytes LightLivechat.Lib.Rtp LightLivechat.Lib.Vp8

/-- A VP8 octet whose P bit is clear behind the descriptor of a partition's start. -/
structure PartitionStart (rtp : Bytes) (d : Descriptor) : Prop where
  packet : ∃ p octet rest, Rtp.read rtp = some p ∧
    readDescriptor p.payload = some (d, octet :: rest) ∧ octet &&& 0x01 = 0
  start : d.start = true

/-- The start of a key frame: of its first partition. -/
def KeyFrameStart (rtp : Bytes) : Prop := ∃ d, PartitionStart rtp d ∧ d.partition = 0

theorem skip_eq (flag : Prop) [Decidable flag] (k n : Nat) :
    (if flag then k + n else k) = k + (if flag then n else 0) := by
  split <;> rfl

theorem and_layer_flags (x : U8) : x &&& 0x30 ≠ 0 ↔ x &&& 0x20 ≠ 0 ∨ x &&& 0x10 ≠ 0 := by
  have hsplit : x &&& 0x30 = (x &&& 0x20) ||| (x &&& 0x10) := by
    rw [← BitVec.and_or_distrib_left]
    rfl
  have hzero : (x &&& 0x20) ||| (x &&& 0x10) = 0 ↔ x &&& 0x20 = 0 ∧ x &&& 0x10 = 0 :=
    BitVec.or_eq_zero_iff
  rw [hsplit, ne_eq, hzero]
  exact Decidable.not_and_iff_or_not

section

variable {rtp : Bytes} {off : Nat}

theorem descriptorEnd_eq (hoff : off < rtp.length) :
    isVp8Keyframe.descriptorEnd rtp (byteAt rtp off) (off + 1) = some (off + size (rtp.drop off)) ∨
      (isVp8Keyframe.descriptorEnd rtp (byteAt rtp off) (off + 1) = none ∧
        rtp.length ≤ off + size (rtp.drop off)) := by
  have hbyte : ∀ i, byteAt (rtp.drop off) i = byteAt rtp (off + i) := byteAt_drop rtp off
  by_cases hx : byteAt rtp off &&& 0x80 = 0
  · have hsize : size (rtp.drop off) = 1 := size_of_not_extended (by rwa [hbyte])
    rw [isVp8Keyframe.descriptorEnd, if_pos hx, hsize]
    exact .inl rfl
  · have hsize := size_of_extended (b := rtp.drop off) (by rwa [hbyte])
    rw [hbyte, hbyte] at hsize
    rw [isVp8Keyframe.descriptorEnd, if_neg hx]
    by_cases hone : rtp.length ≤ off + 1
    · exact .inr ⟨if_pos hone, by omega⟩
    · rw [if_neg hone]
      by_cases htwo : byteAt rtp (off + 1) &&& 0x80 ≠ 0 ∧ rtp.length ≤ off + 2
      · refine .inr ⟨if_pos htwo, ?_⟩
        rw [if_pos htwo.1] at hsize
        split at hsize <;> omega
      · have hpicture : ∀ k, (if byteAt rtp (off + 1) &&& 0x80 = 0 then k
            else if byteAt rtp (off + 1 + 1) &&& 0x80 ≠ 0 then k + 2 else k + 1) =
            k + (if byteAt rtp (off + 1) &&& 0x80 ≠ 0 then
              if byteAt rtp (off + 2) &&& 0x80 = 0 then 1 else 2 else 0) := by
          intro k
          by_cases hi : byteAt rtp (off + 1) &&& 0x80 = 0
          · rw [if_pos hi, if_neg (fun hn => hn hi), Nat.add_zero]
          · rw [if_neg hi, if_pos hi]
            by_cases hm : byteAt rtp (off + 2) &&& 0x80 = 0
            · rw [if_pos hm, if_neg (fun hn => hn hm)]
            · rw [if_neg hm, if_pos hm]
        refine .inl ((if_neg htwo).trans ?_)
        simp only [hpicture, ← and_layer_flags, skip_eq]
        rw [hsize]
        congr 1
        omega

end

/-- The header checks of the source come down to where the payload starts. -/
theorem isVp8Keyframe_eq (rtp : Bytes) : isVp8Keyframe rtp =
    if rtp.length ≤ payloadStart rtp then false
    else if byteAt rtp (payloadStart rtp) &&& 0x10 = 0 then false
    else
      (isVp8Keyframe.descriptorEnd rtp (byteAt rtp (payloadStart rtp)) (payloadStart rtp + 1)).any
        fun pdOffset => pdOffset < rtp.length ∧ byteAt rtp pdOffset &&& 0x01 = 0 := by
  have hlen : 12 + (byteAt rtp 0 &&& 0x0F).toNat * 4 = headerLen rtp := by
    rw [headerLen, csrcCount, Nat.mul_comm]
  have hmin : 12 ≤ headerLen rtp := Nat.le_add_right 12 _
  have hle := headerLen_le_payloadStart rtp
  simp only [isVp8Keyframe, hlen]
  by_cases hshort : rtp.length < 13
  · rw [if_pos hshort, if_pos (by omega)]
  rw [if_neg hshort]
  by_cases hx : byteAt rtp 0 &&& 0x10 ≠ 0
  · have hstart : payloadStart rtp =
        headerLen rtp + 4 + (be16 rtp (headerLen rtp + 2)).toNat * 4 := by
      rw [payloadStart, hasExtension, if_pos (decide_eq_true hx), Nat.mul_comm]
    by_cases htrunc : rtp.length < headerLen rtp + 4
    · rw [if_pos ⟨hx, htrunc⟩, if_pos (by omega)]
    · rw [if_neg (fun h => htrunc h.2)]
      simp only [if_pos hx, hstart]
      generalize isVp8Keyframe.descriptorEnd _ _ _ = e
      cases e <;> rfl
  · have hstart : payloadStart rtp = headerLen rtp := by
      rw [payloadStart, hasExtension, if_neg (by simpa using hx)]
    rw [if_neg (fun h => hx h.1)]
    simp only [if_neg hx, hstart]
    generalize isVp8Keyframe.descriptorEnd _ _ _ = e
    cases e <;> rfl

theorem exists_partitionStart_iff (rtp : Bytes) : (∃ d, PartitionStart rtp d) ↔
    payloadStart rtp < rtp.length ∧ byteAt rtp (payloadStart rtp) &&& 0x10 ≠ 0 ∧
      payloadStart rtp + size (rtp.drop (payloadStart rtp)) < rtp.length ∧
      byteAt rtp (payloadStart rtp + size (rtp.drop (payloadStart rtp))) &&& 0x01 = 0 := by
  obtain ⟨payload, hpayload⟩ : ∃ b, b = rtp.drop (payloadStart rtp) := ⟨_, rfl⟩
  have hlen : payload.length = rtp.length - payloadStart rtp := by rw [hpayload, List.length_drop]
  have hbyte : ∀ i, byteAt payload i = byteAt rtp (payloadStart rtp + i) := fun i => by
    rw [hpayload, byteAt_drop]
  have htakes := takes_readDescriptor payload
  rw [← hpayload]
  constructor
  · rintro ⟨d, ⟨p, octet, rest, hread, hdescriptor, hbit⟩, hstart⟩
    rw [read_payload hread, ← hpayload] at hdescriptor
    have hfits : size payload ≤ payload.length := Nat.le_of_not_lt fun hshort => by
      rw [htakes.short hshort] at hdescriptor
      cases hdescriptor
    obtain ⟨d', hd'⟩ := htakes.whole hfits
    rw [hdescriptor, Option.some.injEq, Prod.mk.injEq] at hd'
    have hdrop : (payload.drop (size payload)).length = rest.length + 1 := by
      rw [← hd'.2, List.length_cons]
    have hoctet : byteAt payload (size payload) = octet := by
      rw [← Nat.add_zero (size payload), ← byteAt_drop, ← hd'.2]
      rfl
    rw [List.length_drop] at hdrop
    rw [(readDescriptor_first hdescriptor).1, decide_eq_true_eq, hbyte] at hstart
    exact ⟨by omega, hstart, by omega, by rwa [← hbyte, hoctet]⟩
  · rintro ⟨hoff, hstart, hsize, hbit⟩
    obtain ⟨p, hread⟩ := exists_read (Nat.le_of_lt hoff)
    obtain ⟨d, hd⟩ := htakes.whole (by omega)
    rw [List.drop_eq_getElem_cons (by omega), ← byteAt_eq_getElem, hbyte] at hd
    refine ⟨d, ⟨p, _, _, hread, by rw [read_payload hread, ← hpayload, hd], hbit⟩, ?_⟩
    rw [(readDescriptor_first hd).1, hbyte]
    exact decide_eq_true hstart

theorem isVp8Keyframe_iff_start (rtp : Bytes) :
    isVp8Keyframe rtp = true ↔ ∃ d, PartitionStart rtp d := by
  rw [exists_partitionStart_iff, isVp8Keyframe_eq]
  by_cases hoff : rtp.length ≤ payloadStart rtp
  · rw [if_pos hoff]
    exact ⟨fun h => absurd h (by simp), fun h => absurd h.1 (by omega)⟩
  rw [if_neg hoff]
  by_cases hs : byteAt rtp (payloadStart rtp) &&& 0x10 = 0
  · rw [if_pos hs]
    exact ⟨fun h => absurd h (by simp), fun h => absurd hs h.2.1⟩
  rw [if_neg hs]
  rcases descriptorEnd_eq (Nat.lt_of_not_le hoff) with hend | ⟨hend, hlen⟩
  · rw [hend, Option.any_some, decide_eq_true_eq]
    exact ⟨fun h => ⟨by omega, hs, h.1, h.2⟩, fun h => ⟨h.2.2.1, h.2.2.2⟩⟩
  · rw [hend, Option.any_none]
    exact ⟨fun h => absurd h (by simp), fun h => absurd h.2.2.1 (by omega)⟩

theorem PartitionStart.unique {rtp : Bytes} {d d' : Descriptor} (h : PartitionStart rtp d)
    (h' : PartitionStart rtp d') : d = d' := by
  obtain ⟨p, octet, rest, hread, hd, -⟩ := h.packet
  obtain ⟨p', octet', rest', hread', hd', -⟩ := h'.packet
  cases hread.symm.trans hread'
  cases hd.symm.trans hd'
  rfl

/-- The check is right unless a later partition starts with such an octet. -/
theorem isVp8Keyframe_right_iff (rtp : Bytes) :
    (isVp8Keyframe rtp = true ↔ KeyFrameStart rtp) ↔
      ¬ ∃ d, PartitionStart rtp d ∧ d.partition ≠ 0 := by
  rw [isVp8Keyframe_iff_start]
  constructor
  · rintro hiff ⟨d, hd, hne⟩
    obtain ⟨d', hd', hzero⟩ := hiff.mp ⟨d, hd⟩
    exact hne (hd.unique hd' ▸ hzero)
  · intro hnone
    refine ⟨fun ⟨d, hd⟩ => ⟨d, hd, ?_⟩, fun ⟨d, hd, _⟩ => ⟨d, hd⟩⟩
    exact Decidable.byContradiction fun hne => hnone ⟨d, hd, hne⟩

/-- The second partition of a frame, a zero octet first. -/
def secondPartition : Bytes := [0x80, 96, 0, 1, 0, 0, 0, 0, 0, 0, 0, 1, 0x11, 0x00, 0x9D]

theorem second_partition_passes :
    ¬ ∀ rtp, isVp8Keyframe rtp = true ↔ KeyFrameStart rtp := by
  intro h
  obtain ⟨d, ⟨⟨p, octet, rest, hread, hd, -⟩, -⟩, hzero⟩ := (h secondPartition).mp rfl
  cases hread
  cases hd
  exact absurd hzero (by decide)

end LightLivechat.Room
