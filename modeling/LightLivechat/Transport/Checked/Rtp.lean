import LightLivechat.Lib.Checked
import LightLivechat.Room.PttRewriter
import LightLivechat.Transport.Udp.Rtcp
import LightLivechat.Transport.Udp.Twcc

/-! The readers and writers of decrypted RTP packets with every access and every
addition checked.  No bytes make one of them fail. -/

namespace LightLivechat.Transport.Checked.Rtp

open LightLivechat.Lib.Bytes LightLivechat.Lib.Walk LightLivechat.Lib.Checked
open LightLivechat.Config (rtpHeaderMinSize rtxPayloadType)
open LightLivechat.Room (PttRewriter RewriteResult stamp)
open LightLivechat.Transport.Udp (RtpHeader extElementAt extElementAt_bounds extElementAt_advances
  seqOf)

/-- The size of the fixed header and the CSRC list that follows it. -/
def csrcEnd (buf : Bytes) : Checked Nat := do
  let cc := ((← index buf 0) &&& 0x0F).toNat
  add 12 (← mul cc 4)

def parseRtpHeader (buf : Bytes) : Checked RtpHeader := do
  if buf.length < rtpHeaderMinSize then return ⟨0, false, 0, 0, 0, 0⟩
  let b1 ← index buf 1
  return {
    pt := b1 &&& 0x7F
    marker := b1 &&& 0x80 ≠ 0
    seq := ← u16At buf 2
    timestamp := ← u32At buf 4
    ssrc := ← u32At buf 8
    headerLen := ← csrcEnd buf }

def extTurn (buf : Bytes) (extmapId : U8) (extDataEnd : Nat) :
    Nat → Checked (Turn Nat (Option U16)) := fun pos => do
  if ¬ pos < extDataEnd then return .done none
  let byte ← index buf pos
  if byte = 0 then return .next (← add pos 1)
  let id := byte >>> 4 &&& 0x0F
  let len ← add (byte &&& 0x0F).toNat 1
  if id = 15 then return .done none
  let pos ← add pos 1
  if (← add pos len) > extDataEnd then return .done none
  if id = extmapId ∧ 2 ≤ len then return .done (some (← u16At buf pos))
  return .next (← add pos len)

def parseTwccSeq (buf : Bytes) (extmapId : U8) : Checked (Option U16) := do
  if buf.length < rtpHeaderMinSize then return none
  if (← index buf 0) &&& 0x10 = 0 then return none
  let extOffset ← csrcEnd buf
  if buf.length < (← add extOffset 4) then return none
  let profile ← u16At buf extOffset
  let extLenWords := (← u16At buf (← add extOffset 2)).toNat
  if profile ≠ 0xBEDE then return none
  let extDataStart ← add extOffset 4
  let extDataEnd ← add extDataStart (← mul extLenWords 4)
  if buf.length < extDataEnd then return none
  loop (extTurn buf extmapId extDataEnd) (extDataEnd + 1) extDataStart

/-- Where the RTP payload starts; `none` where the extension header is cut short. -/
def payloadOffset (rtp : Bytes) : Checked (Option Nat) := do
  let hasExt := (← index rtp 0) &&& 0x10 ≠ 0
  let offset ← csrcEnd rtp
  if ¬ hasExt then return some offset
  if rtp.length < (← add offset 4) then return none
  let extLen := (← u16At rtp (← add offset 2)).toNat
  return some (← add offset (← add 4 (← mul extLen 4)))

def pictureIdEnd (rtp : Bytes) (x : U8) (pdOffset : Nat) : Checked Nat := do
  if x &&& 0x80 = 0 then return pdOffset
  if (← index rtp pdOffset) &&& 0x80 ≠ 0 then add pdOffset 2 else add pdOffset 1

def descriptorEnd (rtp : Bytes) (pd : U8) (pdOffset : Nat) : Checked (Option Nat) := do
  if pd &&& 0x80 = 0 then return some pdOffset
  if rtp.length ≤ pdOffset then return none
  let x ← index rtp pdOffset
  let pdOffset ← add pdOffset 1
  if x &&& 0x80 ≠ 0 ∧ rtp.length ≤ pdOffset then return none
  let pdOffset ← pictureIdEnd rtp x pdOffset
  let pdOffset ← if x &&& 0x40 ≠ 0 then add pdOffset 1 else pure pdOffset
  if x &&& 0x20 ≠ 0 ∨ x &&& 0x10 ≠ 0 then return some (← add pdOffset 1)
  return some pdOffset

def keyframeAt (rtp : Bytes) (offset : Nat) : Checked Bool := do
  if rtp.length ≤ offset then return false
  let pd ← index rtp offset
  if pd &&& 0x10 = 0 then return false
  let some pdOffset ← descriptorEnd rtp pd (← add offset 1) | return false
  if rtp.length ≤ pdOffset then return false
  return (← index rtp pdOffset) &&& 0x01 = 0

def isVp8Keyframe (rtp : Bytes) : Checked Bool := do
  if rtp.length < 13 then return false
  let some offset ← payloadOffset rtp | return false
  keyframeAt rtp offset

def rewrite (r : PttRewriter) (plaintext : Bytes) (senderUserId : String) (isKeyframe : Bool) :
    Checked (PttRewriter × Bytes × RewriteResult) := do
  if plaintext.length < 12 then return (r, plaintext, .skip)
  if r.state.speaker ≠ some senderUserId then return (r, plaintext, .skip)
  if r.state.pendingKeyframe ∧ ¬ isKeyframe then return (r, plaintext, .pendingKeyframe)
  let state := r.state.emit r.tsGuardGap (← u16At plaintext 2) (← u32At plaintext 4)
  let plaintext ← storeAll plaintext 8 (toBe32 r.virtualSsrc)
  let plaintext ← storeAll plaintext 2 (toBe16 state.lastVirtualSeq)
  let plaintext ← storeAll plaintext 4 (toBe32 state.lastVirtualTs)
  let plaintext ←
    if r.state.awaitingFirstPacket then store plaintext 1 ((← index plaintext 1) ||| 0x80)
    else pure plaintext
  return ({ r with state := state }, plaintext, .ok)

def buildRtxPacket (original : Bytes) (rtxSsrc : U32) (rtxSeq : U16) : Checked Bytes := do
  if original.length < rtpHeaderMinSize then return []
  let headerLen ← csrcEnd original
  if original.length < headerLen then return []
  let origSeq ← u16At original 2
  let payload ← range original headerLen original.length
  -- the capacity asked for
  let _ ← add (← add headerLen 2) payload.length
  let rtx ← range original 0 headerLen
  let rtx ← store rtx 1 rtxPayloadType
  let rtx ← copyInto rtx 2 (toBe16 rtxSeq)
  let rtx ← copyInto rtx 8 (toBe32 rtxSsrc)
  return rtx ++ toBe16 origSeq ++ payload

theorem csrcEnd_ok {buf : Bytes} (h : 0 < buf.length) :
    csrcEnd buf = .ok (12 + (byteAt buf 0 &&& 0x0F).toNat * 4) := by
  have hcc := (byteAt buf 0 &&& 0x0F).isLt
  simp (disch := omega) only [csrcEnd, index_ok, mul_ok, add_ok, ok_bind]

theorem parseRtpHeader_ok {buf : Bytes} (hb : buf.length < 2 ^ 63) :
    parseRtpHeader buf = .ok (Udp.parseRtpHeader buf) := by
  unfold parseRtpHeader Udp.parseRtpHeader
  refine guard_ok fun hlen => ?_
  have h12 : 12 ≤ buf.length := Nat.not_lt.mp hlen
  simp (disch := omega) only [index_ok, u16At_ok, u32At_ok, csrcEnd_ok, ok_bind]
  rfl

theorem extTurn_ok {buf : Bytes} {extDataEnd : Nat} (hb : buf.length < 2 ^ 63)
    (hend : extDataEnd ≤ buf.length) (extmapId : U8) (pos : Nat) :
    extTurn buf extmapId extDataEnd pos =
      .ok (.search (seqOf buf extmapId) (extElementAt buf extDataEnd pos)) := by
  unfold extTurn extElementAt
  by_cases hin : pos < extDataEnd
  · have hlen := (byteAt buf pos &&& 0x0F).isLt
    simp (disch := omega) only [hin, index_ok, add_ok, ok_bind, not_true_eq_false, if_false,
      if_true]
    by_cases hpad : byteAt buf pos = 0
    · simp only [hpad, if_true]
      rfl
    simp only [hpad, if_false]
    by_cases hstop : byteAt buf pos >>> 4 &&& 0x0F = 15
    · simp only [hstop, if_true]
      rfl
    simp only [hstop, if_false, Nat.add_assoc]
    by_cases hcut : pos + (1 + ((byteAt buf pos &&& 0x0F).toNat + 1)) > extDataEnd
    · simp only [hcut, if_true]
      rfl
    simp only [hcut, if_false]
    by_cases hmatch : byteAt buf pos >>> 4 &&& 0x0F = extmapId ∧
        2 ≤ (byteAt buf pos &&& 0x0F).toNat + 1
    · have hhit : seqOf buf extmapId (some (byteAt buf pos >>> 4 &&& 0x0F, pos + 1,
          (byteAt buf pos &&& 0x0F).toNat + 1)) = some (be16 buf (pos + 1)) := if_pos hmatch
      rw [if_pos hmatch, Turn.search_hit hhit, u16At_ok hb (by omega)]
      rfl
    · have hmiss : seqOf buf extmapId (some (byteAt buf pos >>> 4 &&& 0x0F, pos + 1,
          (byteAt buf pos &&& 0x0F).toNat + 1)) = none := if_neg hmatch
      rw [if_neg hmatch, Turn.search_miss hmiss]
      rfl
  · simp only [hin, not_false_eq_true, if_true, if_false]
    rfl

theorem parseTwccSeq_ok {buf : Bytes} (hb : buf.length < 2 ^ 63) (extmapId : U8) :
    parseTwccSeq buf extmapId = .ok (Udp.parseTwccSeq buf extmapId) := by
  unfold parseTwccSeq Udp.parseTwccSeq
  refine guard_ok fun hlen => ?_
  have h12 : 12 ≤ buf.length := Nat.not_lt.mp hlen
  have hcc := (byteAt buf 0 &&& 0x0F).isLt
  rw [index_ok (by omega), ok_bind]
  refine guard_ok fun _ => ?_
  rw [csrcEnd_ok (by omega), ok_bind, add_ok (by omega), ok_bind]
  refine guard_ok fun hext => ?_
  have hwords := (be16 buf (12 + (byteAt buf 0 &&& 0x0F).toNat * 4 + 2)).isLt
  rw [u16At_ok hb (by omega), ok_bind, add_ok (by omega), ok_bind, u16At_ok hb (by omega), ok_bind]
  refine guard_ok fun _ => ?_
  simp (disch := omega) only [add_ok, mul_ok, ok_bind]
  refine guard_ok fun hdata => ?_
  exact loop_search (extElementAt_advances buf _) (seqOf buf extmapId)
    (fun pos _ => extTurn_ok hb (by omega) extmapId pos) (fun _ h =>
      (extElementAt_bounds h).2)
    (by omega) (by omega)

theorem payloadOffset_ok {rtp : Bytes} (hb : rtp.length < 2 ^ 63) (h : 12 ≤ rtp.length) :
    let offset := 12 + (byteAt rtp 0 &&& 0x0F).toNat * 4
    payloadOffset rtp = .ok (if byteAt rtp 0 &&& 0x10 ≠ 0 then
      if rtp.length < offset + 4 then none
      else some (offset + 4 + (be16 rtp (offset + 2)).toNat * 4)
    else some offset) := by
  intro offset
  have hcc := (byteAt rtp 0 &&& 0x0F).isLt
  have hoffset : offset = 12 + (byteAt rtp 0 &&& 0x0F).toNat * 4 := rfl
  have hext := (be16 rtp (offset + 2)).isLt
  simp (disch := omega) only [payloadOffset, index_ok, ok_bind, csrcEnd_ok, ← hoffset]
  by_cases hasExt : byteAt rtp 0 &&& 0x10 ≠ 0
  · rw [if_neg (not_not_intro hasExt), if_pos hasExt, add_ok (by omega), ok_bind]
    refine guard_ok fun hcut => ?_
    simp (disch := omega) only [u16At_ok, mul_ok, add_ok, ok_bind, Nat.add_assoc]
    rfl
  · rw [if_pos hasExt, if_neg hasExt]
    rfl

theorem pictureIdEnd_ok {rtp : Bytes} (hb : rtp.length < 2 ^ 63) {x : U8} {pdOffset : Nat}
    (h : ¬ (x &&& 0x80 ≠ 0 ∧ rtp.length ≤ pdOffset)) :
    pictureIdEnd rtp x pdOffset = .ok (if x &&& 0x80 = 0 then pdOffset
      else if byteAt rtp pdOffset &&& 0x80 ≠ 0 then pdOffset + 2 else pdOffset + 1) := by
  refine guard_ok fun hx => ?_
  have hin : pdOffset < rtp.length := Nat.not_le.mp fun hle => h ⟨hx, hle⟩
  rw [index_ok hin, ok_bind, add_ok (by omega), add_ok (by omega)]
  split <;> rfl

theorem descriptorEnd_ok {rtp : Bytes} (hb : rtp.length < 2 ^ 63) (pd : U8) (pdOffset : Nat) :
    descriptorEnd rtp pd pdOffset =
      .ok (LightLivechat.Room.isVp8Keyframe.descriptorEnd rtp pd pdOffset) := by
  unfold descriptorEnd LightLivechat.Room.isVp8Keyframe.descriptorEnd
  refine guard_ok fun _ => guard_ok fun hx => ?_
  rw [index_ok (by omega), ok_bind, add_ok (by omega), ok_bind]
  refine guard_ok fun hid => ?_
  rw [pictureIdEnd_ok hb hid, ok_bind]
  obtain ⟨idEnd, hidEnd⟩ : ∃ n, n = (if byteAt rtp pdOffset &&& 0x80 = 0 then pdOffset + 1
    else if byteAt rtp (pdOffset + 1) &&& 0x80 ≠ 0 then pdOffset + 1 + 2
    else pdOffset + 1 + 1) := ⟨_, rfl⟩
  have hle : idEnd ≤ pdOffset + 3 := by
    rw [hidEnd]
    split
    · omega
    · split <;> omega
  rw [← hidEnd]
  simp (disch := omega) only [add_ok, ok_bind, pure_bind]
  by_cases hL : byteAt rtp pdOffset &&& 0x40 ≠ 0
  · rw [if_pos hL, if_pos hL]
    split <;> rfl
  · rw [if_neg hL, if_neg hL]
    split <;> rfl

/-- What the unchecked test says of a payload. -/
def keyframeFrom (rtp : Bytes) (offset : Nat) : Bool :=
  if rtp.length ≤ offset then false
  else if byteAt rtp offset &&& 0x10 = 0 then false
  else
    match LightLivechat.Room.isVp8Keyframe.descriptorEnd rtp (byteAt rtp offset) (offset + 1) with
    | none => false
    | some pdOffset => pdOffset < rtp.length ∧ byteAt rtp pdOffset &&& 0x01 = 0

theorem keyframeAt_ok {rtp : Bytes} (hb : rtp.length < 2 ^ 63) (offset : Nat) :
    keyframeAt rtp offset = .ok (keyframeFrom rtp offset) := by
  unfold keyframeAt keyframeFrom
  refine guard_ok fun hin => ?_
  rw [index_ok (by omega), ok_bind]
  refine guard_ok fun _ => ?_
  rw [add_ok (by omega), ok_bind, descriptorEnd_ok hb, ok_bind]
  cases LightLivechat.Room.isVp8Keyframe.descriptorEnd rtp (byteAt rtp offset) (offset + 1) with
  | none => rfl
  | some pdOffset =>
    by_cases hend : rtp.length ≤ pdOffset
    · have hout : ¬ pdOffset < rtp.length := Nat.not_lt.mpr hend
      simp only [if_pos hend, hout, false_and, decide_false]
      rfl
    · have hin : pdOffset < rtp.length := Nat.not_le.mp hend
      simp only [if_neg hend, index_ok hin, ok_bind, hin, true_and]
      rfl

theorem isVp8Keyframe_ok {rtp : Bytes} (hb : rtp.length < 2 ^ 63) :
    isVp8Keyframe rtp = .ok (LightLivechat.Room.isVp8Keyframe rtp) := by
  have hrest : ∀ offset, keyframeAt rtp offset = .ok (keyframeFrom rtp offset) := keyframeAt_ok hb
  unfold isVp8Keyframe LightLivechat.Room.isVp8Keyframe
  refine guard_ok fun hlen => ?_
  rw [payloadOffset_ok hb (by omega), ok_bind]
  by_cases hcut : byteAt rtp 0 &&& 0x10 ≠ 0 ∧
      rtp.length < 12 + (byteAt rtp 0 &&& 0x0F).toNat * 4 + 4
  · rw [if_pos hcut, if_pos hcut.1, if_pos hcut.2]
    rfl
  rw [if_neg hcut]
  by_cases hasExt : byteAt rtp 0 &&& 0x10 ≠ 0
  · rw [if_pos hasExt, if_neg fun hshort => hcut ⟨hasExt, hshort⟩]
    simp only [if_pos hasExt]
    exact hrest _
  · simp only [if_neg hasExt]
    exact hrest _

theorem rewrite_ok (r : PttRewriter) {plaintext : Bytes} (hb : plaintext.length < 2 ^ 63)
    (senderUserId : String) (isKeyframe : Bool) :
    rewrite r plaintext senderUserId isKeyframe =
      .ok (r.rewrite plaintext senderUserId isKeyframe) := by
  unfold rewrite PttRewriter.rewrite
  refine guard_ok fun hlen => guard_ok fun _ => guard_ok fun _ => ?_
  rw [u16At_ok hb (by omega), ok_bind, u32At_ok hb (by omega), ok_bind]
  obtain ⟨state, hstate⟩ : ∃ s, s = r.state.emit r.tsGuardGap (be16 plaintext 2)
    (be32 plaintext 4) := ⟨_, rfl⟩
  obtain ⟨p1, hp1⟩ : ∃ p, p = write plaintext 8 (toBe32 r.virtualSsrc) := ⟨_, rfl⟩
  obtain ⟨p2, hp2⟩ : ∃ p, p = write p1 2 (toBe16 state.lastVirtualSeq) := ⟨_, rfl⟩
  obtain ⟨p3, hp3⟩ : ∃ p, p = write p2 4 (toBe32 state.lastVirtualTs) := ⟨_, rfl⟩
  have h1 : p1.length = plaintext.length := by rw [hp1, length_write (by simp; omega)]
  have h2 : p2.length = plaintext.length := by rw [hp2, length_write (by simp; omega), h1]
  have h3 : p3.length = plaintext.length := by rw [hp3, length_write (by simp; omega), h2]
  simp only [← hstate]
  rw [storeAll_ok (by simp; omega), ok_bind, ← hp1, storeAll_ok (by simp; omega), ok_bind, ← hp2,
    storeAll_ok (by simp; omega), ok_bind, ← hp3]
  simp only [stamp, ← hp1, ← hp2, ← hp3]
  by_cases hfirst : r.state.awaitingFirstPacket
  · simp (disch := omega) only [hfirst, if_true, index_ok, store_ok, ok_bind]
    rfl
  · simp only [hfirst]
    rfl

theorem buildRtxPacket_ok {original : Bytes} (hb : original.length < 2 ^ 63) (rtxSsrc : U32)
    (rtxSeq : U16) :
    buildRtxPacket original rtxSsrc rtxSeq = .ok (Udp.buildRtxPacket original rtxSsrc rtxSeq) := by
  unfold buildRtxPacket Udp.buildRtxPacket
  refine guard_ok fun hlen => ?_
  have h12 : 12 ≤ original.length := Nat.not_lt.mp hlen
  rw [csrcEnd_ok (by omega), ok_bind]
  refine guard_ok fun hhead => ?_
  obtain ⟨headerLen, hheader⟩ : ∃ n, n = 12 + (byteAt original 0 &&& 0x0F).toNat * 4 := ⟨_, rfl⟩
  simp only [← hheader] at hhead ⊢
  obtain ⟨head, hhd⟩ : ∃ b, b = original.take headerLen := ⟨_, rfl⟩
  obtain ⟨p1, hp1⟩ : ∃ p, p = write head 1 [rtxPayloadType] := ⟨_, rfl⟩
  obtain ⟨p2, hp2⟩ : ∃ p, p = write p1 2 (toBe16 rtxSeq) := ⟨_, rfl⟩
  have hle : headerLen ≤ original.length := Nat.not_lt.mp hhead
  have hlen0 : head.length = headerLen := by rw [hhd, List.length_take_of_le hle]
  have hlen1 : p1.length = headerLen := by rw [hp1, length_write (by simp; omega), hlen0]
  have hlen2 : p2.length = headerLen := by rw [hp2, length_write (by simp; omega), hlen1]
  have hrest : slice original headerLen (original.length - headerLen) = original.drop headerLen :=
    List.take_of_length_le (by simp)
  have htake : slice original 0 (headerLen - 0) = head := by simp [slice, hhd]
  rw [u16At_ok hb (by omega), ok_bind, range_ok hle (Nat.le_refl _), ok_bind, hrest,
    add_ok (by omega), ok_bind, add_ok (by simp; omega), ok_bind, range_ok (Nat.zero_le _) hle,
    ok_bind, htake, store_ok (by omega), ok_bind, ← hp1, copyInto_ok (by simp; omega), ok_bind,
    ← hp2, copyInto_ok (by simp; omega), ok_bind, hp2, hp1, hhd]
  rfl

end LightLivechat.Transport.Checked.Rtp
