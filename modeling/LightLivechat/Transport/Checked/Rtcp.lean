import LightLivechat.Lib.Checked
import LightLivechat.Transport.Udp.Nack

/-! The two walks over compound RTCP with every access and every addition checked. -/

namespace LightLivechat.Transport.Checked.Rtcp

open LightLivechat.Lib.Bytes LightLivechat.Lib.Walk LightLivechat.Lib.Checked
open LightLivechat.Config
open LightLivechat.Transport.Udp (NackItem CompoundRtcpParsed RtcpPacketRef fciAt fciAt_advances
  nackItemsAt nackItemsAt_advances rtcpPacketAt rtcpPacketAt_advances)

def fciTurn (buf : Bytes) (mediaSsrc : U32) (fciEnd : Nat) :
    List NackItem × Nat → Checked (Turn (List NackItem × Nat) (List NackItem))
  | (items, fciOff) => do
    if ¬ (← add fciOff 4) ≤ fciEnd then return .done items
    let pid ← u16At buf fciOff
    let blp ← u16At buf (← add fciOff 2)
    return .next (items ++ [⟨mediaSsrc, pid, blp⟩], ← add fciOff 4)

def nackBlock (buf : Bytes) (offset pktLen : Nat) (items : List NackItem) :
    Checked (List NackItem) := do
  if ¬ (← add offset 12) ≤ buf.length then return items
  let mediaSsrc ← u32At buf (← add offset 8)
  let fciStart ← add offset 12
  let fciEnd := min (← add offset pktLen) buf.length
  loop (fciTurn buf mediaSsrc fciEnd) (buf.length + 1) (items, fciStart)

def nackTurn (buf : Bytes) :
    List NackItem × Nat → Checked (Turn (List NackItem × Nat) (List NackItem))
  | (items, offset) => do
    if ¬ (← add offset 4) ≤ buf.length then return .done items
    if buf.length < (← add offset 4) then return .done items
    let fmt := (← index buf offset) &&& 0x1F
    let pt ← index buf (← add offset 1)
    let lengthWords := (← u16At buf (← add offset 2)).toNat
    let pktLen ← mul (← add lengthWords 1) 4
    let items ←
      if pt = rtcpPtNack ∧ fmt = rtcpFmtNack then nackBlock buf offset pktLen items else pure items
    let offset ← add offset pktLen
    if pktLen = 0 then return .done items
    return .next (items, offset)

def parseRtcpNack (buf : Bytes) : Checked (List NackItem) :=
  loop (nackTurn buf) (buf.length + 1) ([], 0)

def mediaSsrcAt (buf : Bytes) (offset : Nat) : Checked U32 := do
  if (← add offset 12) ≤ buf.length then u32At buf (← add offset 8) else return 0

def splitTurn (buf : Bytes) :
    CompoundRtcpParsed × Nat → Checked (Turn (CompoundRtcpParsed × Nat) CompoundRtcpParsed)
  | (result, offset) => do
    if ¬ (← add offset 4) ≤ buf.length then return .done result
    let fmt := (← index buf offset) &&& 0x1F
    let pt ← index buf (← add offset 1)
    let lengthWords := (← u16At buf (← add offset 2)).toNat
    let pktLen ← mul (← add lengthWords 1) 4
    if pktLen = 0 ∨ (← add offset pktLen) > buf.length then return .done result
    let mediaSsrc ← mediaSsrcAt buf offset
    let next ← add offset pktLen
    if pt = rtcpPtNack ∧ fmt = rtcpFmtNack then
      let block ← range buf offset next
      return .next ({ result with nackBlocks := result.nackBlocks ++ [block] }, next)
    if pt = rtcpPtRr ∨ (pt = rtcpPtPsfb ∧ fmt = rtcpFmtPli) ∨
        (pt = rtcpPtPsfb ∧ fmt = rtcpFmtRemb) then
      return .next ({ result with
        relayBlocks := result.relayBlocks ++ [⟨offset, pktLen, mediaSsrc⟩] }, next)
    return .next (result, next)

def splitCompoundRtcp (buf : Bytes) : Checked CompoundRtcpParsed :=
  loop (splitTurn buf) (buf.length + 1) (⟨[], []⟩, 0)

variable {buf : Bytes}

theorem fciTurn_ok (hb : buf.length < 2 ^ 63) (mediaSsrc : U32) {fciEnd : Nat}
    (hend : fciEnd ≤ buf.length) (items : List NackItem) {i : Nat} (hi : i ≤ buf.length) :
    fciTurn buf mediaSsrc fciEnd (items, i) =
      .ok (.fold (fun items n => items ++ [n]) items (fciAt buf mediaSsrc fciEnd i)) := by
  unfold fciTurn fciAt
  simp (disch := omega) only [add_ok, ok_bind]
  by_cases hin : i + 4 ≤ fciEnd
  · simp (disch := omega) only [hin, u16At_ok, ok_bind, not_true_eq_false, if_false, if_true]
    rfl
  · simp only [hin, not_false_eq_true, if_true, if_false]
    rfl

theorem fciAt_bound {mediaSsrc : U32} {fciEnd i j : Nat} {n : NackItem}
    (h : fciAt buf mediaSsrc fciEnd i = some (n, j)) : j ≤ fciEnd := by
  simp only [fciAt] at h
  split at h
  · cases h
    omega
  · cases h

theorem nackBlock_ok (hb : buf.length < 2 ^ 63) {offset pktLen : Nat} (ho : offset ≤ buf.length)
    (hlen : pktLen ≤ 2 ^ 18) (acc : List NackItem) :
    nackBlock buf offset pktLen acc = .ok (acc ++ if offset + 12 ≤ buf.length then
      items (fciAt buf (be32 buf (offset + 8)) (min (offset + pktLen) buf.length))
        (min (offset + pktLen) buf.length) (offset + 12)
    else []) := by
  simp (disch := omega) only [nackBlock, add_ok, ok_bind]
  by_cases hhead : offset + 12 ≤ buf.length
  · rw [if_neg (not_not_intro hhead), if_pos hhead, u32At_ok hb (by omega), ok_bind,
      loop_fold (fciAt_advances buf _ _) (fun items n => items ++ [n])
        (fun items _ hi => fciTurn_ok hb _ (by omega) items hi)
        (fun _ h => Nat.le_trans (fciAt_bound h) (by omega)) hhead (by omega),
      List.foldl_append_eq_append, ← List.flatMap_def, List.flatMap_singleton']
  · rw [if_pos hhead, if_neg hhead, List.append_nil]
    rfl

theorem nackTurn_ok (hb : buf.length < 2 ^ 63) (acc : List NackItem) {i : Nat}
    (hi : i ≤ buf.length + 2 ^ 18) :
    nackTurn buf (acc, i) =
      .ok (.fold (fun acc found => acc ++ found) acc (nackItemsAt buf i)) := by
  have hwords := (be16 buf (i + 2)).isLt
  unfold nackTurn nackItemsAt
  simp (disch := omega) only [add_ok, ok_bind]
  by_cases hin : i + 4 ≤ buf.length
  · have hpos : ¬ ((be16 buf (i + 2)).toNat + 1) * 4 = 0 := by omega
    simp (disch := omega) only [if_neg (not_not_intro hin), if_neg (Nat.not_lt.mpr hin), if_pos hin,
      index_ok, u16At_ok, add_ok, mul_ok, nackBlock_ok, ok_bind, if_neg hpos, pure_bind]
    by_cases hnack : byteAt buf (i + 1) = rtcpPtNack ∧ byteAt buf i &&& 0x1F = rtcpFmtNack
    · rw [if_pos hnack]
      simp only [hnack.1, hnack.2, true_and]
      rfl
    · rw [if_neg hnack, if_neg fun h => hnack ⟨h.1, h.2.1⟩]
      simp only [Turn.fold, List.append_nil]
      rfl
  · rw [if_pos hin, if_neg hin]
    rfl

theorem nackItemsAt_bound {i j : Nat} {found : List NackItem}
    (h : nackItemsAt buf i = some (found, j)) : j ≤ buf.length + 2 ^ 18 := by
  have hwords := (be16 buf (i + 2)).isLt
  simp only [nackItemsAt] at h
  split at h
  · cases h
    omega
  · cases h

theorem parseRtcpNack_ok (hb : buf.length < 2 ^ 63) :
    parseRtcpNack buf = .ok (Udp.parseRtcpNack buf) := by
  rw [parseRtcpNack, loop_fold (nackItemsAt_advances buf) (fun acc found => acc ++ found)
    (fun acc _ hi => nackTurn_ok hb acc hi) (fun _ h => nackItemsAt_bound h) (Nat.zero_le _)
    (by omega), Udp.parseRtcpNack]
  have hflat : ∀ found : List (List NackItem),
      found.foldl (fun acc found => acc ++ id found) [] = found.flatten := fun found => by
    rw [List.foldl_append_eq_append, List.map_id, List.nil_append]
  exact congrArg _ (hflat _)

def put (buf : Bytes) (result : CompoundRtcpParsed) (p : RtcpPacketRef) : CompoundRtcpParsed :=
  if p.isNack then
    { result with nackBlocks := result.nackBlocks ++ [slice buf p.block.offset p.block.length] }
  else if p.isRelayed then { result with relayBlocks := result.relayBlocks ++ [p.block] }
  else result

theorem foldl_put (packets : List RtcpPacketRef) (result : CompoundRtcpParsed) :
    packets.foldl (put buf) result =
      { nackBlocks := result.nackBlocks ++ (packets.filter fun p => p.isNack).map fun p =>
          slice buf p.block.offset p.block.length
        relayBlocks := result.relayBlocks ++ (packets.filter fun p => p.isRelayed).map fun p =>
          p.block } := by
  induction packets generalizing result with
  | nil => simp
  | cons p packets ih =>
    rw [List.foldl_cons, ih, put]
    by_cases hnack : p.isNack
    · have hrelayed : p.isRelayed = false := by simp [RtcpPacketRef.isRelayed, hnack]
      simp [hnack, hrelayed]
    · by_cases hrelayed : p.isRelayed <;> simp [hnack, hrelayed]

theorem mediaSsrcAt_ok (hb : buf.length < 2 ^ 63) {offset : Nat} (ho : offset ≤ buf.length) :
    mediaSsrcAt buf offset =
      .ok (if offset + 12 ≤ buf.length then be32 buf (offset + 8) else 0) := by
  simp (disch := omega) only [mediaSsrcAt, add_ok, ok_bind]
  by_cases h : offset + 12 ≤ buf.length
  · rw [if_pos h, if_pos h, u32At_ok hb (by omega)]
  · rw [if_neg h, if_neg h]
    rfl

theorem splitTurn_ok (hb : buf.length < 2 ^ 63) (result : CompoundRtcpParsed) {i : Nat}
    (hi : i ≤ buf.length) :
    splitTurn buf (result, i) = .ok (.fold (put buf) result (rtcpPacketAt buf i)) := by
  have hwords := (be16 buf (i + 2)).isLt
  unfold splitTurn rtcpPacketAt
  simp (disch := omega) only [add_ok, ok_bind]
  by_cases hin : i + 4 ≤ buf.length
  · simp (disch := omega) only [if_neg (not_not_intro hin), if_pos hin, index_ok, u16At_ok, add_ok,
      mul_ok, ok_bind]
    obtain ⟨pktLen, hlen⟩ : ∃ n, n = ((be16 buf (i + 2)).toNat + 1) * 4 := ⟨_, rfl⟩
    simp only [← hlen]
    by_cases hcut : pktLen = 0 ∨ i + pktLen > buf.length
    · rw [if_pos hcut, if_pos hcut]
      rfl
    rw [if_neg hcut, if_neg hcut, mediaSsrcAt_ok hb hi, ok_bind]
    obtain ⟨p, hp⟩ : ∃ p : RtcpPacketRef, p = ⟨byteAt buf i &&& 0x1F, byteAt buf (i + 1), i, pktLen,
      if i + 12 ≤ buf.length then be32 buf (i + 8) else 0⟩ := ⟨_, rfl⟩
    rw [← hp]
    have isNack : p.isNack ↔ byteAt buf (i + 1) = rtcpPtNack ∧
        byteAt buf i &&& 0x1F = rtcpFmtNack := by rw [hp, RtcpPacketRef.isNack, decide_eq_true_iff]
    have isRelayed : p.isRelayed ↔ ¬ p.isNack ∧ (byteAt buf (i + 1) = rtcpPtRr ∨
        (byteAt buf (i + 1) = rtcpPtPsfb ∧ byteAt buf i &&& 0x1F = rtcpFmtPli) ∨
        (byteAt buf (i + 1) = rtcpPtPsfb ∧ byteAt buf i &&& 0x1F = rtcpFmtRemb)) := by
      rw [hp, RtcpPacketRef.isRelayed, decide_eq_true_iff]
    by_cases hnack : p.isNack
    · rw [if_pos (isNack.mp hnack), range_ok (by omega) (by omega), ok_bind, Turn.fold, put,
        if_pos hnack, Nat.add_sub_cancel_left, hp]
      rfl
    rw [if_neg fun h => hnack (isNack.mpr h)]
    by_cases hrelayed : p.isRelayed
    · rw [if_pos (isRelayed.mp hrelayed).2, Turn.fold, put, if_neg hnack, if_pos hrelayed, hp]
      rfl
    · rw [if_neg fun h => hrelayed (isRelayed.mpr ⟨hnack, h⟩), Turn.fold, put, if_neg hnack,
        if_neg hrelayed]
      rfl
  · rw [if_pos hin, if_neg hin]
    rfl

theorem rtcpPacketAt_bound {i j : Nat} {p : RtcpPacketRef}
    (h : rtcpPacketAt buf i = some (p, j)) : j ≤ buf.length := by
  simp only [rtcpPacketAt] at h
  split at h
  · split at h
    · cases h
    · cases h
      omega
  · cases h

theorem splitCompoundRtcp_ok (hb : buf.length < 2 ^ 63) :
    splitCompoundRtcp buf = .ok (Udp.splitCompoundRtcp buf) := by
  rw [splitCompoundRtcp, loop_fold (rtcpPacketAt_advances buf) (put buf)
    (fun result _ hi => splitTurn_ok hb result hi) (fun _ h => rtcpPacketAt_bound h)
    (Nat.zero_le _) (by omega), foldl_put]
  rfl

end LightLivechat.Transport.Checked.Rtcp
