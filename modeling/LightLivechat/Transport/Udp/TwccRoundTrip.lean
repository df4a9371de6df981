import LightLivechat.Transport.Udp.TwccAccuracy

/-! The feedback format as a whole.  What a receiver reads is what the recorder held; but the
packet is a word longer than what it is to hold, and its padding does not account for it. -/

namespace LightLivechat.Transport.Udp

open LightLivechat.Lib LightLivechat.Lib.Bytes

/-- What is left once the deltas have been read. -/
def Feedback.rest (f : Feedback) (fb : Bytes) : Option Bytes :=
  (decodeRecvDeltas f.statuses (fb.drop (20 + 2 * ((f.statuses.length + 6) / 7)))).map Prod.snd

/-- The header announces as many words as there are. -/
def LengthValid (fb : Bytes) : Prop := ((be16 fb 2).toNat + 1) * 4 = fb.length

/-- After the deltas come as many bytes of padding as the last one says, or none. -/
def PaddedExactly (f : Feedback) (fb : Bytes) : Prop :=
  ∃ rest, f.rest fb = some rest ∧
    if byteAt fb 0 &&& 0x20 = 0 then rest = []
    else rest ≠ [] ∧ (byteAt fb (fb.length - 1)).toNat = rest.length

/-- A receiver reads what the recorder holds. -/
structure Reported (r : TwccRecorder) (f : Feedback) : Prop where
  baseSeq : f.baseSeq = r.pendingBaseSeq
  count : f.statuses.length = r.pendingCount.toNat
  received : ∀ i < r.pendingCount.toNat, f.statuses.getD i .notReceived ≠ .notReceived ↔
    (r.get (r.pendingBaseSeq + BitVec.ofNat 16 i)).isSome
  deltas : ∃ base, r.baseTime = some base ∧
    f.deltas = (collect base (pendingEntries r)).deltas.map sentDelta

/-- The next feedback goes on from here. -/
structure Advanced (r r' : TwccRecorder) : Prop where
  pendingCount : r'.pendingCount = 0
  fbPktCount : r'.fbPktCount = r.fbPktCount + 1

/-- A packet is decoded to what it was made of, to its last byte. -/
structure RoundTrips (r r' : TwccRecorder) (fb : Bytes) : Prop where
  decoded : ∃ f, decodeTwccFeedback fb = some f ∧ Reported r f ∧ LengthValid fb ∧
    PaddedExactly f fb
  advanced : Advanced r r'

section

variable {r r' : TwccRecorder} {ssrc : U32} {fb : Bytes}

theorem advanced_buildTwccFeedback (h : buildTwccFeedback r ssrc = (r', some fb)) :
    Advanced r r' := by
  obtain ⟨hstarted, -, rfl⟩ := buildTwccFeedback_advance h
  refine ⟨?_, rfl⟩
  simp only [TwccRecorder.pendingCount, hstarted, if_true]
  grind

theorem announces_from (base : Instant) (prev : Option Instant)
    (entries : List (Option ArrivalEntry)) :
    Announces (statusesFrom base prev entries) (deltasFrom base prev entries) := by
  induction entries generalizing prev with
  | nil => exact .nil
  | cons entry entries ih =>
    cases entry with
    | none => exact .notReceived (ih prev)
    | some e =>
      rw [statusesFrom, deltasFrom, statusOf]
      split
      · rename_i hd
        exact .smallDelta hd.1 hd.2 (ih _)
      · exact .largeDelta (ih _)

theorem length_encodeRecvDeltas {statuses : List PacketStatus} {deltas : List Int}
    (h : Announces statuses deltas) :
    (encodeRecvDeltas statuses deltas).length ≤ 2 * statuses.length := by
  induction h with
  | nil => exact Nat.le_refl _
  | notReceived _ ih =>
    rw [encodeRecvDeltas, List.length_cons]
    omega
  | smallDelta _ _ _ ih =>
    rw [encodeRecvDeltas, List.length_cons, List.length_cons]
    omega
  | largeDelta _ ih =>
    rw [encodeRecvDeltas, List.length_append, length_toBe16, List.length_cons]
    omega

theorem byteAt_trailer (k : Nat) : byteAt (trailer k) (k + 3) = BitVec.ofNat 8 k := by
  unfold trailer
  split
  · rw [byteAt_append_right _ (by simp)]
    simp [byteAt]
  · rename_i hk
    rw [Nat.eq_zero_of_not_pos hk]
    rfl

theorem PacketRead.last {statuses : List PacketStatus} {k : Nat} {deltaBytes : Bytes}
    {baseSeq count : U16} {referenceTime24 : U32} {fbPktCount : U8}
    (h : PacketRead statuses k deltaBytes baseSeq count referenceTime24 fbPktCount fb) :
    byteAt fb (fb.length - 1) = BitVec.ofNat 8 k := by
  have hend : fb.length - 1 =
      20 + 2 * ((statuses.length + 6) / 7) + (deltaBytes.length + (k + 3)) := by
    have := h.size
    omega
  rw [hend, ← byteAt_drop, h.rest, byteAt_append_right _ (Nat.le_add_right ..),
    Nat.add_sub_cancel_left, byteAt_trailer]

theorem PacketRead.lengthValid {statuses : List PacketStatus} {k : Nat} {deltaBytes : Bytes}
    {baseSeq count : U16} {referenceTime24 : U32} {fbPktCount : U8}
    (h : PacketRead statuses k deltaBytes baseSeq count referenceTime24 fbPktCount fb)
    (hsize : fb.length < 2 ^ 18) : LengthValid fb := by
  have hwords := h.words
  have hlong := h.size
  unfold LengthValid
  rw [h.length, BitVec.toNat_ofNat]
  omega

/-- Of every packet a receiver reads what the recorder holds; after it comes a trailer. -/
theorem reported_buildTwccFeedback (h : buildTwccFeedback r ssrc = (r', some fb)) :
    ∃ f k, k < 4 ∧ decodeTwccFeedback fb = some f ∧ Reported r f ∧ LengthValid fb ∧
      f.rest fb = some (trailer k) ∧ byteAt fb 0 = (if 0 < k then 0xAF else 0x8F) ∧
      byteAt fb (fb.length - 1) = BitVec.ofNat 8 k := by
  obtain ⟨-, hcap, -⟩ := buildTwccFeedback_advance h
  obtain ⟨base, first, rest, hbase, hreported, hfb⟩ :=
    buildTwccFeedback_eq_some (congrArg Prod.snd h)
  obtain ⟨hstatuses, hdeltas, -⟩ := collect_eq base (pendingEntries r)
  have hannounces := announces_from base none (pendingEntries r)
  have hentries : (pendingEntries r).length = r.pendingCount.toNat := by
    rw [pendingEntries, List.length_map, List.length_range]
  have hcount := length_statusesFrom base none (pendingEntries r)
  have hreceived := statusesFrom_getD base none (pendingEntries r)
  rw [hentries] at hcount
  rw [← hdeltas] at hfb hannounces
  generalize statusesFrom base none (pendingEntries r) = statuses at *
  generalize hds : (collect base (pendingEntries r)).deltas = deltas at *
  have hdecode := decode_feedbackBytes hannounces ssrc r.pendingBaseSeq r.pendingCount
    (BitVec.ofNat 32 ((first - base) / 64000000) &&& 0x00FFFFFF) r.fbPktCount hcount.symm
  obtain ⟨k, hk, hread⟩ := packetRead_feedbackBytes statuses (encodeRecvDeltas statuses deltas) ssrc
    r.pendingBaseSeq r.pendingCount (BitVec.ofNat 32 ((first - base) / 64000000) &&& 0x00FFFFFF)
    r.fbPktCount
  rw [← hfb] at hdecode hread
  have hsize : fb.length < 2 ^ 18 := by
    have hlong := hread.size
    have hbytes := length_encodeRecvDeltas hannounces
    have hcapacity : Config.twccRecorderCapacity = 8192 := rfl
    omega
  refine ⟨_, k, hk, hdecode, ⟨rfl, hcount, fun i hi => ?_, base, hbase, by rw [hds]⟩,
    hread.lengthValid hsize, ?_, hread.first, hread.last⟩
  · rw [hreceived i]
    simp [pendingEntries, List.getD_eq_getElem?_getD, hi]
  · rw [Feedback.rest, hread.rest, decodeRecvDeltas_encode hannounces]
    rfl

/-- All of the format is decoded to what it was made of, but for the padding. -/
theorem roundTrips_iff (h : buildTwccFeedback r ssrc = (r', some fb)) :
    RoundTrips r r' fb ↔ ∃ f, decodeTwccFeedback fb = some f ∧ PaddedExactly f fb := by
  obtain ⟨f, -, -, hdecode, hreported, hlength, -⟩ := reported_buildTwccFeedback h
  constructor
  · rintro ⟨⟨f, hdecode, -, -, hpadded⟩, -⟩
    exact ⟨f, hdecode, hpadded⟩
  · rintro ⟨f', hdecode', hpadded⟩
    cases hdecode.symm.trans hdecode'
    exact ⟨⟨f, hdecode, hreported, hlength, hpadded⟩, advanced_buildTwccFeedback h⟩

/-- The trailer is a word longer than the padding it is to be. -/
theorem feedback_never_roundTrips (h : buildTwccFeedback r ssrc = (r', some fb)) :
    ¬ RoundTrips r r' fb := by
  rw [roundTrips_iff h]
  obtain ⟨f, k, hk, hdecode, -, -, hrest, hfirst, hlast⟩ := reported_buildTwccFeedback h
  rintro ⟨f', hdecode', rest, hrest', hpadded⟩
  cases hdecode.symm.trans hdecode'
  cases hrest.symm.trans hrest'
  rw [hfirst, hlast, BitVec.toNat_ofNat, length_trailer] at hpadded
  by_cases hpos : 0 < k
  · rw [if_pos hpos, if_neg (by decide)] at hpadded
    omega
  · rw [if_neg hpos, if_pos (by decide)] at hpadded
    have hempty := congrArg List.length hpadded
    rw [length_trailer, List.length_nil] at hempty
    omega

end

/-- Two packets fill their words up, and a word of zeroes follows. -/
theorem feedback_never_roundTrips_two : ∃ r' fb,
    buildTwccFeedback (recorderOf [.record 100 0, .record 101 0]) 7 = (r', some fb) ∧
    ¬ RoundTrips (recorderOf [.record 100 0, .record 101 0]) r' fb :=
  ⟨_, _, rfl, feedback_never_roundTrips rfl⟩

/-- For one packet a byte of padding is announced, and five are sent. -/
def oneFeedback : Bytes :=
  [0xAF, 205, 0, 6, 0, 0, 0, 1, 0, 0, 0, 7, 0, 100, 0, 1, 0, 0, 0, 0, 0xD0, 0, 0,
    0, 0, 0, 0, 1]

theorem padding_understated : ∃ r',
    buildTwccFeedback (recorderOf [.record 100 0]) 7 = (r', some oneFeedback) ∧
    ¬ RoundTrips (recorderOf [.record 100 0]) r' oneFeedback := by
  refine ⟨_, rfl, ?_⟩
  rintro ⟨⟨f, hdecode, -, -, rest, hrest, hpadded⟩, -⟩
  cases hdecode
  cases hrest
  exact absurd hpadded (by decide)

end LightLivechat.Transport.Udp
