import LightLivechat.Lib.Bytes

/-! The push-to-talk rewriter: packets of successive speakers leave under one
virtual SSRC, with sequence numbers and timestamps shifted by a per-burst offset. -/

namespace LightLivechat.Room

open LightLivechat.Lib.Bytes

inductive RewriteResult where
  | ok
  | pendingKeyframe
  | skip
  deriving DecidableEq

structure RewriteState where
  speaker : Option String
  originBaseSeq : U16
  originBaseTs : U32
  virtualBaseSeq : U16
  virtualBaseTs : U32
  lastVirtualSeq : U16
  lastVirtualTs : U32
  awaitingFirstPacket : Bool
  pendingKeyframe : Bool
  deriving DecidableEq

structure PttRewriter where
  virtualSsrc : U32
  tsGuardGap : U32
  requireKeyframe : Bool
  state : RewriteState
  deriving DecidableEq

def tsGuardGapAudio : U32 := 960
def tsGuardGapVideo : U32 := 3000

namespace PttRewriter

/-- `virtualSsrc` is the random number the source draws. -/
def new (virtualSsrc tsGuardGap : U32) (requireKeyframe : Bool) : PttRewriter where
  virtualSsrc := virtualSsrc
  tsGuardGap := tsGuardGap
  requireKeyframe := requireKeyframe
  state := {
    speaker := none
    originBaseSeq := 0
    originBaseTs := 0
    virtualBaseSeq := 0
    virtualBaseTs := 0
    lastVirtualSeq := 0
    lastVirtualTs := 0
    awaitingFirstPacket := false
    pendingKeyframe := false }

def newAudio (virtualSsrc : U32) : PttRewriter := new virtualSsrc tsGuardGapAudio false

def newVideo (virtualSsrc : U32) : PttRewriter := new virtualSsrc tsGuardGapVideo true

def switchSpeaker (r : PttRewriter) (userId : String) : PttRewriter :=
  { r with state := { r.state with
      speaker := some userId
      awaitingFirstPacket := true
      pendingKeyframe := r.requireKeyframe } }

def clearSpeaker (r : PttRewriter) : PttRewriter :=
  { r with state := { r.state with
      speaker := none
      awaitingFirstPacket := false
      pendingKeyframe := false } }

end PttRewriter

/-- The first packet of a burst sets the offsets: the virtual numbers go on from
the ones emitted last. -/
def RewriteState.rebase (s : RewriteState) (tsGuardGap : U32) (origSeq : U16) (origTs : U32) :
    RewriteState :=
  if s.awaitingFirstPacket then
    { s with
      originBaseSeq := origSeq
      originBaseTs := origTs
      virtualBaseSeq := s.lastVirtualSeq + 1
      virtualBaseTs := s.lastVirtualTs + tsGuardGap
      awaitingFirstPacket := false }
  else s

def RewriteState.virtualSeq (s : RewriteState) (origSeq : U16) : U16 :=
  origSeq - s.originBaseSeq + s.virtualBaseSeq

def RewriteState.virtualTs (s : RewriteState) (origTs : U32) : U32 :=
  origTs - s.originBaseTs + s.virtualBaseTs

/-- The state a packet with these numbers leaves behind when it is emitted. -/
def RewriteState.emit (s : RewriteState) (tsGuardGap : U32) (origSeq : U16) (origTs : U32) :
    RewriteState :=
  let s := { s with pendingKeyframe := false }.rebase tsGuardGap origSeq origTs
  { s with
    lastVirtualSeq := s.virtualSeq origSeq
    lastVirtualTs := s.virtualTs origTs }

/-- The header fields overwritten in place: SSRC, sequence number, timestamp, and
the marker bit of a burst's first packet. -/
def stamp (plaintext : Bytes) (ssrc : U32) (seq : U16) (ts : U32) (isFirst : Bool) : Bytes :=
  let plaintext := write plaintext 8 (toBe32 ssrc)
  let plaintext := write plaintext 2 (toBe16 seq)
  let plaintext := write plaintext 4 (toBe32 ts)
  if isFirst then write plaintext 1 [byteAt plaintext 1 ||| 0x80] else plaintext

namespace PttRewriter

def rewrite (r : PttRewriter) (plaintext : Bytes) (senderUserId : String) (isKeyframe : Bool) :
    PttRewriter × Bytes × RewriteResult :=
  if plaintext.length < 12 then (r, plaintext, .skip)
  else if r.state.speaker ≠ some senderUserId then (r, plaintext, .skip)
  else if r.state.pendingKeyframe ∧ ¬ isKeyframe then (r, plaintext, .pendingKeyframe)
  else
    let state := r.state.emit r.tsGuardGap (be16 plaintext 2) (be32 plaintext 4)
    ({ r with state := state },
      stamp plaintext r.virtualSsrc state.lastVirtualSeq state.lastVirtualTs
        r.state.awaitingFirstPacket,
      .ok)

def reverseSeq (r : PttRewriter) (virtualSeq : U16) : U16 :=
  virtualSeq - r.state.virtualBaseSeq + r.state.originBaseSeq

def isCurrentSpeaker (r : PttRewriter) (userId : String) : Bool :=
  r.state.speaker = some userId

end PttRewriter

/-- Start of a VP8 key frame, read through the RTP header and the VP8 payload
descriptor.  Each `none` is one of the source's truncation checks. -/
def isVp8Keyframe (rtp : Bytes) : Bool :=
  if rtp.length < 13 then false
  else
    let cc := (byteAt rtp 0 &&& 0x0F).toNat
    let hasExt := byteAt rtp 0 &&& 0x10 ≠ 0
    let offset := 12 + cc * 4
    if hasExt ∧ rtp.length < offset + 4 then false
    else
      let offset := if hasExt then offset + 4 + (be16 rtp (offset + 2)).toNat * 4 else offset
      if rtp.length ≤ offset then false
      else
        let pd := byteAt rtp offset
        if pd &&& 0x10 = 0 then false
        else
          match descriptorEnd rtp pd (offset + 1) with
          | none => false
          | some pdOffset => pdOffset < rtp.length ∧ byteAt rtp pdOffset &&& 0x01 = 0
where
  /-- The offset after the descriptor's extension bytes. -/
  descriptorEnd (rtp : Bytes) (pd : U8) (pdOffset : Nat) : Option Nat :=
    if pd &&& 0x80 = 0 then some pdOffset
    else if rtp.length ≤ pdOffset then none
    else
      let x := byteAt rtp pdOffset
      let pdOffset := pdOffset + 1
      if x &&& 0x80 ≠ 0 ∧ rtp.length ≤ pdOffset then none
      else
        let pdOffset :=
          if x &&& 0x80 = 0 then pdOffset
          else if byteAt rtp pdOffset &&& 0x80 ≠ 0 then pdOffset + 2 else pdOffset + 1
        let pdOffset := if x &&& 0x40 ≠ 0 then pdOffset + 1 else pdOffset
        some (if x &&& 0x20 ≠ 0 ∨ x &&& 0x10 ≠ 0 then pdOffset + 1 else pdOffset)

@[simp] theorem PttRewriter.clearSpeaker_speaker (r : PttRewriter) :
    r.clearSpeaker.state.speaker = none := rfl

namespace RewriteState

variable (s : RewriteState) (gap : U32) (seq : U16) (ts : U32)

@[simp] theorem emit_speaker : (s.emit gap seq ts).speaker = s.speaker := by
  simp only [emit, rebase]
  split <;> rfl

@[simp] theorem emit_awaitingFirstPacket : (s.emit gap seq ts).awaitingFirstPacket = false := by
  simp only [emit, rebase]
  split <;> simp_all

theorem emit_first (h : s.awaitingFirstPacket = true) :
    (s.emit gap seq ts).originBaseSeq = seq ∧ (s.emit gap seq ts).originBaseTs = ts ∧
      (s.emit gap seq ts).virtualBaseSeq = s.lastVirtualSeq + 1 ∧
      (s.emit gap seq ts).virtualBaseTs = s.lastVirtualTs + gap ∧
      (s.emit gap seq ts).lastVirtualSeq = s.lastVirtualSeq + 1 ∧
      (s.emit gap seq ts).lastVirtualTs = s.lastVirtualTs + gap := by
  simp [emit, rebase, h, virtualSeq, virtualTs]

theorem emit_next (h : s.awaitingFirstPacket = false) :
    (s.emit gap seq ts).originBaseSeq = s.originBaseSeq ∧
      (s.emit gap seq ts).originBaseTs = s.originBaseTs ∧
      (s.emit gap seq ts).virtualBaseSeq = s.virtualBaseSeq ∧
      (s.emit gap seq ts).virtualBaseTs = s.virtualBaseTs ∧
      (s.emit gap seq ts).lastVirtualSeq = s.virtualSeq seq ∧
      (s.emit gap seq ts).lastVirtualTs = s.virtualTs ts := by
  simp [emit, rebase, h, virtualSeq, virtualTs]

end RewriteState

section

variable {plaintext : Bytes} (ssrc : U32) (seq : U16) (ts : U32)

theorem stamp_fields (isFirst : Bool) (h : 12 ≤ plaintext.length) :
    (stamp plaintext ssrc seq ts isFirst).length = plaintext.length ∧
      be16 (stamp plaintext ssrc seq ts isFirst) 2 = seq ∧
      be32 (stamp plaintext ssrc seq ts isFirst) 4 = ts ∧
      be32 (stamp plaintext ssrc seq ts isFirst) 8 = ssrc := by
  obtain ⟨p1, hp1⟩ : ∃ p, p = write plaintext 8 (toBe32 ssrc) := ⟨_, rfl⟩
  obtain ⟨p2, hp2⟩ : ∃ p, p = write p1 2 (toBe16 seq) := ⟨_, rfl⟩
  obtain ⟨p3, hp3⟩ : ∃ p, p = write p2 4 (toBe32 ts) := ⟨_, rfl⟩
  have h1 : p1.length = plaintext.length := by rw [hp1, length_write (by simpa using h)]
  have h2 : p2.length = plaintext.length := by rw [hp2, length_write (by simp; omega), h1]
  have h3 : p3.length = plaintext.length := by rw [hp3, length_write (by simp; omega), h2]
  have hseq : be16 p3 2 = seq := by
    rw [hp3, be16_write_disjoint (by simp; omega) (.inl (by simp)), hp2,
      be16_write_same (by omega)]
  have hts : be32 p3 4 = ts := by rw [hp3, be32_write_same (by omega)]
  have hssrc : be32 p3 8 = ssrc := by
    rw [hp3, be32_write_disjoint (by simp; omega) (.inr (by simp)), hp2,
      be32_write_disjoint (by simp; omega) (.inr (by simp)), hp1, be32_write_same (by omega)]
  have hstamp : stamp plaintext ssrc seq ts isFirst =
      if isFirst then write p3 1 [byteAt p3 1 ||| 0x80] else p3 := by
    rw [hp3, hp2, hp1]
    rfl
  rw [hstamp]
  cases isFirst with
  | false => exact ⟨h3, hseq, hts, hssrc⟩
  | true =>
    have hm : 1 + [byteAt p3 1 ||| 0x80].length ≤ p3.length := by simp; omega
    simp only [if_true]
    rw [length_write hm, be16_write_disjoint hm (.inr (by simp)),
      be32_write_disjoint hm (.inr (by simp)), be32_write_disjoint hm (.inr (by simp))]
    exact ⟨h3, hseq, hts, hssrc⟩

end

/-- What a call does, by its answer. -/
theorem PttRewriter.rewrite_cases (r : PttRewriter) (plaintext : Bytes) (sender : String)
    (isKeyframe : Bool) :
    (r.rewrite plaintext sender isKeyframe = (r, plaintext, .skip) ∧
        (plaintext.length < 12 ∨ r.state.speaker ≠ some sender)) ∨
      (r.rewrite plaintext sender isKeyframe = (r, plaintext, .pendingKeyframe) ∧
        12 ≤ plaintext.length ∧ r.state.speaker = some sender) ∨
      ∃ state, state = r.state.emit r.tsGuardGap (be16 plaintext 2) (be32 plaintext 4) ∧
        r.rewrite plaintext sender isKeyframe =
          ({ r with state := state },
            stamp plaintext r.virtualSsrc state.lastVirtualSeq state.lastVirtualTs
              r.state.awaitingFirstPacket, .ok) ∧
        12 ≤ plaintext.length ∧ r.state.speaker = some sender := by
  unfold rewrite
  by_cases hlen : plaintext.length < 12
  · exact .inl ⟨by simp [hlen], .inl hlen⟩
  by_cases hspk : r.state.speaker = some sender
  · by_cases hkey : r.state.pendingKeyframe ∧ ¬ isKeyframe
    · exact .inr (.inl ⟨by simp [hlen, hspk, hkey], by omega, hspk⟩)
    · refine .inr (.inr ⟨_, rfl, ?_, by omega, hspk⟩)
      simp only [hlen, hspk, hkey, ne_eq, not_true_eq_false, if_false]
  · exact .inl ⟨by simp [hlen, hspk], .inr hspk⟩

theorem PttRewriter.rewrite_frame (r : PttRewriter) (plaintext : Bytes) (sender : String)
    (isKeyframe : Bool) :
    (r.rewrite plaintext sender isKeyframe).1.state.speaker = r.state.speaker ∧
      (r.rewrite plaintext sender isKeyframe).1.virtualSsrc = r.virtualSsrc := by
  rcases r.rewrite_cases plaintext sender isKeyframe with ⟨h, -⟩ | ⟨h, -⟩ | ⟨state, rfl, h, -⟩
  · rw [h]
    exact ⟨rfl, rfl⟩
  · rw [h]
    exact ⟨rfl, rfl⟩
  · rw [h]
    exact ⟨RewriteState.emit_speaker _ _ _ _, rfl⟩

end LightLivechat.Room
