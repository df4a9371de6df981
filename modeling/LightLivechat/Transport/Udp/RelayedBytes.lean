import LightLivechat.Transport.Udp.Compound
import LightLivechat.Transport.Udp.Routing

/-! What relayed blocks say on the wire: the feedback the server builds itself, and
blocks about virtual SSRCs. -/

namespace LightLivechat.Transport.Udp

open LightLivechat.Lib.Bytes LightLivechat.Lib.Std LightLivechat.Lib.Walk LightLivechat.Config
open LightLivechat.Room (Heap Ref Participant Room)

inductive FeedbackKind where
  | pli
  | remb (bitrateBps : BitVec 64)

namespace FeedbackKind

def build : FeedbackKind → U32 → Bytes
  | pli, ssrc => buildPli ssrc
  | remb bitrateBps, ssrc => buildRemb bitrateBps ssrc

def fmt : FeedbackKind → U8
  | pli => rtcpFmtPli
  | remb _ => rtcpFmtRemb

/-- What the feedback has in its media SSRC field. -/
def mediaSsrc : FeedbackKind → U32 → U32
  | pli, ssrc => ssrc
  | remb _, _ => 0

theorem build_fields (kind : FeedbackKind) (ssrc : U32) :
    12 ≤ (kind.build ssrc).length ∧
      (kind.build ssrc).length = ((be16 (kind.build ssrc) 2).toNat + 1) * 4 ∧
      byteAt (kind.build ssrc) 0 &&& 0x1F = kind.fmt ∧
      byteAt (kind.build ssrc) 1 = rtcpPtPsfb ∧
      be32 (kind.build ssrc) 8 = kind.mediaSsrc ssrc := by
  cases kind with
  | pli =>
    have hssrc : be32 (buildPli ssrc) 8 = ssrc := by
      rw [buildPli, be32_append_right _ (by simp)]
      exact be32_toBe32 ssrc
    refine ⟨?_, ?_, ?_, ?_, hssrc⟩ <;>
      simp [build, buildPli, be16, byteAt, fmt, rtcpFmtPli, rtcpPtPsfb]
  | remb bitrateBps =>
    have hssrc : be32 (buildRemb bitrateBps ssrc) 8 = 0 := by
      simp [buildRemb, be32, be16, byteAt, toBe32, toBe16]
    refine ⟨?_, ?_, ?_, ?_, hssrc⟩ <;>
      simp [build, buildRemb, be16, byteAt, fmt, rtcpFmtRemb, rtcpPtPsfb]

theorem build_complete (kind : FeedbackKind) (ssrc : U32) : Complete (kind.build ssrc) where
  four := Nat.le_trans (by decide) (kind.build_fields ssrc).1
  length := (kind.build_fields ssrc).2.1

end FeedbackKind

/-- The block has bytes in common with the `n` bytes from `offset` on. -/
def RtcpBlockRef.overlaps (b : RtcpBlockRef) (offset n : Nat) : Bool :=
  offset < b.offset + b.length ∧ b.offset < offset + n

theorem RtcpBlockRef.overlaps_iff {b : RtcpBlockRef} {offset n : Nat} :
    b.overlaps offset n = true ↔ offset < b.offset + b.length ∧ b.offset < offset + n :=
  decide_eq_true_iff

section

variable {p : Bytes} {pre post : List Bytes}

theorem filter_overlaps_nil (compound : Bytes) {offset n : Nat} {xs : List (Nat × Bytes)}
    (h : ∀ x ∈ xs, x.1 + x.2.length ≤ offset ∨ offset + n ≤ x.1) :
    (((xs.map fun x => refOf compound x.1 x.2).filter fun x => x.isRelayed).map
      fun x => x.block).filter (fun b => b.overlaps offset n) = [] := by
  rw [List.filter_eq_nil_iff]
  intro b hb
  obtain ⟨r, hr, rfl⟩ := List.mem_map.mp hb
  obtain ⟨x, hx, rfl⟩ := List.mem_map.mp (List.mem_filter.mp hr).1
  have := h x hx
  rw [RtcpBlockRef.overlaps_iff]
  simp only [refOf]
  omega

/-- The one block that overlaps a relayed packet of a compound is its own. -/
theorem relayBlocks_overlapping (hpre : ∀ q ∈ pre, Complete q) (hp : Complete p)
    (hpost : ∀ q ∈ post, Complete q)
    (hrelayed : (refOf (pre ++ p :: post).flatten pre.flatten.length p).isRelayed = true) :
    (splitCompoundRtcp (pre ++ p :: post).flatten).relayBlocks.filter
        (fun b => b.overlaps pre.flatten.length p.length) =
      [(refOf (pre ++ p :: post).flatten pre.flatten.length p).block] := by
  have hall : ∀ q ∈ pre ++ p :: post, Complete q := by
    simp only [List.mem_append, List.mem_cons]
    rintro q (hq | rfl | hq)
    · exact hpre q hq
    · exact hp
    · exact hpost q hq
  have hlocated : located 0 (pre ++ p :: post) = located 0 pre ++
      (pre.flatten.length, p) :: located (pre.flatten.length + p.length) post := by
    rw [located_append, Nat.zero_add, located]
  rw [relayBlocks_flatten hall, hlocated]
  generalize (pre ++ p :: post).flatten = compound at hrelayed ⊢
  have hself : (refOf compound pre.flatten.length p).block.overlaps pre.flatten.length p.length =
      true := by
    have hfour := hp.four
    rw [RtcpBlockRef.overlaps_iff]
    simp only [refOf]
    omega
  have hbefore : ∀ x ∈ located 0 pre, x.1 + x.2.length ≤ pre.flatten.length ∨
      pre.flatten.length + p.length ≤ x.1 := fun x hx => by
    have := (located_bounds hx).2
    omega
  have hafter : ∀ x ∈ located (pre.flatten.length + p.length) post,
      x.1 + x.2.length ≤ pre.flatten.length ∨ pre.flatten.length + p.length ≤ x.1 := fun x hx => by
    have := (located_bounds hx).1
    omega
  simp only [List.map_append, List.map_cons, List.filter_append, List.filter_cons, hrelayed,
    if_true, hself, filter_overlaps_nil compound hbefore, filter_overlaps_nil compound hafter,
    List.nil_append]

end

/-- The classifier has one block for the feedback, under the SSRC it was built for,
and the relay takes it to the publisher that registered that SSRC. -/
structure Agreed (kind : FeedbackKind) (ssrc : U32) (pre post : List Bytes) : Prop where
  classified : (splitCompoundRtcp (pre ++ kind.build ssrc :: post).flatten).relayBlocks.filter
      (fun b => b.overlaps pre.flatten.length (kind.build ssrc).length) =
    [⟨pre.flatten.length, (kind.build ssrc).length, ssrc⟩]
  relayed : ∀ heap room subscriber q, isAudioVirtual room ssrc = false →
    isVideoVirtual room ssrc = false → Reachable heap room q → (heap q).registered ssrc = true →
    (∀ q' ∈ DashMap.values room.participants, (heap q').registered ssrc = true → q' = q) →
      ∃ r ∈ (handleSubscribeRtcp heap room subscriber (pre ++ kind.build ssrc :: post).flatten).2,
        r.publisher = q ∧ ⟨pre.flatten.length, (kind.build ssrc).length, ssrc⟩ ∈ r.blocks

section

variable {kind : FeedbackKind} {ssrc : U32} {pre post : List Bytes}

theorem refOf_build (kind : FeedbackKind) (ssrc : U32) (pre post : List Bytes) :
    (refOf (pre ++ kind.build ssrc :: post).flatten pre.flatten.length
        (kind.build ssrc)).isRelayed = true ∧
      (refOf (pre ++ kind.build ssrc :: post).flatten pre.flatten.length (kind.build ssrc)).block =
        ⟨pre.flatten.length, (kind.build ssrc).length, kind.mediaSsrc ssrc⟩ := by
  obtain ⟨hlen, -, hfmt, hpt, hssrc⟩ := kind.build_fields ssrc
  generalize kind.build ssrc = p at hlen hfmt hpt hssrc ⊢
  have hread : be32 (pre ++ p :: post).flatten (pre.flatten.length + 8) = be32 p 8 := by
    rw [List.flatten_append, List.flatten_cons, be32_append_mid _ _ (by omega)]
  have hroom : pre.flatten.length + 12 ≤ (pre ++ p :: post).flatten.length := by
    rw [List.flatten_append, List.flatten_cons, List.length_append, List.length_append]
    omega
  constructor
  · simp only [refOf, RtcpPacketRef.isRelayed, RtcpPacketRef.isNack, hfmt, hpt]
    cases kind <;> rfl
  · simp only [refOf, hread, hssrc, if_pos hroom]

theorem agreed_iff (hs : ssrc ≠ 0) (hpre : ∀ p ∈ pre, Complete p) (hpost : ∀ p ∈ post, Complete p) :
    Agreed kind ssrc pre post ↔ kind = .pli := by
  obtain ⟨hrelayed, hblock⟩ := refOf_build kind ssrc pre post
  have hoverlap := relayBlocks_overlapping hpre (kind.build_complete ssrc) hpost hrelayed
  rw [hblock] at hoverlap
  constructor
  · rintro ⟨hclassified, -⟩
    cases kind with
    | pli => rfl
    | remb bitrateBps =>
      rw [hoverlap] at hclassified
      have hzero : 0 = ssrc := by simpa [FeedbackKind.mediaSsrc] using hclassified
      exact absurd hzero.symm hs
  · rintro rfl
    refine ⟨hoverlap, fun heap room subscriber q haudio hvideo hreach hreg honly => ?_⟩
    rw [handleSubscribeRtcp_relays, relayed_iff]
    refine ⟨?_, ⟨hs, ?_⟩, hreach⟩
    · exact (List.mem_filter.mp (hoverlap ▸ List.mem_singleton_self _)).1
    · simp only [effectiveSsrc, haudio, hvideo]
      exact Room.findByTrackSsrc_owner hreach.mem hreg honly

end

theorem agreed_iff_after_report :
    Agreed .pli 10 [mixedReport] [mixedReport] ∧ ¬ Agreed (.remb 1000000) 10 [mixedReport] [] :=
  ⟨(agreed_iff (by decide) mixedReport_complete mixedReport_complete).mpr rfl,
    fun h => nomatch (agreed_iff (by decide) mixedReport_complete (by simp)).mp h⟩

/-- A REMB is classified under SSRC zero. -/
theorem remb_not_agreed :
    ¬ ∀ kind ssrc pre post, ssrc ≠ 0 → (∀ p ∈ pre, Complete p) → (∀ p ∈ post, Complete p) →
      Agreed kind ssrc pre post := by
  intro h
  have hagreed := h (.remb 1000000) 10 [] [] (by decide) (by simp) (by simp)
  exact absurd hagreed.classified (by decide)

section

variable (heap : Heap) (room : Room) (subscriber : Ref) (plaintext : Bytes)

/-- Every relayed packet has, in its media SSRC field, an SSRC of its receiver. -/
def NamesReceiver : Prop :=
  ∀ r ∈ (handleSubscribeRtcp heap room subscriber plaintext).2, ∀ packet ∈ r.packets plaintext,
    12 ≤ packet.length ∧ (heap r.publisher).registered (be32 packet 8) = true

/-- No relay block that ends before its media SSRC field, and none about a virtual
SSRC, is meant for a publisher that can be reached and that does not own that SSRC. -/
structure NothingToTranslate : Prop where
  whole : ∀ b ∈ (splitCompoundRtcp plaintext).relayBlocks, ∀ q, Reachable heap room q →
    MeantFor heap room b q → 12 ≤ b.length
  owned : ∀ b ∈ (splitCompoundRtcp plaintext).relayBlocks, ∀ q, Reachable heap room q →
    MeantFor heap room b q → (isAudioVirtual room b.mediaSsrc ∨ isVideoVirtual room b.mediaSsrc) →
      (heap q).registered b.mediaSsrc = true

variable {heap room subscriber plaintext}

theorem relayBlock_bytes {b : RtcpBlockRef} (hb : b ∈ (splitCompoundRtcp plaintext).relayBlocks) :
    (slice plaintext b.offset b.length).length = b.length ∧
      (12 ≤ b.length → be32 (slice plaintext b.offset b.length) 8 = b.mediaSsrc) := by
  obtain ⟨p, hp, rfl⟩ := List.mem_map.mp hb
  refine forall_mem_items (P := fun p : RtcpPacketRef =>
    (slice plaintext p.block.offset p.block.length).length = p.block.length ∧
      (12 ≤ p.block.length →
        be32 (slice plaintext p.block.offset p.block.length) 8 = p.block.mediaSsrc))
    ?_ p (List.mem_filter.mp hp).1
  intro offset p next hread
  simp only [rtcpPacketAt] at hread
  split at hread
  · split at hread
    · cases hread
    · rename_i hfits
      cases hread
      dsimp only
      refine ⟨length_slice (by omega), fun hlen => ?_⟩
      rw [be32_slice hlen, if_pos (by omega)]
  · cases hread

theorem namesReceiver_iff :
    NamesReceiver heap room subscriber plaintext ↔ NothingToTranslate heap room plaintext := by
  unfold NamesReceiver
  rw [handleSubscribeRtcp_relays]
  constructor
  · intro h
    have hnames : ∀ b ∈ (splitCompoundRtcp plaintext).relayBlocks, ∀ q, Reachable heap room q →
        MeantFor heap room b q → 12 ≤ b.length ∧ (heap q).registered b.mediaSsrc = true := by
      intro b hb q hreach hmeant
      obtain ⟨r, hr, rfl, hmem⟩ := relayed_iff.mpr ⟨hb, hmeant, hreach⟩
      obtain ⟨hlen, hreg⟩ := h r hr _ (List.mem_map.mpr ⟨b, hmem, rfl⟩)
      obtain ⟨hlength, hssrc⟩ := relayBlock_bytes hb
      rw [hlength] at hlen
      exact ⟨hlen, hssrc hlen ▸ hreg⟩
    exact ⟨fun b hb q hq hm => (hnames b hb q hq hm).1,
      fun b hb q hq hm _ => (hnames b hb q hq hm).2⟩
  · intro h r hr packet hpacket
    obtain ⟨b, hmem, rfl⟩ := List.mem_map.mp hpacket
    obtain ⟨hb, hmeant, hreach⟩ := relayed_iff.mp ⟨r, hr, rfl, hmem⟩
    obtain ⟨hlength, hssrc⟩ := relayBlock_bytes hb
    have hlen := h.whole b hb _ hreach hmeant
    rw [hlength, hssrc hlen]
    refine ⟨hlen, ?_⟩
    by_cases hvirtual : isAudioVirtual room b.mediaSsrc ∨ isVideoVirtual room b.mediaSsrc
    · exact h.owned b hb _ hreach hmeant hvirtual
    · -- routed by the very SSRC it names
      have hfind := hmeant.2
      rw [effectiveSsrc, if_neg hvirtual] at hfind
      exact (Room.findByTrackSsrc_eq_some hfind).2

end

/-- A PLI for the room's video, as subscribers know it. -/
theorem virtual_ssrc_relayed :
    ¬ ∀ heap room subscriber plaintext, room.mode = .ptt →
      NamesReceiver heap room subscriber plaintext := by
  intro h
  have hnames :=
    h twoPublishers { roomOfTwo .ptt with floor := ⟨.taken "a" 0 0⟩ } 1 (buildPli 8) rfl
  have hrelayed : ∃ r ∈ relays twoPublishers { roomOfTwo .ptt with floor := ⟨.taken "a" 0 0⟩ }
      (buildPli 8), r.publisher = 0 ∧ ⟨0, 12, 8⟩ ∈ r.blocks :=
    relayed_iff.mpr ⟨by decide, ⟨by decide, by decide⟩, by decide, by decide, by decide⟩
  obtain ⟨r, hr, hp, hb⟩ := hrelayed
  rw [← handleSubscribeRtcp_relays _ _ 1 _] at hr
  have hreg := (hnames r hr _ (List.mem_map.mpr ⟨_, hb, rfl⟩)).2
  rw [hp] at hreg
  exact absurd hreg (by decide)

end LightLivechat.Transport.Udp
