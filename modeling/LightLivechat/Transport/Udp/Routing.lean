import LightLivechat.Transport.Udp.Relay

/-! Receiver reports about several publishers: where a report goes and whom it is
about. -/

namespace LightLivechat.Transport.Udp

open LightLivechat.Lib.Bytes LightLivechat.Lib.Std LightLivechat.Lib.Walk LightLivechat.Config
open LightLivechat.Room (Heap Ref Participant PcType TrackKind Track Room)

section

variable {ps : List Bytes} {tail : Bytes}

theorem mem_relayBlocks (hps : ∀ p ∈ ps, Complete p) (ht : Truncated tail) {b : RtcpBlockRef} :
    b ∈ (splitCompoundRtcp (ps.flatten ++ tail)).relayBlocks ↔
      ∃ x ∈ located 0 ps, (refOf (ps.flatten ++ tail) x.1 x.2).isRelayed = true ∧
        (refOf (ps.flatten ++ tail) x.1 x.2).block = b := by
  have hitems := items_rtcpPacketAt hps ht []
  rw [List.nil_append, List.length_nil] at hitems
  simp only [splitCompoundRtcp, hitems, List.mem_map, List.mem_filter]
  constructor
  · rintro ⟨_, ⟨⟨x, hx, rfl⟩, hrelayed⟩, rfl⟩
    exact ⟨x, hx, hrelayed, rfl⟩
  · rintro ⟨x, hx, hrelayed, rfl⟩
    exact ⟨_, ⟨⟨x, hx, rfl⟩, hrelayed⟩, rfl⟩

theorem located_unique (hps : ∀ p ∈ ps, Complete p) {offset : Nat} {x y : Nat × Bytes}
    (hx : x ∈ located offset ps) (hy : y ∈ located offset ps) (h : x.1 = y.1) : x = y := by
  induction ps generalizing offset with
  | nil => cases hx
  | cons p ps ih =>
    have hfour := (hps p List.mem_cons_self).four
    rcases List.mem_cons.mp hx with rfl | hx <;> rcases List.mem_cons.mp hy with rfl | hy
    · rfl
    · have := (located_bounds hy).1
      simp only at h
      omega
    · have := (located_bounds hx).1
      simp only at h
      omega
    · exact ih (fun q hq => hps q (List.mem_cons_of_mem p hq)) hx hy

theorem slice_compound {x : Nat × Bytes} (hx : x ∈ located 0 ps) (tail : Bytes) :
    slice (ps.flatten ++ tail) x.1 x.2.length = x.2 ∧ x.2 ∈ ps := by
  simpa using slice_located (a := []) hx tail

theorem refOf_mediaSsrc {x : Nat × Bytes} (hx : x ∈ located 0 ps) (h : 12 ≤ x.2.length)
    (tail : Bytes) : (refOf (ps.flatten ++ tail) x.1 x.2).block.mediaSsrc = be32 x.2 8 := by
  have hbounds := (located_bounds hx).2
  have hslice := (slice_compound hx tail).1
  have hread : be32 (ps.flatten ++ tail) (x.1 + 8) = be32 x.2 8 := by
    rw [← be32_slice (n := x.2.length) (by omega), hslice]
  simp only [refOf, List.length_append, hread]
  rw [if_pos (by omega)]

end

/-- The SSRCs a receiver report is about, one for each of its report blocks. -/
def reportedSsrcs (rr : Bytes) : List U32 :=
  (List.range (byteAt rr 0 &&& 0x1F).toNat).map fun k => be32 rr (8 + 24 * k)

/-- Receiver reports have room for the report blocks they count. -/
def WholeReports (ps : List Bytes) : Prop :=
  ∀ p ∈ ps, byteAt p 1 = rtcpPtRr → 8 + 24 * (byteAt p 0 &&& 0x1F).toNat ≤ p.length

section

variable (heap : Heap) (room : Room) (subscriber : Ref) (ps : List Bytes) (tail : Bytes)

/-- Every report reaches every reachable publisher it is about and no other. -/
def ReportsRouted : Prop :=
  ∀ x ∈ located 0 ps, byteAt x.2 1 = rtcpPtRr →
    (∀ ssrc ∈ reportedSsrcs x.2, ∀ q, Reachable heap room q → (heap q).registered ssrc = true →
      ∃ r ∈ (handleSubscribeRtcp heap room subscriber (ps.flatten ++ tail)).2, r.publisher = q ∧
        ∃ b ∈ r.blocks, b.offset = x.1 ∧ slice (ps.flatten ++ tail) b.offset b.length = x.2) ∧
    ∀ r ∈ (handleSubscribeRtcp heap room subscriber (ps.flatten ++ tail)).2,
      (∃ b ∈ r.blocks, b.offset = x.1) →
        ∀ ssrc ∈ reportedSsrcs x.2, (heap r.publisher).registered ssrc = true

/-- A reachable publisher that a report is about is the one the report's first SSRC
leads to, and the report is about its streams alone. -/
def OneOwnerPerReport : Prop :=
  ∀ p ∈ ps, byteAt p 1 = rtcpPtRr → ∀ ssrc ∈ reportedSsrcs p, ∀ q, Reachable heap room q →
    (heap q).registered ssrc = true →
      be32 p 8 ≠ 0 ∧ room.findByTrackSsrc heap (be32 p 8) = some q ∧
        ∀ ssrc' ∈ reportedSsrcs p, (heap q).registered ssrc' = true

variable {heap room subscriber ps tail}

theorem effectiveSsrc_conference (h : room.mode = .conference) (ssrc : U32) :
    effectiveSsrc heap room ssrc = ssrc := by
  simp [effectiveSsrc, isAudioVirtual, isVideoVirtual, h]

theorem located_mem (offset : Nat) {p : Bytes} (h : p ∈ ps) : ∃ o, (o, p) ∈ located offset ps := by
  induction ps generalizing offset with
  | nil => cases h
  | cons q ps ih =>
    rcases List.mem_cons.mp h with rfl | h
    · exact ⟨offset, List.mem_cons_self⟩
    · obtain ⟨o, ho⟩ := ih (offset + q.length) h
      exact ⟨o, List.mem_cons_of_mem _ ho⟩

/-- Where the relay takes a report that has a block: by the SSRC of its first one. -/
theorem report_relayed_iff (hconf : room.mode = .conference) (hps : ∀ p ∈ ps, Complete p)
    (ht : Truncated tail) (hwhole : WholeReports ps) {x : Nat × Bytes} (hx : x ∈ located 0 ps)
    (hrr : byteAt x.2 1 = rtcpPtRr) {ssrc : U32} (hssrc : ssrc ∈ reportedSsrcs x.2) {q : Ref} :
    (∃ r ∈ relays heap room (ps.flatten ++ tail), r.publisher = q ∧
        ∃ b ∈ r.blocks, b.offset = x.1) ↔
      be32 x.2 8 ≠ 0 ∧ room.findByTrackSsrc heap (be32 x.2 8) = some q ∧ Reachable heap room q := by
  obtain ⟨k, hk, -⟩ := List.mem_map.mp hssrc
  have hlen : 12 ≤ x.2.length := by
    have := hwhole x.2 (slice_compound hx tail).2 hrr
    have := List.mem_range.mp hk
    omega
  have hmedia := refOf_mediaSsrc hx hlen tail
  have hmeant : ∀ b : RtcpBlockRef, b.mediaSsrc = be32 x.2 8 → (MeantFor heap room b q ↔
      be32 x.2 8 ≠ 0 ∧ room.findByTrackSsrc heap (be32 x.2 8) = some q) := fun b hb => by
    rw [MeantFor, hb, effectiveSsrc_conference hconf]
  constructor
  · rintro ⟨r, hr, rfl, b, hb, hoffset⟩
    obtain ⟨hmem, hmeantb, hreach⟩ := relayed_iff.mp ⟨r, hr, rfl, hb⟩
    obtain ⟨y, hy, -, rfl⟩ := (mem_relayBlocks hps ht).mp hmem
    obtain rfl := located_unique hps hx hy hoffset.symm
    obtain ⟨hne, hfind⟩ := (hmeant _ hmedia).mp hmeantb
    exact ⟨hne, hfind, hreach⟩
  · rintro ⟨hne, hfind, hreach⟩
    have hrelayed : (refOf (ps.flatten ++ tail) x.1 x.2).isRelayed = true := by
      simp [RtcpPacketRef.isRelayed, RtcpPacketRef.isNack, refOf, hrr, rtcpPtRr, rtcpPtNack]
    obtain ⟨r, hr, hp, hb⟩ := relayed_iff.mpr ⟨(mem_relayBlocks hps ht).mpr ⟨x, hx, hrelayed, rfl⟩,
      (hmeant _ hmedia).mpr ⟨hne, hfind⟩, hreach⟩
    exact ⟨r, hr, hp, _, hb, rfl⟩

/-- Receiver reports are routed right just when no report mixes publishers, as seen
from the publisher its first SSRC leads to. -/
theorem reportsRouted_iff (hconf : room.mode = .conference) (hps : ∀ p ∈ ps, Complete p)
    (ht : Truncated tail) (hwhole : WholeReports ps) :
    ReportsRouted heap room subscriber ps tail ↔ OneOwnerPerReport heap room ps := by
  unfold ReportsRouted
  rw [handleSubscribeRtcp_relays]
  constructor
  · intro h p hp hrr ssrc hssrc q hreach hreg
    obtain ⟨o, ho⟩ := located_mem 0 hp
    obtain ⟨hdelivered, hown⟩ := h (o, p) ho hrr
    obtain ⟨r, hr, rfl, b, hb, hoffset, -⟩ := hdelivered ssrc hssrc q hreach hreg
    obtain ⟨hne, hfind, -⟩ := (report_relayed_iff hconf hps ht hwhole ho hrr hssrc).mp
      ⟨r, hr, rfl, b, hb, hoffset⟩
    exact ⟨hne, hfind, hown r hr ⟨b, hb, hoffset⟩⟩
  · intro h x hx hrr
    have hmem := (slice_compound hx tail).2
    refine ⟨fun ssrc hssrc q hreach hreg => ?_, fun r hr hoffset ssrc hssrc => ?_⟩
    · obtain ⟨hne, hfind, -⟩ := h x.2 hmem hrr ssrc hssrc q hreach hreg
      obtain ⟨r, hr, hp, b, hb, hoffset⟩ :=
        (report_relayed_iff hconf hps ht hwhole hx hrr hssrc).mpr ⟨hne, hfind, hreach⟩
      obtain ⟨hblock, -⟩ := relayed_iff.mp ⟨r, hr, rfl, hb⟩
      obtain ⟨y, hy, -, rfl⟩ := (mem_relayBlocks hps ht).mp hblock
      obtain rfl := located_unique hps hx hy hoffset.symm
      exact ⟨r, hr, hp, _, hb, rfl, (slice_compound hx tail).1⟩
    · obtain ⟨b, hb, hoffset⟩ := hoffset
      obtain ⟨-, hfind, hreach⟩ := (report_relayed_iff hconf hps ht hwhole hx hrr hssrc).mp
        ⟨r, hr, rfl, b, hb, hoffset⟩
      -- the publisher it went to owns the first SSRC, so the condition speaks about it
      have hfirst : be32 x.2 8 ∈ reportedSsrcs x.2 := by
        obtain ⟨k, hk, -⟩ := List.mem_map.mp hssrc
        exact List.mem_map.mpr ⟨0, List.mem_range.mpr (by have := List.mem_range.mp hk; omega), rfl⟩
      have hreg := (Room.findByTrackSsrc_eq_some hfind).2
      exact (h x.2 hmem hrr _ hfirst r.publisher hreach hreg).2.2 ssrc hssrc

end

def publisherOf (ssrc : U32) : Participant :=
  { Participant.new "u" "r" "pu" "pp" "su" "sp" 1 with
    publish := ⟨"pu", "pp", some (.v4 0x0A000001 5000), true⟩
    tracks := [⟨ssrc, .video, "t", some (ssrc + 1000), false, by simp⟩] }

def twoPublishers : Heap := fun p => if p = 0 then publisherOf 10 else publisherOf 20

def roomOfTwo (mode : RoomMode) : Room :=
  { Room.new "r" "room" none mode 1 7 8 with
    participants := (AList.insert "a" 0 ∅ : DashMap String Ref).insert "b" 1 }

def reportBlock (ssrc : U32) : Bytes := toBe32 ssrc ++ List.replicate 20 0

def reportOf (ssrc : U32) : Bytes := [0x81, 201, 0, 7] ++ toBe32 5 ++ reportBlock ssrc

def mixedReport : Bytes := [0x82, 201, 0, 13] ++ toBe32 5 ++ (reportBlock 10 ++ reportBlock 20)

theorem mixedReport_complete : ∀ p ∈ [mixedReport], Complete p := by decide

theorem oneOwner_reportOf :
    OneOwnerPerReport twoPublishers (roomOfTwo .conference) [reportOf 10, reportOf 20] := by
  intro p hp _ ssrc hssrc q hreach hreg
  have hq : q ∈ [1, 0] := hreach.1
  rcases List.mem_pair.mp hp with rfl | rfl
  · obtain rfl : ssrc = 10 := List.mem_singleton.mp hssrc
    rcases List.mem_pair.mp hq with rfl | rfl
    · exact absurd hreg (by decide)
    · exact ⟨by decide, rfl, fun ssrc h => List.mem_singleton.mp h ▸ hreg⟩
  · obtain rfl : ssrc = 20 := List.mem_singleton.mp hssrc
    rcases List.mem_pair.mp hq with rfl | rfl
    · exact ⟨by decide, rfl, fun ssrc h => List.mem_singleton.mp h ▸ hreg⟩
    · exact absurd hreg (by decide)

/-- Two reports find their publishers, one about both streams does not. -/
theorem reportsRouted_iff_mixed :
    (ReportsRouted twoPublishers (roomOfTwo .conference) 0 [reportOf 10, reportOf 20] [] ∧
      ∃ r ∈ (handleSubscribeRtcp twoPublishers (roomOfTwo .conference) 0
        ([reportOf 10, reportOf 20].flatten ++ [])).2, r.publisher = 1) ∧
    ¬ ReportsRouted twoPublishers (roomOfTwo .conference) 0 [mixedReport] [] ∧
      ¬ OneOwnerPerReport twoPublishers (roomOfTwo .conference) [mixedReport] := by
  have hiff : ReportsRouted twoPublishers (roomOfTwo .conference) 0 [mixedReport] [] ↔
      OneOwnerPerReport twoPublishers (roomOfTwo .conference) [mixedReport] :=
    reportsRouted_iff rfl mixedReport_complete truncated_nil (by unfold WholeReports; decide)
  have hmixed : ¬ OneOwnerPerReport twoPublishers (roomOfTwo .conference) [mixedReport] := fun h =>
    have hfound := h mixedReport (by decide) rfl 20 (by decide) 1 ⟨by decide, rfl, rfl⟩ rfl
    absurd hfound.2.1 (by decide)
  refine ⟨⟨?_, by decide⟩, fun h => hmixed (hiff.mp h), hmixed⟩
  exact (reportsRouted_iff rfl (by decide) truncated_nil (by unfold WholeReports; decide)).mpr
    oneOwner_reportOf

/-- The whole report goes to the publisher of its first block. -/
theorem mixed_report_misrouted :
    ¬ ∀ (heap : Heap) (room : Room) (subscriber : Ref) (ps : List Bytes) (tail : Bytes),
      room.mode = .conference → (∀ p ∈ ps, Complete p) → Truncated tail → WholeReports ps →
        ReportsRouted heap room subscriber ps tail := by
  intro h
  have hrouted := h twoPublishers (roomOfTwo .conference) 0 [mixedReport] [] rfl
    mixedReport_complete truncated_nil (by unfold WholeReports; decide)
  obtain ⟨r, hr, hp, -⟩ := (hrouted (0, mixedReport) (by decide) rfl).1 20 (by decide) 1
    ⟨by decide, rfl, rfl⟩ rfl
  have honly : ∀ r ∈ (handleSubscribeRtcp twoPublishers (roomOfTwo .conference) 0
      ([mixedReport].flatten ++ [])).2, r.publisher = 0 := by decide
  exact absurd ((honly r hr).symm.trans hp) (by decide)

end LightLivechat.Transport.Udp
