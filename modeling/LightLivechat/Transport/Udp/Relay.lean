import LightLivechat.Transport.Udp.Nack

/-! Where subscribers' RTCP goes.  A block is relayed whole, to the publisher of the
one SSRC it is routed by. -/

namespace LightLivechat.Transport.Udp

open LightLivechat.Lib.Bytes LightLivechat.Lib.Std LightLivechat.Lib.Walk LightLivechat.Config
open LightLivechat.Room (Heap Ref Participant PcType TrackKind Track Room)

section

variable {heap heap' : Heap} (room : Room)

theorem SameRouting.relays (h : SameRouting heap heap') (plaintext : Bytes) :
    relays heap' room plaintext = relays heap room plaintext := by
  have heffective : ∀ ssrc, effectiveSsrc heap' room ssrc = effectiveSsrc heap room ssrc :=
    fun ssrc => by simp only [effectiveSsrc, h.speakerSsrc]
  have hrelay : ∀ ssrc blocks, relayOf heap' room ssrc blocks = relayOf heap room ssrc blocks :=
    fun ssrc blocks => by
      simp only [relayOf, h.findByTrackSsrc, Participant.isPublishReady, h.publish]
      rfl
  simp only [Udp.relays, publisherRtcp, heffective, hrelay]

end

section

variable (heap : Heap) (room : Room) (subscriber : Ref) (plaintext : Bytes)

theorem handleSubscribeRtcp_relays :
    (handleSubscribeRtcp heap room subscriber plaintext).2 = relays heap room plaintext := by
  have hsame : SameRouting heap (handleSubscribeRtcp heap room subscriber plaintext).1 :=
    List.foldlRecOn (motive := SameRouting heap) _ _ (.refl heap) fun h hh data _ =>
      hh.trans (handleNackBlock_sent h room subscriber data).toSameRouting
  exact hsame.relays room plaintext

structure Reachable (q : Ref) : Prop where
  mem : q ∈ DashMap.values room.participants
  ready : (heap q).isPublishReady = true
  addr : (heap q).publish.address.isSome = true

/-- The publisher a block is meant for: the one that registered the SSRC it is
routed by. -/
def MeantFor (b : RtcpBlockRef) (q : Ref) : Prop :=
  b.mediaSsrc ≠ 0 ∧ room.findByTrackSsrc heap (effectiveSsrc heap room b.mediaSsrc) = some q

variable {heap room plaintext}

theorem relayOf_eq_some {ssrc : U32} {blocks : List RtcpBlockRef} {r : Relay} :
    relayOf heap room ssrc blocks = some r ↔
      room.findByTrackSsrc heap ssrc = some r.publisher ∧
        (heap r.publisher).isPublishReady = true ∧
        (heap r.publisher).publish.address = some r.addr ∧ r.blocks = blocks := by
  unfold relayOf
  split
  · simp_all
  · rename_i publisher hfind
    obtain ⟨p, addr, bs⟩ := r
    split
    · simp_all
      rintro rfl h
      simp_all
    · simp only [Option.map_eq_some_iff, Relay.mk.injEq]
      constructor
      · rintro ⟨a, ha, rfl, rfl, rfl⟩
        simp_all
      · rintro ⟨hp, -, ha, rfl⟩
        obtain rfl : publisher = p := Option.some.inj (hfind.symm.trans hp)
        exact ⟨addr, ha, rfl, rfl, rfl⟩

theorem lookup_publisherRtcp (blocks : List RtcpBlockRef) (ssrc : U32) :
    (publisherRtcp heap room blocks).lookup ssrc =
      let own := (blocks.filter fun b => b.mediaSsrc ≠ 0).filter fun b =>
        effectiveSsrc heap room b.mediaSsrc = ssrc
      if own = [] then none else some own :=
  DashMap.lookup_foldl_push _ _ ssrc

theorem relayed_iff {b : RtcpBlockRef} {q : Ref} :
    (∃ r ∈ relays heap room plaintext, r.publisher = q ∧ b ∈ r.blocks) ↔
      b ∈ (splitCompoundRtcp plaintext).relayBlocks ∧ MeantFor heap room b q ∧
        Reachable heap room q := by
  constructor
  · rintro ⟨r, hr, rfl, hb⟩
    obtain ⟨⟨ssrc, blocks⟩, hentry, hrelay⟩ := List.mem_filterMap.mp hr
    obtain ⟨hfind, hready, haddr, rfl⟩ := relayOf_eq_some.mp hrelay
    have hlookup := AList.mem_lookup_iff.mpr hentry
    rw [Option.mem_def, lookup_publisherRtcp] at hlookup
    simp only at hlookup
    split at hlookup
    · cases hlookup
    · rw [← Option.some.inj hlookup] at hb
      simp only [List.mem_filter, decide_eq_true_eq] at hb
      obtain ⟨⟨hmem, hne⟩, rfl⟩ := hb
      exact ⟨hmem, ⟨by simpa using hne, hfind⟩, (Room.findByTrackSsrc_eq_some hfind).1, hready,
        by rw [haddr]; rfl⟩
  · rintro ⟨hmem, ⟨hne, hfind⟩, hreach⟩
    obtain ⟨addr, haddr⟩ := Option.isSome_iff_exists.mp hreach.addr
    generalize hown : (((splitCompoundRtcp plaintext).relayBlocks.filter fun b =>
      b.mediaSsrc ≠ 0).filter fun x => effectiveSsrc heap room x.mediaSsrc =
        effectiveSsrc heap room b.mediaSsrc) = own
    have hb : b ∈ own := by
      rw [← hown]
      exact List.mem_filter.mpr ⟨List.mem_filter.mpr ⟨hmem, decide_eq_true hne⟩, decide_eq_true rfl⟩
    have hlookup : (publisherRtcp heap room (splitCompoundRtcp plaintext).relayBlocks).lookup
        (effectiveSsrc heap room b.mediaSsrc) = some own := by
      rw [lookup_publisherRtcp]
      simp only [hown]
      rw [if_neg (List.ne_nil_of_mem hb)]
    refine ⟨⟨q, addr, own⟩, List.mem_filterMap.mpr ⟨_, AList.mem_lookup_iff.mp hlookup, ?_⟩,
      rfl, hb⟩
    exact relayOf_eq_some.mpr ⟨hfind, hreach.ready, haddr, rfl⟩

end

end LightLivechat.Transport.Udp
