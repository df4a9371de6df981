import LightLivechat.Room.Ssrcs
import LightLivechat.Signaling.Effects
import LightLivechat.Transport.Udp.Nack

/-! What the media handlers do to the participants, each in turn and exactly: who is queued
a packet, and what is left alone. -/

namespace LightLivechat.Sfu

open LightLivechat.Config LightLivechat.Lib.Bytes LightLivechat.Lib.Std
open LightLivechat.Room (Heap Ref Participant PcType Room EgressPacket)
open LightLivechat.Signaling (FloorOnly)
open LightLivechat.Transport
open LightLivechat.Transport.Udp (Instant RtxPacket Sent)

theorem foldl_update_apply {α : Type} (ref : α → Ref) (f : α → Participant → Participant)
    {xs : List α} (hnd : (xs.map ref).Nodup) (heap : Heap) :
    (∀ x ∈ xs, xs.foldl (fun h x => Heap.update h (ref x) (f x)) heap (ref x) =
      f x (heap (ref x))) ∧
    ∀ q ∉ xs.map ref, xs.foldl (fun h x => Heap.update h (ref x) (f x)) heap q = heap q := by
  induction xs generalizing heap with
  | nil => simp
  | cons y xs ih =>
    obtain ⟨hy, hnd⟩ := List.nodup_cons.mp hnd
    obtain ⟨hin, hout⟩ := ih hnd (Heap.update heap (ref y) (f y))
    simp only [List.foldl_cons]
    refine ⟨fun x hx => ?_, fun q hq => ?_⟩
    · rcases List.mem_cons.mp hx with rfl | hx
      · rw [hout _ hy, Heap.update_same]
      · have hne : ref x ≠ ref y := fun heq => hy (heq ▸ List.mem_map_of_mem hx)
        rw [hin x hx, Heap.update_of_ne hne]
    · obtain ⟨hne, hq⟩ := not_or.mp fun h => hq (List.mem_cons.mpr h)
      rw [hout q hq, Heap.update_of_ne hne]

/-- Whom a packet of a user is fanned out to. -/
def Hears (heap : Heap) (room : Room) (userId : String) (q : Ref) : Prop :=
  q ∈ DashMap.values room.participants ∧ (heap q).userId ≠ userId ∧
    (heap q).isSubscribeReady = true

instance (heap : Heap) (room : Room) (userId : String) (q : Ref) :
    Decidable (Hears heap room userId q) := by
  unfold Hears
  infer_instance

/-- Every other participant that is ready is sent the packet once, and nobody else. -/
theorem fanOut_apply {heap : Heap} {room : Room} (hk : room.Keyed heap) (userId : String)
    (packet : EgressPacket) (q : Ref) : Udp.fanOut heap room userId packet q =
      if Hears heap room userId q then (heap q).trySend packet else heap q := by
  have hfold : Udp.fanOut heap room userId packet = room.participants.entries.foldl
      (fun h e => Heap.update h e.2 fun x =>
        if e.1 = userId ∨ ¬ x.isSubscribeReady then x else x.trySend packet) heap := by
    unfold Udp.fanOut
    refine List.foldl_ext _ _ _ fun h e _ => ?_
    have hid : Heap.update h e.2 (fun x => x) = h := Function.update_eq_self ..
    by_cases hu : e.1 = userId
    · simp [hu, hid]
    · by_cases hready : (h e.2).isSubscribeReady = true
      · simp [hu, hready, Heap.update]
      · simp [hu, hready, Heap.update]
  obtain ⟨hin, hout⟩ := foldl_update_apply (fun e : Sigma fun _ : String => Ref => e.2)
    (fun e x => if e.1 = userId ∨ ¬ x.isSubscribeReady then x else x.trySend packet)
    hk.values_nodup heap
  rw [hfold]
  by_cases hq : q ∈ DashMap.values room.participants
  · obtain ⟨u, hu⟩ := DashMap.exists_lookup_of_mem_values hq
    have hid := hk.userId hu
    rw [hin ⟨u, q⟩ (AList.mem_lookup_iff.mp hu)]
    by_cases hc : u = userId ∨ ¬ (heap q).isSubscribeReady = true
    · rw [if_pos hc, if_neg]
      rintro ⟨-, hne, hready⟩
      rcases hc with hc | hc
      · exact hne (hid.trans hc)
      · exact hc hready
    · obtain ⟨hne, hready⟩ := not_or.mp hc
      rw [if_neg hc, if_pos ⟨hq, fun h => hne (hid.symm.trans h), not_not.mp hready⟩]
  · rw [hout q hq, if_neg fun h => hq h.1]

/-- What becomes of a publisher's packet on its way to the others: the push-to-talk gate
lets the speaker's pass, and a rewriter may rewrite it or hold it back. -/
def passGate (room : Room) (userId : String) (plaintext : Bytes) : Room × Option Bytes :=
  if room.mode = .ptt then
    if ¬ Udp.allowed room userId then (room, none)
    else
      let (room, rewritten, result) := Udp.rewriteRtp room userId plaintext
      (room, Udp.fanoutPayload plaintext rewritten result)
  else (room, some plaintext)

theorem passGate_floorOnly (room : Room) (userId : String) (plaintext : Bytes) :
    FloorOnly room (passGate room userId plaintext).1 := by
  unfold passGate
  dsimp only
  split
  · split
    · exact .refl
    · unfold Udp.rewriteRtp
      dsimp only
      split
      · exact ⟨rfl⟩
      · split <;> exact ⟨rfl⟩
  · exact .refl

theorem fanOut_congr {room room' : Room} (h : room'.participants = room.participants) (heap : Heap)
    (userId : String) (packet : EgressPacket) :
    Udp.fanOut heap room' userId packet = Udp.fanOut heap room userId packet := by
  unfold Udp.fanOut
  rw [h]

theorem handleSrtp_eq (heap : Heap) (room : Room) (sender : Ref) (plaintext : Bytes)
    (now : Instant) : Udp.handleSrtp heap room sender plaintext now =
      let taken := Heap.update heap sender fun p => Udp.takeIn p plaintext now
      (match (passGate room (heap sender).userId plaintext).2 with
        | none => taken
        | some payload => Udp.fanOut taken room (heap sender).userId (.rtp payload),
        (passGate room (heap sender).userId plaintext).1) := by
  have huser : (Heap.update heap sender (fun p => Udp.takeIn p plaintext now) sender).userId =
      (heap sender).userId := by rw [Heap.update_same, Udp.takeIn_userId]
  have hparts := (passGate_floorOnly room (heap sender).userId plaintext).participants
  unfold Udp.handleSrtp
  simp only [huser]
  unfold passGate at hparts ⊢
  split
  · split
    · rfl
    · rename_i hmode hallowed
      rw [if_pos hmode, if_neg hallowed] at hparts
      generalize Udp.rewriteRtp room (heap sender).userId plaintext = x at *
      obtain ⟨room', rewritten, result⟩ := x
      dsimp only at hparts ⊢
      cases Udp.fanoutPayload plaintext rewritten result with
      | none => rfl
      | some payload =>
        dsimp only
        rw [fanOut_congr hparts]
  · rfl

/-- The media side works on what it keeps itself. -/
structure MediaOnly (x x' : Participant) : Prop where
  frame : x' = { x with
    lastSeen := x'.lastSeen
    rtpCache := x'.rtpCache
    rtxSeq := x'.rtxSeq
    twccRecorder := x'.twccRecorder
    egress := x'.egress }

namespace MediaOnly

variable {x x' x'' : Participant}

theorem refl : MediaOnly x x := ⟨rfl⟩

theorem trans (h : MediaOnly x x') (h' : MediaOnly x' x'') : MediaOnly x x'' :=
  ⟨by rw [h'.frame, h.frame]⟩

theorem userId (h : MediaOnly x x') : x'.userId = x.userId := by rw [h.frame]

theorem roomId (h : MediaOnly x x') : x'.roomId = x.roomId := by rw [h.frame]

theorem joinedAt (h : MediaOnly x x') : x'.joinedAt = x.joinedAt := by rw [h.frame]

theorem tracks (h : MediaOnly x x') : x'.tracks = x.tracks := by rw [h.frame]

theorem session (h : MediaOnly x x') : x'.session = x.session := by
  rw [h.frame]
  rfl

theorem takeIn (x : Participant) (plaintext : Bytes) (now : Instant) :
    MediaOnly x (Udp.takeIn x plaintext now) := by
  unfold Udp.takeIn
  dsimp only
  split <;> split <;> exact ⟨rfl⟩

theorem trySend (x : Participant) (packet : EgressPacket) : MediaOnly x (x.trySend packet) := by
  unfold Participant.trySend
  split <;> exact ⟨rfl⟩

theorem update {heap : Heap} {p : Ref} {f : Participant → Participant}
    (hf : MediaOnly (heap p) (f (heap p))) (q : Ref) : MediaOnly (heap q) (heap.update p f q) := by
  rw [Heap.update_apply]
  split
  · subst_vars
    exact hf
  · exact refl

end MediaOnly

section

variable (heap : Heap) (room : Room) (userId : String)

theorem mediaOnly_fanOut (packet : EgressPacket) (q : Ref) :
    MediaOnly (heap q) (Udp.fanOut heap room userId packet q) := by
  refine List.foldlRecOn (motive := fun h : Heap => MediaOnly (heap q) (h q)) _ _ .refl
    fun h hh e _ => ?_
  split
  · exact hh
  · split
    · exact hh
    · exact hh.trans (.update (f := fun x => x.trySend packet) (.trySend ..) q)

theorem mediaOnly_handleSrtp (sender : Ref) (plaintext : Bytes) (now : Instant) (q : Ref) :
    MediaOnly (heap q) ((Udp.handleSrtp heap room sender plaintext now).1 q) := by
  have htake : MediaOnly (heap q) (heap.update sender (fun x => Udp.takeIn x plaintext now) q) :=
    .update (.takeIn ..) q
  rw [handleSrtp_eq]
  dsimp only
  split
  · exact htake
  · exact htake.trans (mediaOnly_fanOut ..)

theorem mediaOnly_relayPublishRtcp (plaintext : Bytes) (q : Ref) :
    MediaOnly (heap q) (Udp.relayPublishRtcp heap room userId plaintext q) := by
  unfold Udp.relayPublishRtcp
  split
  · exact .refl
  · exact mediaOnly_fanOut ..

theorem mediaOnly_handleNackItem (subscriber : Ref) (nack : Udp.NackItem) (q : Ref) :
    MediaOnly (heap q) ((Udp.handleNackItem heap room subscriber nack).1 q) := by
  unfold Udp.handleNackItem
  dsimp only
  split
  · exact .refl
  · split
    · exact .refl
    · refine List.foldlRecOn (motive := fun h : Heap => MediaOnly (heap q) (h q)) _ _ ?_
        fun h hh x _ => hh.trans (.update (f := fun y => y.trySend (.rtp x.packet)) (.trySend ..) q)
      exact .update ⟨rfl⟩ q

theorem handleNackItem_field {β : Type} (f : Participant → β)
    (hsend : ∀ y packet, f (y.trySend packet) = f y)
    (hrtx : ∀ y rtxSeq, f { y with rtxSeq := rtxSeq } = f y) (subscriber : Ref)
    (nack : Udp.NackItem) (q : Ref) :
    f ((Udp.handleNackItem heap room subscriber nack).1 q) = f (heap q) := by
  unfold Udp.handleNackItem
  dsimp only
  split
  · rfl
  · split
    · rfl
    · refine List.foldlRecOn (motive := fun h : Heap => f (h q) = f (heap q)) _ _
        (Heap.update_field f (hrtx _ _) q) fun h hh x _ => ?_
      exact (Heap.update_field (f := fun y => y.trySend (.rtp x.packet)) f (hsend _ _) q).trans hh

theorem handleSubscribeRtcp_field {β : Type} (f : Participant → β)
    (hsend : ∀ y packet, f (y.trySend packet) = f y)
    (hrtx : ∀ y rtxSeq, f { y with rtxSeq := rtxSeq } = f y) (subscriber : Ref)
    (plaintext : Bytes) (q : Ref) :
    f ((Udp.handleSubscribeRtcp heap room subscriber plaintext).1 q) = f (heap q) := by
  refine List.foldlRecOn (motive := fun h : Heap => f (h q) = f (heap q)) _ _ rfl
    fun h hh data _ => ?_
  refine List.foldlRecOn (motive := fun (acc : Heap × List RtxPacket) =>
    f (acc.1 q) = f (heap q)) _ _ hh fun acc hacc nack _ => ?_
  exact (handleNackItem_field _ _ f hsend hrtx ..).trans hacc

theorem mediaOnly_handleSubscribeRtcp (subscriber : Ref) (plaintext : Bytes) (q : Ref) :
    MediaOnly (heap q) ((Udp.handleSubscribeRtcp heap room subscriber plaintext).1 q) := by
  refine List.foldlRecOn (motive := fun h : Heap => MediaOnly (heap q) (h q)) _ _ .refl
    fun h hh data _ => hh.trans ?_
  refine List.foldlRecOn (motive := fun (acc : Heap × List RtxPacket) =>
    MediaOnly (h q) (acc.1 q)) _ _ .refl fun acc hacc nack _ => hacc.trans ?_
  exact mediaOnly_handleNackItem ..

end

section

variable {heap : Heap} {room : Room} {q : Ref}

theorem fanOut_elsewhere (hq : q ∉ DashMap.values room.participants) (userId : String)
    (packet : EgressPacket) : Udp.fanOut heap room userId packet q = heap q := by
  refine List.foldlRecOn (motive := fun h : Heap => h q = heap q) _ _ rfl fun h hh e he => ?_
  have hne : q ≠ e.2 := by
    rintro rfl
    exact hq (List.mem_map_of_mem he)
  split
  · exact hh
  · split
    · exact hh
    · rw [Heap.update_of_ne hne, hh]

theorem handleSrtp_elsewhere (hq : q ∉ DashMap.values room.participants) {sender : Ref}
    (hsender : q ≠ sender) (plaintext : Bytes) (now : Instant) :
    (Udp.handleSrtp heap room sender plaintext now).1 q = heap q := by
  have htake : heap.update sender (fun x => Udp.takeIn x plaintext now) q = heap q :=
    Heap.update_of_ne hsender _
  rw [handleSrtp_eq]
  dsimp only
  split
  · exact htake
  · exact (fanOut_elsewhere hq ..).trans htake

theorem handleNackItem_elsewhere (hq : q ∉ DashMap.values room.participants) {subscriber : Ref}
    (hsub : q ≠ subscriber) (nack : Udp.NackItem) :
    (Udp.handleNackItem heap room subscriber nack).1 q = heap q := by
  unfold Udp.handleNackItem
  dsimp only
  split
  · rfl
  · rename_i publisher hfind
    split
    · rfl
    · refine List.foldlRecOn (motive := fun h : Heap => h q = heap q) _ _ ?_ fun h hh x _ => ?_
      · rw [Heap.update_of_ne]
        rintro rfl
        exact hq (Room.Room.findByTrackSsrc_eq_some hfind).1
      · rw [Heap.update_of_ne hsub, hh]

theorem handleSubscribeRtcp_elsewhere (hq : q ∉ DashMap.values room.participants)
    {subscriber : Ref} (hsub : q ≠ subscriber) (plaintext : Bytes) :
    (Udp.handleSubscribeRtcp heap room subscriber plaintext).1 q = heap q := by
  refine List.foldlRecOn (motive := fun h : Heap => h q = heap q) _ _ rfl fun h hh data _ => ?_
  refine List.foldlRecOn (motive := fun (acc : Heap × List RtxPacket) => acc.1 q = heap q) _ _
    hh fun acc hacc nack _ => ?_
  exact (handleNackItem_elsewhere hq hsub nack).trans hacc

end

/-- The packet retransmits what the cache of a participant of the room holds. -/
def Retransmits (heap : Heap) (room : Room) (x : RtxPacket) : Prop :=
  ∃ publisher ∈ DashMap.values room.participants, ∃ original rtxSsrc,
    (heap publisher).rtpCache.get x.lostSeq = some original ∧
      x.packet = Udp.buildRtxPacket original rtxSsrc x.rtxSeq

/-- The heap after the NACKs of a compound, and the retransmissions built for them. -/
def answerNacks (heap : Heap) (room : Room) (subscriber : Ref) (plaintext : Bytes) :
    Heap × List RtxPacket :=
  (Udp.splitCompoundRtcp plaintext).nackBlocks.foldl (fun acc nackBlock =>
    let (heap, rtx) := Udp.handleNackBlock acc.1 room subscriber nackBlock
    (heap, acc.2 ++ rtx)) (heap, [])

section

variable {heap heap' : Heap} {room : Room} {subscriber : Ref}

theorem Retransmits.congr {x : RtxPacket} (hcaches : ∀ p, (heap' p).rtpCache = (heap p).rtpCache)
    (h : Retransmits heap' room x) : Retransmits heap room x := by
  obtain ⟨publisher, hp, original, rtxSsrc, hget, hbuilt⟩ := h
  exact ⟨publisher, hp, original, rtxSsrc, hcaches publisher ▸ hget, hbuilt⟩

theorem handleNackItem_retransmits (nack : Udp.NackItem) :
    ∀ x ∈ (Udp.handleNackItem heap room subscriber nack).2, Retransmits heap room x := by
  unfold Udp.handleNackItem
  dsimp only
  split
  · simp
  · rename_i publisher hfind
    split
    · simp
    · rename_i rtxSsrc _
      intro x hx
      obtain ⟨original, hget, hbuilt⟩ := (Udp.rtxPackets_answer ..).built x hx
      exact ⟨publisher, (Room.Room.findByTrackSsrc_eq_some hfind).1, original, rtxSsrc, hget, hbuilt⟩

theorem handleNackBlock_retransmits (nackData : Bytes) :
    ∀ x ∈ (Udp.handleNackBlock heap room subscriber nackData).2, Retransmits heap room x := by
  refine (List.foldlRecOn (motive := fun (acc : Heap × List RtxPacket) =>
    Sent heap acc.1 subscriber acc.2 ∧ ∀ x ∈ acc.2, Retransmits heap room x) _ _
    ⟨.refl .., by simp⟩ fun acc hacc nack _ => ⟨?_, fun x hx => ?_⟩).2
  · exact hacc.1.trans (Udp.handleNackItem_sent acc.1 room subscriber nack)
  · rcases List.mem_append.mp hx with hx | hx
    · exact hacc.2 x hx
    · exact (handleNackItem_retransmits nack x hx).congr hacc.1.caches

theorem answerNacks_sent (plaintext : Bytes) :
    Sent heap (answerNacks heap room subscriber plaintext).1 subscriber
      (answerNacks heap room subscriber plaintext).2 ∧
    ∀ x ∈ (answerNacks heap room subscriber plaintext).2, Retransmits heap room x := by
  refine List.foldlRecOn (motive := fun (acc : Heap × List RtxPacket) =>
    Sent heap acc.1 subscriber acc.2 ∧ ∀ x ∈ acc.2, Retransmits heap room x) _ _
    ⟨.refl .., by simp⟩ fun acc hacc nackBlock _ => ⟨?_, fun x hx => ?_⟩
  · exact hacc.1.trans (Udp.handleNackBlock_sent acc.1 room subscriber nackBlock)
  · rcases List.mem_append.mp hx with hx | hx
    · exact hacc.2 x hx
    · exact (handleNackBlock_retransmits nackBlock x hx).congr hacc.1.caches

theorem handleSubscribeRtcp_heap (plaintext : Bytes) :
    (Udp.handleSubscribeRtcp heap room subscriber plaintext).1 =
      (answerNacks heap room subscriber plaintext).1 := by
  have hfold : ∀ (blocks : List Bytes) (acc : Heap × List RtxPacket),
      blocks.foldl (fun h b => (Udp.handleNackBlock h room subscriber b).1) acc.1 =
        (blocks.foldl (fun acc b => ((Udp.handleNackBlock acc.1 room subscriber b).1,
          acc.2 ++ (Udp.handleNackBlock acc.1 room subscriber b).2)) acc).1 := by
    intro blocks
    induction blocks with
    | nil => exact fun _ => rfl
    | cons b blocks ih =>
      intro acc
      rw [List.foldl_cons, List.foldl_cons, ← ih]
  exact hfold _ (heap, [])

end

end LightLivechat.Sfu
