import LightLivechat.Transport.Udp.Compound
import LightLivechat.Transport.Udp.Ingress
import LightLivechat.Transport.Udp.Rtx

/-! What a NACK names and what is sent in answer. -/

namespace LightLivechat.Transport.Udp

open LightLivechat.Lib.Bytes LightLivechat.Lib.Std LightLivechat.Lib.Walk LightLivechat.Config
open LightLivechat.Lib.Rtp (headerLen csrcCount)
open LightLivechat.Room (Heap Ref Participant TrackKind EgressPacket Room RtpCache)

theorem count_flatMap_of_nodup {α β : Type} [DecidableEq β] {f : α → List β}
    (hf : ∀ x, (f x).Nodup) (b : β) (xs : List α) :
    (xs.flatMap f).count b = xs.countP fun x => b ∈ f x := by
  induction xs with
  | nil => rfl
  | cons x xs ih =>
    rw [List.flatMap_cons, List.count_append, ih, (hf x).count, List.countP_cons, Nat.add_comm]
    simp only [decide_eq_true_eq]

theorem countP_eq_one_iff {α : Type} {xs : List α} (hxs : xs.Nodup) (p : α → Bool) :
    xs.countP p = 1 ↔ ∃! x, x ∈ xs ∧ p x := by
  have hmem : ∀ x, x ∈ xs.filter p ↔ x ∈ xs ∧ p x := fun x => List.mem_filter
  rw [List.countP_eq_length_filter, List.length_eq_one_iff]
  constructor
  · rintro ⟨x, hx⟩
    refine ⟨x, (hmem x).mp (by rw [hx]; exact List.mem_singleton_self x), fun y hy => ?_⟩
    have hy := (hmem y).mpr hy
    rw [hx] at hy
    exact List.mem_singleton.mp hy
  · rintro ⟨x, hx, honly⟩
    refine ⟨x, List.perm_singleton.mp ((List.perm_ext_iff_of_nodup (hxs.filter p)
      (List.nodup_singleton x)).mpr fun y => ?_)⟩
    rw [hmem, List.mem_singleton]
    exact ⟨honly y, fun hy => hy ▸ hx⟩

structure GenericNack (data : Bytes) (ssrc : U32) : Prop where
  complete : Complete data
  header : 12 ≤ data.length
  fmt : byteAt data 0 &&& 0x1F = rtcpFmtNack
  pt : byteAt data 1 = rtcpPtNack
  ssrc : be32 data 8 = ssrc

/-- The `k`-th entry names `n`, as its PID or by a bit of its BLP. -/
def EntryNames (data : Bytes) (n : U16) (k : Nat) : Prop :=
  12 + 4 * (k + 1) ≤ data.length ∧
    (n = be16 data (12 + 4 * k) ∨
      ∃ i < 16, (be16 data (12 + 4 * k + 2)).getLsbD i = true ∧
        n = be16 data (12 + 4 * k) + BitVec.ofNat 16 (i + 1))

def Nacked (data : Bytes) (n : U16) : Prop := ∃ k, EntryNames data n k

/-- The numbers a NACK names, as the server expands them. -/
def namedSeqs (data : Bytes) : List U16 :=
  (parseRtcpNack data).flatMap fun nack => expandNack nack.pid nack.blp

theorem GenericNack.parse {data : Bytes} {ssrc : U32} (h : GenericNack data ssrc) :
    parseRtcpNack data = (List.range ((data.length - 12) / 4)).map fun k =>
      ⟨ssrc, be16 data (12 + 4 * k), be16 data (12 + 4 * k + 2)⟩ := by
  have hkind : isNackPacket data = true := decide_eq_true ⟨h.pt, h.fmt⟩
  rw [parseRtcpNack_complete h.complete, fciEntries, if_pos ⟨hkind, h.header⟩, h.ssrc]

theorem GenericNack.entryNames_iff {data : Bytes} {ssrc : U32} (h : GenericNack data ssrc)
    {n : U16} {k : Nat} : EntryNames data n k ↔ k ∈ List.range ((data.length - 12) / 4) ∧
      n ∈ expandNack (be16 data (12 + 4 * k)) (be16 data (12 + 4 * k + 2)) := by
  rw [EntryNames, mem_expandNack, List.mem_range]
  refine and_congr_left fun _ => ?_
  have := h.header
  omega

theorem GenericNack.mem_namedSeqs {data : Bytes} {ssrc : U32} (h : GenericNack data ssrc)
    {n : U16} : n ∈ namedSeqs data ↔ Nacked data n := by
  simp only [namedSeqs, h.parse, List.flatMap_map, List.mem_flatMap, Nacked, h.entryNames_iff]

/-- A number comes up as often as entries name it. -/
theorem GenericNack.count_namedSeqs {data : Bytes} {ssrc : U32} (h : GenericNack data ssrc)
    {n : U16} : (namedSeqs data).count n = 1 ↔ ∃! k, EntryNames data n k := by
  rw [namedSeqs, h.parse, List.flatMap_map,
    count_flatMap_of_nodup fun k => expandNack_nodup _ _, countP_eq_one_iff List.nodup_range]
  simp only [decide_eq_true_eq, h.entryNames_iff]

/-- Answering NACKs touches neither tracks nor publish sessions. -/
structure SameRouting (heap heap' : Heap) : Prop where
  tracks : ∀ p, (heap' p).tracks = (heap p).tracks
  publish : ∀ p, (heap' p).publish = (heap p).publish

theorem SameRouting.refl (heap : Heap) : SameRouting heap heap := ⟨fun _ => rfl, fun _ => rfl⟩

theorem SameRouting.trans {h₁ h₂ h₃ : Heap} (h : SameRouting h₁ h₂) (h' : SameRouting h₂ h₃) :
    SameRouting h₁ h₃ where
  tracks := fun p => (h'.tracks p).trans (h.tracks p)
  publish := fun p => (h'.publish p).trans (h.publish p)

/-- The subscriber's queue took these packets, as far as there was room, and nothing
else was queued or cached. -/
structure Sent (heap heap' : Heap) (subscriber : Ref) (sent : List RtxPacket) : Prop
    extends SameRouting heap heap' where
  caches : ∀ p, (heap' p).rtpCache = (heap p).rtpCache
  others : ∀ p, p ≠ subscriber → (heap' p).egress = (heap p).egress
  queued : (heap' subscriber).egress = (heap subscriber).egress ++
    (sent.map fun x => .rtp x.packet).take (egressQueueSize - (heap subscriber).egress.length)

section

variable {heap heap' : Heap} {subscriber : Ref} {sent : List RtxPacket}

theorem Sent.refl (heap : Heap) (subscriber : Ref) : Sent heap heap subscriber [] where
  toSameRouting := .refl heap
  caches := fun _ => rfl
  others := fun _ _ => rfl
  queued := by simp

theorem Sent.trans {heap'' : Heap} {sent' : List RtxPacket} (h : Sent heap heap' subscriber sent)
    (h' : Sent heap' heap'' subscriber sent') : Sent heap heap'' subscriber (sent ++ sent') where
  toSameRouting := h.toSameRouting.trans h'.toSameRouting
  caches := fun p => (h'.caches p).trans (h.caches p)
  others := fun p hp => (h'.others p hp).trans (h.others p hp)
  queued := by
    rw [h'.queued, h.queued, List.map_append, List.take_append, List.append_assoc,
      List.length_append, List.length_take, List.length_map]
    congr 3
    omega

theorem Sent.rtxSeq (heap : Heap) (subscriber p : Ref) (next : U16) :
    Sent heap (heap.update p fun p => { p with rtxSeq := next }) subscriber [] where
  tracks := Heap.update_field Participant.tracks rfl
  publish := Heap.update_field Participant.publish rfl
  caches := Heap.update_field Participant.rtpCache rfl
  others := fun q _ => Heap.update_field Participant.egress rfl q
  queued := by simpa using Heap.update_field Participant.egress rfl subscriber

theorem Sent.trySend (heap : Heap) (subscriber : Ref) (x : RtxPacket) :
    Sent heap (heap.update subscriber fun p => p.trySend (.rtp x.packet)) subscriber [x] where
  tracks := Heap.update_field Participant.tracks (Participant.trySend_tracks _ _)
  publish := Heap.update_field Participant.publish (Participant.trySend_publish _ _)
  caches := Heap.update_field Participant.rtpCache (Participant.trySend_rtpCache _ _)
  others := fun q hq => by rw [Heap.update_of_ne hq]
  queued := by
    rw [Heap.update_same, Participant.trySend]
    split <;> rename_i hroom
    · rw [List.take_of_length_le (by simp; omega)]
      rfl
    · rw [show egressQueueSize - (heap subscriber).egress.length = 0 by omega]
      simp

theorem Sent.foldl_trySend (heap : Heap) (subscriber : Ref) (sent : List RtxPacket) :
    Sent heap (sent.foldl (fun heap x => heap.update subscriber fun p => p.trySend (.rtp x.packet))
      heap) subscriber sent := by
  induction sent generalizing heap with
  | nil => exact .refl heap subscriber
  | cons x sent ih => exact (Sent.trySend heap subscriber x).trans (ih _)

end

/-- What a cache gives for some numbers: one packet for each it holds, built from
what it holds. -/
structure Answer (cache : RtpCache) (rtxSsrc : U32) (seqs : List U16) (sent : List RtxPacket) :
    Prop where
  lostSeqs : sent.map (fun x => x.lostSeq) = seqs.filter fun n => (cache.get n).isSome
  built : ∀ x ∈ sent, ∃ original, cache.get x.lostSeq = some original ∧
    x.packet = buildRtxPacket original rtxSsrc x.rtxSeq

theorem rtxPackets_answer (cache : RtpCache) (rtxSsrc : U32) (rtxSeq : U16) (seqs : List U16) :
    Answer cache rtxSsrc seqs (rtxPackets cache rtxSsrc rtxSeq seqs).2 := by
  induction seqs generalizing rtxSeq with
  | nil => exact ⟨rfl, by simp [rtxPackets]⟩
  | cons n seqs ih =>
    simp only [rtxPackets]
    cases hget : cache.get n with
    | none => exact ⟨by rw [(ih rtxSeq).lostSeqs]; simp [hget], (ih rtxSeq).built⟩
    | some original =>
      refine ⟨by rw [List.map_cons, (ih (rtxSeq + 1)).lostSeqs]; simp [hget], fun x hx => ?_⟩
      rcases List.mem_cons.mp hx with rfl | hx
      · exact ⟨original, hget, rfl⟩
      · exact (ih (rtxSeq + 1)).built x hx

theorem Answer.mem_lostSeqs {cache : RtpCache} {rtxSsrc : U32} {seqs : List U16}
    {sent : List RtxPacket} (h : Answer cache rtxSsrc seqs sent) {n : U16} :
    (∃ x ∈ sent, x.lostSeq = n) ↔ n ∈ seqs ∧ (cache.get n).isSome := by
  rw [← List.mem_map (f := fun x : RtxPacket => x.lostSeq), h.lostSeqs, List.mem_filter]

/-- A number the cache holds is answered as often as it is asked for. -/
theorem Answer.count {cache : RtpCache} {rtxSsrc : U32} {seqs : List U16} {sent : List RtxPacket}
    (h : Answer cache rtxSsrc seqs sent) (n : U16) :
    (sent.filter fun x => x.lostSeq = n).length =
      if (cache.get n).isSome then seqs.count n else 0 := by
  have hcount : (sent.filter fun x => x.lostSeq = n).length =
      (seqs.filter fun m => (cache.get m).isSome).count n := by
    rw [← h.lostSeqs, List.count, List.countP_map, List.countP_eq_length_filter]
    rfl
  rw [hcount]
  split <;> rename_i hget
  · exact List.count_filter hget
  · exact List.count_eq_zero.mpr fun hmem => hget (List.mem_filter.mp hmem).2

theorem Answer.append {cache : RtpCache} {rtxSsrc : U32} {seqs seqs' : List U16}
    {sent sent' : List RtxPacket} (h : Answer cache rtxSsrc seqs sent)
    (h' : Answer cache rtxSsrc seqs' sent') :
    Answer cache rtxSsrc (seqs ++ seqs') (sent ++ sent') where
  lostSeqs := by rw [List.map_append, h.lostSeqs, h'.lostSeqs, List.filter_append]
  built := fun x hx => (List.mem_append.mp hx).elim (h.built x) (h'.built x)

section

variable {heap heap' : Heap} (room : Room)

theorem SameRouting.findByTrackSsrc (h : SameRouting heap heap') (ssrc : U32) :
    room.findByTrackSsrc heap' ssrc = room.findByTrackSsrc heap ssrc := by
  simp only [Room.findByTrackSsrc, Participant.registered, h.tracks]

theorem SameRouting.speakerSsrc (h : SameRouting heap heap') (kind : TrackKind) :
    speakerSsrc heap' room kind = speakerSsrc heap room kind := by
  simp only [Udp.speakerSsrc, Participant.trackOf, h.tracks]

theorem SameRouting.lookupOf (h : SameRouting heap heap') (nack : NackItem) :
    lookupOf heap' room nack = lookupOf heap room nack := by
  simp only [Udp.lookupOf, h.speakerSsrc]

end

section

variable (heap : Heap) (room : Room) (subscriber : Ref)

theorem handleNackItem_sent (nack : NackItem) :
    Sent heap (handleNackItem heap room subscriber nack).1 subscriber
      (handleNackItem heap room subscriber nack).2 := by
  simp only [handleNackItem]
  split
  · exact .refl heap subscriber
  · split
    · exact .refl heap subscriber
    · exact (Sent.rtxSeq heap subscriber _ _).trans (.foldl_trySend _ subscriber _)

theorem handleNackBlock_sent (nackData : Bytes) :
    Sent heap (handleNackBlock heap room subscriber nackData).1 subscriber
      (handleNackBlock heap room subscriber nackData).2 :=
  List.foldlRecOn (motive := fun (acc : Heap × List RtxPacket) => Sent heap acc.1 subscriber acc.2)
    _ _ (.refl heap subscriber) fun acc hacc nack _ =>
      hacc.trans (handleNackItem_sent acc.1 room subscriber nack)

end

/-- The publisher a lookup under an SSRC leads to, with its SSRC for retransmission. -/
structure LooksUp (heap : Heap) (room : Room) (ssrc : U32) (p : Ref) (rtxSsrc : U32) : Prop where
  publisher : room.findByTrackSsrc heap ssrc = some p
  rtx : ((heap p).tracks.find? fun t => t.ssrc = ssrc).bind (fun t => t.rtxSsrc) = some rtxSsrc

section

variable {heap heap' : Heap} {room : Room} {subscriber p : Ref} {ssrc rtxSsrc : U32}

theorem SameRouting.looksUp (h : SameRouting heap heap') (hp : LooksUp heap room ssrc p rtxSsrc) :
    LooksUp heap' room ssrc p rtxSsrc where
  publisher := by rw [h.findByTrackSsrc, hp.publisher]
  rtx := by rw [h.tracks, hp.rtx]

theorem LooksUp.item (h : LooksUp heap room ssrc p rtxSsrc) {nack : NackItem} {seqs : List U16}
    (hlookup : lookupOf heap room nack = (ssrc, seqs)) :
    Answer (heap p).rtpCache rtxSsrc seqs (handleNackItem heap room subscriber nack).2 := by
  simp only [handleNackItem, hlookup, h.publisher, h.rtx]
  exact rtxPackets_answer _ _ _ _

theorem handleNackBlock_induction {nackData : Bytes}
    {motive : List NackItem → List RtxPacket → Prop} (nil : motive [] [])
    (snoc : ∀ nacks nack sent, motive nacks sent → nack ∈ parseRtcpNack nackData →
      ∀ heap', Sent heap heap' subscriber sent →
        motive (nacks ++ [nack]) (sent ++ (handleNackItem heap' room subscriber nack).2)) :
    motive (parseRtcpNack nackData) (handleNackBlock heap room subscriber nackData).2 := by
  have hfold : ∀ nacks, (∀ nack ∈ nacks, nack ∈ parseRtcpNack nackData) →
      Sent heap (nacks.foldl (answerNack room subscriber) (heap, [])).1 subscriber
          (nacks.foldl (answerNack room subscriber) (heap, [])).2 ∧
        motive nacks (nacks.foldl (answerNack room subscriber) (heap, [])).2 := by
    intro nacks
    induction nacks using List.reverseRecOn with
    | nil => exact fun _ => ⟨.refl heap subscriber, nil⟩
    | append_singleton nacks nack ih =>
      intro hmem
      obtain ⟨hsent, hmotive⟩ := ih fun n hn => hmem n (List.mem_append_left _ hn)
      rw [List.foldl_append, List.foldl_cons, List.foldl_nil]
      exact ⟨hsent.trans (handleNackItem_sent _ room subscriber nack),
        snoc nacks nack _ hmotive (hmem nack (List.mem_append_right _ List.mem_cons_self)) _ hsent⟩
  exact (hfold _ fun _ h => h).2

theorem LooksUp.block (h : LooksUp heap room ssrc p rtxSsrc) {nackData : Bytes}
    {seqsOf : NackItem → List U16}
    (hlookup : ∀ nack ∈ parseRtcpNack nackData, lookupOf heap room nack = (ssrc, seqsOf nack)) :
    Answer (heap p).rtpCache rtxSsrc ((parseRtcpNack nackData).flatMap seqsOf)
      (handleNackBlock heap room subscriber nackData).2 := by
  refine handleNackBlock_induction
    (motive := fun nacks sent => Answer (heap p).rtpCache rtxSsrc (nacks.flatMap seqsOf) sent)
    ⟨rfl, by simp⟩ fun nacks nack sent hanswer hmem heap' hsent => ?_
  have hitem : Answer (heap p).rtpCache rtxSsrc (seqsOf nack)
      (handleNackItem heap' room subscriber nack).2 := by
    rw [← hsent.caches]
    refine (hsent.toSameRouting.looksUp h).item ?_
    rw [hsent.toSameRouting.lookupOf, hlookup nack hmem]
  simpa using hanswer.append hitem

theorem handleNackBlock_unknown (h : ∀ p rtxSsrc, ¬ LooksUp heap room ssrc p rtxSsrc)
    {nackData : Bytes}
    (hlookup : ∀ nack ∈ parseRtcpNack nackData, (lookupOf heap room nack).1 = ssrc) :
    (handleNackBlock heap room subscriber nackData).2 = [] := by
  refine handleNackBlock_induction (motive := fun _ sent => sent = []) rfl
    fun nacks nack sent hnil hmem heap' hsent => ?_
  subst hnil
  have hroute := hsent.toSameRouting
  rw [List.nil_append]
  simp only [handleNackItem, hroute.lookupOf, hlookup nack hmem, hroute.findByTrackSsrc]
  split
  · rfl
  · rename_i publisher hfind
    split
    · rfl
    · rename_i rtxSsrc hrtx
      rw [hroute.tracks] at hrtx
      exact absurd ⟨hfind, hrtx⟩ (h publisher rtxSsrc)

end

section

variable {original : Bytes} (rtxSsrc : U32) (rtxSeq : U16)

/-- Where the payload starts: after the fixed header and the contributing sources. -/
def rtpHeaderLen (packet : Bytes) : Nat := 12 + (byteAt packet 0 &&& 0x0F).toNat * 4

theorem rtpHeaderLen_eq (packet : Bytes) : rtpHeaderLen packet = headerLen packet := by
  rw [rtpHeaderLen, headerLen, csrcCount, Nat.mul_comm]

/-- A retransmission is the packet under another header: its own number goes first
in the payload. -/
theorem buildRtxPacket_fields (h : rtpHeaderLen original ≤ original.length) :
    be32 (buildRtxPacket original rtxSsrc rtxSeq) 8 = rtxSsrc ∧
      rtpHeaderLen (buildRtxPacket original rtxSsrc rtxSeq) = rtpHeaderLen original ∧
      be16 (buildRtxPacket original rtxSsrc rtxSeq) (rtpHeaderLen original) = be16 original 2 ∧
      (buildRtxPacket original rtxSsrc rtxSeq).drop (rtpHeaderLen original + 2) =
        original.drop (rtpHeaderLen original) := by
  have hmin : 12 ≤ headerLen original := Nat.le_add_right 12 _
  rw [rtpHeaderLen_eq] at h
  obtain ⟨hlen, -, -, hssrc, hbyte⟩ := rtxHeader_bytes rtxSsrc rtxSeq h
  have hwith : (rtxHeader original rtxSsrc rtxSeq ++ toBe16 (be16 original 2)).length =
      headerLen original + 2 := by rw [List.length_append, hlen, length_toBe16]
  rw [rtpHeaderLen_eq, rtpHeaderLen_eq, buildRtxPacket_eq rtxSsrc rtxSeq h]
  refine ⟨?_, ?_, ?_, ?_⟩
  · rw [be32_append_left _ (by omega), hssrc]
  · rw [headerLen, csrcCount, byteAt_append_left _ (by omega),
      hbyte 0 (by omega) (by omega) (by omega) (by omega)]
    rfl
  · rw [be16_append_right _ (by omega), hlen, Nat.sub_self, be16_append_left _ (by simp),
      be16_toBe16]
  · rw [← List.append_assoc, List.drop_left' hwith]

end

end LightLivechat.Transport.Udp
