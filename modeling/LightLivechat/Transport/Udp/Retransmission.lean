import LightLivechat.Room.RtpCaches
import LightLivechat.Transport.Udp.Nack

/-! Retransmission in a conference room.  A publisher's cache has one slot for the
numbers that agree modulo its size, whatever the track, so a slot answers for the
packet that came last. -/

namespace LightLivechat.Transport.Udp

open LightLivechat.Lib LightLivechat.Lib.Bytes LightLivechat.Lib.Std LightLivechat.Config
open LightLivechat.Room (Heap Ref Participant EgressPacket TrackKind Track Room RtpCache Stored)

/-- A decrypted RTP packet with its header complete. -/
structure Received where
  publisher : Ref
  packet : Bytes
  arrival : Instant
  wellFormed : rtpHeaderLen packet ≤ packet.length

namespace Received

def isVideo (x : Received) : Bool := (parseRtpHeader x.packet).pt = 96

def seq (x : Received) : U16 := be16 x.packet 2

def ssrc (x : Received) : U32 := be32 x.packet 8

theorem length (x : Received) : 12 ≤ x.packet.length :=
  Nat.le_trans (Nat.le_add_right 12 _) x.wellFormed

def stored (x : Received) : Stored := ⟨x.seq, x.packet, x.length, rfl⟩

theorem parse_seq (x : Received) : (parseRtpHeader x.packet).seq = x.seq := by
  have hlen := x.length
  rw [parseRtpHeader, if_neg (by rw [rtpHeaderMinSize]; omega)]
  rfl

end Received

inductive MediaEvent where
  | rtp (x : Received)
  | nack (subscriber : Ref) (data : Bytes)

/-- A conference room does not change with the media that goes through it. -/
def mediaStep (room : Room) (heap : Heap) : MediaEvent → Heap
  | .rtp x => (handleSrtp heap room x.publisher x.packet x.arrival).1
  | .nack subscriber data => (handleNackBlock heap room subscriber data).1

def received (events : List MediaEvent) : List Received :=
  events.filterMap fun
    | .rtp x => some x
    | .nack _ _ => none

@[simp] theorem received_snoc_rtp (events : List MediaEvent) (x : Received) :
    received (events ++ [.rtp x]) = received events ++ [x] := List.filterMap_append

@[simp] theorem received_snoc_nack (events : List MediaEvent) (subscriber : Ref) (data : Bytes) :
    received (events ++ [.nack subscriber data]) = received events :=
  List.filterMap_append.trans (List.append_nil _)

/-- A video packet of publisher `p` that shares the cache slot of `n`. -/
def inSlot (p : Ref) (n : U16) (x : Received) : Bool :=
  RtpCache.slot x.seq = RtpCache.slot n ∧ x.publisher = p ∧ x.isVideo

theorem Received.takeIn_rtpCache (x : Received) (p : Participant) :
    (takeIn p x.packet x.arrival).rtpCache =
      if x.isVideo then p.rtpCache.store x.seq x.packet else p.rtpCache := by
  simp only [Udp.takeIn_rtpCache, isVideo, decide_eq_true_eq, x.parse_seq]

section

variable {heap : Heap} {room : Room}

theorem mediaStep_rtp (hconf : room.mode = .conference) {β : Type} (field : Participant → β)
    (hfield : ∀ p packet, field (p.trySend packet) = field p) (x : Received) (q : Ref) :
    field (mediaStep room heap (.rtp x) q) =
      field (if q = x.publisher then takeIn (heap q) x.packet x.arrival else heap q) := by
  have hptt : ¬ room.mode = .ptt := by simp [hconf]
  simp only [mediaStep, handleSrtp, if_neg hptt, fanOut_field _ _ field hfield, Heap.update_apply]
  split
  · subst_vars
    rfl
  · rfl

theorem run_sameRouting (hconf : room.mode = .conference) (events : List MediaEvent) :
    SameRouting heap (events.foldl (mediaStep room) heap) := by
  refine List.foldlRecOn (motive := SameRouting heap) _ _ (.refl heap) fun h hh e _ => hh.trans ?_
  cases e with
  | nack subscriber data => exact (handleNackBlock_sent h room subscriber data).toSameRouting
  | rtp x =>
    refine ⟨fun q => ?_, fun q => ?_⟩
    · rw [mediaStep_rtp hconf Participant.tracks Participant.trySend_tracks]
      split <;> simp only [takeIn_tracks]
    · rw [mediaStep_rtp hconf Participant.publish Participant.trySend_publish]
      split <;> simp only [takeIn_publish]

/-- A cache is the history of its publisher's video packets. -/
theorem run_cache (hconf : room.mode = .conference) (hnew : ∀ q, (heap q).rtpCache = .new)
    (events : List MediaEvent) (q : Ref) :
    (events.foldl (mediaStep room) heap q).rtpCache =
      .after (((received events).filter fun x => x.publisher = q ∧ x.isVideo).map
        Received.stored) := by
  induction events using List.reverseRecOn with
  | nil => exact hnew q
  | append_singleton events e ih =>
    rw [List.foldl_append, List.foldl_cons, List.foldl_nil]
    cases e with
    | nack subscriber data =>
      have hcache := (handleNackBlock_sent (events.foldl (mediaStep room) heap) room subscriber
        data).caches q
      rw [received_snoc_nack, ← ih]
      exact hcache
    | rtp x =>
      rw [mediaStep_rtp hconf Participant.rtpCache Participant.trySend_rtpCache, received_snoc_rtp,
        List.filter_append, List.map_append]
      by_cases hx : x.publisher = q ∧ x.isVideo
      · obtain ⟨rfl, hvideo⟩ := hx
        have hone : ([x].filter fun y => y.publisher = x.publisher ∧ y.isVideo) = [x] := by
          simp [hvideo]
        rw [hone, List.map_singleton, RtpCache.after_snoc, ← ih, if_pos rfl, x.takeIn_rtpCache,
          if_pos hvideo]
        rfl
      · have hnone : ([x].filter fun y => y.publisher = q ∧ y.isVideo) = [] := by simp [hx]
        rw [hnone, List.map_nil, List.append_nil, ← ih]
        split
        · rw [x.takeIn_rtpCache, if_neg fun hvideo => hx ⟨by simp_all, hvideo⟩]
        · rfl

theorem run_get (hconf : room.mode = .conference) (hnew : ∀ q, (heap q).rtpCache = .new)
    {events : List MediaEvent} {p : Ref} {n : U16} {b : Bytes} :
    (events.foldl (mediaStep room) heap p).rtpCache.get n = some b ↔
      ∃ x, Ring.latest (inSlot p n) (received events) = some x ∧ x.seq = n ∧ x.packet = b := by
  have hin : inSlot p n = fun x => decide (RtpCache.slot x.stored.seq = RtpCache.slot n) &&
      decide (x.publisher = p ∧ x.isVideo) := by
    funext x
    rw [inSlot, Bool.decide_and]
    rfl
  rw [run_cache hconf hnew, RtpCache.get_after, Ring.latest_map, Ring.latest_filter, ← hin,
    Option.bind_map, Option.bind_eq_some_iff]
  refine exists_congr fun x => and_congr_right fun _ => ?_
  change (if x.seq = n then some x.packet else none) = some b ↔ _
  rw [Option.ite_none_right_eq_some, Option.some.injEq]

end

/-- `n` was received on the stream, and no other number of the stream that falls
into its slot after it. -/
def StillDue (xs : List Received) (p : Ref) (ssrc : U32) (n : U16) : Prop :=
  ∃ pre x post, xs = pre ++ x :: post ∧ x.publisher = p ∧ x.isVideo ∧ x.ssrc = ssrc ∧ x.seq = n ∧
    ∀ y ∈ post, y.publisher = p → y.isVideo → y.ssrc = ssrc →
      y.seq.toNat % rtpCacheSize = n.toNat % rtpCacheSize → y.seq = n

/-- A NACK about the stream `t` of publisher `p` is answered right. -/
structure Answered (heap : Heap) (room : Room) (subscriber : Ref) (data : Bytes)
    (xs : List Received) (p : Ref) (t : Track) : Prop where
  /-- Nobody else is sent anything, and the subscriber what fits into its queue. -/
  others : ∀ q, q ≠ subscriber →
    ((handleNackBlock heap room subscriber data).1 q).egress = (heap q).egress
  queued : ((handleNackBlock heap room subscriber data).1 subscriber).egress =
    (heap subscriber).egress ++
      ((handleNackBlock heap room subscriber data).2.map fun x => EgressPacket.rtp x.packet).take
        (egressQueueSize - (heap subscriber).egress.length)
  /-- Each packet is built, under the track's SSRC for retransmission, from a received
  packet of the stream that was named. -/
  built : ∀ x ∈ (handleNackBlock heap room subscriber data).2,
    t.rtxSsrc = some (be32 x.packet 8) ∧
      ∃ y ∈ xs, (heap p).rtpCache.get x.lostSeq = some y.packet ∧
        x.packet = buildRtxPacket y.packet (be32 x.packet 8) x.rtxSeq ∧
        y.publisher = p ∧ y.ssrc = t.ssrc ∧ y.seq = x.lostSeq ∧ Nacked data y.seq
  once : ∀ n, Nacked data n → StillDue xs p t.ssrc n →
    ((handleNackBlock heap room subscriber data).2.filter fun x => x.lostSeq = n).length = 1

/-- Of every named number: if the last video packet of the publisher in its slot has
it, then on this stream; and if it is still due on this stream, then that last packet
has it, and exactly one entry of the NACK names it. -/
def SlotsAgree (xs : List Received) (p : Ref) (ssrc : U32) (data : Bytes) : Prop :=
  ∀ n, Nacked data n →
    (∀ x, Ring.latest (inSlot p n) xs = some x → x.seq = n → x.ssrc = ssrc) ∧
      (StillDue xs p ssrc n →
        (∃ x, Ring.latest (inSlot p n) xs = some x ∧ x.seq = n) ∧ ∃! k, EntryNames data n k)

/-- Registered SSRCs are pairwise distinct. -/
def DistinctSsrcs (heap : Heap) (room : Room) : Prop :=
  ∀ q ∈ DashMap.values room.participants, ∀ q' ∈ DashMap.values room.participants,
    ∀ t ∈ (heap q).tracks, ∀ t' ∈ (heap q').tracks, t.ssrc = t'.ssrc → q = q' ∧ t = t'

section

variable {heap : Heap} {room : Room} {p : Ref} {t : Track}

theorem DistinctSsrcs.looksUp (h : DistinctSsrcs heap room)
    (hp : p ∈ DashMap.values room.participants) (ht : t ∈ (heap p).tracks) {rtxSsrc : U32}
    (hr : t.rtxSsrc = some rtxSsrc) : LooksUp heap room t.ssrc p rtxSsrc where
  publisher := by
    refine Room.findByTrackSsrc_owner hp ?_ fun q hq hreg => ?_
    · exact List.any_eq_true.mpr ⟨t, ht, by simp⟩
    · obtain ⟨t', ht', hssrc⟩ := List.any_eq_true.mp hreg
      exact (h q hq p hp t' ht' t ht (by simpa using hssrc)).1
  rtx := by
    cases hfind : (heap p).tracks.find? fun t' => t'.ssrc = t.ssrc with
    | none => exact absurd ht fun hmem => by simpa using List.find?_eq_none.mp hfind t hmem
    | some t' =>
      have hssrc : t'.ssrc = t.ssrc := by simpa using List.find?_some hfind
      obtain ⟨-, rfl⟩ := h p hp p hp t' (List.mem_of_find?_eq_some hfind) t ht hssrc
      exact hr

theorem lookupOf_conference (hconf : room.mode = .conference) (nack : NackItem) :
    lookupOf heap room nack = (nack.mediaSsrc, expandNack nack.pid nack.blp) := by
  simp [lookupOf, isVideoVirtual, hconf]

theorem answer_conference (hconf : room.mode = .conference) {ssrc rtxSsrc : U32} {data : Bytes}
    (hnack : GenericNack data ssrc) (h : LooksUp heap room ssrc p rtxSsrc) (subscriber : Ref) :
    Answer (heap p).rtpCache rtxSsrc (namedSeqs data)
      (handleNackBlock heap room subscriber data).2 := by
  refine h.block fun nack hmem => ?_
  rw [hnack.parse] at hmem
  obtain ⟨k, -, rfl⟩ := List.mem_map.mp hmem
  exact lookupOf_conference hconf _

theorem answered_iff (hconf : room.mode = .conference) (hnew : ∀ q, (heap q).rtpCache = .new)
    (hdistinct : DistinctSsrcs heap room) (hp : p ∈ DashMap.values room.participants)
    (ht : t ∈ (heap p).tracks) (hkind : t.kind = .video) {data : Bytes}
    (hnack : GenericNack data t.ssrc) (events : List MediaEvent) (subscriber : Ref) :
    Answered (events.foldl (mediaStep room) heap) room subscriber data (received events) p t ↔
      SlotsAgree (received events) p t.ssrc data := by
  obtain ⟨rtxSsrc, hr⟩ := Option.isSome_iff_exists.mp (t.rtx_isSome.mpr hkind)
  have hlooks : LooksUp (events.foldl (mediaStep room) heap) room t.ssrc p rtxSsrc :=
    (run_sameRouting hconf events).looksUp (hdistinct.looksUp hp ht hr)
  have hanswer := answer_conference hconf hnack hlooks subscriber
  have hsent := handleNackBlock_sent (events.foldl (mediaStep room) heap) room subscriber data
  have hget : ∀ n b, (events.foldl (mediaStep room) heap p).rtpCache.get n = some b ↔
      ∃ x, Ring.latest (inSlot p n) (received events) = some x ∧ x.seq = n ∧ x.packet = b :=
    fun _ _ => run_get hconf hnew
  generalize events.foldl (mediaStep room) heap = after at hanswer hsent hget ⊢
  constructor
  · intro h n hn
    have hnamed : n ∈ namedSeqs data := hnack.mem_namedSeqs.mpr hn
    refine ⟨fun x hx hseq => ?_, fun hdue => ?_⟩
    · have hheld := (hget n x.packet).mpr ⟨x, hx, hseq, rfl⟩
      obtain ⟨rtx, hrtx, rfl⟩ := hanswer.mem_lostSeqs.mpr ⟨hnamed, by rw [hheld]; rfl⟩
      obtain ⟨-, y, -, hy, -, -, hssrc, -⟩ := h.built rtx hrtx
      have hpacket : y.packet = x.packet := Option.some.inj (hy.symm.trans hheld)
      rw [← hssrc, Received.ssrc, Received.ssrc, hpacket]
    · have hone := h.once n hn hdue
      rw [hanswer.count] at hone
      split at hone
      · rename_i hheld
        obtain ⟨b, hb⟩ := Option.isSome_iff_exists.mp hheld
        obtain ⟨x, hx, hseq, -⟩ := (hget n b).mp hb
        exact ⟨⟨x, hx, hseq⟩, hnack.count_namedSeqs.mp hone⟩
      · cases hone
  · intro h
    refine ⟨hsent.others, hsent.queued, fun rtx hrtx => ?_, fun n hn hdue => ?_⟩
    · obtain ⟨original, hheld, hpacket⟩ := hanswer.built rtx hrtx
      obtain ⟨y, hy, hseq, rfl⟩ := (hget _ _).mp hheld
      have hlost := (hanswer.mem_lostSeqs.mp ⟨rtx, hrtx, rfl⟩).1
      have hn := hnack.mem_namedSeqs.mp hlost
      obtain ⟨hmem, hin⟩ := Ring.latest_some hy
      have hrtxSsrc : be32 rtx.packet 8 = rtxSsrc := by
        rw [hpacket, (buildRtxPacket_fields _ _ y.wellFormed).1]
      rw [hrtxSsrc]
      refine ⟨hr, y, hmem, hheld, hpacket, ?_, (h _ hn).1 y hy hseq, hseq, hseq ▸ hn⟩
      simp only [inSlot, decide_eq_true_eq] at hin
      exact hin.2.1
    · obtain ⟨⟨x, hx, hseq⟩, hone⟩ := (h n hn).2 hdue
      have hheld := (hget n x.packet).mpr ⟨x, hx, hseq, rfl⟩
      rw [hanswer.count, if_pos (by rw [hheld]; rfl), hnack.count_namedSeqs.mpr hone]

end

/-- A publisher of two video streams, and the one who watches them. -/
def twoStreams : Heap := fun q =>
  let p := Participant.new (if q = 0 then "a" else "b") "r" "pu" "pp" "su" "sp" 1
  if q = 0 then (p.addTrack 10 .video "t").addTrack 20 .video "u" else p

def watchedRoom : Room :=
  { Room.new "r" "room" none .conference 1 7 8 with
    participants := (AList.insert "a" 0 ∅ : DashMap String Ref).insert "b" 1 }

/-- The first packet of a stream, numbered alike on both. -/
def startOf (ssrc : U32) : Received where
  publisher := 0
  packet := [0x80, 96] ++ toBe16 5 ++ toBe32 0 ++ toBe32 ssrc ++ [1]
  arrival := 0
  wellFormed := by simp [rtpHeaderLen, byteAt]

def bothStart : List MediaEvent := [.rtp (startOf 10), .rtp (startOf 20)]

def nackOfStart (ssrc : U32) : Bytes :=
  [0x81, 205, 0, 3] ++ toBe32 0 ++ toBe32 ssrc ++ toBe16 5 ++ toBe16 0

theorem nackOfStart_generic {ssrc : U32} (h : ssrc = 10 ∨ ssrc = 20) :
    GenericNack (nackOfStart ssrc) ssrc := by
  rcases h with rfl | rfl <;> exact ⟨by decide, by decide, by decide, by decide, by decide⟩

theorem nackOfStart_names {n : U16} (hn : Nacked (nackOfStart 20) n) :
    n = 5 ∧ ∃! k, EntryNames (nackOfStart 20) n k := by
  have hgeneric := nackOfStart_generic (.inr rfl)
  have hseqs : namedSeqs (nackOfStart 20) = [5] := by decide
  have hnamed := hgeneric.mem_namedSeqs.mpr hn
  rw [hseqs, List.mem_singleton] at hnamed
  subst hnamed
  exact ⟨rfl, hgeneric.count_namedSeqs.mp (by rw [hseqs]; rfl)⟩

theorem twoStreams_new (q : Ref) : (twoStreams q).rtpCache = .new := by
  unfold twoStreams
  split <;> rfl

theorem twoStreams_distinct : DistinctSsrcs twoStreams watchedRoom := by
  unfold DistinctSsrcs
  decide

/-- The stream that came last is answered for, the other one is not. -/
theorem answered_iff_bothStart :
    (∃ t ∈ (twoStreams 0).tracks, t.ssrc = 20 ∧
      (handleNackBlock (bothStart.foldl (mediaStep watchedRoom) twoStreams) watchedRoom 1
        (nackOfStart 20)).2 ≠ [] ∧
      Answered (bothStart.foldl (mediaStep watchedRoom) twoStreams) watchedRoom 1
        (nackOfStart 20) (received bothStart) 0 t) ∧
    ∃ t ∈ (twoStreams 0).tracks, t.ssrc = 10 ∧
      ¬ Answered (bothStart.foldl (mediaStep watchedRoom) twoStreams) watchedRoom 1
          (nackOfStart 10) (received bothStart) 0 t ∧
        ¬ SlotsAgree (received bothStart) 0 t.ssrc (nackOfStart 10) := by
  obtain ⟨t, ht, hssrc, hkind⟩ : ∃ t ∈ (twoStreams 0).tracks, t.ssrc = 20 ∧ t.kind = .video := by
    decide
  obtain ⟨u, hu, hussrc, hukind⟩ : ∃ t ∈ (twoStreams 0).tracks, t.ssrc = 10 ∧ t.kind = .video := by
    decide
  have hlast : Ring.latest (inSlot 0 5) (received bothStart) = some (startOf 20) := rfl
  have hslots : SlotsAgree (received bothStart) 0 t.ssrc (nackOfStart 20) := fun n hn => by
    obtain ⟨rfl, honce⟩ := nackOfStart_names hn
    rw [hlast]
    refine ⟨fun x hx _ => ?_, fun _ => ⟨⟨_, rfl, by decide⟩, honce⟩⟩
    cases hx
    rw [hssrc]
    decide
  have hnot : ¬ SlotsAgree (received bothStart) 0 u.ssrc (nackOfStart 10) := fun h =>
    absurd ((h 5 ⟨0, by decide, .inl (by decide)⟩).1 (startOf 20) hlast (by decide))
      (by rw [hussrc]; decide)
  refine ⟨⟨t, ht, hssrc, by decide, ?_⟩, u, hu, hussrc, fun h => ?_, hnot⟩
  · exact (answered_iff rfl twoStreams_new twoStreams_distinct (by decide) ht hkind
      (hssrc.symm ▸ nackOfStart_generic (.inr rfl)) bothStart 1).mpr hslots
  · exact hnot ((answered_iff rfl twoStreams_new twoStreams_distinct (by decide) hu hukind
      (hussrc.symm ▸ nackOfStart_generic (.inl rfl)) bothStart 1).mp h)

/-- The second stream has taken the slot: its packet is sent for the first one's. -/
theorem other_stream_retransmitted :
    ¬ ∀ (heap : Heap) (room : Room) (p : Ref) (t : Track) (data : Bytes) (events : List MediaEvent)
      (subscriber : Ref), room.mode = .conference → (∀ q, (heap q).rtpCache = .new) →
        DistinctSsrcs heap room → p ∈ DashMap.values room.participants → t ∈ (heap p).tracks →
          t.kind = .video → GenericNack data t.ssrc →
            Answered (events.foldl (mediaStep room) heap) room subscriber data (received events)
              p t := by
  intro h
  obtain ⟨t, ht, hssrc, hkind⟩ : ∃ t ∈ (twoStreams 0).tracks, t.ssrc = 10 ∧ t.kind = .video := by
    decide
  have hanswered := h twoStreams watchedRoom 0 t (nackOfStart 10) bothStart 1 rfl twoStreams_new
    twoStreams_distinct (by decide) ht hkind (hssrc.symm ▸ nackOfStart_generic (.inl rfl))
  obtain ⟨x, hx, hlost⟩ : ∃ x ∈ (handleNackBlock (bothStart.foldl (mediaStep watchedRoom)
      twoStreams) watchedRoom 1 (nackOfStart 10)).2, x.lostSeq = 5 := by decide
  obtain ⟨-, y, -, hy, -, -, hyssrc, -⟩ := hanswered.built x hx
  have hheld : (bothStart.foldl (mediaStep watchedRoom) twoStreams 0).rtpCache.get 5 =
    some (startOf 20).packet := by decide
  rw [hlost, hheld] at hy
  have hother : y.ssrc = (startOf 20).ssrc := by
    rw [Received.ssrc, Received.ssrc, Option.some.inj hy]
  rw [hyssrc, hssrc] at hother
  exact absurd hother (by decide)

end LightLivechat.Transport.Udp
