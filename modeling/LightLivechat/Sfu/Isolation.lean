import LightLivechat.Ptt.Fanout
import LightLivechat.Room.OffsetLaws
import LightLivechat.Sfu.Egress

/-! Where the packets come from that participants are sent.  Nothing leaves its room, and
nothing is queued that was not published in it. -/

namespace LightLivechat.Sfu

open LightLivechat.Config LightLivechat.Lib LightLivechat.Lib.Bytes LightLivechat.Lib.Std
open LightLivechat.Lib.Runs
open LightLivechat.Room (Heap Ref Participant PcType Room RoomHub EgressPacket RtpCache PttRewriter)
open LightLivechat.Transport
open LightLivechat.Transport.Udp (Instant)

namespace State

variable {P : Platform}

/-- A datagram comes in from where the participant is latched for publishing; it is in the
room and has its keys. -/
def Speaks (r : String) (q : Ref) (s : State P) : Label → Prop
  | .datagram _ _ remote _ _ => s.rooms.Member r q ∧ (s.heap q).publish.address = some remote ∧
    (s.srtp q .publish).inbound.isReady = true
  | _ => False

/-- The participant's datagram decrypts to an RTP packet. -/
def Published (r : String) (q : Ref) (plaintext : Bytes) (s : State P) (l : Label) : Prop :=
  Speaks r q s l ∧ ∃ room arrival, room.id = r ∧ s.heard l = some (.rtp q room plaintext arrival)

/-- What goes to the others when a participant's datagram decrypts: RTCP as it is, RTP with
at most a header of its own, and in a push-to-talk room the speaker's only. -/
inductive Forwards (r : String) (q : Ref) (s : State P) (l : Label) : EgressPacket → Prop
  | rtp {room : Room} {plaintext payload : Bytes} {arrival : Instant} (hspeaks : Speaks r q s l)
    (hroom : room.id = r) (h : s.heard l = some (.rtp q room plaintext arrival))
    (hfloor : room.mode = .ptt → room.floor.currentSpeaker = some (s.heap q).userId)
    (hpayload : payload.drop 12 = plaintext.drop 12)
    (hsame : room.mode = .conference → payload = plaintext) : Forwards r q s l (.rtp payload)
  | rtcp {room : Room} {plaintext : Bytes} (hspeaks : Speaks r q s l) (hroom : room.id = r)
    (h : s.heard l = some (.rtcp q room plaintext))
    (hfloor : room.mode = .ptt → room.floor.currentSpeaker = some (s.heap q).userId) :
    Forwards r q s l (.rtcp plaintext)

/-- The packet was forwarded from another participant of the room, or retransmits what was
published there. -/
def Stems (s₀ : State P) (labels : List Label) (r : String) (p : Ref) (x : EgressPacket) :
    Prop :=
  (∃ q, q ≠ p ∧ Happened step (fun s l => Forwards r q s l x) s₀ labels) ∨
    ∃ q original rtxSsrc rtxSeq, x = .rtp (Udp.buildRtxPacket original rtxSsrc rtxSeq) ∧
      Happened step (Published r q original) s₀ labels

section

variable {room : Room} {userId : String} {plaintext payload : Bytes}

theorem fanoutPayload_drop {r : PttRewriter} {isKeyframe : Bool}
    (h : Udp.fanoutPayload plaintext (r.rewrite plaintext userId isKeyframe).2.1
      (r.rewrite plaintext userId isKeyframe).2.2 = some payload) :
    payload.drop 12 = plaintext.drop 12 := by
  rcases r.rewrite_cases plaintext userId isKeyframe with
    ⟨hr, -⟩ | ⟨hr, -⟩ | ⟨state, -, hr, hlen, -⟩
  · rw [hr] at h
    cases h
    rfl
  · rw [hr] at h
    cases h
  · rw [hr] at h
    cases h
    exact PttRewriter.drop_stamp _ _ _ _ hlen

theorem passGate_payload (h : (passGate room userId plaintext).2 = some payload) :
    (room.mode = .ptt → room.floor.currentSpeaker = some userId) ∧
      payload.drop 12 = plaintext.drop 12 ∧ (room.mode = .conference → payload = plaintext) := by
  unfold passGate at h
  split at h
  · rename_i hmode
    split at h
    · cases h
    · rename_i hallowed
      refine ⟨fun _ => of_decide_eq_true (not_not.mp hallowed), ?_, fun hconf => ?_⟩
      · dsimp only at h
        unfold Udp.rewriteRtp at h
        dsimp only at h
        split at h
        · exact fanoutPayload_drop h
        · split at h
          · exact fanoutPayload_drop h
          · cases h
            rfl
      · rw [hmode] at hconf
        cases hconf
  · rename_i hmode
    cases h
    exact ⟨fun hptt => absurd hptt hmode, rfl, fun _ => rfl⟩

end

section

variable {s s' : State P} {l : Label} {heap : Heap} {next : Ref} {rooms : RoomHub} {p q : Ref}
variable {x : EgressPacket}

theorem Inv.speaks (hinv : s.Inv) {m : Media} (h : s.heard l = some m)
    (hpc : m.source.2.1 = .publish) : Speaks m.source.2.2.id m.source.1 s l := by
  cases l with
  | datagram worker data remote now arrival =>
    obtain ⟨hroom, hp, haddr⟩ := hinv.member h
    have hready := (heard_source h).2
    rw [hpc] at haddr hready
    exact ⟨⟨_, _, hroom, hp⟩, haddr, hready⟩
  | _ => cases h

/-- Where a packet that has just been queued comes from. -/
inductive Queued (s : State P) (l : Label) (p : Ref) : EgressPacket → Prop
  | forwarded {q : Ref} {x : EgressPacket} (hne : q ≠ p)
    (h : Forwards (s.heap p).roomId q s l x) : Queued s l p x
  | retransmitted {q : Ref} {original : Bytes} {seq : U16} (rtxSsrc : U32) (rtxSeq : U16)
    (hroom : (s.heap q).roomId = (s.heap p).roomId)
    (h : (s.heap q).rtpCache.get seq = some original) :
    Queued s l p (.rtp (Udp.buildRtxPacket original rtxSsrc rtxSeq))

theorem Inv.roomId_of_hears (hinv : s.Inv) {r : String} {room : Room} {userId : String}
    (hroom : s.rooms.rooms.lookup r = some room) (h : Hears s.heap room userId p) :
    (s.heap p).roomId = r := by
  obtain ⟨u, hu⟩ := DashMap.exists_lookup_of_mem_values h.1
  exact hinv.home ⟨room, u, hroom, hu⟩

/-- What is offered to a queue is forwarded or retransmitted in the participant's room. -/
theorem Inv.queued (hinv : s.Inv) (hx : x ∈ s.offers p l) : Queued s l p x := by
  cases l with
  | datagram worker data remote now arrival =>
    simp only [offers] at hx
    split at hx
    · rename_i sender room plaintext arrival' h
      obtain ⟨hroom, -, -⟩ := hinv.member h
      obtain ⟨hhears, hx⟩ := List.mem_ite_nil_right.mp hx
      obtain ⟨payload, hpayload, rfl⟩ := Option.map_eq_some_iff.mp (Option.mem_toList.mp hx)
      obtain ⟨hfloor, hdrop, hsame⟩ := passGate_payload hpayload
      have hroomId := hinv.roomId_of_hears hroom hhears
      refine .forwarded (fun heq => hhears.2.1 (by rw [heq]))
        (.rtp ?_ hroomId.symm h hfloor hdrop hsame)
      rw [hroomId]
      exact hinv.speaks h rfl
    · rename_i sender room plaintext h
      obtain ⟨hroom, -, -⟩ := hinv.member h
      split at hx
      · cases hx
      · rename_i hgate
        obtain ⟨hhears, hx⟩ := List.mem_ite_nil_right.mp hx
        cases List.mem_singleton.mp hx
        have hroomId := hinv.roomId_of_hears hroom hhears
        refine .forwarded (fun heq => hhears.2.1 (by rw [heq]))
          (.rtcp ?_ hroomId.symm h fun hptt => ?_)
        · rw [hroomId]
          exact hinv.speaks h rfl
        · by_contra hnot
          exact hgate ⟨hptt, fun hallowed => hnot (of_decide_eq_true hallowed)⟩
    · rename_i subscriber room plaintext h
      obtain ⟨hroom, hmem, -⟩ := hinv.member h
      dsimp only [Media.source] at hroom hmem
      obtain ⟨rfl, hpackets⟩ := List.mem_ite_nil_right.mp hx
      obtain ⟨rtx, hrtx, rfl⟩ := List.mem_map.mp hpackets
      obtain ⟨q, hq, original, rtxSsrc, hget, hbuilt⟩ := (answerNacks_sent _).2 rtx hrtx
      obtain ⟨u, hu⟩ := DashMap.exists_lookup_of_mem_values hq
      have hcache : ((s.touch p now).heap q).rtpCache = (s.heap q).rtpCache :=
        Heap.update_field (fun y => y.rtpCache) rfl q
      rw [hcache] at hget
      rw [hbuilt]
      refine .retransmitted rtxSsrc rtx.rtxSeq ?_ hget
      rw [hinv.home ⟨room, u, hroom, hu⟩, hinv.home ⟨room, _, hroom, hmem⟩]
    · cases hx
  | _ => cases hx

theorem takeIn_slots {y : Participant} {plaintext : Bytes} {now : Instant} {i : Fin rtpCacheSize}
    {b : Bytes} (h : (Udp.takeIn y plaintext now).rtpCache.slots i = some b) :
    y.rtpCache.slots i = some b ∨ b = plaintext := by
  rw [Udp.takeIn_rtpCache] at h
  split at h
  · dsimp only [RtpCache.store] at h
    rw [Ring.put_apply] at h
    split at h
    · cases h
      exact .inr rfl
    · exact .inl h
  · exact .inl h

theorem Stepped.cached (h : Stepped s l heap next rooms) (hinv : s.Inv) {i : Fin rtpCacheSize}
    {b : Bytes} (hb : (heap p).rtpCache.slots i = some b) :
    (s.heap p).rtpCache.slots i = some b ∨ Published (s.heap p).roomId p b s l := by
  have hupdate : ∀ (heap : Heap) {q : Ref} {f : Participant → Participant},
      (f (heap q)).rtpCache = (heap q).rtpCache →
      ((heap.update q f) p).rtpCache = (heap p).rtpCache :=
    fun heap _ _ hf => Heap.update_field (fun y => y.rtpCache) hf p
  have hfan : ∀ (heap : Heap) (room : Room) userId packet,
      (Udp.fanOut heap room userId packet p).rtpCache = (heap p).rtpCache :=
    fun heap room userId packet =>
      Udp.fanOut_field heap room (fun y => y.rtpCache) Participant.trySend_rtpCache userId packet p
  cases h with
  | same => exact .inl hb
  | signalled hl h =>
    rw [hinv.signalled_field hl h (fun y => y.rtpCache) (fun _ _ _ _ => rfl)
      (fun _ _ _ => rfl) p] at hb
    exact .inl hb
  | @latched _ now _ _ _ _ latched _ q pc _ h =>
    obtain ⟨roomId, room, room', -, -, hlatch, -⟩ := Room.RoomHub.latchByUfrag_eq_some h
    obtain ⟨-, rfl, -⟩ := Room.Room.latch_spec hlatch
    rw [hupdate _ rfl, Room.Heap.latch, hupdate _ (by cases pc <;> rfl)] at hb
    exact .inl hb
  | touched =>
    rw [hupdate _ rfl] at hb
    exact .inl hb
  | answered =>
    rw [handleSubscribeRtcp_heap, (answerNacks_sent _).1.caches, hupdate _ rfl] at hb
    exact .inl hb
  | relayed =>
    unfold Udp.relayPublishRtcp at hb
    split at hb
    · rw [hupdate _ rfl] at hb
      exact .inl hb
    · rw [hfan, hupdate _ rfl] at hb
      exact .inl hb
  | @forwarded _ now _ _ arrival sender room plaintext h =>
    have htaken : (((s.heap.update sender fun y => y.touch now).update sender fun y =>
        Udp.takeIn y plaintext arrival) p).rtpCache.slots i = some b := by
      rw [handleSrtp_eq] at hb
      dsimp only at hb
      split at hb
      · exact hb
      · rwa [hfan] at hb
    by_cases hp : p = sender
    · subst hp
      rw [Heap.update_same, Heap.update_same] at htaken
      rcases takeIn_slots htaken with hold | rfl
      · exact .inl hold
      · obtain ⟨hroom, hmem, -⟩ := hinv.member h
        have hroomId := hinv.home ⟨room, _, hroom, hmem⟩
        dsimp only [Media.source] at hroomId
        refine .inr ⟨?_, room, arrival, hroomId.symm, h⟩
        rw [hroomId]
        exact hinv.speaks h rfl
    · rw [Heap.update_of_ne hp, Heap.update_of_ne hp] at htaken
      exact .inl htaken
  | @installed _ _ y h hi =>
    rw [hupdate _ (by cases y.pcType <;> rfl)] at hb
    exact .inl hb
  | taken =>
    rw [hupdate _ rfl] at hb
    exact .inl hb
  | readOut h =>
    obtain ⟨recorder, hq⟩ := h p
    rw [hq] at hb
    exact .inl hb

theorem slots_of_get {c : RtpCache} {seq : U16} {b : Bytes} (h : c.get seq = some b) :
    c.slots (RtpCache.slot seq) = some b := (Option.filter_eq_some_iff.mp h).1

theorem Kept.lt (h : Kept s heap next rooms) (hinv : s.Inv)
    (hp : (heap p).egress ≠ [] ∨ ∃ i, (heap p).rtpCache.slots i ≠ none) : p < s.next := by
  by_contra hle
  have hge := Nat.not_lt.mp hle
  have hnew : (heap p).egress = [] ∧ ∀ i, (heap p).rtpCache.slots i = none := by
    rcases Nat.lt_or_ge p next with hlt | hge'
    · obtain ⟨draws, userId, roomId, heq, -⟩ := h.fresh hge hlt
      rw [heq]
      exact ⟨rfl, fun _ => rfl⟩
    · rw [h.free hge', hinv.free hge]
      exact ⟨rfl, fun _ => rfl⟩
  rcases hp with hp | ⟨i, hi⟩
  · exact hp hnew.1
  · exact hi (hnew.2 i)

/-- What is queued and what is cached, by the run that led there. -/
structure Provenance (s₀ : State P) (labels : List Label) (t : State P) : Prop where
  queued : ∀ {p x}, x ∈ (t.heap p).egress → Stems s₀ labels (t.heap p).roomId p x
  cached : ∀ {q i b}, (t.heap q).rtpCache.slots i = some b →
    Happened step (Published (t.heap q).roomId q b) s₀ labels

end

section

variable {draws : Fin 3 → Signaling.Draws} {labels : List Label} {s₀ s s' : State P} {l : Label}
variable {p : Ref} {x : EgressPacket}

theorem Stems.append {r : String} (h : Stems s₀ labels r p x) (more : List Label) :
    Stems s₀ (labels ++ more) r p x := by
  rcases h with ⟨q, hne, h⟩ | ⟨q, original, rtxSsrc, rtxSeq, hx, h⟩
  · exact .inl ⟨q, hne, h.append more⟩
  · exact .inr ⟨q, original, rtxSsrc, rtxSeq, hx, h.append more⟩

theorem Provenance.step (h : Provenance s₀ labels s) (hinv : s.Inv)
    (hrun : run step s₀ labels = some s) (hstep : s.step l = some s') :
    Provenance s₀ (labels ++ [l]) s' := by
  have hstepped := step_stepped hstep
  have hkept := hstepped.kept hinv
  refine ⟨fun {p x} hx => ?_, fun {q i b} hb => ?_⟩
  · rw [hkept.roomId (hkept.lt hinv (.inl (List.ne_nil_of_mem hx)))]
    rcases hstepped.mem_egress hinv hx with hold | hnew
    · exact (h.queued hold).append _
    · cases hinv.queued hnew with
      | @forwarded q _ hne hforwards => exact .inl ⟨q, hne, .here hrun hforwards⟩
      | @retransmitted q original seq rtxSsrc rtxSeq hroom hget =>
        rw [← hroom]
        exact .inr ⟨q, original, rtxSsrc, rtxSeq, rfl, (h.cached (slots_of_get hget)).append _⟩
  · rw [hkept.roomId (hkept.lt hinv (.inr ⟨i, by simp [hb]⟩))]
    rcases hstepped.cached hinv hb with hold | hnew
    · exact (h.cached hold).append _
    · exact .here hrun hnew

theorem provenance_start (P : Platform) (draws : Fin 3 → Signaling.Draws) :
    Provenance (start P draws) [] (start P draws) where
  queued := fun hx => by cases hx
  cached := fun hb => by cases hb

theorem provenance (h : run step (start P draws) labels = some s) :
    Provenance (start P draws) labels s :=
  (run_induction (P := fun labels t => t.Inv ∧ Provenance (start P draws) labels t)
    ⟨inv_start P draws, provenance_start P draws⟩
    (fun _ _ _ _ hrun hP hstep => ⟨inv_step hP.1 hstep, hP.2.step hP.1 hrun hstep⟩) h).2

/-- Whatever waits for a participant was forwarded from somebody else of its room, who was
latched and had the keys and, in a push-to-talk room, the floor; or it retransmits what
was published in its room. -/
theorem queued_stems (h : run step (start P draws) labels = some s)
    (hx : x ∈ (s.heap p).egress) : Stems (start P draws) labels (s.heap p).roomId p x :=
  (provenance h).queued hx

theorem queued_stems_watched : ∃ s, run step Call.start Call.watched = some s ∧
    (s.heap 1).egress ≠ [] ∧
    ∀ x ∈ (s.heap 1).egress, Stems Call.start Call.watched (s.heap 1).roomId 1 x := by
  obtain ⟨s, h, hne⟩ := Option.map_eq_some_iff.mp
    (show (run step Call.start Call.watched).map (fun s => (s.heap 1).egress.isEmpty) =
      some false by decide +kernel)
  exact ⟨s, h, List.isEmpty_eq_false_iff.mp hne, fun x hx => queued_stems h hx⟩

end

end State

end LightLivechat.Sfu
