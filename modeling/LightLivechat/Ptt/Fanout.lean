import LightLivechat.Ptt.Speakers

/-! What subscribers of a push-to-talk room are sent.  A packet the rewriter skips is
fanned out as it arrived, so the single virtual stream holds only as long as no packet
is skipped. -/

namespace LightLivechat.Ptt

open LightLivechat.Lib.Runs LightLivechat.Lib.Bytes LightLivechat.Lib.Std LightLivechat.Config
open LightLivechat.Room (Heap Ref Participant TrackKind EgressPacket PttRewriter RewriteResult Room)
open LightLivechat.Transport.Udp (parseRtpHeader takeIn rewriteRtp fanoutPayload)

/-- The packet is what one of the room's rewriters made of another, and carries its
virtual SSRC. -/
def Rewritten (room : Room) (payload : Bytes) : Prop :=
  (be32 payload 8 = room.audioRewriter.virtualSsrc ∨
      be32 payload 8 = room.videoRewriter.virtualSsrc) ∧
    ∃ (r : PttRewriter) (plaintext : Bytes) (sender : String) (isKeyframe : Bool),
      r.virtualSsrc = be32 payload 8 ∧ (r.rewrite plaintext sender isKeyframe).2 = (payload, .ok)

/-- Every RTP packet queued to a subscriber is on a virtual stream. -/
def VirtualOnly (s : System) : Prop :=
  ∀ q payload, EgressPacket.rtp payload ∈ (s.heap q).egress → Rewritten s.room payload

/-- A packet that comes to be rewritten is one the rewriter of its kind takes. -/
def taken (s : System) : Label → Bool
  | .advance i =>
    match s.tasks[i]? with
    | some (.rewrite sender plaintext) =>
      let pt := (parseRtpHeader plaintext).pt
      let userId := (s.heap sender).userId
      (pt = 111 ∧ s.room.audioRewriter.isCurrentSpeaker userId) ∨
        (pt = 96 ∧ s.room.videoRewriter.isCurrentSpeaker userId)
    | _ => true
  | _ => true

/-- What waits to be fanned out is on a virtual stream as well. -/
structure Clean (s : System) : Prop where
  waiting : ∀ sender payload, Task.fanOut sender payload ∈ s.tasks → Rewritten s.room payload
  queued : VirtualOnly s

section

variable {room room' : Room}

/-- The virtual SSRCs of a room are drawn once. -/
structure SameSsrcs (room room' : Room) : Prop where
  audio : room'.audioRewriter.virtualSsrc = room.audioRewriter.virtualSsrc
  video : room'.videoRewriter.virtualSsrc = room.videoRewriter.virtualSsrc

theorem apply_sameSsrcs (c : SpeakerCall) (room : Room) : SameSsrcs room (c.apply room) := by
  obtain ⟨k, u⟩ := c
  cases k <;> cases u <;> exact ⟨rfl, rfl⟩

theorem SameMedia.sameSsrcs (h : SameMedia room room') : SameSsrcs room room' :=
  ⟨by rw [h.audio], by rw [h.video]⟩

theorem rewriteRtp_sameSsrcs (room : Room) (userId : String) (plaintext : Bytes) :
    SameSsrcs room (rewriteRtp room userId plaintext).1 := by
  simp only [rewriteRtp]
  split
  · exact ⟨(room.audioRewriter.rewrite_frame plaintext userId false).2, rfl⟩
  · split
    · exact ⟨rfl, (room.videoRewriter.rewrite_frame plaintext userId _).2⟩
    · exact ⟨rfl, rfl⟩

theorem SameSsrcs.rewritten (h : SameSsrcs room room') {payload : Bytes}
    (hr : Rewritten room payload) : Rewritten room' payload := by
  rw [Rewritten, h.audio, h.video]
  exact hr

theorem length_of_pt {plaintext : Bytes} (h : (parseRtpHeader plaintext).pt ≠ 0) :
    12 ≤ plaintext.length := by
  rcases Nat.lt_or_ge plaintext.length 12 with hlt | hge
  · simp [parseRtpHeader, rtpHeaderMinSize, hlt] at h
  · exact hge

theorem fanoutPayload_rewrite {r : PttRewriter} {plaintext payload : Bytes} {sender : String}
    {isKeyframe : Bool} (hlen : 12 ≤ plaintext.length) (hspk : r.isCurrentSpeaker sender)
    (h : fanoutPayload plaintext (r.rewrite plaintext sender isKeyframe).2.1
      (r.rewrite plaintext sender isKeyframe).2.2 = some payload) :
    be32 payload 8 = r.virtualSsrc ∧
      (r.rewrite plaintext sender isKeyframe).2 = (payload, .ok) := by
  have hsender : r.state.speaker = some sender := by simpa [PttRewriter.isCurrentSpeaker] using hspk
  rcases r.rewrite_cases plaintext sender isKeyframe with ⟨hr, hskip⟩ | ⟨hr, -⟩ | ⟨state, -, hr, -⟩
  · rcases hskip with hshort | hother
    · omega
    · exact absurd hsender hother
  · rw [hr] at h
    cases h
  · rw [hr] at h ⊢
    cases h
    exact ⟨(LightLivechat.Room.stamp_fields _ _ _ _ hlen).2.2.2, rfl⟩

theorem rewriteRtp_rewritten {plaintext payload : Bytes} {userId : String}
    (htaken : (parseRtpHeader plaintext).pt = 111 ∧ room.audioRewriter.isCurrentSpeaker userId ∨
      (parseRtpHeader plaintext).pt = 96 ∧ room.videoRewriter.isCurrentSpeaker userId)
    (h : fanoutPayload plaintext (rewriteRtp room userId plaintext).2.1
      (rewriteRtp room userId plaintext).2.2 = some payload) : Rewritten room payload := by
  rcases htaken with ⟨hpt, hspk⟩ | ⟨hpt, hspk⟩
  · have hlen := length_of_pt (by rw [hpt]; decide : (parseRtpHeader plaintext).pt ≠ 0)
    simp only [rewriteRtp, hpt, if_true] at h
    obtain ⟨hssrc, hok⟩ := fanoutPayload_rewrite hlen hspk h
    exact ⟨.inl hssrc, room.audioRewriter, plaintext, userId, false, hssrc.symm, hok⟩
  · have hlen := length_of_pt (by rw [hpt]; decide : (parseRtpHeader plaintext).pt ≠ 0)
    have hother : ¬ (96 : U8) = 111 := by decide
    simp only [rewriteRtp, hpt, if_neg hother, if_true] at h
    obtain ⟨hssrc, hok⟩ := fanoutPayload_rewrite hlen hspk h
    exact ⟨.inr hssrc, room.videoRewriter, plaintext, userId, _, hssrc.symm, hok⟩

theorem mem_fanOut_egress (heap : Heap) (room : Room) (userId : String) {packet x : EgressPacket}
    {q : Ref} (h : x ∈ (Transport.Udp.fanOut heap room userId packet q).egress) :
    x ∈ (heap q).egress ∨ x = packet := by
  revert h
  refine List.foldlRecOn (motive := fun h : Heap => x ∈ (h q).egress → x ∈ (heap q).egress ∨
    x = packet) _ _ .inl fun h hh e _ hx => ?_
  split at hx
  · exact hh hx
  · split at hx
    · exact hh hx
    · rw [Heap.update_apply] at hx
      split at hx
      · subst_vars
        simp only [Participant.trySend] at hx
        split at hx
        · rcases List.mem_append.mp hx with hx | hx
          · exact hh hx
          · exact .inr (List.mem_singleton.mp hx)
        · exact hh hx
      · exact hh hx

end

section

variable {s s' : System}

theorem Clean.frame (h : Clean s) (hssrcs : SameSsrcs s.room s'.room)
    (htasks : ∀ sender payload, Task.fanOut sender payload ∈ s'.tasks →
      Task.fanOut sender payload ∈ s.tasks)
    (hegress : ∀ q, (s'.heap q).egress = (s.heap q).egress) : Clean s' where
  waiting := fun sender payload ht => hssrcs.rewritten (h.waiting sender payload (htasks _ _ ht))
  queued := fun q payload hq => hssrcs.rewritten (h.queued q payload (hegress q ▸ hq))

theorem Clean.advance (h : Clean s) {i : Nat} {t' : Task} {room : Room}
    (hssrcs : SameSsrcs s.room room) (ht' : ∀ sender payload, t' ≠ .fanOut sender payload) :
    Clean { s with room := room, tasks := s.tasks.set i t' } := by
  refine h.frame hssrcs (fun sender payload ht => ?_) fun _ => rfl
  exact (List.mem_or_eq_of_mem_set ht).resolve_right fun heq => ht' sender payload heq.symm

theorem Clean.step (h : Clean s) {l : Label} (htaken : taken s l) (hmoved : Moved s l s') :
    Clean s' := by
  cases hmoved with
  | roster hsame => exact h.frame hsame.sameSsrcs (fun _ _ ht => ht) fun _ => rfl
  | floor =>
    refine h.frame ⟨rfl, rfl⟩ (fun sender payload ht => ?_) fun _ => rfl
    exact (List.mem_append.mp ht).resolve_right fun heq => nomatch List.mem_singleton.mp heq
  | arrive sender plaintext now =>
    refine h.frame ⟨rfl, rfl⟩ (fun sender payload ht => ?_)
      (Heap.update_field Participant.egress (Transport.Udp.takeIn_egress _ _ _))
    exact (List.mem_append.mp ht).resolve_right fun heq => nomatch List.mem_singleton.mp heq
  | task ht hstep =>
    cases hstep with
    | call c steps => exact h.advance (apply_sameSsrcs c s.room) fun _ _ => nofun
    | remove steps hsame => exact h.advance hsame.sameSsrcs fun _ _ => nofun
    | allow => exact h.advance ⟨rfl, rfl⟩ fun _ _ => nofun
    | drop => exact h.advance ⟨rfl, rfl⟩ fun _ _ => nofun
    | hold => exact h.advance (rewriteRtp_sameSsrcs _ _ _) fun _ _ => nofun
    | @pass sender plaintext payload hpass =>
      simp only [taken, ht, decide_eq_true_eq] at htaken
      have hpayload := rewriteRtp_rewritten htaken hpass
      refine ⟨fun sender' payload' hmem => ?_, fun q payload' hq => ?_⟩
      · rcases List.mem_or_eq_of_mem_set hmem with hmem | heq
        · exact (rewriteRtp_sameSsrcs _ _ _).rewritten (h.waiting sender' payload' hmem)
        · cases heq
          exact (rewriteRtp_sameSsrcs _ _ _).rewritten hpayload
      · exact (rewriteRtp_sameSsrcs _ _ _).rewritten (h.queued q payload' hq)
    | fanOut sender payload =>
      have hpayload := h.waiting sender payload (List.mem_of_getElem? ht)
      refine ⟨fun sender' payload' hmem => ?_, fun q payload' hq => ?_⟩
      · exact h.waiting sender' payload' ((List.mem_or_eq_of_mem_set hmem).resolve_right nofun)
      · rcases mem_fanOut_egress s.heap s.room _ hq with hq | heq
        · exact h.queued q payload' hq
        · cases heq
          exact hpayload

theorem Fresh.clean (h : Fresh s) : Clean s where
  waiting := fun sender payload ht => by rw [h.tasks] at ht; cases ht
  queued := fun q payload hq => by rw [h.egress] at hq; cases hq

end

/-- While every packet is taken by the rewriter it comes to, subscribers see the
virtual streams alone. -/
theorem virtualOnly {s t : System} {labels : List Label} (hfresh : Fresh s)
    (htaken : Along step (fun s l => taken s l) s labels) (hrun : run step s labels = some t) :
    VirtualOnly t :=
  (run_inv (P := Clean) (fun _ _ _ h htaken hs => h.step htaken (moved hs)) hfresh.clean htaken
    hrun).queued

def listening : System :=
  { newRoom with heap := fun q => { newRoom.heap q with subscribe := ⟨"su", "sp", none, true⟩ } }

theorem listening_fresh : Fresh listening :=
  ⟨rfl, rfl, rfl, rfl, rfl, rfl, fun _ => rfl, fun _ => rfl⟩

/-- The floor is granted, and a packet of the holder goes through. -/
def talking (pt : U8) : List Label :=
  [.floorRequest "a" 0, .advance 0, .advance 0,
    .srtp 0 ([0x80, pt] ++ toBe16 10 ++ toBe32 0 ++ toBe32 0x1001) 0, .advance 1, .advance 1,
    .advance 1]

theorem virtualOnly_opus : ∃ t, run step listening (talking 111) = some t ∧ VirtualOnly t := by
  have htaken : Along step (fun s l => taken s l) listening (talking 111) := by decide
  exact ⟨_, rfl, virtualOnly listening_fresh htaken rfl⟩

/-- A packet of another payload type goes out as it came. -/
theorem skipped_packet_forwarded :
    ¬ ∀ s t labels, Fresh s → run step s labels = some t → VirtualOnly t := by
  intro h
  have honly := h listening _ (talking 97) listening_fresh rfl 1
    ([0x80, 97] ++ toBe16 10 ++ toBe32 0 ++ toBe32 0x1001) (by decide)
  exact absurd honly.1 (by decide)

end LightLivechat.Ptt
