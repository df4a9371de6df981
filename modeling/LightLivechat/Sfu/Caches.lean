import LightLivechat.Ptt.Fanout
import LightLivechat.Room.RtpCaches
import LightLivechat.Sfu.Feedback
import LightLivechat.Transport.Udp.TwccAccuracy

/-! What the server keeps of a publisher's packets.  Through whatever else happens, the cache
is the history of its video packets, and the recorder that of its transport-wide numbers and
of the feedback that was read out. -/

namespace LightLivechat.Sfu

open LightLivechat.Config LightLivechat.Lib LightLivechat.Lib.Bytes LightLivechat.Lib.Std
open LightLivechat.Lib.Runs
open LightLivechat.Room (Heap Ref Participant PcType MediaSession Room RoomHub EgressPacket RtpCache
  Stored)
open LightLivechat.Transport
open LightLivechat.Transport.Udp (Instant TwccRecorder)

namespace State

variable {P : Platform}

/-- The RTP packets a step takes in from a publisher, and when they arrived. -/
def takenIn (p : Ref) (s : State P) (l : Label) : List (Bytes × Instant) :=
  match s.heard l with
  | some (.rtp sender _ plaintext arrival) => if sender = p then [(plaintext, arrival)] else []
  | _ => []

/-- A packet as a cache takes it in: payload type 96 only. -/
def storedOf (plaintext : Bytes) : Option Stored :=
  if h : (Udp.parseRtpHeader plaintext).pt = 96 ∧ rtpHeaderMinSize ≤ plaintext.length then
    some ⟨be16 plaintext 2, plaintext, h.2, rfl⟩
  else none

def stores (p : Ref) (s : State P) (l : Label) : List Stored :=
  (s.takenIn p l).filterMap fun x => storedOf x.1

/-- What a step does to a recorder: numbers are recorded as packets come in, and the timer
reads it out. -/
def twccOps (p : Ref) (s : State P) : Label → List Udp.Op
  | .bweTimer =>
    if P.bweMode = .twcc ∧ p ∈ s.publishers then
      ((videoOf (s.heap p)).map fun v => .feedback v.2).toList
    else []
  | l => (s.takenIn p l).filterMap fun x =>
      (Udp.parseTwccSeq x.1 twccExtmapId).map fun twccSeq => .record twccSeq x.2

/-- A part of a participant that only the packets it publishes change. -/
structure FromPackets {β : Type} (f : Participant → β) : Prop where
  signalled : ∀ y lastSeen tracks counter, f { y with
    lastSeen := lastSeen
    tracks := tracks
    rtxSsrcCounter := counter } = f y
  fresh : ∀ draws userId roomId, f (Signaling.newParticipant draws userId roomId) = f blank
  session : ∀ y pc (g : MediaSession → MediaSession), f (y.updateSession pc g) = f y
  queue : ∀ y egress, f { y with egress := egress } = f y

section

variable {s s' : State P} {l : Label} {heap : Heap} {next : Ref} {rooms : RoomHub} {p : Ref}
variable {β : Type} {f : Participant → β}

theorem FromPackets.touch (hf : FromPackets f) (y : Participant) (now : Nat) :
    f (y.touch now) = f y := hf.signalled y now y.tracks y.rtxSsrcCounter

theorem FromPackets.trySend (hf : FromPackets f) (y : Participant) (packet : EgressPacket) :
    f (y.trySend packet) = f y := by
  unfold Participant.trySend
  split
  · exact hf.queue ..
  · rfl

theorem takeIn_touch (y : Participant) (now : Nat) (plaintext : Bytes) (arrival : Instant) :
    Udp.takeIn (y.touch now) plaintext arrival = (Udp.takeIn y plaintext arrival).touch now := by
  unfold Udp.takeIn
  dsimp only
  split <;> split <;> rfl

theorem takenIn_eq_nil (h : s.heard l = none) : s.takenIn p l = [] := by
  unfold takenIn
  rw [h]

theorem Stepped.fromPackets (h : Stepped s l heap next rooms) (hinv : s.Inv)
    (hf : FromPackets f) (htimer : l ≠ .bweTimer)
    (hrtx : ∀ subscriber room plaintext, s.heard l = some (.feedback subscriber room plaintext) →
      ∀ y rtxSeq, f { y with rtxSeq := rtxSeq } = f y) (p : Ref) : f (heap p) =
      f ((s.takenIn p l).foldl (fun y x => Udp.takeIn y x.1 x.2) (s.heap p)) := by
  have htouch : ∀ q now, f ((s.touch q now).heap p) = f (s.heap p) :=
    fun q now => Heap.update_field (f := fun y => y.touch now) f (hf.touch _ _) p
  cases h with
  | same hheard _ _ => rw [takenIn_eq_nil hheard, List.foldl_nil]
  | signalled hl h =>
    rw [takenIn_eq_nil (heard_of_signals hl), List.foldl_nil]
    exact hinv.signalled_field hl h f hf.signalled hf.fresh p
  | @latched _ now _ remote _ _ latched _ q pc hheard h =>
    obtain ⟨roomId, room, room', -, -, hlatch, -⟩ := Room.RoomHub.latchByUfrag_eq_some h
    obtain ⟨-, rfl, -⟩ := Room.Room.latch_spec hlatch
    rw [takenIn_eq_nil hheard, List.foldl_nil,
      Heap.update_field (f := fun y => y.touch now) f (hf.touch _ _) p]
    exact Heap.update_field f (hf.session _ _ _) p
  | touched hheard =>
    rw [takenIn_eq_nil hheard, List.foldl_nil]
    exact htouch _ _
  | answered h =>
    have hnone : ∀ p, s.takenIn p _ = [] := fun p => by
      unfold takenIn
      rw [h]
    rw [hnone, List.foldl_nil]
    exact (handleSubscribeRtcp_field _ _ f hf.trySend (hrtx _ _ _ h) ..).trans (htouch _ _)
  | relayed h =>
    have hnone : ∀ p, s.takenIn p _ = [] := fun p => by
      unfold takenIn
      rw [h]
    rw [hnone, List.foldl_nil]
    unfold Udp.relayPublishRtcp
    split
    · exact htouch _ _
    · exact (Udp.fanOut_field _ _ f hf.trySend _ _ _).trans (htouch _ _)
  | @forwarded worker now data remote arrival sender room plaintext h =>
    have htaken : s.takenIn p (.datagram worker data remote now arrival) =
        if sender = p then [(plaintext, arrival)] else [] := by
      unfold takenIn
      rw [h]
    have htake : f (((s.touch sender now).heap.update sender fun y =>
        Udp.takeIn y plaintext arrival) p) =
          f ((s.takenIn p (.datagram worker data remote now arrival)).foldl
            (fun y x => Udp.takeIn y x.1 x.2) (s.heap p)) := by
      rw [htaken]
      by_cases hp : sender = p
      · subst hp
        rw [Heap.update_same, if_pos rfl]
        dsimp only [touch, List.foldl_cons, List.foldl_nil]
        rw [Heap.update_same, takeIn_touch, hf.touch]
      · rw [Heap.update_of_ne (Ne.symm hp), if_neg hp]
        exact htouch sender now
    rw [← htake, handleSrtp_eq]
    dsimp only
    split
    · rfl
    · exact Udp.fanOut_field _ _ f hf.trySend _ _ _
  | @installed _ _ y h hi =>
    exact Heap.update_field f (hf.session _ _ _) p
  | @taken q _ rest h hq => exact Heap.update_field f (hf.queue _ _) p
  | readOut => exact absurd rfl htimer

theorem fromPackets_rtpCache : FromPackets fun y => y.rtpCache where
  signalled := fun _ _ _ _ => rfl
  fresh := fun _ _ _ => rfl
  session := fun _ pc _ => by cases pc <;> rfl
  queue := fun _ _ => rfl

theorem fromPackets_twccRecorder : FromPackets fun y => y.twccRecorder where
  signalled := fun _ _ _ _ => rfl
  fresh := fun _ _ _ => rfl
  session := fun _ pc _ => by cases pc <;> rfl
  queue := fun _ _ => rfl

theorem takeIn_cache (y : Participant) (plaintext : Bytes) (arrival : Instant) :
    (Udp.takeIn y plaintext arrival).rtpCache =
      (storedOf plaintext).toList.foldl (fun c x => c.store x.seq x.packet) y.rtpCache := by
  rw [Udp.takeIn_rtpCache]
  unfold storedOf
  by_cases hpt : (Udp.parseRtpHeader plaintext).pt = 96
  · have hlen : rtpHeaderMinSize ≤ plaintext.length := by
      refine Ptt.length_of_pt ?_
      rw [hpt]
      decide
    rw [if_pos hpt, dif_pos ⟨hpt, hlen⟩]
    have hseq : (Udp.parseRtpHeader plaintext).seq = be16 plaintext 2 := by
      rw [Udp.parseRtpHeader, if_neg (Nat.not_lt.mpr hlen)]
    rw [hseq]
    rfl
  · rw [if_neg hpt, dif_neg fun h => hpt h.1]
    rfl

theorem takeIn_twccRecorder (y : Participant) (plaintext : Bytes) (arrival : Instant) :
    (Udp.takeIn y plaintext arrival).twccRecorder =
      (((Udp.parseTwccSeq plaintext twccExtmapId).map fun n =>
        Udp.Op.record n arrival).toList).foldl TwccRecorder.apply y.twccRecorder := by
  unfold Udp.takeIn
  dsimp only
  split <;> split <;> simp [*, TwccRecorder.apply]

theorem foldl_takeIn_cache (y : Participant) (xs : List (Bytes × Instant)) :
    (xs.foldl (fun y x => Udp.takeIn y x.1 x.2) y).rtpCache =
      (xs.filterMap fun x => storedOf x.1).foldl (fun c x => c.store x.seq x.packet)
        y.rtpCache := by
  induction xs generalizing y with
  | nil => rfl
  | cons x xs ih =>
    rw [List.foldl_cons, ih, takeIn_cache, ← List.foldl_append]
    congr 1
    cases hx : storedOf x.1 <;> simp [hx]

theorem foldl_takeIn_twccRecorder (y : Participant) (xs : List (Bytes × Instant)) :
    (xs.foldl (fun y x => Udp.takeIn y x.1 x.2) y).twccRecorder =
      (xs.filterMap fun x => (Udp.parseTwccSeq x.1 twccExtmapId).map fun twccSeq =>
        Udp.Op.record twccSeq x.2).foldl TwccRecorder.apply y.twccRecorder := by
  induction xs generalizing y with
  | nil => rfl
  | cons x xs ih =>
    rw [List.foldl_cons, ih, takeIn_twccRecorder, ← List.foldl_append]
    congr 1
    cases hx : Udp.parseTwccSeq x.1 twccExtmapId <;> simp [hx]

theorem step_rtpCache (hinv : s.Inv) (h : s.step l = some s') (p : Ref) :
    (s'.heap p).rtpCache =
      (s.stores p l).foldl (fun c x => c.store x.seq x.packet) (s.heap p).rtpCache := by
  have hstepped := step_stepped h
  by_cases htimer : l = .bweTimer
  · subst htimer
    rw [show s.stores p .bweTimer = [] from rfl, List.foldl_nil]
    generalize s'.heap = heap, s'.next = next, s'.rooms = rooms at hstepped
    cases hstepped with
    | same => rfl
    | signalled hl => cases hl
    | readOut h =>
      obtain ⟨recorder, hq⟩ := h p
      rw [hq]
  · rw [hstepped.fromPackets hinv fromPackets_rtpCache htimer (fun _ _ _ _ _ _ => rfl) p]
    exact foldl_takeIn_cache ..

theorem step_twccRecorder (hinv : s.Inv) (h : s.step l = some s') (p : Ref) :
    (s'.heap p).twccRecorder =
      (s.twccOps p l).foldl TwccRecorder.apply (s.heap p).twccRecorder := by
  by_cases htimer : l = .bweTimer
  · subst htimer
    simp only [step] at h
    split at h <;> rename_i hmode <;> cases h
    · rw [hinv.sendTwccToPublishers_recorder]
      simp only [twccOps, hmode, true_and]
      split
      · unfold readRecorder
        split <;> simp [*, TwccRecorder.apply]
      · rfl
    · rw [s.quiet_sendRembToPublishers.heap]
      simp [twccOps, hmode]
  · rw [(step_stepped h).fromPackets hinv fromPackets_twccRecorder htimer (fun _ _ _ _ _ _ => rfl) p]
    refine (foldl_takeIn_twccRecorder ..).trans ?_
    cases l with
    | bweTimer => exact absurd rfl htimer
    | _ => rfl

end

section

variable {draws : Fin 3 → Signaling.Draws} {labels : List Label} {s : State P}

/-- Whatever the server did in between, the cache of a participant is the history of the video
packets decrypted for it, and its recorder that of their transport-wide numbers and of the
feedback read out for it. -/
theorem media_histories (h : run step (start P draws) labels = some s) (p : Ref) :
    (s.heap p).rtpCache = .after (outputs step (stores p) (start P draws) labels) ∧
      (s.heap p).twccRecorder =
        Udp.recorderOf (outputs step (twccOps p) (start P draws) labels) :=
  ⟨component (g := fun t => (t.heap p).rtpCache)
    (fun _ _ _ hinv hstep => ⟨inv_step hinv hstep, step_rtpCache hinv hstep p⟩)
    (inv_start P draws) h,
  component (g := fun t => (t.heap p).twccRecorder)
    (fun _ _ _ hinv hstep => ⟨inv_step hinv hstep, step_twccRecorder hinv hstep p⟩)
    (inv_start P draws) h⟩

theorem media_histories_watched : ∃ s, run step Call.start Call.watched = some s ∧
    (outputs step (stores 0) Call.start Call.watched).length = 1 ∧
    (outputs step (twccOps 0) Call.start Call.watched).length = 1 ∧
    (s.heap 0).rtpCache = .after (outputs step (stores 0) Call.start Call.watched) ∧
    (s.heap 0).twccRecorder = Udp.recorderOf (outputs step (twccOps 0) Call.start Call.watched) := by
  obtain ⟨s, h⟩ := Option.isSome_iff_exists.mp
    (show (run step Call.start Call.watched).isSome by decide +kernel)
  exact ⟨s, h, by decide +kernel, by decide +kernel, media_histories h 0⟩

end

end State

end LightLivechat.Sfu
