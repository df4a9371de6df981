import LightLivechat.Room.OffsetLaws
import LightLivechat.Signaling.Effects
import LightLivechat.Transport.Udp.Ingress

/-! A floor request from the user who has the floor already, and what the packets after
it see of it. -/

namespace LightLivechat.Ptt

open LightLivechat.Config LightLivechat.Lib.Bytes LightLivechat.Lib.Std
open LightLivechat.Room (Heap Ref Room PttRewriter RewriteState stamp stamp_fields isVp8Keyframe)
open LightLivechat.Room.PttRewriter (byteAt_stamp)
open LightLivechat.Signaling (AppState Draws Server handleFloorRequest handleFloorRequest_eq
  requested switchSpeakers)
open LightLivechat.Transport.Udp (Instant takeIn takeIn_userId allowed rewriteRtp fanoutPayload
  fanOut handleSrtp parseRtpHeader)

structure Arrival where
  sender : Ref
  plaintext : Bytes
  now : Instant

def forwarded (heap : Heap) (room : Room) (x : Arrival) : Option Bytes :=
  let userId := (heap x.sender).userId
  if room.mode = .ptt then
    if ¬ allowed room userId then none
    else
      let (_, rewritten, result) := rewriteRtp room userId x.plaintext
      fanoutPayload x.plaintext rewritten result
  else some x.plaintext

/-- Packets handled one after the other: what was fanned out of each, and what is left. -/
def handleAll (heap : Heap) (room : Room) : List Arrival → List (Option Bytes) × Heap × Room
  | [] => ([], heap, room)
  | x :: xs =>
    let next := handleSrtp heap room x.sender x.plaintext x.now
    let rest := handleAll next.1 next.2 xs
    (forwarded heap room x :: rest.1, rest.2)

/-- Whatever packets come, the same is fanned out and the participants are left the same. -/
def HandledAlike (heap heap' : Heap) (room room' : Room) : Prop :=
  ∀ xs, (handleAll heap' room' xs).1 = (handleAll heap room xs).1 ∧
    (handleAll heap' room' xs).2.1 = (handleAll heap room xs).2.1

structure Undisturbed (heap heap' : Heap) (room room' : Room) : Prop where
  floor : room'.floor = room.floor
  audio : room'.audioRewriter.state = room.audioRewriter.state
  video : room'.videoRewriter.state = room.videoRewriter.state
  packets : HandledAlike heap heap' room room'

/-- A rewriter as a grant to `u` leaves it: nothing of the burst has gone through. -/
structure Untouched (r : PttRewriter) (u : String) : Prop where
  speaker : r.state.speaker = some u
  awaiting : r.state.awaitingFirstPacket = true
  keyframe : r.state.pendingKeyframe = r.requireKeyframe

/-- The fan-out is of what is forwarded. -/
theorem handleSrtp_forwarded (heap : Heap) (room : Room) (x : Arrival) :
    (handleSrtp heap room x.sender x.plaintext x.now).1 =
      let heap' := heap.update x.sender fun p => takeIn p x.plaintext x.now
      match forwarded heap room x with
      | none => heap'
      | some payload =>
        fanOut heap' (handleSrtp heap room x.sender x.plaintext x.now).2 (heap x.sender).userId
          (.rtp payload) := by
  have huser : ((heap.update x.sender fun p => takeIn p x.plaintext x.now) x.sender).userId =
      (heap x.sender).userId := by rw [Heap.update_same, takeIn_userId]
  simp only [handleSrtp, forwarded, huser]
  split
  · split
    · rfl
    · generalize fanoutPayload x.plaintext (rewriteRtp room (heap x.sender).userId x.plaintext).2.1
        (rewriteRtp room (heap x.sender).userId x.plaintext).2.2 = payload
      cases payload <;> rfl
  · rfl

section

variable {r : PttRewriter} {u : String}

theorem switchSpeaker_eq_self (h : Untouched r u) : r.switchSpeaker u = r := by
  obtain ⟨ssrc, gap, requireKeyframe, state⟩ := r
  obtain ⟨hspeaker, hawaiting, hkeyframe⟩ := h
  simp only [PttRewriter.switchSpeaker] at *
  rw [← hspeaker, ← hkeyframe, ← hawaiting]

theorem untouched_of_state (h : (r.switchSpeaker u).state = r.state) : Untouched r u where
  speaker := (congrArg RewriteState.speaker h).symm
  awaiting := (congrArg RewriteState.awaitingFirstPacket h).symm
  keyframe := (congrArg RewriteState.pendingKeyframe h).symm

def outcome (r : PttRewriter) (plaintext : Bytes) (u : String) (k : Bool) : Option Bytes :=
  fanoutPayload plaintext (r.rewrite plaintext u k).2.1 (r.rewrite plaintext u k).2.2

theorem outcome_other (plaintext : Bytes) (k : Bool) (h : r.state.speaker ≠ some u) :
    outcome r plaintext u k = some plaintext := by
  simp only [outcome, PttRewriter.rewrite, if_pos h]
  split <;> rfl

theorem outcome_speaker {plaintext : Bytes} (hlen : 12 ≤ plaintext.length) (k : Bool)
    (h : r.state.speaker = some u) : ∃ seq ts, outcome r plaintext u k =
      if r.state.pendingKeyframe ∧ ¬ k then none
      else some (stamp plaintext r.virtualSsrc seq ts r.state.awaitingFirstPacket) := by
  obtain ⟨state, hstate⟩ : ∃ state, state =
      r.state.emit r.tsGuardGap (be16 plaintext 2) (be32 plaintext 4) := ⟨_, rfl⟩
  refine ⟨state.lastVirtualSeq, state.lastVirtualTs, ?_⟩
  simp only [outcome, PttRewriter.rewrite, if_neg (Nat.not_lt.mpr hlen), h, ne_eq,
    not_true_eq_false, if_false, ← hstate]
  split <;> rfl

/-- Packets without a marker and under another SSRC, one a key frame and one not, tell
whether a rewriter was switched to its own speaker again. -/
theorem untouched_of_outcomes (probe : Bool → Bytes) (hlen : ∀ k, 12 ≤ (probe k).length)
    (hmarker : ∀ k, (byteAt (probe k) 1).msb = false)
    (hssrc : ∀ k, be32 (probe k) 8 ≠ r.virtualSsrc)
    (h : ∀ k, (k = true → r.requireKeyframe = true) →
      outcome (r.switchSpeaker u) (probe k) u k = outcome r (probe k) u k) : Untouched r u := by
  have hswitched : ∀ k, ∃ seq ts, outcome (r.switchSpeaker u) (probe k) u k =
      if r.requireKeyframe ∧ ¬ k then none
      else some (stamp (probe k) r.virtualSsrc seq ts true) :=
    fun k => outcome_speaker (hlen k) k rfl
  have hfalse := h false (fun hk => nomatch hk)
  obtain ⟨seq, ts, hone⟩ := hswitched false
  by_cases hspeaker : r.state.speaker = some u
  · obtain ⟨seq', ts', htwo⟩ := outcome_speaker (hlen false) false hspeaker
    -- the gate opens for a packet that is no key frame in both, or in neither
    have hkeyframe : r.state.pendingKeyframe = r.requireKeyframe := by
      rw [hone, htwo] at hfalse
      cases hp : r.state.pendingKeyframe <;> cases hk : r.requireKeyframe <;>
        simp [hp, hk] at hfalse ⊢
    refine ⟨hspeaker, ?_, hkeyframe⟩
    -- and then the marker shows which packet is a first one
    obtain ⟨seq, ts, hone⟩ := hswitched r.requireKeyframe
    obtain ⟨seq', ts', htwo⟩ := outcome_speaker (hlen r.requireKeyframe) r.requireKeyframe hspeaker
    have hstamps := h r.requireKeyframe id
    have hopen : ¬ (r.requireKeyframe = true ∧ ¬ r.requireKeyframe = true) := fun hk => hk.2 hk.1
    rw [hone, htwo, hkeyframe, if_neg hopen, if_neg hopen, Option.some.injEq] at hstamps
    have hbyte := congrArg (fun b => byteAt b 1) hstamps
    simp only [byteAt_stamp _ _ _ _ (hlen _) (.inl Nat.one_lt_two)] at hbyte
    cases hawait : r.state.awaitingFirstPacket with
    | true => rfl
    | false =>
      have hset := congrArg BitVec.msb hbyte
      simp only [hawait, Bool.false_eq_true, false_and, if_false, and_self, if_true,
        BitVec.msb_or, hmarker, Bool.false_or] at hset
      exact absurd hset (by decide)
  · rw [hone, outcome_other _ _ hspeaker] at hfalse
    split at hfalse
    · cases hfalse
    · have hread := congrArg (fun b => be32 b 8) (Option.some.inj hfalse)
      simp only [(stamp_fields _ _ _ _ (hlen false)).2.2.2] at hread
      exact absurd hread.symm (hssrc false)

end

def probe (pt : U8) (ssrc : U32) (payload : Bytes) : Bytes :=
  [0x80, pt, 0, 0, 0, 0, 0, 0] ++ toBe32 ssrc ++ payload

theorem probe_fields (pt : U8) (ssrc : U32) (payload : Bytes) :
    12 ≤ (probe pt ssrc payload).length ∧ byteAt (probe pt ssrc payload) 1 = pt ∧
      be32 (probe pt ssrc payload) 8 = ssrc := by
  refine ⟨by simp [probe], rfl, ?_⟩
  rw [probe, List.append_assoc, be32_append_right _ (by simp), be32_append_left _ (by simp)]
  exact be32_toBe32 ssrc

theorem parseRtpHeader_probe (pt : U8) (ssrc : U32) (payload : Bytes) :
    (parseRtpHeader (probe pt ssrc payload)).pt = pt &&& 0x7F := by
  obtain ⟨hlen, hpt, -⟩ := probe_fields pt ssrc payload
  have hmin : ¬ (probe pt ssrc payload).length < rtpHeaderMinSize := Nat.not_lt.mpr hlen
  rw [parseRtpHeader, if_neg hmin, hpt]

/-- A VP8 payload: the start of a key frame, or nothing at all. -/
def vp8Payload (k : Bool) : Bytes := if k then [0x10, 0] else []

theorem isVp8Keyframe_probe (pt : U8) (ssrc : U32) (k : Bool) :
    isVp8Keyframe (probe pt ssrc (vp8Payload k)) = k := by
  cases k with
  | false => rfl
  | true =>
    simp [isVp8Keyframe, isVp8Keyframe.descriptorEnd, probe, vp8Payload, byteAt, toBe32, toBe16]

section

variable {heap : Heap} {room : Room} {u : String} {p : Ref}

theorem forwarded_audio (hmode : room.mode = .ptt) (hfloor : room.floor.currentSpeaker = some u)
    (hp : (heap p).userId = u) (ssrc : U32) (now : Instant) :
    forwarded heap room ⟨p, probe 111 ssrc [], now⟩ =
      outcome room.audioRewriter (probe 111 ssrc []) u false := by
  simp only [forwarded, if_pos hmode, hp, allowed, hfloor, rewriteRtp, parseRtpHeader_probe]
  rfl

theorem forwarded_video (hmode : room.mode = .ptt) (hfloor : room.floor.currentSpeaker = some u)
    (hp : (heap p).userId = u) (ssrc : U32) (k : Bool) (now : Instant) :
    forwarded heap room ⟨p, probe 96 ssrc (vp8Payload k), now⟩ =
      outcome room.videoRewriter (probe 96 ssrc (vp8Payload k)) u k := by
  simp only [forwarded, if_pos hmode, hp, allowed, hfloor, rewriteRtp, parseRtpHeader_probe,
    isVp8Keyframe_probe]
  rfl

theorem HandledAlike.forwarded_eq {heap' : Heap} {room' : Room}
    (h : HandledAlike heap heap' room room') (x : Arrival) :
    forwarded heap' room' x = forwarded heap room x := by
  have hone := (h [x]).1
  simpa [handleAll] using hone

/-- The packets tell a repeated request unless neither rewriter has let one through. -/
theorem handledAlike_switchSpeakers_iff (hmode : room.mode = .ptt)
    (hfloor : room.floor.currentSpeaker = some u) (hp : (heap p).userId = u)
    (haudio : room.audioRewriter.requireKeyframe = false) :
    HandledAlike heap heap room (switchSpeakers room u) ↔
      Untouched room.audioRewriter u ∧ Untouched room.videoRewriter u := by
  constructor
  · intro h
    have hother : ∀ ssrc : U32, ssrc + 1 ≠ ssrc := fun ssrc heq =>
      absurd ((BitVec.add_right_inj ssrc).mp (heq.trans (BitVec.add_zero ssrc).symm)) (by decide)
    have hmarker : ∀ {pt ssrc payload}, BitVec.msb pt = false →
        (byteAt (probe pt ssrc payload) 1).msb = false := fun hpt => by
      rwa [(probe_fields _ _ _).2.1]
    constructor
    · refine untouched_of_outcomes (fun _ => probe 111
        (room.audioRewriter.virtualSsrc + 1) []) (fun _ => (probe_fields _ _ _).1)
        (fun _ => hmarker rfl) (fun _ => ?_) fun k hk => ?_
      · rw [(probe_fields _ _ _).2.2]
        exact hother _
      · cases k with
        | true => exact absurd (hk rfl) (by simp [haudio])
        | false =>
          rw [← forwarded_audio hmode hfloor hp _ 0, ← h.forwarded_eq]
          exact (@forwarded_audio _ (switchSpeakers room u) _ _ hmode hfloor hp _ 0).symm
    · refine untouched_of_outcomes (fun k => probe 96
        (room.videoRewriter.virtualSsrc + 1) (vp8Payload k)) (fun _ => (probe_fields _ _ _).1)
        (fun _ => hmarker rfl) (fun _ => ?_) fun k _ => ?_
      · rw [(probe_fields _ _ _).2.2]
        exact hother _
      · rw [← forwarded_video hmode hfloor hp _ k 0, ← h.forwarded_eq]
        exact (@forwarded_video _ (switchSpeakers room u) _ _ hmode hfloor hp _ k 0).symm
  · rintro ⟨haudio, hvideo⟩
    rw [switchSpeakers, switchSpeaker_eq_self haudio, switchSpeaker_eq_self hvideo]
    exact fun _ => ⟨rfl, rfl⟩

end

/-- Nothing of the room that packets can meet has changed. -/
def Idempotent (s s' : AppState) (roomId : String) (room : Room) : Prop :=
  ∃ room', s'.rooms.rooms.lookup roomId = some room' ∧ Undisturbed s.heap s'.heap room room'

section

variable {s : AppState} {room : Room} {roomId u : String} {burstStart lastPing : Nat}
variable (draws : Draws) (pid : Nat)

theorem requested_taken (hfloor : room.floor.state = .taken u burstStart lastPing) (now : Nat) :
    requested room u now = switchSpeakers room u := by
  have hrequest : room.floor.request u now = (room.floor, .granted u) := by
    simp [Room.FloorController.request, hfloor]
  simp only [requested, hrequest]

theorem handleFloorRequest_taken (hroom : s.rooms.rooms.lookup roomId = some room)
    (hmode : room.mode = .ptt) (hfloor : room.floor.state = .taken u burstStart lastPing) :
    (handleFloorRequest draws s pid u roomId).1.heap = s.heap ∧
      (handleFloorRequest draws s pid u roomId).1.rooms.rooms.lookup roomId =
        some (switchSpeakers room u) := by
  have hrequest : room.floor.request u draws.now = (room.floor, .granted u) := by
    simp [Room.FloorController.request, hfloor]
  rw [handleFloorRequest_eq hroom hmode, requested_taken hfloor, hrequest]
  exact ⟨rfl, AList.lookup_insert _⟩

/-- The holder's next request is idempotent only as long as neither rewriter has let a
packet of the burst through, and where it is not, packets of the holder show it. -/
theorem repeatedRequest_idempotent_iff (hroom : s.rooms.rooms.lookup roomId = some room)
    (hmode : room.mode = .ptt) (hfloor : room.floor.state = .taken u burstStart lastPing) :
    (Idempotent s (handleFloorRequest draws s pid u roomId).1 roomId room ↔
        Untouched room.audioRewriter u ∧ Untouched room.videoRewriter u) ∧
      ∀ p room', (s.heap p).userId = u → room.audioRewriter.requireKeyframe = false →
        (handleFloorRequest draws s pid u roomId).1.rooms.rooms.lookup roomId = some room' →
          (HandledAlike s.heap (handleFloorRequest draws s pid u roomId).1.heap room room' ↔
            Untouched room.audioRewriter u ∧ Untouched room.videoRewriter u) := by
  obtain ⟨hheap, hafter⟩ := handleFloorRequest_taken draws pid hroom hmode hfloor
  have hspeaker : room.floor.currentSpeaker = some u := by
    rw [Room.FloorController.currentSpeaker, hfloor]
  rw [hheap]
  refine ⟨⟨?_, fun h => ?_⟩, fun p room' hp haudio hroom' => ?_⟩
  · rintro ⟨room', hroom', h⟩
    cases hafter.symm.trans hroom'
    exact ⟨untouched_of_state h.audio, untouched_of_state h.video⟩
  · refine ⟨_, hafter, ?_⟩
    rw [hheap, switchSpeakers, switchSpeaker_eq_self h.1, switchSpeaker_eq_self h.2]
    exact ⟨rfl, rfl, rfl, fun _ => ⟨rfl, rfl⟩⟩
  · cases hafter.symm.trans hroom'
    exact handledAlike_switchSpeakers_iff hmode hspeaker hp haudio

end

/-- The room of a speaker who was granted the floor. -/
def granted : Room := requested (Room.new "r" "room" none .ptt 1 7 8) "a" 2

/-- The same after one audio packet. -/
def midBurst : Room := (rewriteRtp granted "a" (probe 111 5 [1])).1

def stateOf (room : Room) : AppState := (AppState.new .new).setRoom "r" room

/-- A request is idempotent before the first packet and not after it. -/
theorem repeatedRequest_idempotent_iff_midBurst :
    Idempotent (stateOf granted)
      (handleFloorRequest (Server.draws "d") (stateOf granted) 0 "a" "r").1 "r" granted ∧
    ¬ Idempotent (stateOf midBurst)
      (handleFloorRequest (Server.draws "d") (stateOf midBurst) 0 "a" "r").1 "r" midBurst := by
  refine ⟨(repeatedRequest_idempotent_iff (Server.draws "d") 0 rfl rfl rfl).1.mpr ?_, fun h => ?_⟩
  · exact ⟨⟨rfl, rfl, rfl⟩, ⟨rfl, rfl, rfl⟩⟩
  · exact absurd ((repeatedRequest_idempotent_iff (Server.draws "d") 0 rfl rfl rfl).1.mp h).1.awaiting
      (by decide)

/-- The audio rewriter takes the packet after the repeated request for a new burst. -/
theorem repeated_request_restarts_burst :
    ¬ ∀ draws s pid roomId room u burstStart lastPing,
      s.rooms.rooms.lookup roomId = some room → room.mode = .ptt →
      room.floor.state = .taken u burstStart lastPing →
        Idempotent s (handleFloorRequest draws s pid u roomId).1 roomId room := by
  intro h
  obtain ⟨room', hroom', hsame⟩ :=
    h (Server.draws "d") (stateOf midBurst) 0 "r" midBurst "a" 2 2 rfl rfl rfl
  have hafter := (@handleFloorRequest_taken (stateOf midBurst) midBurst "r" "a" 2 2 (Server.draws "d") 0
    rfl rfl rfl).2
  cases hafter.symm.trans hroom'
  exact absurd (untouched_of_state hsame.audio).awaiting (by decide)

end LightLivechat.Ptt
