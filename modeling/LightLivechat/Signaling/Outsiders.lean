import LightLivechat.Signaling.Reachable

/-! What a connection can do to a room that its user is not in. -/

namespace LightLivechat.Signaling

open LightLivechat.Config LightLivechat.Lib.Bytes LightLivechat.Lib.Std LightLivechat.Lib.Runs
open LightLivechat.Room (Heap Ref Participant Room RoomHub FloorAction FloorController FloorState)

/-- The room's participants, their tracks, the floor, the rewriters and what is queued to
the participants are as before. -/
structure Unaffected (roomId : String) (room : Room) (s s' : AppState) : Prop where
  kept : ∃ room', s'.rooms.rooms.lookup roomId = some room' ∧
    room'.participants = room.participants ∧ room'.floor = room.floor ∧
    room'.audioRewriter = room.audioRewriter ∧ room'.videoRewriter = room.videoRewriter
  tracks : ∀ u p, room.participants.lookup u = some p → (s'.heap p).tracks = (s.heap p).tracks
  queued : ∀ u p, room.participants.lookup u = some p → s'.queued p = s.queued p

/-- None of the room is queued anything. -/
def Quiet (room : Room) (queued : List (Ref × Event)) : Prop :=
  ∀ u p, room.participants.lookup u = some p → ∀ e ∈ queued, e.1 ≠ p

section

variable {s s' : AppState} {roomId r : String} {room room' : Room} {queued : List (Ref × Event)}
variable {userId : String} {event : Event} {p : Ref}

theorem queued_eq_iff (hsent : s'.sent = s.sent ++ queued) (p : Ref) :
    s'.queued p = s.queued p ↔ ∀ e ∈ queued, e.1 ≠ p := by
  rw [queued_append hsent, List.append_right_eq_self, List.map_eq_nil_iff, List.filter_eq_nil_iff]
  simp

/-- A step that keeps the room but for its floor and rewriters does not affect it just if it
keeps these too and is quiet. -/
theorem unaffected_iff (hroom' : s'.rooms.rooms.lookup roomId = some room')
    (hframe : FloorOnly room room')
    (htracks : ∀ u p, room.participants.lookup u = some p →
      (s'.heap p).tracks = (s.heap p).tracks) (hsent : s'.sent = s.sent ++ queued) :
    Unaffected roomId room s s' ↔ room' = room ∧ Quiet room queued := by
  constructor
  · intro h
    obtain ⟨room₁, hroom₁, -, hfloor, haudio, hvideo⟩ := h.kept
    cases hroom'.symm.trans hroom₁
    refine ⟨?_, fun u p hp => (queued_eq_iff hsent p).mp (h.queued u p hp)⟩
    rw [hframe.frame, hfloor, haudio, hvideo]
  · rintro ⟨rfl, hquiet⟩
    exact ⟨⟨room', hroom', rfl, rfl, rfl, rfl⟩, htracks,
      fun u p hp => (queued_eq_iff hsent p).mpr (hquiet u p hp)⟩

theorem Unaffected.of_silent (hroom' : s'.rooms.rooms.lookup roomId = some room)
    (htracks : ∀ p, (s'.heap p).tracks = (s.heap p).tracks) (hsent : s'.sent = s.sent) :
    Unaffected roomId room s s' where
  kept := ⟨room, hroom', rfl, rfl, rfl, rfl⟩
  tracks := fun _ p _ => htracks p
  queued := fun _ p _ => by simp only [AppState.queued, hsent]

theorem Unaffected.refl (hroom : s.rooms.rooms.lookup roomId = some room) :
    Unaffected roomId room s s := .of_silent hroom (fun _ => rfl) rfl

theorem Unaffected.of_elsewhere (hs : s.Sound) (hroom : s.rooms.rooms.lookup roomId = some room)
    (hroom' : s'.rooms.rooms.lookup roomId = some room)
    (htracks : ∀ u p, room.participants.lookup u = some p →
      (s'.heap p).tracks = (s.heap p).tracks)
    (hsent : s'.sent = s.sent ++ queued) (hqueued : SentTo s.rooms r queued) (hr : r ≠ roomId) :
    Unaffected roomId room s s' := by
  refine (unaffected_iff hroom' .refl htracks hsent).mpr ⟨rfl, fun u p hp e he hep => hr ?_⟩
  exact hs.home (hep ▸ hqueued e he) ⟨room, u, hroom, hp⟩

theorem quiet_map_entries :
    Quiet room (room.participants.entries.map fun e => (e.2, event)) ↔
      room.participants.entries = [] := by
  constructor
  · intro h
    refine List.eq_nil_iff_forall_not_mem.mpr fun e he => ?_
    exact h e.1 e.2 (AList.mem_lookup_iff.mpr he) _ (List.mem_map_of_mem he) rfl
  · intro h u p _ e he
    rw [h] at he
    cases he

theorem others_eq_entries (hout : userId ∉ room.participants) :
    (room.participants.entries.filter fun e => e.1 ≠ userId) = room.participants.entries := by
  refine List.filter_eq_self.mpr fun e he => decide_eq_true ?_
  rintro rfl
  exact hout (DashMap.mem_iff_lookup.mpr ⟨_, AList.mem_lookup_iff.mpr he⟩)

theorem lookup_releaseOnLeave_of_ne (hr : r ≠ roomId) (s : AppState) (userId : String) :
    (releaseOnLeave s r userId).rooms.rooms.lookup roomId = s.rooms.rooms.lookup roomId := by
  obtain ⟨room, -, -, -, h⟩ | ⟨-, h⟩ := releaseOnLeave_cases s r userId
  · rw [h]
    exact AList.lookup_insert_ne hr.symm
  · rw [h]

end

def Request.room (session : Session) : Request → Option String
  | .heartbeat | .publishTracks _ | .muteUpdate .. => session.currentRoom
  | .roomJoin roomId | .roomLeave roomId | .message roomId _ | .floorRequest roomId
  | .floorRelease roomId | .floorPing roomId => some roomId
  | .identify .. | .roomList | .roomCreate .. | .telemetry => none

/-- The request does nothing for somebody who is not in the room. -/
def Request.guarded : Request → Bool
  | .heartbeat | .roomJoin _ | .publishTracks _ | .muteUpdate .. => true
  | _ => false

section

variable {draws : Draws} {sid : SessionId} {s s' : AppState} {session session' : Session}
variable {roomId userId : String} {room : Room} {r : Request} {pid : Nat}

theorem Request.room_of_floor
    (h : r ∈ [.floorRequest roomId, .floorRelease roomId, .floorPing roomId]) :
    r.room session = some roomId := by
  simp only [List.mem_cons, List.not_mem_nil, or_false] at h
  obtain rfl | rfl | rfl := h <;> rfl

theorem currentParticipant_elsewhere {room' : Room} {p q : Ref} {r u : String} (hs : s.Sound)
    (hok : currentParticipant session s = .ok (room', userId, p))
    (hcurrent : session.currentRoom = some r) (hr : r ≠ roomId)
    (hroom : s.rooms.rooms.lookup roomId = some room) (hq : room.participants.lookup u = some q) :
    q ≠ p := by
  rintro rfl
  obtain ⟨-, r', hcurrent', hroom', hp⟩ := currentParticipant_eq_ok hok
  cases hcurrent.symm.trans hcurrent'
  exact hr (hs.home ⟨room', userId, hroom', hp⟩ ⟨room, u, hroom, hq⟩)

theorem Handled.unaffected_of_elsewhere (h : Handled draws sid s session userId r s' session')
    (hs : s.Sound) (hid : draws.uuid ∉ s.rooms.rooms)
    (hroom : s.rooms.rooms.lookup roomId = some room) (hr : r.room session ≠ some roomId) :
    Unaffected roomId room s s' := by
  have hne : ∀ {r'}, r.room session = some r' → r' ≠ roomId := fun h h' => hr (h' ▸ h)
  cases h with
  | same | identified | notPublished | notMuted => exact .refl hroom
  | touched =>
    exact .of_silent hroom (fun q => Heap.update_field (fun x => x.tracks) rfl q) rfl
  | created =>
    refine .of_silent ((AList.lookup_insert_ne ?_).trans hroom) (fun _ => rfl) rfl
    rintro rfl
    exact hid (DashMap.mem_iff_lookup.mpr ⟨_, hroom⟩)
  | joined hok hqueued =>
    have hr := hne rfl
    obtain ⟨room₀, room₁, -, -, rfl⟩ := Room.RoomHub.addParticipant_eq_ok hok
    refine .of_elsewhere hs hroom ((AList.lookup_insert_ne hr.symm).trans hroom)
      (fun u p hp => ?_) rfl hqueued hr
    dsimp only
    rw [Room.Heap.alloc_of_lt (hs.allocated ⟨room, u, hroom, hp⟩)]
  | published hok hcurrent hqueued =>
    have hr := hne hcurrent
    refine .of_elsewhere hs hroom hroom (fun u q hq => ?_) rfl hqueued hr
    dsimp only
    rw [Heap.update_of_ne (currentParticipant_elsewhere hs hok hcurrent hr hroom hq)]
  | muted hok hset hcurrent hqueued =>
    have hr := hne hcurrent
    refine .of_elsewhere hs hroom hroom (fun u q hq => ?_) rfl hqueued hr
    dsimp only
    rw [Heap.update_of_ne (currentParticipant_elsewhere hs hok hcurrent hr hroom hq)]
  | messaged hqueued =>
    exact .of_elsewhere hs hroom hroom (fun _ _ _ => rfl) rfl hqueued (hne rfl)
  | floorChanged hr' hroom' hframe hspeaker hqueued =>
    have hr := hne (Request.room_of_floor hr')
    exact .of_elsewhere hs hroom ((AList.lookup_insert_ne hr.symm).trans hroom)
      (fun _ _ _ => rfl) rfl hqueued hr
  | left hok hqueued =>
    have hr := hne rfl
    obtain ⟨room₀, room₁, -, -, rfl⟩ := Room.RoomHub.removeParticipant_eq_ok hok
    refine .of_elsewhere hs hroom ?_ (fun _ _ _ => rfl) rfl hqueued hr
    exact (AList.lookup_insert_ne hr.symm).trans
      ((lookup_releaseOnLeave_of_ne hr s userId).trans hroom)
  | notLeft herr hqueued =>
    have hr := hne rfl
    exact .of_elsewhere hs hroom ((lookup_releaseOnLeave_of_ne hr s userId).trans hroom)
      (fun _ _ _ => rfl) rfl hqueued hr

/-- The request does nothing to the room: nobody hears a message, the floor stays as it is
and so do the rewriters. -/
def Harmless (roomId : String) (room : Room) (userId : String) (now : Nat) : Request → Prop
  | .message r _ => r = roomId → room.participants.entries = []
  | .floorRequest r => r = roomId → room.mode = .ptt → ∃ speaker,
    room.floor.currentSpeaker = some speaker ∧
      (speaker = userId → room.participants.entries = [] ∧ switchSpeakers room userId = room)
  | .floorRelease r => r = roomId → room.mode = .ptt → room.floor.currentSpeaker ≠ some userId ∧
    (room.floor.currentSpeaker = none → room.participants.entries = [] ∧ clearSpeakers room = room)
  | .floorPing r => r = roomId → ∀ burst ping, room.floor.state = .taken userId burst ping → ping = now
  | .roomLeave r => r = roomId → room.mode = .ptt → room.floor.currentSpeaker ≠ some userId
  | _ => True

theorem message_unaffected_iff (draws : Draws) (pid : Nat)
    (hroom : s.rooms.rooms.lookup roomId = some room) (hout : userId ∉ room.participants)
    (content : String) :
    Unaffected roomId room s (handleMessage draws s pid userId roomId content).1 ↔
      room.participants.entries = [] := by
  unfold handleMessage
  rw [get_eq_ok_iff.mpr hroom]
  have hframe : FloorOnly room room := .refl
  refine Iff.trans (unaffected_iff hroom hframe (fun _ _ _ => rfl) rfl) ?_
  rw [others_eq_entries hout, quiet_map_entries]
  exact and_iff_right rfl

theorem roomLeave_unaffected_iff (hroom : s.rooms.rooms.lookup roomId = some room)
    (hout : userId ∉ room.participants) :
    Unaffected roomId room s (handleRoomLeave session s pid userId roomId).1 ↔
      (room.mode = .ptt → room.floor.currentSpeaker ≠ some userId) := by
  obtain ⟨e, herr⟩ : ∃ e, (releaseOnLeave s roomId userId).rooms.removeParticipant s.heap roomId
      userId = .error e := by
    cases hrem : (releaseOnLeave s roomId userId).rooms.removeParticipant s.heap roomId userId with
    | error e => exact ⟨e, rfl⟩
    | ok t =>
      obtain ⟨room₀, room₁, hroom₀, hroomrem, -⟩ := removeParticipant_lookup hrem
      obtain ⟨room₂, hroom₂, hp⟩ :=
        released_at.mp ⟨room₀, hroom₀, Room.Room.removeParticipant_eq_ok hroomrem⟩
      cases hroom.symm.trans hroom₂
      exact absurd (DashMap.mem_iff_lookup.mpr ⟨_, hp⟩) hout
  rw [(handleRoomLeave_eq_error herr).1]
  obtain ⟨room₀, hroom₀, hmode, hspeaker, h⟩ | ⟨hother, h⟩ := releaseOnLeave_cases s roomId userId
  · cases hroom.symm.trans hroom₀
    refine iff_of_false (fun haff => ?_) fun h => h hmode hspeaker
    obtain ⟨room', hroom', -, hfloor, -⟩ := haff.kept
    rw [h] at hroom'
    cases (AList.lookup_insert _).symm.trans hroom'
    rw [← hfloor] at hspeaker
    cases hspeaker
  · rw [h]
    exact iff_of_true (.refl hroom) (hother room hroom)

theorem setFloor_eq_self_iff {floor : FloorController} :
    { room with floor := floor } = room ↔ floor = room.floor := by
  constructor
  · intro h
    rw [← h]
  · rintro rfl
    rfl

theorem ping_eq_self_iff (c : FloorController) (now : Nat) : (c.ping userId now).1 = c ↔
    ∀ burst ping, c.state = .taken userId burst ping → ping = now := by
  obtain ⟨state⟩ := c
  cases state with
  | idle => simp [FloorController.ping]
  | taken speaker burst ping =>
    by_cases hu : speaker = userId
    · simp [FloorController.ping, hu, eq_comm]
    · simp [FloorController.ping, hu]

theorem unaffected_setRoom_iff {room' : Room} (hframe : FloorOnly room room')
    (queued : List (Ref × Event)) :
    Unaffected roomId room s (AppState.setRoom { s with sent := s.sent ++ queued } roomId room') ↔
      room' = room ∧ Quiet room queued :=
  unaffected_iff (AList.lookup_insert _) hframe (fun _ _ _ => rfl) rfl

theorem unaffected_setRoom_self : Unaffected roomId room s (s.setRoom roomId room) :=
  .of_silent (AList.lookup_insert _) (fun _ => rfl) rfl

theorem quiet_nil : Quiet room [] := fun _ _ _ _ he => absurd he List.not_mem_nil

theorem floorPing_unaffected_iff (hroom : s.rooms.rooms.lookup roomId = some room) :
    Unaffected roomId room s (handleFloorPing draws s pid userId roomId).1 ↔
      ∀ burst ping, room.floor.state = .taken userId burst ping → ping = draws.now := by
  have hstate : (handleFloorPing draws s pid userId roomId).1 =
      AppState.setRoom { s with sent := s.sent ++ [] } roomId
        { room with floor := (room.floor.ping userId draws.now).1 } := by
    unfold handleFloorPing
    rw [get_eq_ok_iff.mpr hroom, List.append_nil]
    dsimp only
    split <;> rfl
  rw [hstate, unaffected_setRoom_iff ⟨rfl⟩, setFloor_eq_self_iff, ping_eq_self_iff]
  exact and_iff_left quiet_nil

theorem floorRequest_unaffected_iff (hroom : s.rooms.rooms.lookup roomId = some room)
    (hout : userId ∉ room.participants) :
    Unaffected roomId room s (handleFloorRequest draws s pid userId roomId).1 ↔
      (room.mode = .ptt → ∃ speaker, room.floor.currentSpeaker = some speaker ∧
        (speaker = userId →
          room.participants.entries = [] ∧ switchSpeakers room userId = room)) := by
  by_cases hmode : room.mode = .ptt
  · rw [handleFloorRequest_eq hroom hmode, imp_iff_right hmode]
    cases hfloor : room.floor.state with
    | idle =>
      obtain ⟨queued, heq, -⟩ := applyFloorAction_eq hroom pid Opcode.floorRequest
        (room.floor.request userId draws.now).2 userId
      rw [heq, unaffected_setRoom_iff (requested_floorOnly ..)]
      refine iff_of_false (fun h => ?_) fun ⟨speaker, hspeaker, _⟩ => ?_
      · have hstate := congrArg (fun room : Room => room.floor.state) h.1
        simp [requested, FloorController.request, hfloor, switchSpeakers] at hstate
      · simp [FloorController.currentSpeaker, hfloor] at hspeaker
    | taken speaker burst ping =>
      by_cases hu : speaker = userId
      · have hrequest : room.floor.request userId draws.now = (room.floor, .granted userId) := by
          simp [FloorController.request, hfloor, hu]
        have hroom' : requested room userId draws.now = switchSpeakers room userId := by
          unfold requested
          rw [hrequest]
        rw [hroom', hrequest]
        refine Iff.trans (unaffected_setRoom_iff ⟨rfl⟩ _) ?_
        rw [others_eq_entries hout, quiet_map_entries]
        simp [FloorController.currentSpeaker, hfloor, hu, and_comm]
      · have hrequest : room.floor.request userId draws.now =
            (room.floor, .denied "channel busy" speaker) := by
          simp [FloorController.request, hfloor, hu]
        have hroom' : requested room userId draws.now = room := by
          unfold requested
          rw [hrequest]
        rw [hroom', hrequest]
        exact iff_of_true unaffected_setRoom_self
          ⟨speaker, by simp [FloorController.currentSpeaker, hfloor], fun h => absurd h hu⟩
  · refine iff_of_true ?_ fun h => absurd h hmode
    unfold handleFloorRequest
    rw [get_eq_ok_iff.mpr hroom]
    simp only [ne_eq, hmode, not_false_eq_true, if_true]
    exact .refl hroom

theorem floorRelease_unaffected_iff (hroom : s.rooms.rooms.lookup roomId = some room) :
    Unaffected roomId room s (handleFloorRelease s pid userId roomId).1 ↔
      (room.mode = .ptt → room.floor.currentSpeaker ≠ some userId ∧
        (room.floor.currentSpeaker = none →
          room.participants.entries = [] ∧ clearSpeakers room = room)) := by
  by_cases hmode : room.mode = .ptt
  · rw [handleFloorRelease_eq hroom hmode, imp_iff_right hmode]
    cases hfloor : room.floor.state with
    | idle =>
      have hrelease : room.floor.release userId = (room.floor, .released userId) := by
        simp [FloorController.release, hfloor]
      have hroom' : released room userId = clearSpeakers room := by
        unfold released
        rw [hrelease]
      rw [hroom', hrelease]
      refine Iff.trans (unaffected_setRoom_iff ⟨rfl⟩ _) ?_
      rw [quiet_map_entries]
      simp [FloorController.currentSpeaker, hfloor, and_comm]
    | taken speaker burst ping =>
      by_cases hu : speaker = userId
      · obtain ⟨queued, heq, -⟩ := applyFloorAction_eq hroom pid Opcode.floorRelease
          (room.floor.release userId).2 userId
        rw [heq, unaffected_setRoom_iff (released_floorOnly ..)]
        refine iff_of_false (fun h => ?_) fun h => ?_
        · have hstate := congrArg (fun room : Room => room.floor.state) h.1
          simp [released, FloorController.release, hfloor, hu, clearSpeakers] at hstate
        · exact h.1 (by simp [FloorController.currentSpeaker, hfloor, hu])
      · have hrelease : room.floor.release userId = (room.floor, .pingDenied) := by
          simp [FloorController.release, hfloor, hu]
        have hroom' : released room userId = room := by
          unfold released
          rw [hrelease]
        rw [hroom', hrelease]
        exact iff_of_true unaffected_setRoom_self
          (by simp [FloorController.currentSpeaker, hfloor, hu])
  · refine iff_of_true ?_ fun h => absurd h hmode
    unfold handleFloorRelease
    rw [get_eq_ok_iff.mpr hroom]
    simp only [ne_eq, hmode, not_false_eq_true, if_true]
    exact .refl hroom

def JoinSucceeds (s : AppState) (draws : Draws) (userId roomId : String) : Prop :=
  ∃ rooms, s.rooms.addParticipant (s.heap.alloc s.next (newParticipant draws userId roomId)) roomId
    s.next = .ok rooms

theorem Handled.unaffected_of_guarded (h : Handled draws sid s session userId r s' session')
    (hroom : s.rooms.rooms.lookup roomId = some room) (hout : userId ∉ room.participants)
    (hr : r.room session = some roomId) (hguarded : r.guarded = true)
    (hjoin : r = .roomJoin roomId → ¬ JoinSucceeds s draws userId roomId) :
    Unaffected roomId room s s' := by
  have hnone : ∀ {room' p}, currentParticipant session s = .ok (room', userId, p) →
      session.currentRoom ≠ some roomId := by
    intro room' p hok hcurrent
    obtain ⟨-, r', hcurrent', hroom', hp⟩ := currentParticipant_eq_ok hok
    cases hcurrent.symm.trans hcurrent'
    cases hroom.symm.trans hroom'
    exact hout (DashMap.mem_iff_lookup.mpr ⟨_, hp⟩)
  cases h with
  | same | identified | notPublished | notMuted => exact .refl hroom
  | touched =>
    exact .of_silent hroom (fun q => Heap.update_field (fun x => x.tracks) rfl q) rfl
  | joined hok =>
    cases hr
    exact absurd ⟨_, hok⟩ (hjoin rfl)
  | published hok => exact absurd hr (hnone hok)
  | muted hok => exact absurd hr (hnone hok)
  | floorChanged hr' =>
    simp only [List.mem_cons, List.not_mem_nil, or_false] at hr'
    obtain rfl | rfl | rfl := hr' <;> cases hguarded
  | created | messaged | left | notLeft => cases hguarded

theorem handle_unaffected_iff (hs : s.Sound) (hid : draws.uuid ∉ s.rooms.rooms)
    (huser : session.userId = some userId) (hroom : s.rooms.rooms.lookup roomId = some room)
    (hout : userId ∉ room.participants)
    (hjoin : r = .roomJoin roomId → ¬ JoinSucceeds s draws userId roomId) :
    Unaffected roomId room s (handle draws session sid s pid r).1 ↔
      Harmless roomId room userId draws.now r := by
  obtain rfl : session.userId.getD "" = userId := by rw [huser, Option.getD_some]
  have hhandled : Handled draws sid s session (session.userId.getD "") r
    (handle draws session sid s pid r).1 (handle draws session sid s pid r).2.1 := handled r
  by_cases hr : r.room session = some roomId
  · have hguarded := hhandled.unaffected_of_guarded hroom hout hr
    cases r with
    | heartbeat | publishTracks | muteUpdate => exact iff_of_true (hguarded rfl nofun) trivial
    | roomJoin => exact iff_of_true (hguarded rfl hjoin) trivial
    | identify | roomList | roomCreate | telemetry => cases hr
    | message r content =>
      cases hr
      exact (message_unaffected_iff draws pid hroom hout content).trans (imp_iff_right rfl).symm
    | roomLeave r =>
      cases hr
      exact (roomLeave_unaffected_iff hroom hout).trans (imp_iff_right rfl).symm
    | floorRequest r =>
      cases hr
      exact (floorRequest_unaffected_iff hroom hout).trans (imp_iff_right rfl).symm
    | floorRelease r =>
      cases hr
      exact (floorRelease_unaffected_iff hroom).trans (imp_iff_right rfl).symm
    | floorPing r =>
      cases hr
      exact (floorPing_unaffected_iff hroom).trans (imp_iff_right rfl).symm
  · refine iff_of_true (hhandled.unaffected_of_elsewhere hs hid hroom hr) ?_
    cases r <;> first | trivial | exact fun h => absurd (congrArg some h) hr

end

namespace Server

variable {s s' : Server} {sid : SessionId} {session : Session} {packet : Packet} {draws : Draws}
variable {roomId userId : String} {room : Room}

/-- A packet of somebody who is not in the room, and does not come in by it, leaves the room
alone just when its request is harmless. -/
theorem outsider_unaffected_iff (hs : s.Sound) (hsession : s.sessions sid = some session)
    (huser : session.userId = some userId) (hroom : s.rooms.rooms.lookup roomId = some room)
    (hout : userId ∉ room.participants)
    (hjoin : packet.reaches session = some (.roomJoin roomId) →
      ¬ JoinSucceeds s.toAppState draws userId roomId)
    (h : s.step (.packet sid packet draws) = some s') :
    Unaffected roomId room s.toAppState s'.toAppState ↔
      ∀ r, packet.reaches session = some r → Harmless roomId room userId draws.now r := by
  simp only [step, hsession] at h
  split at h
  · cases h
  · rename_i hid
    cases h
    dsimp only
    cases hreach : packet.reaches session with
    | none =>
      obtain ⟨reply, hdispatch⟩ : ∃ reply, dispatch draws session sid s.toAppState packet =
          (s.toAppState, session, reply) := dispatch_of_not_reaches hreach
      rw [hdispatch]
      refine iff_of_true (.refl hroom) fun r hr => ?_
      cases hr
    | some r =>
      rw [dispatch_of_reaches hreach,
        handle_unaffected_iff hs hid huser hroom hout fun h => hjoin (hreach.trans (congrArg some h))]
      simp

/-- Eve, who is in no room, is heard in Bob's. -/
theorem outsider_heard : ∃ s s' room, run step (start bootDraws)
      [ask 0 "b1" (.identify "" (some "bob")), ask 0 "b2" (.roomJoin "meeting"),
        ask 1 "e1" (.identify "" (some "eve"))] = some s ∧
    s.step (ask 1 "e2" (.message "meeting" "hello")) = some s' ∧
    s.rooms.rooms.lookup "meeting" = some room ∧ "eve" ∉ room.participants ∧
    ¬ Unaffected "meeting" room s.toAppState s'.toAppState :=
  ⟨_, _, _, rfl, rfl, rfl, by decide, fun h => absurd (h.queued "bob" 0 rfl) (by decide)⟩

/-- While Bob holds the floor, Eve asks for it in vain. -/
theorem outsider_unaffected_iff_denied : ∃ s s' room, run step (start bootDraws)
      [ask 0 "b1" (.identify "" (some "bob")), ask 0 "b2" (.roomJoin "walkie"),
        ask 0 "b3" (.floorRequest "walkie"), ask 1 "e1" (.identify "" (some "eve"))] = some s ∧
    s.step (ask 1 "e2" (.floorRequest "walkie")) = some s' ∧
    s.rooms.rooms.lookup "walkie" = some room ∧
    Unaffected "walkie" room s.toAppState s'.toAppState := by
  obtain ⟨s, s', room, hrun, hstep, hroom, hsession, hout, hspeaker⟩ : ∃ s s' room,
      run step (start bootDraws)
        [ask 0 "b1" (.identify "" (some "bob")), ask 0 "b2" (.roomJoin "walkie"),
          ask 0 "b3" (.floorRequest "walkie"), ask 1 "e1" (.identify "" (some "eve"))] = some s ∧
      s.step (ask 1 "e2" (.floorRequest "walkie")) = some s' ∧
      s.rooms.rooms.lookup "walkie" = some room ∧
      s.sessions 1 = some ⟨some "eve", none, none, none⟩ ∧ "eve" ∉ room.participants ∧
      room.floor.currentSpeaker = some "bob" :=
    ⟨_, _, _, rfl, rfl, rfl, rfl, by decide, rfl⟩
  refine ⟨s, s', room, hrun, hstep, hroom, ?_⟩
  refine (outsider_unaffected_iff (Reachable.sound ⟨_, _, hrun⟩) hsession rfl hroom hout (fun h => ?_)
    hstep).mpr fun r hr => ?_
  · cases h
  · cases hr
    exact fun _ _ => ⟨"bob", hspeaker, fun h => absurd h (by decide)⟩

end Server

end LightLivechat.Signaling
