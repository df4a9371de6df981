import LightLivechat.Signaling.Reachable

/-! What a packet leaves behind that is answered with an error. -/

namespace LightLivechat.Signaling

open LightLivechat.Config LightLivechat.Lib.Bytes LightLivechat.Lib.Std LightLivechat.Lib.Runs
open LightLivechat.Room (Heap Ref Participant Room RoomHub FloorController FloorAction)

/-- Participants with their tracks, rooms with their indices, floors and rewriters, the
hub's indices, what is queued, and the session are all as before. -/
structure Unchanged (s : AppState) (session : Session) (s' : AppState) (session' : Session) :
    Prop where
  heap : s'.heap = s.heap
  next : s'.next = s.next
  rooms : ∀ r, s'.rooms.rooms.lookup r = s.rooms.rooms.lookup r
  ufragIndex : s'.rooms.ufragIndex = s.rooms.ufragIndex
  addrIndex : s'.rooms.addrIndex = s.rooms.addrIndex
  wsTx : s'.wsTx = s.wsTx
  sent : s'.sent = s.sent
  session : session' = session

/-- The user leaves a push-to-talk room of which it has the floor without being in it. -/
def FreesFloor (s : AppState) (session : Session) (packet : Packet) : Prop :=
  ∃ roomId room, packet.reaches session = some (.roomLeave roomId) ∧
    s.rooms.rooms.lookup roomId = some room ∧ room.mode = .ptt ∧
    room.floor.currentSpeaker = some (session.userId.getD "") ∧
    session.userId.getD "" ∉ room.participants

def Reply.Refuses (reply : Reply) : Prop := ∃ e, reply.result = .error e

section

variable {draws : Draws} {sid : SessionId} {s s' : AppState} {session session' : Session}
variable {pid : Nat} {roomId userId : String} {room : Room} {r : Request} {reply : Reply}

theorem Unchanged.refl (s : AppState) (session : Session) : Unchanged s session s session :=
  ⟨rfl, rfl, fun _ => rfl, rfl, rfl, rfl, rfl, rfl⟩

theorem Unchanged.of_eq (hs : s' = s) (hsession : session' = session) :
    Unchanged s session s' session' := by
  rw [hs, hsession]
  exact .refl s session

theorem Unchanged.setRoom (hroom : s.rooms.rooms.lookup roomId = some room) :
    Unchanged s session (s.setRoom roomId room) session where
  heap := rfl
  next := rfl
  rooms := by
    intro r
    change (s.rooms.rooms.insert roomId room).lookup r = _
    rw [DashMap.lookup_insert']
    split
    · subst r
      exact hroom.symm
    · rfl
  ufragIndex := rfl
  addrIndex := rfl
  wsTx := rfl
  sent := rfl
  session := rfl

theorem not_refuses_ok {op : U16} {d : Answer} : ¬ (Reply.ok op pid d).Refuses := by
  rintro ⟨e, he⟩
  cases he

theorem handleRoomJoin_refused (h : (handleRoomJoin draws session sid s pid userId roomId).2.2.Refuses) :
    (handleRoomJoin draws session sid s pid userId roomId).1 = s ∧
      (handleRoomJoin draws session sid s pid userId roomId).2.1 = session := by
  unfold handleRoomJoin at h ⊢
  cases hget : s.rooms.get roomId with
  | error e => exact ⟨rfl, rfl⟩
  | ok room =>
    simp only [hget] at h ⊢
    split at h
    · exact ⟨rfl, rfl⟩
    · exact absurd h not_refuses_ok

theorem handlePublishTracks_refused {tracks : List PublishTrackItem}
    (h : (handlePublishTracks session s pid tracks).2.Refuses) :
    (handlePublishTracks session s pid tracks).1 = s := by
  unfold handlePublishTracks at h ⊢
  cases hc : currentParticipant session s with
  | error e => rfl
  | ok t =>
    simp only [hc] at h
    exact absurd h not_refuses_ok

theorem handleMuteUpdate_refused {ssrc : U32} {mute : Bool}
    (h : (handleMuteUpdate session s pid ssrc mute).2.Refuses) :
    (handleMuteUpdate session s pid ssrc mute).1 = s := by
  unfold handleMuteUpdate at h ⊢
  cases hc : currentParticipant session s with
  | error e => rfl
  | ok t =>
    simp only [hc] at h ⊢
    split at h
    · rfl
    · exact absurd h not_refuses_ok

theorem handleFloorRequest_refused (session : Session)
    (h : (handleFloorRequest draws s pid userId roomId).2.Refuses) :
    Unchanged s session (handleFloorRequest draws s pid userId roomId).1 session := by
  unfold handleFloorRequest at h ⊢
  cases hget : s.rooms.get roomId with
  | error e => exact .refl s session
  | ok room =>
    simp only [hget] at h ⊢
    split at h
    · rw [if_pos ‹_›]
      exact .refl s session
    · rw [if_neg ‹_›]
      obtain ⟨c, hgranted, -⟩ | ⟨reason, current, hdenied⟩ :=
        FloorController.request_cases room.floor userId draws.now
      · simp only [hgranted] at h
        exact absurd h not_refuses_ok
      · simp only [hdenied]
        exact .setRoom (get_eq_ok_iff.mp hget)

theorem handleFloorRelease_refused
    (h : (handleFloorRelease s pid userId roomId).2.Refuses) :
    (handleFloorRelease s pid userId roomId).1 = s := by
  unfold handleFloorRelease at h ⊢
  cases hget : s.rooms.get roomId with
  | error e => rfl
  | ok room =>
    simp only [hget] at h ⊢
    split at h
    · rw [if_pos ‹_›]
    · obtain ⟨c, hreleased, -⟩ | hdenied := FloorController.release_cases room.floor userId
      · simp only [hreleased] at h
        exact absurd h not_refuses_ok
      · simp only [hdenied] at h
        exact absurd h not_refuses_ok

theorem handleFloorPing_refused (session : Session)
    (h : (handleFloorPing draws s pid userId roomId).2.Refuses) :
    Unchanged s session (handleFloorPing draws s pid userId roomId).1 session := by
  unfold handleFloorPing at h ⊢
  cases hget : s.rooms.get roomId with
  | error e => exact .refl s session
  | ok room =>
    simp only [hget] at h ⊢
    obtain ⟨c, hok⟩ | hdenied := FloorController.ping_cases room.floor userId draws.now
    · simp only [hok] at h
      exact absurd h not_refuses_ok
    · simp only [hdenied]
      exact .setRoom (get_eq_ok_iff.mp hget)

/-- A leave that is refused has freed the floor already, if it was the user's. -/
theorem handleRoomLeave_refused
    (h : (handleRoomLeave session s pid userId roomId).2.2.Refuses) :
    Unchanged s session (handleRoomLeave session s pid userId roomId).1
        (handleRoomLeave session s pid userId roomId).2.1 ↔
      ¬ ∃ room, s.rooms.rooms.lookup roomId = some room ∧ room.mode = .ptt ∧
        room.floor.currentSpeaker = some userId ∧ userId ∉ room.participants := by
  cases hrem : (releaseOnLeave s roomId userId).rooms.removeParticipant s.heap roomId userId with
  | ok t =>
    obtain ⟨queued, heq, -⟩ := releaseOnLeave_eq s roomId userId
    have hheap : (releaseOnLeave s roomId userId).heap = s.heap := by rw [heq]
    unfold handleRoomLeave at h
    simp only [hheap, hrem] at h
    exact absurd h not_refuses_ok
  | error e =>
    obtain ⟨hstate, hsession⟩ : (handleRoomLeave session s pid userId roomId).1 =
        releaseOnLeave s roomId userId ∧ (handleRoomLeave session s pid userId roomId).2.1 =
        session := handleRoomLeave_eq_error hrem
    rw [hstate, hsession]
    obtain ⟨room, hroom, hmode, hspeaker, hrel⟩ | ⟨hother, hrel⟩ :=
      releaseOnLeave_cases s roomId userId
    · have hout : userId ∉ room.participants := by
        intro hin
        obtain ⟨p, hp⟩ := DashMap.mem_iff_lookup.mp hin
        exact notLeft_spec hrem p ⟨room, hroom, hp⟩
      refine iff_of_false (fun hsame => ?_) fun hc => hc ⟨room, hroom, hmode, hspeaker, hout⟩
      have hafter := hsame.rooms roomId
      rw [hrel, hroom] at hafter
      rw [← Option.some.inj ((AList.lookup_insert _).symm.trans hafter)] at hspeaker
      cases hspeaker
    · rw [hrel]
      refine iff_of_true (.refl s session) ?_
      rintro ⟨room, hroom, hmode, hspeaker, -⟩
      exact hother room hroom hmode hspeaker

theorem handle_refused (hreply : (handle draws session sid s pid r).2.2 = some reply)
    (h : reply.Refuses) :
    Unchanged s session (handle draws session sid s pid r).1
        (handle draws session sid s pid r).2.1 ↔
      ¬ ∃ roomId room, r = .roomLeave roomId ∧ s.rooms.rooms.lookup roomId = some room ∧
        room.mode = .ptt ∧ room.floor.currentSpeaker = some (session.userId.getD "") ∧
        session.userId.getD "" ∉ room.participants := by
  cases r with
  | roomLeave roomId =>
    cases hreply
    refine (handleRoomLeave_refused h).trans (not_congr ?_)
    simp only [Request.roomLeave.injEq, exists_and_left, exists_eq_left']
  | heartbeat | identify | roomList | roomCreate | message =>
    cases hreply
    exact absurd h not_refuses_ok
  | telemetry => cases hreply
  | roomJoin =>
    cases hreply
    obtain ⟨hstate, hsession⟩ := handleRoomJoin_refused h
    exact iff_of_true (.of_eq hstate hsession) (by simp)
  | publishTracks =>
    cases hreply
    exact iff_of_true (.of_eq (handlePublishTracks_refused h) rfl) (by simp)
  | muteUpdate =>
    cases hreply
    exact iff_of_true (.of_eq (handleMuteUpdate_refused h) rfl) (by simp)
  | floorRequest =>
    cases hreply
    exact iff_of_true (handleFloorRequest_refused session h) (by simp)
  | floorRelease =>
    cases hreply
    exact iff_of_true (.of_eq (handleFloorRelease_refused h) rfl) (by simp)
  | floorPing =>
    cases hreply
    exact iff_of_true (handleFloorPing_refused session h) (by simp)

/-- A packet answered with an error changes nothing, but for a leave by a user who has the
floor and is not in the room. -/
theorem refused_unchanged_iff (draws : Draws) (sid : SessionId) (packet : Packet)
    (h : dispatch draws session sid s packet = (s', session', some reply))
    (hrefuses : reply.Refuses) :
    Unchanged s session s' session' ↔ ¬ FreesFloor s session packet := by
  cases hreach : packet.reaches session with
  | none =>
    obtain ⟨reply', hdispatch⟩ : ∃ reply', dispatch draws session sid s packet =
        (s, session, reply') := dispatch_of_not_reaches hreach
    cases hdispatch.symm.trans h
    refine iff_of_true (.refl s session) ?_
    rintro ⟨roomId, room, hr, -⟩
    cases hreach.symm.trans hr
  | some r =>
    rw [dispatch_of_reaches hreach] at h
    have hreply : (handle draws session sid s packet.pid r).2.2 = some reply := by rw [h]
    have hhandle := handle_refused hreply hrefuses
    rw [h] at hhandle
    refine hhandle.trans (not_congr ?_)
    simp only [FreesFloor, hreach, Option.some.injEq]

end

namespace Server

/-- Alice, who is not in the room, is granted its floor; her leave is refused, and bob is
told that the floor is idle. -/
theorem refused_leave_frees : ∃ s session state reply, run step (start bootDraws)
      [ask 0 "b" (.identify "" (some "bob")), ask 0 "b2" (.roomJoin "walkie"),
        ask 1 "a" (.identify "" (some "alice")), ask 1 "a2" (.floorRequest "walkie")] = some s ∧
    s.sessions 1 = some session ∧
    dispatch (draws "a3") session 1 s.toAppState ⟨7, none, .request (.roomLeave "walkie")⟩ =
      (state, session, some reply) ∧
    reply.result = .error ⟨2004, "[2004] not in room"⟩ ∧
    (∃ room, s.rooms.rooms.lookup "walkie" = some room ∧
      room.floor.currentSpeaker = some "alice") ∧
    (∃ room, state.rooms.rooms.lookup "walkie" = some room ∧
      room.floor.currentSpeaker = none) ∧
    state.sent = s.sent ++ [(0, .floorIdle "walkie" "alice" none)] := by
  refine ⟨_, _, _, _, rfl, rfl, rfl, rfl, ⟨_, rfl, rfl⟩, ⟨_, rfl, rfl⟩, rfl⟩

/-- A refused join of a room that does not exist. -/
theorem refused_join_unchanged : ∃ s session reply, run step (start bootDraws)
      [ask 0 "b" (.identify "" (some "bob"))] = some s ∧ s.sessions 0 = some session ∧
    ∃ s' session', dispatch (draws "b2") session 0 s.toAppState
        ⟨7, none, .request (.roomJoin "nowhere")⟩ = (s', session', some reply) ∧
      Unchanged s.toAppState session s' session' := by
  have hrefuses : (Reply.err Opcode.roomJoin 7 2001 "room not found").Refuses := ⟨_, rfl⟩
  refine ⟨_, _, _, rfl, rfl, _, _, rfl, ?_⟩
  refine (refused_unchanged_iff (draws "b2") 0 ⟨7, none, .request (.roomJoin "nowhere")⟩ rfl
    hrefuses).mpr ?_
  rintro ⟨roomId, room, hr, -⟩
  cases hr

end Server

end LightLivechat.Signaling
