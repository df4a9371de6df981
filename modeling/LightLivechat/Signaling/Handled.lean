import LightLivechat.Signaling.Effects

/-! What each request can do to the server and to its session. -/

namespace LightLivechat.Signaling

open LightLivechat.Config LightLivechat.Lib.Bytes LightLivechat.Lib.Std
open LightLivechat.Room (Heap Ref Participant PcType Room RoomHub Track TrackKind FloorAction
  FloorController)

/-- The requests that look a participant up under the user id. -/
def Request.onParticipant : Request → Bool
  | .roomLeave _ => true
  | .publishTracks _ => true
  | .muteUpdate .. => true
  | _ => false

def newParticipant (draws : Draws) (userId roomId : String) : Participant :=
  .new userId roomId draws.publish.ufrag draws.publish.pwd draws.subscribe.ufrag
    draws.subscribe.pwd draws.now

/-- What a request can do; `userId` is the session's. -/
inductive Handled (draws : Draws) (sid : SessionId) (s : AppState) (session : Session)
    (userId : String) : Request → AppState → Session → Prop
  | same {r : Request} (hr : r.onParticipant = false) : Handled draws sid s session userId r s session
  | touched {roomId : String} {room : Room} {p : Ref} (hcurrent : session.currentRoom = some roomId)
    (hroom : s.rooms.rooms.lookup roomId = some room)
    (hp : room.participants.lookup userId = some p) :
    Handled draws sid s session userId .heartbeat
      { s with heap := s.heap.update p fun x => x.touch draws.now } session
  | identified {token newId : String} {reqUserId : Option String} :
    Handled draws sid s session userId (.identify token reqUserId) s
      { session with userId := some newId }
  | created {name : String} {capacity : Option Nat} {mode : Option RoomMode} :
    Handled draws sid s session userId (.roomCreate name capacity mode) { s with
      rooms := s.rooms.create draws.uuid name capacity (mode.getD .conference) draws.now
        draws.audioSsrc draws.videoSsrc } session
  | joined {roomId : String} {rooms : RoomHub} {queued : List (Ref × Event)}
    (hok : s.rooms.addParticipant (s.heap.alloc s.next (newParticipant draws userId roomId)) roomId
      s.next = .ok rooms) (hqueued : SentTo s.rooms roomId queued) :
    Handled draws sid s session userId (.roomJoin roomId) {
      heap := s.heap.alloc s.next (newParticipant draws userId roomId)
      next := s.next + 1
      rooms := rooms
      wsTx := Function.update s.wsTx s.next sid
      sent := s.sent ++ queued } { session with
      currentRoom := some roomId
      pubUfrag := some draws.publish.ufrag
      subUfrag := some draws.subscribe.ufrag }
  | published {tracks : List PublishTrackItem} {roomId : String} {room : Room} {p : Ref}
    {queued : List (Ref × Event)} (hcurrent : currentParticipant session s = .ok (room, userId, p))
    (hroomId : session.currentRoom = some roomId) (hqueued : SentTo s.rooms roomId queued) :
    Handled draws sid s session userId (.publishTracks tracks) { s with
      heap := s.heap.update p fun x =>
        (tracks.foldl (publishTrack userId) (x, x.tracks.length, [])).1
      sent := s.sent ++ queued } session
  | notPublished {tracks : List PublishTrackItem} {e : Nat × String}
    (hcurrent : currentParticipant session s = .error e) :
    Handled draws sid s session userId (.publishTracks tracks) s session
  | muted {ssrc : U32} {mute : Bool} {roomId : String} {room : Room} {p : Ref} {x : Participant}
    {kind : TrackKind} {queued : List (Ref × Event)}
    (hcurrent : currentParticipant session s = .ok (room, userId, p))
    (hset : (s.heap p).setTrackMuted ssrc mute = some (x, kind))
    (hroomId : session.currentRoom = some roomId) (hqueued : SentTo s.rooms roomId queued) :
    Handled draws sid s session userId (.muteUpdate ssrc mute) { s with
      heap := s.heap.update p fun _ => x
      sent := s.sent ++ queued } session
  | notMuted {ssrc : U32} {mute : Bool} (h : ∀ room p, currentParticipant session s =
      .ok (room, userId, p) → (s.heap p).setTrackMuted ssrc mute = none) :
    Handled draws sid s session userId (.muteUpdate ssrc mute) s session
  | messaged {roomId content : String} {queued : List (Ref × Event)}
    (hqueued : SentTo s.rooms roomId queued) :
    Handled draws sid s session userId (.message roomId content)
      { s with sent := s.sent ++ queued } session
  | floorChanged {r : Request} {roomId : String} {room room' : Room} {queued : List (Ref × Event)}
    (hr : r ∈ [.floorRequest roomId, .floorRelease roomId, .floorPing roomId])
    (hroom : s.rooms.rooms.lookup roomId = some room) (hframe : FloorOnly room room')
    (hspeaker : room'.floor.currentSpeaker = room.floor.currentSpeaker ∨
      room'.floor.currentSpeaker = none ∨
      r = .floorRequest roomId ∧ room.mode = .ptt ∧ room.floor.currentSpeaker = none ∧
        room'.floor.currentSpeaker = some userId) (hqueued : SentTo s.rooms roomId queued) :
    Handled draws sid s session userId r { s with
      rooms := { s.rooms with rooms := s.rooms.rooms.insert roomId room' }
      sent := s.sent ++ queued } session
  | left {roomId : String} {rooms : RoomHub} {p : Ref} {queued : List (Ref × Event)}
    (hok : (releaseOnLeave s roomId userId).rooms.removeParticipant s.heap roomId userId =
      .ok (rooms, p)) (hqueued : SentTo s.rooms roomId queued) :
    Handled draws sid s session userId (.roomLeave roomId) { s with
      rooms := rooms
      sent := s.sent ++ queued } { session with
      currentRoom := none
      pubUfrag := none
      subUfrag := none }
  | notLeft {roomId : String} {e : LightError} {queued : List (Ref × Event)}
    (herr : (releaseOnLeave s roomId userId).rooms.removeParticipant s.heap roomId userId =
      .error e) (hqueued : SentTo s.rooms roomId queued) :
    Handled draws sid s session userId (.roomLeave roomId) { s with
      rooms := (releaseOnLeave s roomId userId).rooms
      sent := s.sent ++ queued } session

inductive Closed (s : AppState) (session : Session) : AppState → Prop
  | nowhere (h : session.currentRoom = none ∨ session.userId = none) : Closed s session s
  | left {roomId userId : String} {rooms : RoomHub} {p : Ref} {queued : List (Ref × Event)}
    (hcurrent : session.currentRoom = some roomId) (huser : session.userId = some userId)
    (hok : (releaseOnLeave s roomId userId).rooms.removeParticipant s.heap roomId userId =
      .ok (rooms, p)) :
    Closed s session { s with
      rooms := rooms
      sent := s.sent ++ queued }
  | notLeft {roomId userId : String} {e : LightError} {queued : List (Ref × Event)}
    (hcurrent : session.currentRoom = some roomId) (huser : session.userId = some userId)
    (herr : (releaseOnLeave s roomId userId).rooms.removeParticipant s.heap roomId userId =
      .error e) :
    Closed s session { s with
      rooms := (releaseOnLeave s roomId userId).rooms
      sent := s.sent ++ queued }

section

variable {draws : Draws} {session : Session} {sid : SessionId} {s : AppState} {pid : Nat}
variable {roomId userId : String} {room : Room}

theorem handled_heartbeat (pid : Nat) : Handled draws sid s session (session.userId.getD "") .heartbeat
    (handleHeartbeat draws session s pid).1 session := by
  unfold handleHeartbeat
  cases hc : session.currentRoom with
  | none => exact .same rfl
  | some roomId =>
    cases hu : session.userId with
    | none => exact .same rfl
    | some userId =>
      cases hget : s.rooms.get roomId with
      | error e => simpa only [hget] using .same rfl
      | ok room =>
        cases hp : room.getParticipant userId with
        | none => simpa only [hget, hp] using .same rfl
        | some p => simpa only [hget, hp] using .touched hc (get_eq_ok_iff.mp hget) hp

theorem joined_sentTo {heap : Heap} {p : Ref} {rooms : RoomHub}
    (hok : s.rooms.addParticipant heap roomId p = .ok rooms) (hu : (heap p).userId = userId)
    {room : Room} {event : Event} : SentTo s.rooms roomId
      ((((rooms.rooms.lookup roomId).getD room).participants.entries.filter fun e =>
        e.1 ≠ userId).map fun e => (e.2, event)) := by
  obtain ⟨room₀, room₁, hroom, hadd, rfl⟩ := Room.RoomHub.addParticipant_eq_ok hok
  obtain ⟨-, rfl⟩ := Room.Room.addParticipant_eq_ok hadd
  dsimp only
  rw [AList.lookup_insert, Option.getD_some, hu]
  refine .map_entries hroom fun e he => ?_
  obtain ⟨he, hne⟩ := List.mem_filter.mp he
  have hlookup := AList.mem_lookup_iff.mpr he
  rw [AList.lookup_insert_ne (of_decide_eq_true hne)] at hlookup
  exact AList.mem_lookup_iff.mp hlookup

theorem handled_roomJoin : Handled draws sid s session userId (.roomJoin roomId)
    (handleRoomJoin draws session sid s pid userId roomId).1
    (handleRoomJoin draws session sid s pid userId roomId).2.1 := by
  unfold handleRoomJoin
  cases hget : s.rooms.get roomId with
  | error e => simpa only [hget] using .same rfl
  | ok room =>
    simp only
    split
    · exact .same rfl
    · exact .joined ‹_› (joined_sentTo ‹_› (by rw [Room.Heap.alloc_same]; rfl))

theorem handled_publishTracks {tracks : List PublishTrackItem} :
    Handled draws sid s session (session.userId.getD "") (.publishTracks tracks)
      (handlePublishTracks session s pid tracks).1 session := by
  unfold handlePublishTracks
  cases hc : currentParticipant session s with
  | error e => simpa only [hc] using .notPublished hc
  | ok t =>
    obtain ⟨room, u, p⟩ := t
    obtain ⟨rfl, roomId, hcurrent, hroom, -⟩ := currentParticipant_eq_ok hc
    simp only
    split
    · have h : Handled draws sid s session _ (.publishTracks tracks) { s with
          heap := s.heap.update p fun x => (tracks.foldl (publishTrack _) (x, x.tracks.length, [])).1
          sent := s.sent ++ [] } session := .published hc hcurrent .nil
      rw [List.append_nil] at h
      exact h
    · exact .published hc hcurrent (.broadcastToOthers hroom)

theorem handled_muteUpdate {ssrc : U32} {mute : Bool} :
    Handled draws sid s session (session.userId.getD "") (.muteUpdate ssrc mute)
      (handleMuteUpdate session s pid ssrc mute).1 session := by
  unfold handleMuteUpdate
  cases hc : currentParticipant session s with
  | error e => exact .notMuted fun _ _ h => by simp [hc] at h
  | ok t =>
    obtain ⟨room, u, p⟩ := t
    obtain ⟨rfl, roomId, hcurrent, hroom, -⟩ := currentParticipant_eq_ok hc
    simp only
    split
    · refine .notMuted fun room' p' h => ?_
      cases hc.symm.trans h
      assumption
    · exact .muted hc ‹_› hcurrent (.broadcastToOthers hroom)

theorem handled_message (pid : Nat) {content : String} :
    Handled draws sid s session userId (.message roomId content)
      (handleMessage draws s pid userId roomId content).1 session := by
  unfold handleMessage
  cases hget : s.rooms.get roomId with
  | error e => simpa only [hget] using .same rfl
  | ok room => exact .messaged (.broadcastToOthers (get_eq_ok_iff.mp hget))

theorem handled_setRoom {r : Request} {room' : Room} {op : U16} {action : FloorAction}
    (hr : r ∈ [.floorRequest roomId, .floorRelease roomId, .floorPing roomId])
    (hroom : s.rooms.rooms.lookup roomId = some room) (hframe : FloorOnly room room')
    (hspeaker : room'.floor.currentSpeaker = room.floor.currentSpeaker ∨
      room'.floor.currentSpeaker = none ∨
      r = .floorRequest roomId ∧ room.mode = .ptt ∧ room.floor.currentSpeaker = none ∧
        room'.floor.currentSpeaker = some userId) :
    Handled draws sid s session userId r
      ((applyFloorAction s pid op action room userId).1.setRoom roomId room') session := by
  obtain ⟨queued, heq, hqueued⟩ := applyFloorAction_eq hroom pid op action userId
  rw [heq]
  exact .floorChanged hr hroom hframe hspeaker hqueued

theorem handled_floorRequest : Handled draws sid s session userId (.floorRequest roomId)
    (handleFloorRequest draws s pid userId roomId).1 session := by
  cases hget : s.rooms.get roomId with
  | error e =>
    unfold handleFloorRequest
    simpa only [hget] using .same rfl
  | ok room =>
    by_cases hmode : room.mode = .ptt
    · rw [handleFloorRequest_eq (get_eq_ok_iff.mp hget) hmode]
      refine handled_setRoom (by simp) (get_eq_ok_iff.mp hget) (requested_floorOnly ..) ?_
      cases hstate : room.floor.state with
      | idle => exact .inr (.inr ⟨rfl, hmode, by simp [FloorController.currentSpeaker, hstate], by
          simp [requested, FloorController.request, FloorController.currentSpeaker, hstate,
            switchSpeakers]⟩)
      | taken speaker burst ping =>
        refine .inl ?_
        by_cases hu : speaker = userId <;>
          simp [requested, FloorController.request, FloorController.currentSpeaker, hstate, hu,
            switchSpeakers]
    · unfold handleFloorRequest
      simpa only [hget, ne_eq, hmode, not_false_eq_true, if_true] using .same rfl

theorem handled_floorRelease : Handled draws sid s session userId (.floorRelease roomId)
    (handleFloorRelease s pid userId roomId).1 session := by
  cases hget : s.rooms.get roomId with
  | error e =>
    unfold handleFloorRelease
    simpa only [hget] using .same rfl
  | ok room =>
    by_cases hmode : room.mode = .ptt
    · rw [handleFloorRelease_eq (get_eq_ok_iff.mp hget) hmode]
      refine handled_setRoom (by simp) (get_eq_ok_iff.mp hget) (released_floorOnly ..) ?_
      cases hstate : room.floor.state with
      | idle =>
        refine .inr (.inl ?_)
        simp [released, FloorController.release, FloorController.currentSpeaker, hstate,
          clearSpeakers]
      | taken speaker burst ping =>
        by_cases hu : speaker = userId
        · refine .inr (.inl ?_)
          simp [released, FloorController.release, FloorController.currentSpeaker, hstate, hu,
            clearSpeakers]
        · refine .inl ?_
          simp [released, FloorController.release, FloorController.currentSpeaker, hstate, hu]
    · unfold handleFloorRelease
      simpa only [hget, ne_eq, hmode, not_false_eq_true, if_true] using .same rfl

theorem handled_floorPing : Handled draws sid s session userId (.floorPing roomId)
    (handleFloorPing draws s pid userId roomId).1 session := by
  unfold handleFloorPing
  cases hget : s.rooms.get roomId with
  | error e => simpa only [hget] using .same rfl
  | ok room =>
    have h : Handled draws sid s session userId (.floorPing roomId) { s with
        rooms := { s.rooms with
          rooms := s.rooms.rooms.insert roomId
            { room with floor := (room.floor.ping userId draws.now).1 } }
        sent := s.sent ++ [] } session :=
      .floorChanged (by simp) (get_eq_ok_iff.mp hget) ⟨rfl⟩ (.inl (by simp)) .nil
    simp only [List.append_nil] at h
    simp only
    split <;> exact h

theorem handled_roomLeave : Handled draws sid s session userId (.roomLeave roomId)
    (handleRoomLeave session s pid userId roomId).1
    (handleRoomLeave session s pid userId roomId).2.1 := by
  obtain ⟨queued, heq, hqueued⟩ := releaseOnLeave_eq s roomId userId
  have hsent : (releaseOnLeave s roomId userId).sent = s.sent ++ queued := by rw [heq]
  cases hrem : (releaseOnLeave s roomId userId).rooms.removeParticipant s.heap roomId userId with
  | error e =>
    obtain ⟨hstate, hsession⟩ := handleRoomLeave_eq_error hrem
    rw [hstate, hsession, heq]
    exact .notLeft hrem hqueued
  | ok t =>
    obtain ⟨rooms, p⟩ := t
    obtain ⟨room, room', -, -, hroom'⟩ := removeParticipant_lookup hrem
    obtain ⟨hstate, hsession⟩ := handleRoomLeave_eq_ok hrem hroom'
    rw [hstate, hsession, hsent, List.append_assoc]
    exact .left hrem (hqueued.append (.queueAll (fun q hq => member_of_left hrem hroom' hq) _))

/-- What a packet can do: a request that reaches its handler is handled, others are
answered at most. -/
theorem handled (r : Request) :
    Handled draws sid s session (session.userId.getD "") r
      (handle draws session sid s pid r).1 (handle draws session sid s pid r).2.1 := by
  cases r with
  | heartbeat => exact handled_heartbeat pid
  | identify => exact .identified
  | roomList => exact .same rfl
  | roomCreate => exact .created
  | roomJoin => exact handled_roomJoin
  | roomLeave => exact handled_roomLeave
  | publishTracks => exact handled_publishTracks
  | muteUpdate => exact handled_muteUpdate
  | message => exact handled_message pid
  | telemetry => exact .same rfl
  | floorRequest => exact handled_floorRequest
  | floorRelease => exact handled_floorRelease
  | floorPing => exact handled_floorPing

theorem closed : Closed s session (cleanup session s) := by
  cases hcurrent : session.currentRoom with
  | none => simpa only [cleanup, hcurrent] using .nowhere (.inl hcurrent)
  | some roomId =>
    cases huser : session.userId with
    | none => simpa only [cleanup, hcurrent, huser] using .nowhere (.inr huser)
    | some userId =>
      obtain ⟨queued, heq, hqueued⟩ := releaseOnLeave_eq s roomId userId
      have hheap : (releaseOnLeave s roomId userId).heap = s.heap := by rw [heq]
      have hsent : (releaseOnLeave s roomId userId).sent = s.sent ++ queued := by rw [heq]
      cases hrem : (releaseOnLeave s roomId userId).rooms.removeParticipant s.heap roomId userId with
      | ok t =>
        obtain ⟨rooms, p⟩ := t
        obtain ⟨room, room', hroom, hroomrem, -⟩ := removeParticipant_lookup hrem
        rw [cleanup_eq_ok hcurrent huser hroom hrem (Room.Room.removeParticipant_eq_ok hroomrem),
          hsent, List.append_assoc]
        exact .left hcurrent huser hrem
      | error e =>
        unfold cleanup
        simp only [hcurrent, huser, hheap]
        cases hget : (releaseOnLeave s roomId userId).rooms.get roomId with
        | error e' =>
          simp only [hheap, hrem]
          rw [heq]
          exact .notLeft hcurrent huser hrem
        | ok room =>
          simp only [broadcastToOthers_farewell, hheap, hrem]
          rw [hsent, List.append_assoc, heq]
          exact .notLeft hcurrent huser hrem

end

end LightLivechat.Signaling
