import LightLivechat.Ptt.Talk
import LightLivechat.Room.Sound
import LightLivechat.Signaling.Handled

/-! Push-to-talk as the signalling side runs it: which calls a step makes on the floor of a
room, and that it does nothing else to it. -/

namespace LightLivechat.Signaling

open LightLivechat.Config LightLivechat.Lib.Bytes LightLivechat.Lib.Std LightLivechat.Lib.Runs
open LightLivechat.Room (Heap Ref Participant PcType Room RoomHub FloorAction FloorController)
open LightLivechat.Ptt (Talk TalkOp)

def talkOf (room : Room) : Option Talk := if room.mode = .ptt then some (.of room) else none

def talkIn (hub : RoomHub) (r : String) : Option Talk := (hub.rooms.lookup r).bind talkOf

/-- The calls are made on the floor of one room. -/
def CallsAt (hub hub' : RoomHub) (roomId : String) (calls : List FloorController.Call) : Prop :=
  ∀ r, talkIn hub' r = (talkIn hub r).map fun t =>
    ((if roomId = r then calls else []).map TalkOp.floor).foldl Talk.apply t

def requestCalls (r userId : String) (now : Nat) : Request → List FloorController.Call
  | .floorRequest roomId => if roomId = r then [.request userId now] else []
  | .floorRelease roomId => if roomId = r then [.release userId] else []
  | .floorPing roomId => if roomId = r then [.ping userId now] else []
  | .roomLeave roomId => if roomId = r then [.onParticipantLeave userId] else []
  | _ => []

def closeCalls (r : String) (session : Session) : List FloorController.Call :=
  match session.currentRoom, session.userId with
  | some roomId, some userId => if roomId = r then [.onParticipantLeave userId] else []
  | _, _ => []

namespace Server

def floorCalls (r : String) (s : Server) : Label → List FloorController.Call
  | .packet sid packet draws =>
    match (s.sessions sid).bind fun session => (packet.reaches session).map fun q => (session, q) with
    | some (session, q) => requestCalls r (session.userId.getD "") draws.now q
    | none => []
  | .disconnect sid => (s.sessions sid).elim [] (closeCalls r)
  | .floorTimer now => [.checkTimers now]
  | _ => []

end Server

section

variable {hub hub' : RoomHub} {r roomId userId : String} {room room' : Room} {now pid : Nat}
variable {s : AppState} {session : Session} {sid : SessionId} {draws : Draws} {heap : Heap}

theorem talkIn_insert (hub : RoomHub) (roomId : String) (room : Room) (r : String) :
    talkIn { hub with rooms := hub.rooms.insert roomId room } r =
      if r = roomId then talkOf room else talkIn hub r := by
  unfold talkIn
  dsimp only
  rw [DashMap.lookup_insert']
  split <;> rfl

theorem talkIn_setRoom (hroom : hub.rooms.lookup roomId = some room)
    (htalk : talkOf room' = talkOf room) (r : String) :
    talkIn { hub with rooms := hub.rooms.insert roomId room' } r = talkIn hub r := by
  rw [talkIn_insert]
  split
  · subst r
    rw [htalk, talkIn, hroom]
    rfl
  · rfl

theorem CallsAt.absent (h : talkIn hub roomId = .none) (calls : List FloorController.Call) :
    CallsAt hub hub roomId calls := by
  intro r
  split
  · subst r
    rw [h]
    rfl
  · exact Option.map_id'.symm

theorem CallsAt.insert {calls : List FloorController.Call}
    (hroom : hub.rooms.lookup roomId = some room)
    (htalk : talkOf room' = (talkOf room).map fun t => (calls.map TalkOp.floor).foldl Talk.apply t) :
    CallsAt hub { hub with rooms := hub.rooms.insert roomId room' } roomId calls := by
  intro r
  rw [talkIn_insert]
  by_cases hr : r = roomId
  · subst hr
    rw [if_pos rfl, if_pos rfl, htalk, talkIn, hroom]
    rfl
  · rw [if_neg hr, if_neg (Ne.symm hr)]
    exact Option.map_id'.symm

theorem CallsAt.ptt {calls : List FloorController.Call}
    (hroom : hub.rooms.lookup roomId = some room) (hmode : room.mode = .ptt)
    (hmode' : room'.mode = room.mode)
    (htalk : Talk.of room' = (calls.map TalkOp.floor).foldl Talk.apply (Talk.of room)) :
    CallsAt hub { hub with rooms := hub.rooms.insert roomId room' } roomId calls := by
  refine .insert hroom ?_
  rw [talkOf, talkOf, hmode', if_pos hmode, if_pos hmode, htalk]
  rfl

theorem talkIn_congr (h : hub'.rooms = hub.rooms) (r : String) : talkIn hub' r = talkIn hub r := by
  rw [talkIn, h]
  rfl

theorem talkOf_congr (hmode : room'.mode = room.mode) (htalk : Talk.of room' = Talk.of room) :
    talkOf room' = talkOf room := by
  rw [talkOf, hmode, htalk]
  rfl

theorem talk_requested (room : Room) (userId : String) (now : Nat) :
    Talk.of (requested room userId now) = (Talk.of room).apply (.floor (.request userId now)) := by
  obtain ⟨c', h, -⟩ | ⟨reason, cur, h⟩ := room.floor.request_cases userId now
  · simp only [requested, h, Talk.of, Talk.apply, Talk.calls, Talk.floorCalls, FloorController.apply,
      Prod.map, Ptt.speakerCalls, List.foldl_cons, List.foldl_nil, Ptt.callOn, switchSpeakers, id]
    congr 1
    funext kind
    cases kind <;> rfl
  · simp only [requested, h, Talk.of, Talk.apply, Talk.calls, Talk.floorCalls, FloorController.apply,
      Prod.map, Ptt.speakerCalls, List.foldl_cons, List.foldl_nil, id]

theorem talk_released (room : Room) (userId : String) :
    Talk.of (released room userId) = (Talk.of room).apply (.floor (.release userId)) := by
  obtain ⟨c', h, -⟩ | h := room.floor.release_cases userId
  · simp only [released, h, Talk.of, Talk.apply, Talk.calls, Talk.floorCalls, FloorController.apply,
      Prod.map, Ptt.speakerCalls, List.foldl_cons, List.foldl_nil, Ptt.callOn, clearSpeakers, id]
    congr 1
    funext kind
    cases kind <;> rfl
  · simp only [released, h, Talk.of, Talk.apply, Talk.calls, Talk.floorCalls, FloorController.apply,
      Prod.map, Ptt.speakerCalls, List.foldl_cons, List.foldl_nil, id]

theorem ping_cases (c : FloorController) (userId : String) (now : Nat) :
    (c.ping userId now).2 = .pingOk ∨ (c.ping userId now).2 = .pingDenied := by
  unfold FloorController.ping
  split
  · split
    · exact .inl rfl
    · exact .inr rfl
  · exact .inr rfl

theorem talk_pinged (room : Room) (userId : String) (now : Nat) :
    Talk.of { room with floor := (room.floor.ping userId now).1 } =
      (Talk.of room).apply (.floor (.ping userId now)) := by
  obtain h | h := ping_cases room.floor userId now <;>
  · simp only [Talk.of, Talk.apply, Talk.calls, Talk.floorCalls, FloorController.apply, Prod.map, h,
      Ptt.speakerCalls, List.foldl_cons, List.foldl_nil, id]

theorem talk_cleared (room : Room) (floor : FloorController) {call : FloorController.Call}
    {answer : FloorAction} (h : room.floor.apply call = (floor, some answer))
    (hanswer : Ptt.speakerCalls (some answer) = [.clearSpeaker]) :
    Talk.of (clearSpeakers { room with floor := floor }) =
      (Talk.of room).apply (.floor call) := by
  simp only [Talk.of, Talk.apply, Talk.calls, Talk.floorCalls, h, hanswer, List.foldl_cons,
    List.foldl_nil, Ptt.callOn, clearSpeakers]
  congr 1
  funext kind
  cases kind <;> rfl

theorem talk_unanswered {t : Talk} {call : FloorController.Call}
    (h : t.floor.apply call = (t.floor, none)) : t.apply (.floor call) = t := by
  simp only [Talk.apply, Talk.calls, Talk.floorCalls, h, Ptt.speakerCalls, List.foldl_cons,
    List.foldl_nil]

theorem onParticipantLeave_speaker {c : FloorController} (h : c.currentSpeaker = some userId) :
    c.apply (.onParticipantLeave userId) = (.new, some (.released userId)) := by
  obtain ⟨state⟩ := c
  cases state with
  | idle => cases h
  | taken speaker burst ping =>
    cases h
    simp [FloorController.apply, FloorController.onParticipantLeave, FloorController.new]

theorem onParticipantLeave_other {c : FloorController} (h : c.currentSpeaker ≠ some userId) :
    c.apply (.onParticipantLeave userId) = (c, none) := by
  obtain ⟨state⟩ := c
  cases state with
  | idle => rfl
  | taken speaker burst ping =>
    have hne : speaker ≠ userId := fun heq => h (congrArg some heq)
    simp [FloorController.apply, FloorController.onParticipantLeave, hne]

theorem callsAt_floorRequest : CallsAt s.rooms
    (handleFloorRequest draws s pid userId roomId).1.rooms roomId [.request userId draws.now] := by
  cases hroom : s.rooms.rooms.lookup roomId with
  | none =>
    have hget : s.rooms.get roomId = .error .roomNotFound := by rw [RoomHub.get, hroom]
    rw [handleFloorRequest, hget]
    exact .absent (by rw [talkIn, hroom]; rfl) _
  | some room =>
    by_cases hmode : room.mode = .ptt
    · obtain ⟨queued, hsent, -⟩ := applyFloorAction_eq hroom pid Opcode.floorRequest
        (room.floor.request userId draws.now).2 userId
      rw [handleFloorRequest_eq hroom hmode, hsent]
      exact .ptt hroom hmode (requested_floorOnly ..).mode (talk_requested ..)
    · rw [handleFloorRequest, get_eq_ok_iff.mpr hroom]
      simp only [ne_eq, hmode, not_false_eq_true, if_true]
      exact .absent (by rw [talkIn, hroom]; exact if_neg hmode) _

theorem callsAt_floorRelease : CallsAt s.rooms
    (handleFloorRelease s pid userId roomId).1.rooms roomId [.release userId] := by
  cases hroom : s.rooms.rooms.lookup roomId with
  | none =>
    have hget : s.rooms.get roomId = .error .roomNotFound := by rw [RoomHub.get, hroom]
    rw [handleFloorRelease, hget]
    exact .absent (by rw [talkIn, hroom]; rfl) _
  | some room =>
    by_cases hmode : room.mode = .ptt
    · obtain ⟨queued, hsent, -⟩ := applyFloorAction_eq hroom pid Opcode.floorRelease
        (room.floor.release userId).2 userId
      rw [handleFloorRelease_eq hroom hmode, hsent]
      exact .ptt hroom hmode (released_floorOnly ..).mode (talk_released ..)
    · rw [handleFloorRelease, get_eq_ok_iff.mpr hroom]
      simp only [ne_eq, hmode, not_false_eq_true, if_true]
      exact .absent (by rw [talkIn, hroom]; exact if_neg hmode) _

theorem callsAt_floorPing : CallsAt s.rooms
    (handleFloorPing draws s pid userId roomId).1.rooms roomId [.ping userId draws.now] := by
  unfold handleFloorPing
  cases hroom : s.rooms.rooms.lookup roomId with
  | none =>
    have hget : s.rooms.get roomId = .error .roomNotFound := by rw [RoomHub.get, hroom]
    rw [hget]
    exact .absent (by rw [talkIn, hroom]; rfl) _
  | some room =>
    rw [get_eq_ok_iff.mpr hroom]
    have hinsert : CallsAt s.rooms (s.setRoom roomId
        { room with floor := (room.floor.ping userId draws.now).1 }).rooms roomId
          [.ping userId draws.now] := by
      by_cases hmode : room.mode = .ptt
      · exact .ptt hroom hmode rfl (talk_pinged ..)
      · refine .insert hroom ?_
        simp only [talkOf, hmode, if_false, Option.map_none]
    dsimp only
    split <;> exact hinsert

theorem callsAt_releaseOnLeave : CallsAt s.rooms (releaseOnLeave s roomId userId).rooms roomId
    [.onParticipantLeave userId] := by
  obtain ⟨room, hroom, hmode, hspeaker, h⟩ | ⟨hother, h⟩ := releaseOnLeave_cases s roomId userId
  · rw [h]
    exact .ptt hroom hmode rfl (talk_cleared room .new (onParticipantLeave_speaker hspeaker) rfl)
  · rw [h]
    intro r
    split
    · subst r
      cases hroom : s.rooms.rooms.lookup roomId with
      | none => simp [talkIn, hroom]
      | some room =>
        by_cases hmode : room.mode = .ptt
        · have htalk : talkIn s.rooms roomId = some (Talk.of room) := by
            rw [talkIn, hroom]
            exact if_pos hmode
          rw [htalk]
          have hsame : (Talk.of room).apply (.floor (.onParticipantLeave userId)) = Talk.of room :=
            talk_unanswered (onParticipantLeave_other (hother room hroom hmode))
          exact congrArg some hsame.symm
        · simp [talkIn, hroom, talkOf, hmode]
    · exact Option.map_id'.symm

theorem callsAt_checkFloor : CallsAt s.rooms (checkFloor now s roomId).rooms roomId
    [.checkTimers now] := by
  unfold checkFloor
  cases hroom : s.rooms.rooms.lookup roomId with
  | none => exact .absent (by rw [talkIn, hroom]; rfl) _
  | some room =>
    dsimp only
    split_ifs with hmode
    · exact .absent (by rw [talkIn, hroom]; exact if_neg hmode) _
    · have hptt := not_not.mp hmode
      obtain ⟨c', prev, cause, hcheck, -⟩ | hcheck := room.floor.checkTimers_cases now
      · have hcleared : CallsAt s.rooms
            (s.setRoom roomId (clearSpeakers { room with floor := c' })).rooms roomId
              [.checkTimers now] := by
          have hanswer : room.floor.apply (.checkTimers now) = (c', some (.revoked prev cause)) :=
            hcheck
          exact .ptt hroom hptt rfl (talk_cleared room c' hanswer rfl)
        simp only [hcheck]
        split <;> exact hcleared
      · have hidle : talkOf room = (talkOf room).map fun t =>
            ([FloorController.Call.checkTimers now].map TalkOp.floor).foldl Talk.apply t := by
          rw [talkOf, if_pos hptt]
          have hsame : (Talk.of room).apply (.floor (.checkTimers now)) = Talk.of room :=
            talk_unanswered hcheck
          exact congrArg some hsame.symm
        simp only [hcheck]
        intro r
        split
        · subst r
          rw [talkIn, hroom]
          exact hidle
        · exact Option.map_id'.symm

theorem talkIn_floorTimer (s : AppState) (now : Nat) (r : String) :
    talkIn (floorTimer s now).rooms r = (talkIn s.rooms r).map fun t =>
      ([FloorController.Call.checkTimers now].map TalkOp.floor).foldl Talk.apply t := by
  have hfold : ∀ (ids : List String) (s : AppState), ids.Nodup →
      talkIn (ids.foldl (checkFloor now) s).rooms r = (talkIn s.rooms r).map fun t =>
        ((if r ∈ ids then [FloorController.Call.checkTimers now] else []).map
          TalkOp.floor).foldl Talk.apply t := by
    intro ids
    induction ids with
    | nil => exact fun s _ => Option.map_id'.symm
    | cons roomId ids ih =>
      intro s hnd
      obtain ⟨hroomId, hnd⟩ := List.nodup_cons.mp hnd
      rw [List.foldl_cons, ih _ hnd, callsAt_checkFloor r, Option.map_map]
      by_cases hr : roomId = r
      · subst hr
        rw [if_neg hroomId, if_pos rfl, if_pos List.mem_cons_self]
        rfl
      · simp only [hr, if_false, List.mem_cons, Ne.symm hr, false_or]
        rfl
  have hids : (s.rooms.rooms.entries.map fun e => e.1).Nodup := s.rooms.rooms.nodupKeys
  unfold floorTimer
  rw [hfold _ _ hids]
  by_cases hr : r ∈ s.rooms.rooms.entries.map fun e => e.1
  · rw [if_pos hr]
  · have hnone : talkIn s.rooms r = none := by
      rw [talkIn, AList.lookup_eq_none.mpr hr]
      rfl
    rw [hnone]
    rfl

theorem talkIn_addParticipant {p : Ref} (hok : hub.addParticipant heap roomId p = .ok hub')
    (r : String) : talkIn hub' r = talkIn hub r := by
  obtain ⟨room, room', hroom, hadd, rfl⟩ := RoomHub.addParticipant_eq_ok hok
  have htalk : talkOf room' = talkOf room := by
    rw [(Room.Room.addParticipant_eq_ok hadd).2]
    exact talkOf_congr rfl rfl
  exact (talkIn_congr rfl r).trans (talkIn_setRoom hroom htalk r)

theorem talkIn_removeParticipant {p : Ref}
    (hok : hub.removeParticipant heap roomId userId = .ok (hub', p)) (r : String) :
    talkIn hub' r = talkIn hub r := by
  obtain ⟨room, room', hroom, hremove, rfl⟩ := RoomHub.removeParticipant_eq_ok hok
  have htalk : talkOf room' = talkOf room := by
    unfold Room.removeParticipant at hremove
    split at hremove <;> cases hremove
    exact talkOf_congr rfl rfl
  exact (talkIn_congr rfl r).trans (talkIn_setRoom hroom htalk r)

theorem talkIn_reapZombies (hub : RoomHub) (heap : Heap) (nowMs timeoutMs : Nat) (r : String) :
    talkIn (hub.reapZombies heap nowMs timeoutMs).1 r = talkIn hub r := by
  let Same (acc : RoomHub × List (String × Ref)) : Prop := talkIn acc.1 r = talkIn hub r
  refine List.foldlRecOn (motive := Same) _ _ rfl fun acc hacc roomId _ => ?_
  unfold RoomHub.reapRoom
  split
  · exact hacc
  · refine List.foldlRecOn (motive := Same) _ _ hacc fun acc hacc userId _ => ?_
    unfold RoomHub.reap
    split
    · exact (talkIn_removeParticipant ‹_› r).trans hacc
    · exact hacc

theorem talkIn_latchByUfrag {heap' : Heap} {ufrag : String} {addr : SocketAddr} {p : Ref}
    {pc : PcType} (hok : hub.latchByUfrag heap ufrag addr = some (heap', hub', p, pc)) (r : String) :
    talkIn hub' r = talkIn hub r := by
  obtain ⟨roomId, room, room', -, hroom, hlatch, rfl⟩ := RoomHub.latchByUfrag_eq_some hok
  obtain ⟨-, -, hframe, -⟩ := Room.Room.latch_spec hlatch
  have htalk : talkOf room' = talkOf room := by
    rw [hframe]
    exact talkOf_congr rfl rfl
  exact (talkIn_congr rfl r).trans (talkIn_setRoom hroom htalk r)

theorem talkIn_create (hub : RoomHub) (id name : String) (capacity : Option Nat) (mode : RoomMode)
    (now : Nat) (audioSsrc videoSsrc : U32) (r : String) :
    talkIn (hub.create id name capacity mode now audioSsrc videoSsrc) r =
      if r = id then
        if mode = .ptt then some (.fresh fun kind => if kind = .audio then audioSsrc else videoSsrc)
        else none
      else talkIn hub r := by
  have hfresh : Talk.of (.new id name capacity mode now audioSsrc videoSsrc) =
      .fresh fun kind => if kind = .audio then audioSsrc else videoSsrc := by
    unfold Talk.of Talk.fresh
    congr 1
    funext kind
    cases kind <;> rfl
  rw [RoomHub.create, talkIn_insert, talkOf, hfresh]
  rfl

/-- A request calls on the floors as said, and otherwise starts rooms at most. -/
theorem talkIn_handle (r : String) (q : Request)
    (hcreate : draws.uuid ∉ s.rooms.rooms) :
    talkIn s.rooms r = none ∧
        (∃ ssrc, talkIn (handle draws session sid s pid q).1.rooms r = some (.fresh ssrc)) ∨
      talkIn (handle draws session sid s pid q).1.rooms r = (talkIn s.rooms r).map fun t =>
        ((requestCalls r (session.userId.getD "") draws.now q).map TalkOp.floor).foldl
          Talk.apply t := by
  have hsame : ∀ {t : AppState}, talkIn t.rooms r = talkIn s.rooms r →
      talkIn t.rooms r = (talkIn s.rooms r).map fun t => t := fun h => h.trans Option.map_id'.symm
  have hhandled := @handled draws session sid s pid q
  cases q with
  | floorRequest roomId => exact .inr (callsAt_floorRequest r)
  | floorRelease roomId => exact .inr (callsAt_floorRelease r)
  | floorPing roomId => exact .inr (callsAt_floorPing r)
  | roomLeave roomId =>
    refine .inr ?_
    generalize (handle draws session sid s pid (.roomLeave roomId)).1 = t,
      (handle draws session sid s pid (.roomLeave roomId)).2.1 = session' at hhandled
    cases hhandled with
    | same hr => cases hr
    | floorChanged hr => simp at hr
    | left hok => exact (talkIn_removeParticipant hok r).trans (callsAt_releaseOnLeave r)
    | notLeft => exact callsAt_releaseOnLeave r
  | roomCreate name capacity mode =>
    by_cases hr : r = draws.uuid
    · subst hr
      have hnone : talkIn s.rooms draws.uuid = none := by
        rw [talkIn, AList.lookup_eq_none.mpr hcreate]
        rfl
      have htalk := talkIn_create s.rooms draws.uuid name capacity (mode.getD .conference)
        draws.now draws.audioSsrc draws.videoSsrc draws.uuid
      rw [if_pos rfl] at htalk
      split_ifs at htalk
      · exact .inl ⟨hnone, _, htalk⟩
      · refine .inr (htalk.trans ?_)
        rw [hnone]
        rfl
    · refine .inr (hsame ((talkIn_create ..).trans (if_neg hr)))
  | roomJoin roomId =>
    refine .inr ?_
    generalize (handle draws session sid s pid (.roomJoin roomId)).1 = t,
      (handle draws session sid s pid (.roomJoin roomId)).2.1 = session' at hhandled
    cases hhandled with
    | same => exact hsame rfl
    | floorChanged hr => simp at hr
    | joined hok => exact (talkIn_addParticipant hok r).trans Option.map_id'.symm
  | heartbeat | identify | roomList | publishTracks | muteUpdate | message | telemetry =>
    refine .inr ?_
    generalize (handle draws session sid s pid _).1 = t,
      (handle draws session sid s pid _).2.1 = session' at hhandled ⊢
    cases hhandled with
    | floorChanged hr => simp at hr
    | _ => exact hsame rfl

theorem talkIn_cleanup (session : Session) (s : AppState) (r : String) :
    talkIn (cleanup session s).rooms r = (talkIn s.rooms r).map fun t =>
      ((closeCalls r session).map TalkOp.floor).foldl Talk.apply t := by
  have hclosed := @closed session s
  generalize cleanup session s = t at hclosed ⊢
  cases hclosed with
  | nowhere h =>
    have hcalls : closeCalls r session = [] := by
      unfold closeCalls
      split
      · rcases h with h | h <;> simp_all
      · rfl
    rw [hcalls]
    exact Option.map_id'.symm
  | left hcurrent huser hok =>
    simp only [closeCalls, hcurrent, huser]
    exact (talkIn_removeParticipant hok r).trans (callsAt_releaseOnLeave r)
  | notLeft hcurrent huser =>
    simp only [closeCalls, hcurrent, huser]
    exact callsAt_releaseOnLeave r

/-- A step makes its calls on the floor of a room, or the room is new. -/
theorem Server.step_talk {s s' : Server} {l : Label} (h : s.step l = some s') (r : String) :
    talkIn s.rooms r = none ∧ (∃ ssrc, talkIn s'.rooms r = some (.fresh ssrc)) ∨
      talkIn s'.rooms r = (talkIn s.rooms r).map fun t =>
        ((s.floorCalls r l).map TalkOp.floor).foldl Talk.apply t := by
  cases l with
  | packet sid packet draws =>
    simp only [step] at h
    split at h
    · cases h
    · rename_i session hsession
      split at h
      · cases h
      · rename_i hcreate
        cases h
        cases hreach : packet.reaches session with
        | none =>
          obtain ⟨reply, hdispatch⟩ := @dispatch_of_not_reaches draws session sid s.toAppState packet
            hreach
          simp only [floorCalls, hsession, hreach, hdispatch, Option.bind_some, Option.map_none]
          exact .inr Option.map_id'.symm
        | some q =>
          simp only [floorCalls, hsession, hreach, Option.bind_some, Option.map_some]
          rw [dispatch_of_reaches hreach]
          exact talkIn_handle r q hcreate
  | disconnect sid =>
    simp only [step] at h
    split at h
    · cases h
    · rename_i session hsession
      cases h
      refine .inr ?_
      simp only [floorCalls, hsession, Option.elim_some]
      exact talkIn_cleanup session s.toAppState r
  | floorTimer now =>
    cases h
    exact .inr (talkIn_floorTimer s.toAppState now r)
  | zombieReaper now =>
    cases h
    obtain ⟨queued, heq⟩ := zombieReaper_eq s.toAppState now
    refine .inr ?_
    dsimp only
    rw [heq]
    exact (talkIn_reapZombies ..).trans Option.map_id'.symm
  | latch ufrag addr =>
    simp only [step] at h
    refine .inr ?_
    split at h
    · cases h
      exact (talkIn_latchByUfrag ‹_› r).trans Option.map_id'.symm
    · cases h
      exact Option.map_id'.symm
  | touch p now =>
    cases h
    exact .inr Option.map_id'.symm

end

end LightLivechat.Signaling
