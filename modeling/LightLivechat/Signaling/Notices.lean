import LightLivechat.Signaling.Deliveries

/-! What every handler and every task leaves to be delivered, and whether who knew the speaker
of a room knows it after. -/

namespace LightLivechat.Signaling

open LightLivechat.Config LightLivechat.Lib.Bytes LightLivechat.Lib.Std LightLivechat.Lib.Runs
open LightLivechat.Room (Heap Ref Participant Room RoomHub Track TrackKind FloorAction
  FloorController)

/-- Whoever of the room knew its speaker knows it again after the delivery. -/
structure Keeps (r : String) (s t : AppState) : Prop where
  sent : ∃ queued, t.sent = s.sent ++ queued
  wsTx : ∀ {q}, s.rooms.Member r q → t.wsTx q = s.wsTx q
  belief : ∀ {q}, s.rooms.Member r q → t.rooms.Member r q → ∀ log,
    belief r log = s.scene.speaker r →
      belief r (log ++ (s.queuedTo t (t.wsTx q)).map .event) = t.scene.speaker r

/-- No floor changes, and nothing is said of one. -/
structure Silent (s t : AppState) : Prop where
  sent : ∃ queued, t.sent = s.sent ++ queued ∧ ∀ e ∈ queued, (Message.event e.2).speaker = none
  wsTx : ∀ {q}, q < s.next → t.wsTx q = s.wsTx q
  speaker : t.scene.speaker = s.scene.speaker

section

variable {draws : Draws} {session : Session} {sid : SessionId} {s t s' : AppState} {pid : Nat}
variable {roomId userId r : String} {room : Room} {p q : Ref} {queued : List (Ref × Event)}

theorem Silent.keeps (h : Silent s t) (hs : s.Sound) : Keeps r s t := by
  obtain ⟨queued, hsent, hqueued⟩ := h.sent
  refine ⟨⟨queued, hsent⟩, fun hq => h.wsTx (hs.allocated hq), fun _ _ log hlog => ?_⟩
  rw [belief_append_silent, hlog, h.speaker]
  rw [lastSaid_eq_none_iff]
  intro m hm
  obtain ⟨e, he, -, rfl⟩ := (mem_queuedTo hsent).mp hm
  exact floor_eq_none (hqueued e he)

theorem Keeps.trans (h : Keeps r s t) (h' : Keeps r t s')
    (hmember : ∀ {q}, s'.rooms.Member r q → t.rooms.Member r q) (hwsTx : s'.wsTx = t.wsTx) :
    Keeps r s s' := by
  obtain ⟨queued, hsent⟩ := h.sent
  obtain ⟨queued', hsent'⟩ := h'.sent
  refine ⟨⟨queued ++ queued', by rw [hsent', hsent, List.append_assoc]⟩, fun hq => ?_,
    fun {q} hq hq' log hlog => ?_⟩
  · rw [hwsTx, h.wsTx hq]
  · rw [queuedTo_append hsent hsent' hwsTx, List.map_append, ← List.append_assoc]
    refine h'.belief (hmember hq') hq' _ ?_
    rw [hwsTx]
    exact h.belief hq (hmember hq') log hlog

theorem Silent.of_same (hsent : t.sent = s.sent) (hwsTx : t.wsTx = s.wsTx)
    (hspeaker : t.scene.speaker = s.scene.speaker) : Silent s t where
  sent := ⟨[], by rw [hsent, List.append_nil], fun _ he => absurd he List.not_mem_nil⟩
  wsTx := fun _ => congrFun hwsTx _
  speaker := hspeaker

theorem Silent.refl (s : AppState) : Silent s s := .of_same rfl rfl rfl

theorem Silent.of_broadcast {event : Event} (hrooms : t.rooms = s.rooms) (hwsTx : t.wsTx = s.wsTx)
    (hsent : t.sent = (s.broadcastToOthers room userId event).sent)
    (hevent : (Message.event event).speaker = none) : Silent s t where
  sent := ⟨_, hsent, fun e he => by
    obtain ⟨x, -, rfl⟩ := List.mem_map.mp he
    exact hevent⟩
  wsTx := fun _ => congrFun hwsTx _
  speaker := by
    unfold AppState.scene
    rw [hrooms]

theorem farewell_speaker {tracks : List Track} {refs : List Ref} {e : Ref × Event}
    (he : e ∈ queueAll refs (farewell userId roomId tracks)) :
    (Message.event e.2).speaker = none := by
  obtain ⟨-, he⟩ := mem_queueAll.mp he
  obtain ⟨-, he⟩ | he := mem_farewell.mp he
  · rw [he]
    rfl
  · rw [he]
    rfl

theorem Freed.keeps (h : Freed s t roomId) (hs : s.Sound) : Keeps r s t := by
  obtain @⟨room, revokes, prev, cause, hroom, hscene, hwsTx, hsent, hrevokes⟩ := h
  have hid : room.id = roomId := (hs.room hroom).1
  have hfloor : ∀ e ∈ revokes ++ room.participants.entries.map fun e =>
      (e.2, .floorIdle room.id prev cause),
      Message.floor r (.event e.2) = if roomId = r then some none else none := by
    intro e he
    rw [← hid]
    obtain he | he := List.mem_append.mp he
    · obtain ⟨-, cause', hcause⟩ := hrevokes e he
      rw [hcause]
      rfl
    · obtain ⟨x, -, rfl⟩ := List.mem_map.mp he
      rfl
  refine ⟨⟨_, hsent⟩, fun _ => by rw [hwsTx], fun {q} hq _ log hlog => ?_⟩
  rw [hscene]
  dsimp only
  by_cases hr : r = roomId
  · subst hr
    obtain ⟨room', u, hroom', hu⟩ := hq
    cases hroom.symm.trans hroom'
    rw [Function.update_self]
    refine belief_append_said (lastSaid_of_mem (m := .event (.floorIdle room.id prev cause))
      (fun m hm x hx => ?_) ((mem_queuedTo hsent).mpr ⟨_, List.mem_append_right _
        (List.mem_map.mpr ⟨⟨u, q⟩, AList.mem_lookup_iff.mp hu, rfl⟩), rfl, rfl⟩) (if_pos hid))
    obtain ⟨e, he, -, rfl⟩ := (mem_queuedTo hsent).mp hm
    rw [hfloor e he, if_pos rfl] at hx
    exact (Option.some.inj hx).symm
  · rw [Function.update_of_ne hr, belief_append_silent, hlog]
    rw [lastSaid_eq_none_iff]
    intro m hm
    obtain ⟨e, he, -, rfl⟩ := (mem_queuedTo hsent).mp hm
    rw [hfloor e he, if_neg (Ne.symm hr)]

theorem release_keeps (hs : s.Sound) (roomId userId : String) :
    Keeps r s (releaseOnLeave s roomId userId) := by
  obtain h | h := release_cases s roomId userId
  · rw [h]
    exact (Silent.refl s).keeps hs
  · exact h.keeps hs

theorem floorTimer_keeps (hs : s.Sound) (now : Nat) : Keeps r s (floorTimer s now) := by
  unfold floorTimer
  generalize s.rooms.rooms.entries.map (fun e => e.1) = ids
  suffices h : ((ids.foldl (checkFloor now) s).wsTx = s.wsTx ∧
      ∀ {q}, (ids.foldl (checkFloor now) s).rooms.Member r q ↔ s.rooms.Member r q) ∧
      Keeps r s (ids.foldl (checkFloor now) s) from h.2
  induction ids generalizing s with
  | nil => exact ⟨⟨rfl, Iff.rfl⟩, (Silent.refl s).keeps hs⟩
  | cons roomId ids ih =>
    rw [List.foldl_cons]
    obtain ⟨rooms, queued, heq, hfreed⟩ := checkFloor_eq now s roomId
    have hone : (checkFloor now s roomId).wsTx = s.wsTx ∧
        ∀ {q}, (checkFloor now s roomId).rooms.Member r q ↔ s.rooms.Member r q := by
      rw [heq]
      exact ⟨rfl, (hfreed.mono fun h => h.toFloorOnly).member⟩
    have hsound : (checkFloor now s roomId).Sound := by
      rw [AppState.Sound, heq]
      exact (hfreed.mono fun h => h.toFloorOnly).sound hs
    have hkeeps : Keeps r s (checkFloor now s roomId) := by
      obtain h | h := checkFloor_cases s now roomId
      · rw [h]
        exact (Silent.refl s).keeps hs
      · exact h.keeps hs
    obtain ⟨⟨hwsTx, hmember⟩, hrest⟩ := ih hsound
    exact ⟨⟨hwsTx.trans hone.1, hmember.trans hone.2⟩, hkeeps.trans hrest hmember.mp hwsTx⟩

theorem Silent.departed {gone : List (String × Ref)}
    (hr : RoomHub.Reaped s.heap s.rooms (t.rooms, gone)) (hwsTx : t.wsTx = s.wsTx)
    (hsent : t.sent = s.sent ++ queued)
    (hqueued : ∀ e ∈ queued, (Message.event e.2).speaker = none) : Silent s t where
  sent := ⟨queued, hsent, hqueued⟩
  wsTx := fun _ => congrFun hwsTx _
  speaker := speaker_departed hr

theorem leave_keeps {rooms : RoomHub} {refs : List Ref} (hs : s.Sound)
    (hok : (releaseOnLeave s roomId userId).rooms.removeParticipant s.heap roomId userId =
      .ok (rooms, p)) (hrooms : t.rooms = rooms) (hwsTx : t.wsTx = s.wsTx)
    (hsent : t.sent = (releaseOnLeave s roomId userId).sent ++
      queueAll refs (farewell userId roomId (s.heap p).tracks)) : Keeps r s t := by
  obtain ⟨queued, heq, -⟩ := releaseOnLeave_eq s roomId userId
  have hwsTx₁ : (releaseOnLeave s roomId userId).wsTx = s.wsTx := by rw [heq]
  have hheap₁ : (releaseOnLeave s roomId userId).heap = s.heap := by rw [heq]
  have hsound : (releaseOnLeave s roomId userId).Sound := by
    rw [AppState.Sound, heq]
    exact sound_released hs roomId userId
  have hr := reaped_one (sound_released hs roomId userId).keyed hok
  rw [← hrooms] at hr
  refine (release_keeps hs roomId userId).trans ((Silent.departed (by rwa [hheap₁])
    (hwsTx.trans hwsTx₁.symm) hsent fun e he => farewell_speaker he).keeps hsound)
    (fun hq => (hr.without.member.mp hq).1) (hwsTx.trans hwsTx₁.symm)

theorem roomLeave_keeps (hs : s.Sound) :
    Keeps r s (handleRoomLeave session s pid userId roomId).1 := by
  cases hrem : (releaseOnLeave s roomId userId).rooms.removeParticipant s.heap roomId userId with
  | error e =>
    rw [(handleRoomLeave_eq_error hrem).1]
    exact release_keeps hs roomId userId
  | ok t =>
    obtain ⟨rooms, p⟩ := t
    obtain ⟨room, room', -, -, hroom'⟩ := removeParticipant_lookup hrem
    rw [(handleRoomLeave_eq_ok hrem hroom').1]
    exact leave_keeps hs hrem rfl rfl rfl

theorem cleanup_keeps (hs : s.Sound) : Keeps r s (cleanup session s) := by
  rcases cleanup_eq_self_or session s with heq | ⟨roomId, userId, hcurrent, huser⟩
  · rw [heq]
    exact (Silent.refl s).keeps hs
  cases hrem : (releaseOnLeave s roomId userId).rooms.removeParticipant s.heap roomId userId with
  | error e =>
    obtain ⟨refs, heq⟩ := cleanup_eq_error hcurrent huser hrem
    obtain ⟨queued, hreleased, -⟩ := releaseOnLeave_eq s roomId userId
    have hsound : (releaseOnLeave s roomId userId).Sound := by
      rw [AppState.Sound, hreleased]
      exact sound_released hs roomId userId
    rw [heq]
    refine (release_keeps hs roomId userId).trans (Silent.keeps ⟨⟨_, rfl, fun e he => ?_⟩,
      fun _ => rfl, rfl⟩ hsound) (fun hq => hq) rfl
    rw [List.mem_singleton.mp (mem_queueAll.mp he).2]
    rfl
  | ok t =>
    obtain ⟨rooms, p⟩ := t
    obtain ⟨room, room', hroom, hroomrem, -⟩ := removeParticipant_lookup hrem
    rw [cleanup_eq_ok hcurrent huser hroom hrem (Room.Room.removeParticipant_eq_ok hroomrem)]
    exact leave_keeps hs hrem rfl rfl rfl

theorem zombieReaper_silent (hs : s.Sound) (now : Nat) : Silent s (zombieReaper s now) := by
  obtain ⟨hr, -⟩ := RoomHub.reaped_reapZombies hs.keyed now zombieTimeoutMs
  rw [zombieReaper_notifies]
  refine .departed hr rfl rfl fun e he => ?_
  obtain ⟨x, -, he⟩ := List.mem_flatMap.mp he
  exact farewell_speaker he

theorem speaker_added {heap : Heap} {rooms : RoomHub}
    (hok : s.rooms.addParticipant heap roomId p = .ok rooms) (hrooms : t.rooms = rooms) :
    t.scene.speaker = s.scene.speaker := by
  obtain ⟨room, room', hroom, hadd, hhub⟩ := Room.RoomHub.addParticipant_eq_ok hok
  obtain ⟨-, hroom'⟩ := Room.Room.addParticipant_eq_ok hadd
  funext r
  unfold AppState.scene
  rw [hrooms, hhub]
  dsimp only
  rw [DashMap.lookup_insert']
  split
  · subst r
    rw [hroom, hroom']
    rfl
  · rfl

theorem roomJoin_silent : Silent s (handleRoomJoin draws session sid s pid userId roomId).1 := by
  unfold handleRoomJoin
  cases hget : s.rooms.get roomId with
  | error e => exact .refl s
  | ok room =>
    dsimp only
    split
    · exact .refl s
    · rename_i rooms hok
      refine ⟨⟨_, rfl, fun e he => ?_⟩, fun hq => Function.update_of_ne (Nat.ne_of_lt hq) _ _,
        speaker_added hok rfl⟩
      obtain ⟨x, -, rfl⟩ := List.mem_map.mp he
      rfl

theorem publishTracks_silent {tracks : List PublishTrackItem} :
    Silent s (handlePublishTracks session s pid tracks).1 := by
  unfold handlePublishTracks
  cases hc : currentParticipant session s with
  | error e => exact .refl s
  | ok x =>
    obtain ⟨room, userId, p⟩ := x
    dsimp only
    split
    · exact .of_same rfl rfl rfl
    · exact .of_broadcast rfl rfl rfl rfl

theorem muteUpdate_silent {ssrc : U32} {muted : Bool} :
    Silent s (handleMuteUpdate session s pid ssrc muted).1 := by
  unfold handleMuteUpdate
  cases hc : currentParticipant session s with
  | error e => exact .refl s
  | ok x =>
    obtain ⟨room, userId, p⟩ := x
    dsimp only
    split
    · exact .refl s
    · exact .of_broadcast rfl rfl rfl rfl

theorem message_silent (draws : Draws) (pid : Nat) {content : String} :
    Silent s (handleMessage draws s pid userId roomId content).1 := by
  unfold handleMessage
  cases hget : s.rooms.get roomId with
  | error e => exact .refl s
  | ok room => exact .of_broadcast rfl rfl rfl rfl

theorem Handled.silent {request : Request} {session' : Session}
    (h : Handled draws sid s session userId request t session') (hid : draws.uuid ∉ s.rooms.rooms)
    (hr : request = .heartbeat ∨ ∃ name capacity mode, request = .roomCreate name capacity mode) :
    Silent s t := by
  cases h with
  | same | identified | touched => exact .of_same rfl rfl rfl
  | created => exact .of_same rfl rfl (congrArg Scene.speaker (scene_create hid))
  | floorChanged hfloor =>
    simp only [List.mem_cons, List.not_mem_nil, or_false] at hfloor
    obtain rfl | rfl | rfl := hfloor <;> simp at hr
  | joined | published | notPublished | muted | notMuted | messaged | left | notLeft =>
    simp at hr

theorem handle_keeps {request : Request} (hs : s.Sound) (hid : draws.uuid ∉ s.rooms.rooms)
    (hask : ∀ roomId, request ≠ .floorRequest roomId) :
    Keeps r s (handle draws session sid s pid request).1 := by
  have hhandled : Handled draws sid s session (session.userId.getD "") request
      (handle draws session sid s pid request).1
      (handle draws session sid s pid request).2.1 := handled request
  cases request with
  | floorRequest roomId => exact absurd rfl (hask roomId)
  | roomLeave roomId => exact roomLeave_keeps hs
  | floorRelease roomId =>
    obtain ⟨hscene, hwsTx, hsent⟩ | h :=
      floorRelease_cases s pid (session.userId.getD "") roomId
    · exact (Silent.of_same hsent hwsTx (congrArg Scene.speaker hscene)).keeps hs
    · exact h.keeps hs
  | floorPing roomId =>
    obtain ⟨hscene, hwsTx, hsent⟩ := floorPing_same draws s pid (session.userId.getD "") roomId
    exact (Silent.of_same hsent hwsTx (congrArg Scene.speaker hscene)).keeps hs
  | roomJoin roomId => exact roomJoin_silent.keeps hs
  | publishTracks tracks => exact publishTracks_silent.keeps hs
  | muteUpdate ssrc muted => exact muteUpdate_silent.keeps hs
  | message roomId content => exact (message_silent draws pid).keeps hs
  | heartbeat => exact (hhandled.silent hid (.inl rfl)).keeps hs
  | roomCreate name capacity mode => exact (hhandled.silent hid (.inr ⟨_, _, _, rfl⟩)).keeps hs
  | identify | roomList | telemetry => exact (Silent.refl s).keeps hs

end

namespace Server

variable {s s' : Server} {l : Label} {sid : SessionId} {session : Session} {r : String}

theorem step_keeps (hs : s.Sound) (h : s.step l = some s')
    (hask : ∀ sid session roomId, ¬ s.Handles l sid session (.floorRequest roomId)) :
    Keeps r s.toAppState s'.toAppState := by
  cases l with
  | packet sid packet draws =>
    obtain ⟨session, hsession, hid, hstate⟩ := step_dispatch h
    rw [hstate]
    cases hreach : packet.reaches session with
    | none =>
      obtain ⟨reply, hdispatch⟩ : ∃ reply, dispatch draws session sid s.toAppState packet =
          (s.toAppState, session, reply) := dispatch_of_not_reaches hreach
      rw [hdispatch]
      exact (Silent.refl _).keeps hs
    | some request =>
      rw [dispatch_of_reaches hreach]
      refine handle_keeps hs hid fun roomId hr => hask sid session roomId ⟨rfl, hsession, ?_⟩
      rw [hreach, hr]
  | disconnect sid =>
    obtain ⟨session, hsession, rfl⟩ := step_disconnect h
    exact cleanup_keeps hs
  | floorTimer now =>
    cases h
    exact floorTimer_keeps hs now
  | zombieReaper now =>
    cases h
    exact (zombieReaper_silent hs now).keeps hs
  | latch ufrag addr =>
    obtain rfl | ⟨heap, rooms, p, pc, hlatch, rfl⟩ := step_latch h
    · exact (Silent.refl _).keeps hs
    · refine Silent.keeps (.of_same rfl rfl ?_) hs
      exact congrArg Scene.speaker (scene_latch (s := s.toAppState) hlatch)
  | touch p now =>
    cases h
    exact Silent.keeps (.of_same rfl rfl rfl) hs

end Server

end LightLivechat.Signaling
