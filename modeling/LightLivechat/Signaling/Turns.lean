import LightLivechat.Signaling.Stories

/-! What every step of the server makes of the scene: a story, or one of three things of
which the members may get the wrong idea. -/

namespace LightLivechat.Signaling

open LightLivechat.Config LightLivechat.Lib.Bytes LightLivechat.Lib.Std LightLivechat.Lib.Runs
open LightLivechat.Room (Heap Ref Participant PcType Room RoomHub Track TrackKind FloorAction
  FloorController)

section

variable {draws : Draws} {session : Session} {sid : SessionId} {s t : AppState} {pid : Nat}
variable {roomId userId r u : String} {room room' : Room} {p q : Ref} {m : Message}
variable {event : Event} {tracks : List PublishTrackItem} {info : JoinInfo}

def AppState.outcome (s : AppState) (sid : SessionId) (request : Request) (t : AppState)
    (reply : Option Reply) (q : Ref) : List Message :=
  s.answered sid request reply q ++ s.news t q

theorem outcome_of_nil {request : Request} {reply : Option Reply}
    (h : ∀ p, s.answered sid request reply p = []) : s.outcome sid request t reply = s.news t := by
  funext q
  unfold AppState.outcome
  rw [h, List.nil_append]

theorem answered_err (request : Request) (op : U16) (code : Nat) (msg : String) (p : Ref) :
    s.answered sid request (some (.err op pid code msg)) p = [] := by
  cases request <;> rfl

theorem outcome_refused (request : Request) (op : U16) (code : Nat) (msg : String) :
    s.outcome sid request t (some (.err op pid code msg)) = s.news t :=
  outcome_of_nil (answered_err request op code msg)

def FloorIdle (s : AppState) (roomId : String) : Prop :=
  ∃ room, s.rooms.rooms.lookup roomId = some room ∧ room.mode = .ptt ∧
    room.floor.currentSpeaker = none

/-- Somebody gets the floor; who asks from another connection than the participant's is told in
its place. -/
structure Takes (s t : AppState) (news : Ref → List Message) (sid : SessionId)
    (roomId userId : String) : Prop where
  idle : FloorIdle s roomId
  said : s.scene.Said news roomId (some userId)
  scene : t.scene = { s.scene with
    speaker := Function.update s.scene.speaker roomId (some userId) }
  heard : ∀ {u q}, s.At roomId u q → u ≠ userId ∨ s.wsTx q = sid → news q ≠ []

theorem scene_setRoom_self (hroom : s.rooms.rooms.lookup roomId = some room)
    (hparts : room'.participants = room.participants)
    (hspeaker : room'.floor.currentSpeaker = room.floor.currentSpeaker) :
    (s.setRoom roomId room').scene = s.scene := by
  rw [scene_setRoom hroom hparts, hspeaker, ← speaker_eq hroom, Function.update_eq_self]

theorem granted_said {op : U16} (hs : s.Sound) (hroom : s.rooms.rooms.lookup roomId = some room)
    (hsent : t.sent = (s.broadcastToOthers room userId (.floorTaken room.id userId)).sent) :
    s.scene.Said (s.outcome sid (.floorRequest roomId) t (some (.ok op pid (.granted userId)))) roomId
        (some userId) ∧
      ∀ {u q}, s.At roomId u q → u ≠ userId ∨ s.wsTx q = sid →
        s.outcome sid (.floorRequest roomId) t (some (.ok op pid (.granted userId))) q ≠ [] := by
  have hanswered : ∀ q, s.answered sid (.floorRequest roomId)
      (some (.ok op pid (.granted userId))) q =
        if q ∈ s.members roomId ∧ s.wsTx q = sid then [.granted roomId userId] else [] :=
    fun _ => rfl
  constructor
  · refine said_of_sent hs hsent (.broadcastToOthers hroom) (fun e he => ?_) fun q m hm => ?_
    · obtain ⟨x, -, rfl⟩ := List.mem_map.mp he
      rfl
    · rw [hanswered] at hm
      split at hm
      · rename_i hq
        cases List.mem_singleton.mp hm
        exact ⟨mem_members_iff.mp hq.1, rfl⟩
      · cases hm
  · intro u q hq hheard hnil
    obtain ⟨hnone, hsilent⟩ := List.append_eq_nil_iff.mp hnil
    obtain hne | hconn := hheard
    · obtain ⟨room', hroom', hu⟩ := hq
      cases hroom.symm.trans hroom'
      have hmem : .event (.floorTaken room.id userId) ∈ s.news t q :=
        (mem_news hsent).mpr ⟨_, List.mem_map.mpr ⟨⟨u, q⟩, List.mem_filter.mpr
          ⟨AList.mem_lookup_iff.mp hu, decide_eq_true hne⟩, rfl⟩, rfl⟩
      rw [hsilent] at hmem
      cases hmem
    · rw [hanswered, if_pos ⟨mem_members_iff.mpr hq.member, hconn⟩] at hnone
      cases hnone

theorem speaker_of_granted {c c' : FloorController} {now : Nat}
    (h : c.request userId now = (c', .granted userId)) :
    c.currentSpeaker = none ∨ c.currentSpeaker = some userId := by
  obtain ⟨state⟩ := c
  cases state with
  | idle => exact .inl rfl
  | taken speaker burst ping =>
    by_cases hu : speaker = userId
    · exact .inr (congrArg some hu)
    · simp [FloorController.request, hu] at h

theorem not_denied_of_idle {c c' : FloorController} {now : Nat} {reason cur : String}
    (hidle : c.currentSpeaker = none) : c.request userId now ≠ (c', .denied reason cur) := by
  obtain ⟨state⟩ := c
  cases state with
  | idle => exact fun h => by cases h
  | taken speaker burst ping => cases hidle

theorem floorRequest_cases {t : AppState} {reply : Reply}
    (heq : handleFloorRequest draws s pid userId roomId = (t, reply)) :
    (¬ FloorIdle s roomId ∧ t.scene = s.scene ∧ t.wsTx = s.wsTx ∧ t.sent = s.sent ∧
      ∃ code msg, reply = .err Opcode.floorRequest pid code msg) ∨
    ∃ room, s.rooms.rooms.lookup roomId = some room ∧ room.mode = .ptt ∧
      (room.floor.currentSpeaker = none ∨ room.floor.currentSpeaker = some userId) ∧
      t.scene = { s.scene with
        speaker := Function.update s.scene.speaker roomId (some userId) } ∧
      t.wsTx = s.wsTx ∧
      t.sent = (s.broadcastToOthers room userId (.floorTaken room.id userId)).sent ∧
      reply = .ok Opcode.floorRequest pid (.granted userId) := by
  unfold handleFloorRequest at heq
  cases hget : s.rooms.get roomId with
  | error e =>
    rw [hget] at heq
    cases heq
    refine .inl ⟨?_, rfl, rfl, rfl, _, _, rfl⟩
    rintro ⟨room, hroom, -, -⟩
    cases (get_eq_ok_iff.mpr hroom).symm.trans hget
  | ok room =>
    have hroom := get_eq_ok_iff.mp hget
    rw [hget] at heq
    dsimp only at heq
    split at heq
    · rename_i hmode
      cases heq
      refine .inl ⟨?_, rfl, rfl, rfl, _, _, rfl⟩
      rintro ⟨room', hroom', hmode', -⟩
      cases hroom.symm.trans hroom'
      exact hmode hmode'
    · rename_i hmode
      obtain ⟨floor, hrequest, hspeaker⟩ | ⟨reason, cur, hrequest⟩ :=
        FloorController.request_cases room.floor userId draws.now
      · simp only [hrequest, applyFloorAction, Prod.mk.injEq] at heq
        obtain ⟨rfl, rfl⟩ := heq
        refine .inr ⟨room, hroom, not_not.mp hmode, speaker_of_granted hrequest, ?_, rfl, rfl, rfl⟩
        rw [← hspeaker]
        exact scene_setRoom hroom rfl
      · simp only [hrequest, applyFloorAction, Prod.mk.injEq] at heq
        obtain ⟨rfl, rfl⟩ := heq
        refine .inl ⟨?_, scene_setRoom_self hroom rfl rfl, rfl, rfl, _, _, rfl⟩
        rintro ⟨room', hroom', -, hidle⟩
        cases hroom.symm.trans hroom'
        exact not_denied_of_idle hidle hrequest

theorem floorRequest_turn (draws : Draws) (sid : SessionId) (pid : Nat) (userId roomId : String)
    (hs : s.Sound) {t : AppState} {reply : Reply}
    (heq : handleFloorRequest draws s pid userId roomId = (t, reply)) :
    s.scene.Story (s.outcome sid (.floorRequest roomId) t (some reply)) t.scene ∨
      Takes s t (s.outcome sid (.floorRequest roomId) t (some reply)) sid roomId userId := by
  obtain ⟨-, hscene, -, hsent, code, msg, rfl⟩ |
    ⟨room, hroom, hmode, hspeaker, hscene, -, hsent, rfl⟩ := floorRequest_cases heq
  · rw [outcome_refused]
    exact .inl (story_of_same hscene hsent)
  · obtain ⟨hsaid, hheard⟩ := granted_said hs hroom hsent
    obtain hnone | hself := hspeaker
    · exact .inr ⟨⟨room, hroom, hmode, hnone⟩, hsaid, hscene, hheard⟩
    · rw [hscene]
      exact .inl (.of (.said hsaid fun _ => .inr ((speaker_eq hroom).trans hself)))

theorem floorRelease_cases (s : AppState) (pid : Nat) (userId roomId : String) :
    ((handleFloorRelease s pid userId roomId).1.scene = s.scene ∧
      (handleFloorRelease s pid userId roomId).1.wsTx = s.wsTx ∧
      (handleFloorRelease s pid userId roomId).1.sent = s.sent) ∨
    Freed s (handleFloorRelease s pid userId roomId).1 roomId := by
  unfold handleFloorRelease
  cases hget : s.rooms.get roomId with
  | error e => exact .inl ⟨rfl, rfl, rfl⟩
  | ok room =>
    have hroom := get_eq_ok_iff.mp hget
    dsimp only
    split
    · exact .inl ⟨rfl, rfl, rfl⟩
    · obtain ⟨floor, hrelease, hspeaker⟩ | hrelease :=
        FloorController.release_cases room.floor userId
      · simp only [hrelease, applyFloorAction]
        have hscene : (s.setRoom roomId (clearSpeakers { room with floor := floor })).scene =
            { s.scene with speaker := Function.update s.scene.speaker roomId none } := by
          rw [← hspeaker]
          exact scene_setRoom hroom rfl
        exact .inr (@Freed.mk _ _ _ room [] userId none hroom hscene rfl rfl
          fun e he => absurd he List.not_mem_nil)
      · simp only [hrelease, applyFloorAction]
        exact .inl ⟨scene_setRoom_self hroom rfl rfl, rfl, rfl⟩

theorem floorRelease_story (hs : s.Sound) :
    s.scene.Story (s.news (handleFloorRelease s pid userId roomId).1)
      (handleFloorRelease s pid userId roomId).1.scene := by
  obtain ⟨hscene, -, hsent⟩ | h := floorRelease_cases s pid userId roomId
  · exact story_of_same hscene hsent
  · exact story_freed hs h

theorem floorPing_same (draws : Draws) (s : AppState) (pid : Nat) (userId roomId : String) :
    (handleFloorPing draws s pid userId roomId).1.scene = s.scene ∧
      (handleFloorPing draws s pid userId roomId).1.wsTx = s.wsTx ∧
      (handleFloorPing draws s pid userId roomId).1.sent = s.sent := by
  unfold handleFloorPing
  cases hget : s.rooms.get roomId with
  | error e => exact ⟨rfl, rfl, rfl⟩
  | ok room =>
    have hscene : (s.setRoom roomId
        { room with floor := (room.floor.ping userId draws.now).1 }).scene = s.scene :=
      scene_setRoom_self (get_eq_ok_iff.mp hget) rfl (by simp)
    simp only
    split
    · exact ⟨hscene, rfl, rfl⟩
    · exact ⟨hscene, rfl, rfl⟩

theorem message_story (draws : Draws) (pid : Nat) {content : String} :
    s.scene.Story (s.news (handleMessage draws s pid userId roomId content).1)
      (handleMessage draws s pid userId roomId content).1.scene := by
  unfold handleMessage
  cases hget : s.rooms.get roomId with
  | error e => exact story_of_same rfl rfl
  | ok room =>
    refine story_of_idle rfl fun q m hm => ?_
    obtain ⟨e, he, rfl⟩ := (mem_news rfl).mp hm
    obtain ⟨x, -, hx⟩ := List.mem_map.mp he
    cases hx
    trivial

theorem muteUpdate_story {ssrc : U32} {muted : Bool} (hs : s.Sound) :
    s.scene.Story (s.news (handleMuteUpdate session s pid ssrc muted).1)
      (handleMuteUpdate session s pid ssrc muted).1.scene := by
  unfold handleMuteUpdate
  cases hc : currentParticipant session s with
  | error e => exact story_of_same rfl rfl
  | ok x =>
    obtain ⟨room, userId, p⟩ := x
    obtain ⟨-, roomId, -, hroom, hp⟩ := currentParticipant_eq_ok hc
    dsimp only
    cases hset : (s.heap p).setTrackMuted ssrc muted with
    | none => exact story_of_same rfl rfl
    | some y =>
      obtain ⟨x, kind⟩ := y
      obtain ⟨⟨tracks, kind'⟩, hmute, hx⟩ := Option.map_eq_some_iff.mp hset
      cases hx
      dsimp only
      have hat : s.scene.occupant roomId userId = some p := occupant_iff.mpr ⟨room, hroom, hp⟩
      have hscene : (({ s with
          heap := s.heap.update p fun _ => { s.heap p with tracks := tracks } } : AppState
          ).broadcastToOthers room userId (.trackState userId ssrc kind muted)).scene =
          { s.scene with tracks := Function.update s.scene.tracks p tracks } :=
        scene_update (s := s) (f := fun _ => { s.heap p with tracks := tracks }) rfl rfl
      rw [hscene]
      exact .of (.muted hat hmute (broadcast_of_sent hs hroom rfl))

theorem publishTracks_published (pid : Nat) (tracks : List PublishTrackItem) (hs : s.Sound)
    (hd : ((s.heap p).tracks.map fun t => t.ssrc).Nodup)
    (hc : currentParticipant session s = .ok (room, userId, p)) : ∃ roomId x' added new,
      session.currentRoom = some roomId ∧
      Publishing userId (s.heap p) (s.heap p).tracks.length tracks x' added new ∧
      s.scene.Published (s.news (handlePublishTracks session s pid tracks).1)
        (handlePublishTracks session s pid tracks).1.scene roomId userId p added new := by
  obtain ⟨-, roomId, hcurrent, hroom, hp⟩ := currentParticipant_eq_ok hc
  obtain ⟨x', n', added, new, hfold, hpub⟩ :=
    publishing userId tracks (s.heap p) (s.heap p).tracks.length []
  refine ⟨roomId, x', added, new, hcurrent, hpub, ?_⟩
  unfold handlePublishTracks
  simp only [hc, hfold, List.nil_append]
  have hupdate : ({ s with heap := s.heap.update p fun _ => x' } : AppState).scene =
      { s.scene with tracks := Function.update s.scene.tracks p x'.tracks } :=
    scene_update (s := s) (f := fun _ => x') rfl rfl
  rw [hpub.tracks] at hupdate
  refine ⟨occupant_iff.mpr ⟨room, hroom, hp⟩, ?_, hpub.announced, hpub.owned, hpub.unmuted,
    hpub.tracks ▸ hpub.distinct hd, fun {r u q} hq => ?_⟩
  · split
    · exact hupdate
    · exact hupdate
  · by_cases hnil : added = []
    · rw [if_pos hnil, if_pos hnil, ite_self]
      exact news_of_sent rfl q
    · rw [if_neg hnil, if_neg hnil]
      exact broadcast_of_sent hs hroom rfl hq

theorem mem_existingTracks {heap : Heap} {i : TrackInfo} (hk : room.Keyed heap) :
    i ∈ existingTracks heap room userId ↔ ∃ u p, u ≠ userId ∧
      room.participants.lookup u = some p ∧ i ∈ (heap p).tracks.map (trackInfo u) := by
  unfold existingTracks
  constructor
  · intro h
    obtain ⟨⟨u, p⟩, he, hi⟩ := List.mem_flatMap.mp h
    obtain ⟨he, hne⟩ := List.mem_filter.mp he
    have hp : room.participants.lookup u = some p := AList.mem_lookup_iff.mpr he
    rw [hk.userId hp] at hi
    exact ⟨u, p, of_decide_eq_true hne, hp, hi⟩
  · rintro ⟨u, p, hne, hp, hi⟩
    refine List.mem_flatMap.mpr ⟨⟨u, p⟩, List.mem_filter.mpr ⟨AList.mem_lookup_iff.mp hp, ?_⟩, ?_⟩
    · exact decide_eq_true hne
    · rw [hk.userId hp]
      exact hi

section

variable {x : Participant}

theorem scene_added (hroom : s.rooms.rooms.lookup roomId = some room)
    (hparts : room'.participants = room.participants.insert userId s.next)
    (hfloor : room'.floor = room.floor) (hrooms : t.rooms.rooms = s.rooms.rooms.insert roomId room')
    (hheap : t.heap = s.heap.alloc s.next x) (hnone : x.tracks = []) :
    t.scene = { s.scene with
      occupant := fun r u => if r = roomId ∧ u = userId then some s.next else s.scene.occupant r u
      tracks := Function.update s.scene.tracks s.next [] } := by
  unfold AppState.scene
  rw [hrooms, hheap]
  dsimp only
  congr 1
  · funext r u
    rw [DashMap.lookup_insert']
    by_cases hr : r = roomId
    · subst hr
      rw [if_pos rfl, Option.bind_some, hroom, Option.bind_some, hparts, DashMap.lookup_insert']
      simp only [true_and]
    · rw [if_neg hr, if_neg fun h => hr h.1]
  · funext q
    unfold Room.Heap.alloc
    rw [Function.update_apply, Function.update_apply]
    split
    · exact hnone
    · rfl
  · funext r
    rw [DashMap.lookup_insert']
    by_cases hr : r = roomId
    · subst hr
      rw [if_pos rfl, Option.bind_some, hroom, Option.bind_some, hfloor]
    · rw [if_neg hr]

theorem mem_existingTracks_added {i : TrackInfo} (hs : s.Sound)
    (hroom : s.rooms.rooms.lookup roomId = some room)
    (hparts : room'.participants = room.participants.insert userId s.next)
    (hkeyed : room'.Keyed (s.heap.alloc s.next x)) :
    i ∈ existingTracks (s.heap.alloc s.next x) room' userId ↔ s.scene.Others roomId userId i := by
  rw [mem_existingTracks hkeyed]
  unfold Scene.Others
  refine exists_congr fun u => exists_congr fun p => and_congr_right fun hne => ?_
  have hsame : room'.participants.lookup u = some p ↔ s.scene.occupant roomId u = some p := by
    rw [hparts, DashMap.lookup_insert', if_neg hne]
    unfold AppState.scene
    dsimp only
    rw [hroom, Option.bind_some]
  rw [hsame]
  refine and_congr_right fun hp => ?_
  rw [Room.Heap.alloc_of_lt (hs.allocated (occupant_iff.mp hp).member)]
  rfl

theorem joined_of_added {rooms : RoomHub} {queued : List (Ref × Event)}
    (hs : s.Sound) (hroom : s.rooms.rooms.lookup roomId = some room)
    (hok : s.rooms.addParticipant (s.heap.alloc s.next x) roomId s.next = .ok rooms)
    (hx : x.userId = userId) (hnone : x.tracks = []) (hrooms : t.rooms = rooms)
    (hheap : t.heap = s.heap.alloc s.next x) (hsent : t.sent = s.sent ++ queued)
    (hqueued : SentTo s.rooms roomId queued) (hidle : ∀ e ∈ queued, (Message.event e.2).IsIdle)
    (htracks : info.tracks = existingTracks (s.heap.alloc s.next x)
      ((rooms.rooms.lookup roomId).getD room) userId) :
    s.scene.Joined (fun q => (if q = s.next then [.joined info] else []) ++ s.news t q) t.scene
      roomId userId s.next info := by
  obtain ⟨room₀, room', hroom₀, hadd, hhub⟩ := Room.RoomHub.addParticipant_eq_ok hok
  cases hroom.symm.trans hroom₀
  obtain ⟨hfree, hroom'⟩ := Room.Room.addParticipant_eq_ok hadd
  rw [Room.Heap.alloc_same, hx] at hfree
  have hparts : room'.participants = room.participants.insert userId s.next := by
    rw [hroom', Room.Heap.alloc_same, hx]
  have hlookup : rooms.rooms.lookup roomId = some room' := by
    rw [hhub]
    exact AList.lookup_insert _
  have hother : ∀ {r u q}, s.At r u q → q ≠ s.next := fun h he =>
    Nat.lt_irrefl _ (he ▸ hs.allocated h.member)
  have hnews : ∀ q, ∀ m ∈ s.news t q, m.IsIdle ∧ q ≠ s.next := fun q m hm => by
    obtain ⟨e, he, rfl⟩ := (mem_news hsent).mp hm
    obtain ⟨room, u, hroom, hu⟩ := hqueued _ he
    exact ⟨hidle _ he, hother ⟨room, hroom, hu⟩⟩
  exact {
    free := by
      unfold AppState.scene
      dsimp only
      rw [hroom, Option.bind_some, hfree]
    new := fun h => hother (occupant_iff.mp h) rfl
    scene := scene_added hroom hparts (by rw [hroom']) (by rw [hrooms, hhub]) hheap hnone
    tracks := by
      rw [htracks, hlookup, Option.getD_some]
      exact mem_existingTracks_added hs hroom hparts
        ((hs.addParticipant hok).keyed.room hlookup)
    own := by
      have hnil : s.news t s.next = [] :=
        List.eq_nil_iff_forall_not_mem.mpr fun m hm => (hnews _ m hm).2 rfl
      rw [if_pos rfl, hnil, List.append_nil]
    others := fun {r u q} hq m hm => by
      rw [if_neg (hother (occupant_iff.mp hq)), List.nil_append] at hm
      exact (hnews q m hm).1 }

end

def Admitted (s : AppState) (roomId userId : String) : Prop :=
  ∃ room, s.rooms.rooms.lookup roomId = some room ∧
    room.participants.entries.length < room.capacity ∧ userId ∉ room.participants

theorem admitted_of_added {rooms : RoomHub} {x : Participant}
    (hroom : s.rooms.rooms.lookup roomId = some room)
    (hok : s.rooms.addParticipant (s.heap.alloc s.next x) roomId s.next = .ok rooms)
    (hx : x.userId = userId) : Admitted s roomId userId := by
  obtain ⟨room₀, room', hroom₀, hadd, -⟩ := Room.RoomHub.addParticipant_eq_ok hok
  cases hroom.symm.trans hroom₀
  unfold Room.Room.addParticipant at hadd
  rw [Room.Heap.alloc_same, hx] at hadd
  split at hadd
  · cases hadd
  · split at hadd
    · cases hadd
    · exact ⟨room, hroom, Nat.lt_of_not_le ‹_›, ‹_›⟩

theorem roomJoin_turn (draws : Draws) (session : Session) (sid : SessionId) (pid : Nat)
    (userId roomId : String) (hs : s.Sound) {t : AppState} {session' : Session} {reply : Reply}
    (heq : handleRoomJoin draws session sid s pid userId roomId = (t, session', reply)) :
    s.scene.Story (s.outcome sid (.roomJoin roomId) t (some reply)) t.scene ∨
      Admitted s roomId userId ∧ ∃ info,
        s.scene.Joined (s.outcome sid (.roomJoin roomId) t (some reply)) t.scene roomId userId s.next
          info := by
  unfold handleRoomJoin at heq
  cases hget : s.rooms.get roomId with
  | error e =>
    rw [hget] at heq
    cases heq
    rw [outcome_refused]
    exact .inl (story_of_same rfl rfl)
  | ok room =>
    have hroom := get_eq_ok_iff.mp hget
    rw [hget] at heq
    dsimp only at heq
    split at heq
    · cases heq
      rw [outcome_refused]
      exact .inl (story_of_same rfl rfl)
    · rename_i rooms hok
      cases heq
      refine .inr ⟨admitted_of_added hroom hok rfl, _, joined_of_added hs hroom hok rfl rfl rfl rfl rfl
        (joined_sentTo hok (congrArg _ (Room.Heap.alloc_same _))) (fun e he => ?_) rfl⟩
      obtain ⟨x, -, rfl⟩ := List.mem_map.mp he
      trivial

theorem scene_create {id name : String} {capacity : Option Nat} {mode : RoomMode} {createdAt : Nat}
    {audioSsrc videoSsrc : U32} (hid : id ∉ s.rooms.rooms) : ({ s with
      rooms := s.rooms.create id name capacity mode createdAt audioSsrc videoSsrc } :
      AppState).scene = s.scene := by
  have hnone : s.rooms.rooms.lookup id = none := AList.lookup_eq_none.mpr hid
  unfold AppState.scene RoomHub.create
  dsimp only
  congr 1
  · funext r u
    rw [DashMap.lookup_insert']
    split
    · subst r
      rw [hnone]
      rfl
    · rfl
  · funext r
    rw [DashMap.lookup_insert']
    split
    · subst r
      rw [hnone]
      rfl
    · rfl

theorem scene_latch {ufrag : String} {addr : SocketAddr} {heap : Heap} {rooms : RoomHub} {pc : PcType}
    (hlatch : s.rooms.latchByUfrag s.heap ufrag addr = some (heap, rooms, p, pc)) :
    ({ s with heap := heap, rooms := rooms } : AppState).scene = s.scene := by
  obtain ⟨roomId, room, room', -, hroom, hl, rfl⟩ := Room.RoomHub.latchByUfrag_eq_some hlatch
  obtain ⟨-, hheap, hroom', -⟩ := Room.Room.latch_spec hl
  have htracks : ∀ q, (heap q).tracks = (s.heap q).tracks := fun q => by
    rw [hheap]
    exact Heap.update_field (fun x => x.tracks) (by cases pc <;> rfl) q
  have hscene : (s.setRoom roomId room').scene = s.scene :=
    scene_setRoom_self hroom (by rw [hroom']) (by rw [hroom'])
  rw [← hscene]
  exact scene_congr rfl htracks

theorem handled_story {request : Request} {session' : Session}
    (h : Handled draws sid s session userId request t session') (hid : draws.uuid ∉ s.rooms.rooms)
    (hr : request ∈ [.heartbeat, .roomList, .telemetry] ∨ (∃ token id, request = .identify token id) ∨
      ∃ name capacity mode, request = .roomCreate name capacity mode) :
    s.scene.Story (s.news t) t.scene := by
  cases h with
  | same | identified => exact story_of_same rfl rfl
  | touched =>
    refine story_of_same (scene_congr rfl fun q => ?_) rfl
    exact Heap.update_field (fun x => x.tracks) rfl q
  | created => exact story_of_same (scene_create hid) rfl
  | floorChanged hfloor =>
    simp only [List.mem_cons, List.not_mem_nil, or_false] at hfloor
    obtain rfl | rfl | rfl := hfloor <;> simp at hr
  | joined | published | notPublished | muted | notMuted | messaged | left | notLeft =>
    simp at hr

end

namespace Server

def Handles (s : Server) (l : Label) (sid : SessionId) (session : Session) (request : Request) :
    Prop :=
  match l with
  | .packet sid' packet _ =>
    sid' = sid ∧ s.sessions sid = some session ∧ packet.reaches session = some request
  | _ => False

/-- Somebody asks to join a room that lets it in. -/
def Joins (s : Server) (l : Label) (roomId userId : String) : Prop :=
  ∃ sid session, s.Handles l sid session (.roomJoin roomId) ∧ session.userId.getD "" = userId ∧
    Admitted s.toAppState roomId userId

/-- Somebody asks to publish, and is in its room. -/
def Publishes (s : Server) (l : Label) (tracks : List PublishTrackItem) (roomId userId : String)
    (p : Ref) : Prop :=
  ∃ sid session room, s.Handles l sid session (.publishTracks tracks) ∧
    session.currentRoom = some roomId ∧
    currentParticipant session s.toAppState = .ok (room, userId, p)

/-- Somebody asks for the floor, and it is free. -/
def AsksFloor (s : Server) (l : Label) (sid : SessionId) (roomId userId : String) : Prop :=
  ∃ session, s.Handles l sid session (.floorRequest roomId) ∧ session.userId.getD "" = userId ∧
    FloorIdle s.toAppState roomId

def tells (s : Server) (l : Label) (t : AppState) (p : Ref) : List Message :=
  s.answered l p ++ s.news t p

/-- What a step of the server does to the scene: routine changes, or a participant that joins,
publishes tracks or takes the floor. -/
inductive Turn (s : Server) (l : Label) (news : Ref → List Message) (t : AppState) : Prop
  | story (h : s.scene.Story news t.scene)
  | joined {roomId userId : String} {info : JoinInfo} (hl : s.Joins l roomId userId)
    (h : s.scene.Joined news t.scene roomId userId s.next info)
  | published {tracks : List PublishTrackItem} {roomId userId : String} {p : Ref} {x' : Participant}
    {added : List TrackInfo} {new : List Track} (hl : s.Publishes l tracks roomId userId p)
    (hpub : Publishing userId (s.heap p) (s.heap p).tracks.length tracks x' added new)
    (h : s.scene.Published news t.scene roomId userId p added new)
  | taken {sid : SessionId} {roomId userId : String} (hl : s.AsksFloor l sid roomId userId)
    (h : Takes s.toAppState t news sid roomId userId)

section

variable {s s' : Server} {l : Label} {sid : SessionId} {session : Session} {packet : Packet}
variable {draws : Draws} {request : Request}

theorem answered_of_reaches (hsession : s.sessions sid = some session)
    (hreach : packet.reaches session = some request) (p : Ref) :
    s.answered (.packet sid packet draws) p = s.toAppState.answered sid request
      (handle draws session sid s.toAppState packet.pid request).2.2 p := by
  unfold answered
  simp only [hsession, body_of_reaches hreach]
  rw [dispatch_of_reaches hreach]

theorem answered_of_not_reaches (hsession : s.sessions sid = some session)
    (hreach : packet.reaches session = none) (p : Ref) :
    s.answered (.packet sid packet draws) p = [] := by
  unfold answered
  simp only [hsession]
  cases packet.body with
  | invalid | unknown => rfl
  | request r =>
    dsimp only
    obtain h | ⟨op, code, msg, h⟩ := reply_of_not_reaches hreach
    · rw [h]
      cases r <;> rfl
    · rw [h]
      exact answered_err r _ _ _ p

theorem handle_turn (hs : s.Sound) (hd : s.scene.Proper) (hid : draws.uuid ∉ s.rooms.rooms)
    (hsession : s.sessions sid = some session) (hreach : packet.reaches session = some request) :
    Turn s (.packet sid packet draws)
      (s.toAppState.outcome sid request (handle draws session sid s.toAppState packet.pid request).1
        (handle draws session sid s.toAppState packet.pid request).2.2)
      (handle draws session sid s.toAppState packet.pid request).1 := by
  have hhandles : s.Handles (.packet sid packet draws) sid session request :=
    ⟨rfl, hsession, hreach⟩
  have hhandled : Handled draws sid s.toAppState session (session.userId.getD "") request
      (handle draws session sid s.toAppState packet.pid request).1
      (handle draws session sid s.toAppState packet.pid request).2.1 := handled request
  cases request with
  | roomJoin roomId =>
    obtain h | ⟨hadmitted, info, h⟩ := roomJoin_turn draws session sid packet.pid
      (session.userId.getD "") roomId hs rfl
    · exact .story h
    · exact .joined ⟨sid, session, hhandles, rfl, hadmitted⟩ h
  | floorRequest roomId =>
    obtain h | h := floorRequest_turn draws sid packet.pid (session.userId.getD "") roomId hs rfl
    · exact .story h
    · exact .taken ⟨session, hhandles, rfl, h.idle⟩ h
  | publishTracks tracks =>
    rw [outcome_of_nil fun p => answered_eq_nil (by simp) (by simp)]
    cases hc : currentParticipant session s.toAppState with
    | error e =>
      refine .story (story_of_same ?_ ?_)
      · simp only [handle, handlePublishTracks, hc]
      · simp only [handle, handlePublishTracks, hc]
    | ok x =>
      obtain ⟨room, userId, p⟩ := x
      obtain ⟨roomId, x', added, new, hcurrent, hpub, h⟩ :=
        publishTracks_published packet.pid tracks hs (hd.distinct p) hc
      exact .published ⟨sid, session, room, hhandles, hcurrent, hc⟩ hpub h
  | heartbeat | roomList | telemetry | identify | roomCreate =>
    rw [outcome_of_nil fun p => answered_eq_nil (by simp) (by simp)]
    exact .story (handled_story hhandled hid (by simp))
  | roomLeave roomId =>
    rw [outcome_of_nil fun p => answered_eq_nil (by simp) (by simp)]
    exact .story (roomLeave_story hs)
  | muteUpdate ssrc muted =>
    rw [outcome_of_nil fun p => answered_eq_nil (by simp) (by simp)]
    exact .story (muteUpdate_story hs)
  | message roomId content =>
    rw [outcome_of_nil fun p => answered_eq_nil (by simp) (by simp)]
    exact .story (message_story draws packet.pid)
  | floorRelease roomId =>
    rw [outcome_of_nil fun p => answered_eq_nil (by simp) (by simp)]
    exact .story (floorRelease_story hs)
  | floorPing roomId =>
    rw [outcome_of_nil fun p => answered_eq_nil (by simp) (by simp)]
    obtain ⟨hscene, -, hsent⟩ :=
      floorPing_same draws s.toAppState packet.pid (session.userId.getD "") roomId
    exact .story (story_of_same hscene hsent)

theorem step_dispatch (h : s.step (.packet sid packet draws) = some s') :
    ∃ session, s.sessions sid = some session ∧ draws.uuid ∉ s.rooms.rooms ∧
      s'.toAppState = (dispatch draws session sid s.toAppState packet).1 := by
  simp only [step] at h
  split at h
  · cases h
  · rename_i session hsession
    split at h
    · cases h
    · cases h
      exact ⟨session, hsession, ‹_›, rfl⟩

theorem step_turn (hs : s.Sound) (hd : s.scene.Proper) (h : s.step l = some s') :
    Turn s l (s.tells l s'.toAppState) s'.toAppState := by
  have hsilent : (∀ p, s.answered l p = []) → s.tells l s'.toAppState = s.news s'.toAppState := by
    intro hnil
    funext p
    rw [tells, hnil, List.nil_append]
  cases l with
  | packet sid packet draws =>
    obtain ⟨session, hsession, hid, hstate⟩ := step_dispatch h
    rw [hstate] at hsilent ⊢
    cases hreach : packet.reaches session with
    | none =>
      rw [hsilent (answered_of_not_reaches hsession hreach)]
      obtain ⟨reply, hdispatch⟩ : ∃ reply, dispatch draws session sid s.toAppState packet =
          (s.toAppState, session, reply) := dispatch_of_not_reaches hreach
      rw [hdispatch]
      exact .story (story_of_same rfl rfl)
    | some request =>
      have htells : s.tells (.packet sid packet draws) =
          fun t => s.toAppState.outcome sid request t
            (handle draws session sid s.toAppState packet.pid request).2.2 := by
        funext t p
        rw [tells, answered_of_reaches hsession hreach]
        rfl
      rw [htells, dispatch_of_reaches hreach]
      exact handle_turn hs hd hid hsession hreach
  | disconnect sid =>
    obtain ⟨session, hsession, rfl⟩ := step_disconnect h
    rw [hsilent fun _ => rfl]
    exact .story (cleanup_story hs)
  | floorTimer now =>
    cases h
    rw [hsilent fun _ => rfl]
    exact .story (floorTimer_story hs now)
  | zombieReaper now =>
    cases h
    rw [hsilent fun _ => rfl]
    exact .story (zombieReaper_story hs now)
  | latch ufrag addr =>
    rw [hsilent fun _ => rfl]
    obtain rfl | ⟨heap, rooms, p, pc, hlatch, rfl⟩ := step_latch h
    · exact .story (story_of_same rfl rfl)
    · exact .story (story_of_same (scene_latch hlatch) rfl)
  | touch p now =>
    cases h
    rw [hsilent fun _ => rfl]
    refine .story (story_of_same (scene_congr rfl fun q => ?_) rfl)
    exact Heap.update_field (fun x => x.tracks) rfl q

end

end Server

end LightLivechat.Signaling
