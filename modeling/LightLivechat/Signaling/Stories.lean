import LightLivechat.Signaling.Announcements
import LightLivechat.Signaling.Audience
import LightLivechat.Signaling.Ssrcs

/-! What every handler and every task makes of the scene. -/

namespace LightLivechat.Signaling

open LightLivechat.Config LightLivechat.Lib.Bytes LightLivechat.Lib.Std LightLivechat.Lib.Runs
open LightLivechat.Room (Heap Ref Participant Room RoomHub Track TrackKind FloorAction
  FloorController)

section

variable {draws : Draws} {session : Session} {sid : SessionId} {s t : AppState} {pid : Nat}
variable {roomId userId r u : String} {room room' : Room} {p q : Ref} {m : Message}
variable {queued : List (Ref × Event)} {event : Event} {speaker : Option String}
variable {news answers : Ref → List Message} {request : Request} {reply : Option Reply}

theorem mem_members_iff : p ∈ s.members roomId ↔ s.rooms.Member roomId p := by
  unfold AppState.members
  cases hroom : s.rooms.rooms.lookup roomId with
  | none =>
    refine iff_of_false List.not_mem_nil ?_
    rintro ⟨room, -, hroom', -⟩
    cases hroom.symm.trans hroom'
  | some room => exact mem_values_iff hroom

/-- Nothing is answered that tells of tracks or of the floor but a join and a grant. -/
theorem answered_eq_nil (hjoin : ∀ roomId, request ≠ .roomJoin roomId)
    (hfloor : ∀ roomId, request ≠ .floorRequest roomId) : s.answered sid request reply p = [] := by
  unfold AppState.answered
  split
  · exact absurd rfl (hjoin _)
  · exact absurd rfl (hfloor _)
  · rfl

theorem story_of_idle (hscene : t.scene = s.scene) (hidle : ∀ q, ∀ m ∈ news q, m.IsIdle) :
    s.scene.Story news t.scene := by
  rw [hscene]
  exact .of (.idle fun {_ _ q} _ => hidle q)

theorem story_of_same (hscene : t.scene = s.scene) (hsent : t.sent = s.sent) :
    s.scene.Story (s.news t) t.scene := by
  refine story_of_idle hscene fun q m hm => ?_
  rw [news_of_sent hsent] at hm
  cases hm

theorem said_of_sent (hs : s.Sound) (hsent : t.sent = s.sent ++ queued)
    (hqueued : SentTo s.rooms roomId queued)
    (hword : ∀ e ∈ queued, (Message.event e.2).speaker = some speaker)
    (hanswers : ∀ q, ∀ m ∈ answers q, s.rooms.Member roomId q ∧ m.speaker = some speaker) :
    s.scene.Said (fun q => answers q ++ s.news t q) roomId speaker := by
  have hboth : ∀ q, ∀ m ∈ answers q ++ s.news t q,
      s.rooms.Member roomId q ∧ m.speaker = some speaker := by
    intro q m hm
    obtain hm | hm := List.mem_append.mp hm
    · exact hanswers q m hm
    · obtain ⟨e, he, rfl⟩ := (mem_news hsent).mp hm
      exact ⟨hqueued _ he, hword _ he⟩
  refine ⟨fun {u q} _ m hm => (hboth q m hm).2, fun {r' u q} hr hq => ?_⟩
  rw [List.eq_nil_iff_forall_not_mem]
  intro m hm
  exact hr (hs.home (occupant_iff.mp hq).member (hboth q m hm).1)

/-- A floor is freed: who had it may hear of it first, and then the whole room does. -/
inductive Freed (s t : AppState) (roomId : String) : Prop
  | mk {room : Room} {revokes : List (Ref × Event)} {prev : String} {cause : Option String}
    (hroom : s.rooms.rooms.lookup roomId = some room)
    (hscene : t.scene = { s.scene with
      speaker := Function.update s.scene.speaker roomId none })
    (hwsTx : t.wsTx = s.wsTx)
    (hsent : t.sent = s.sent ++
      (revokes ++ room.participants.entries.map fun e => (e.2, .floorIdle room.id prev cause)))
    (hrevokes : ∀ e ∈ revokes, s.rooms.Member roomId e.1 ∧ ∃ cause, e.2 = .floorRevoke room.id cause)

theorem story_freed (hs : s.Sound) (h : Freed s t roomId) : s.scene.Story (s.news t) t.scene := by
  obtain @⟨room, revokes, prev, cause, hroom, hscene, -, hsent, hrevokes⟩ := h
  have hsaid : s.scene.Said (fun q => [] ++ s.news t q) roomId none := by
    refine said_of_sent hs hsent (.append (fun e he => (hrevokes e he).1)
      (.map_entries hroom (List.Subset.refl _))) (fun e he => ?_) fun q m hm =>
        absurd hm List.not_mem_nil
    obtain he | he := List.mem_append.mp he
    · obtain ⟨-, cause, hcause⟩ := hrevokes e he
      rw [hcause]
      rfl
    · obtain ⟨x, -, rfl⟩ := List.mem_map.mp he
      rfl
  simp only [List.nil_append] at hsaid
  rw [hscene]
  refine .of (.said hsaid fun {u q} hq => .inl fun hnil => ?_)
  obtain ⟨room', hroom', hu⟩ := occupant_iff.mp hq
  cases hroom.symm.trans hroom'
  have hmem : .event (.floorIdle room.id prev cause) ∈ s.news t q :=
    (mem_news hsent).mpr ⟨_, List.mem_append_right _
      (List.mem_map.mpr ⟨⟨u, q⟩, AList.mem_lookup_iff.mp hu, rfl⟩), rfl⟩
  rw [hnil] at hmem
  cases hmem

theorem release_cases (s : AppState) (roomId userId : String) :
    releaseOnLeave s roomId userId = s ∨ Freed s (releaseOnLeave s roomId userId) roomId := by
  obtain ⟨room, hroom, -, -, h⟩ | ⟨-, h⟩ := releaseOnLeave_cases s roomId userId
  · rw [h]
    exact .inr (@Freed.mk _ _ _ room [] userId none hroom (scene_setRoom hroom rfl) rfl rfl
      fun e he => absurd he List.not_mem_nil)
  · exact .inl h

theorem story_release (hs : s.Sound) (roomId userId : String) :
    s.scene.Story (s.news (releaseOnLeave s roomId userId))
      (releaseOnLeave s roomId userId).scene := by
  obtain h | h := release_cases s roomId userId
  · rw [h]
    exact story_of_same rfl rfl
  · exact story_freed hs h

theorem checkFloor_cases (s : AppState) (now : Nat) (roomId : String) :
    checkFloor now s roomId = s ∨ Freed s (checkFloor now s roomId) roomId := by
  unfold checkFloor
  cases hroom : s.rooms.rooms.lookup roomId with
  | none => exact .inl rfl
  | some room =>
    dsimp only
    split_ifs with hmode
    · exact .inl rfl
    · obtain ⟨floor, prev, cause, hcheck, hspeaker⟩ | hcheck :=
        FloorController.checkTimers_cases room.floor now
      · simp only [hcheck]
        have hscene : (s.setRoom roomId (clearSpeakers { room with floor := floor })).scene =
            { s.scene with speaker := Function.update s.scene.speaker roomId none } := by
          rw [← hspeaker]
          exact scene_setRoom hroom rfl
        right
        split
        · rename_i p hp
          refine @Freed.mk _ _ _ room [(p, .floorRevoke room.id cause)] prev none hroom hscene rfl
            (List.append_assoc ..) fun e he => ?_
          cases List.mem_singleton.mp he
          exact ⟨⟨room, prev, hroom, hp⟩, cause, rfl⟩
        · exact @Freed.mk _ _ _ room [] prev none hroom hscene rfl rfl
            fun e he => absurd he List.not_mem_nil
      · left
        simp only [hcheck]

theorem checkFloor_story (hs : s.Sound) (now : Nat) (roomId : String) :
    s.scene.Story (s.news (checkFloor now s roomId)) (checkFloor now s roomId).scene := by
  obtain h | h := checkFloor_cases s now roomId
  · rw [h]
    exact story_of_same rfl rfl
  · exact story_freed hs h

theorem floorTimer_story (hs : s.Sound) (now : Nat) :
    s.scene.Story (s.news (floorTimer s now)) (floorTimer s now).scene := by
  unfold floorTimer
  generalize s.rooms.rooms.entries.map (fun e => e.1) = ids
  suffices h : (∃ queued, (ids.foldl (checkFloor now) s).sent = s.sent ++ queued) ∧
      s.scene.Story (s.news (ids.foldl (checkFloor now) s)) (ids.foldl (checkFloor now) s).scene from
    h.2
  induction ids generalizing s with
  | nil => exact ⟨⟨[], (List.append_nil _).symm⟩, story_of_same rfl rfl⟩
  | cons roomId ids ih =>
    rw [List.foldl_cons]
    obtain ⟨rooms, queued, heq, hfreed⟩ := checkFloor_eq now s roomId
    have hsound : (checkFloor now s roomId).Sound := by
      rw [AppState.Sound, heq]
      exact (hfreed.mono fun h => h.toFloorOnly).sound hs
    have hsent : (checkFloor now s roomId).sent = s.sent ++ queued := by rw [heq]
    obtain ⟨⟨queued', hsent'⟩, hstory⟩ := ih hsound
    refine ⟨⟨queued ++ queued', by rw [hsent', hsent, List.append_assoc]⟩, ?_⟩
    rw [funext (news_append hsent hsent')]
    exact (checkFloor_story hs now roomId).append hstory

theorem mem_farewell {tracks : List Track} : event ∈ farewell userId roomId tracks ↔
    (tracks ≠ [] ∧ event = .tracksUpdate .remove (tracks.map (trackInfo userId))) ∨
      event = .roomEvent .participantLeft roomId userId := by
  unfold farewell
  by_cases h : tracks = []
  · simp [h]
  · simp [h]

theorem speaker_departed {gone : List (String × Ref)}
    (hr : RoomHub.Reaped s.heap s.rooms (t.rooms, gone)) : t.scene.speaker = s.scene.speaker := by
  funext r
  cases hroom : s.rooms.rooms.lookup r with
  | none =>
    have hroom' : t.rooms.rooms.lookup r = none := by
      rw [AList.lookup_eq_none]
      exact fun h => AList.lookup_eq_none.mp hroom ((hr.rooms r).mp h)
    simp only [AppState.scene, hroom, hroom', Option.bind_none]
  | some room =>
    obtain ⟨room', hroom', hw⟩ := hr.lookup hroom
    rw [speaker_eq hroom, speaker_eq hroom', hw.frame]

theorem departed_story (gone : List (String × Ref)) (hs : s.Sound)
    (hr : RoomHub.Reaped s.heap s.rooms (t.rooms, gone)) (hheap : t.heap = s.heap)
    (hgone : ∀ e ∈ gone, s.rooms.Member e.1 e.2) (hsent : t.sent = s.sent ++ queued)
    (hqueued : ∀ {q e}, (q, e) ∈ queued → ∃ x ∈ gone, s.rooms.Member x.1 q ∧
      e ∈ farewell (s.heap x.2).userId x.1 (s.heap x.2).tracks)
    (hall : ∀ {q}, ∀ x ∈ gone, t.rooms.Member x.1 q →
      ∀ e ∈ farewell (s.heap x.2).userId x.1 (s.heap x.2).tracks, (q, e) ∈ queued) :
    s.scene.Story (s.news t) t.scene := by
  have hat : ∀ {r u p}, t.At r u p ↔ s.At r u p ∧ ¬ ∃ r', (r', p) ∈ gone := by
    intro r u p
    constructor
    · rintro ⟨room', hroom', hu⟩
      obtain ⟨room, hroom, hw⟩ := hr.without.room hroom'
      obtain ⟨hu, hnot⟩ := hw.participants.mp hu
      refine ⟨⟨room, hroom, hu⟩, ?_⟩
      rintro ⟨r', hr'⟩
      obtain rfl : r' = r := hs.home (hgone _ hr') ⟨room, u, hroom, hu⟩
      exact hnot hr'
    · rintro ⟨⟨room, hroom, hu⟩, hnot⟩
      obtain ⟨room', hroom', hw⟩ := hr.lookup hroom
      exact ⟨room', hroom', hw.participants.mpr ⟨hu, fun h => hnot ⟨r, h⟩⟩⟩
  refine .of (@Scene.Routine.departed _ _ _ (fun p => ∃ r, (r, p) ∈ gone) ?_
    (speaker_departed hr) ?_ ?_ ?_)
  · unfold AppState.scene
    dsimp only
    rw [hheap]
  · intro r u p
    rw [occupant_iff, occupant_iff, hat]
  · intro r u q hq m hm
    obtain ⟨e, he, rfl⟩ := (mem_news hsent).mp hm
    obtain ⟨⟨r', p⟩, hx, hmember, he⟩ := hqueued he
    obtain rfl : r' = r := hs.home hmember (hat.mp (occupant_iff.mp hq)).1.member
    obtain ⟨room, u', hroom, hp⟩ := hgone _ hx
    obtain rfl : (s.heap p).userId = u' := (hs.room hroom).2.userId hp
    obtain ⟨-, rfl⟩ | rfl := mem_farewell.mp he
    · exact .inr ⟨_, p, occupant_iff.mpr ⟨room, hroom, hp⟩, ⟨r', hx⟩, rfl⟩
    · exact .inl trivial
  · intro r u q u' p hq hp hgone' htracks
    obtain ⟨r', hx⟩ := hgone'
    obtain rfl : r' = r := hs.home (hgone _ hx) (occupant_iff.mp hp).member
    obtain ⟨room, hroom, hu'⟩ := occupant_iff.mp hp
    obtain rfl : (s.heap p).userId = u' := (hs.room hroom).2.userId hu'
    refine (mem_news hsent).mpr ⟨_, hall _ hx (occupant_iff.mp hq).member _ ?_, rfl⟩
    exact mem_farewell.mpr (.inl ⟨htracks, rfl⟩)

theorem reaped_one {hub hub' : RoomHub} {heap : Heap} (hk : hub.Keyed heap)
    (hok : hub.removeParticipant heap roomId userId = .ok (hub', p)) :
    RoomHub.Reaped heap hub (hub', [(roomId, p)]) where
  without := (hk.removeParticipant hok).congr fun r q => by simp
  rooms := Room.RoomHub.mem_rooms_removeParticipant hok

theorem leave_story {rooms : RoomHub} {refs : List Ref} (hs : s.Sound)
    (hok : (releaseOnLeave s roomId userId).rooms.removeParticipant s.heap roomId userId =
      .ok (rooms, p)) (hrooms : t.rooms = rooms) (hheap : t.heap = s.heap)
    (hsent : t.sent = (releaseOnLeave s roomId userId).sent ++
      queueAll refs (farewell userId roomId (s.heap p).tracks))
    (hrefs : ∀ {q}, rooms.Member roomId q → q ∈ refs)
    (hrefs' : ∀ {q}, q ∈ refs → s.rooms.Member roomId q) : s.scene.Story (s.news t) t.scene := by
  obtain ⟨queued, heq, -⟩ := releaseOnLeave_eq s roomId userId
  have hheap₁ : (releaseOnLeave s roomId userId).heap = s.heap := by rw [heq]
  have hsent₁ : (releaseOnLeave s roomId userId).sent = s.sent ++ queued := by rw [heq]
  have hsound : (releaseOnLeave s roomId userId).Sound := by
    rw [AppState.Sound, heq]
    exact sound_released hs roomId userId
  have hmember : ∀ {r q}, (releaseOnLeave s roomId userId).rooms.Member r q ↔ s.rooms.Member r q :=
    ((releaseOnLeave_freed s roomId userId).mono fun h => h.toFloorOnly).member
  have hat := (left_spec hs hok).1
  obtain ⟨room, hroom, hp⟩ := hat
  have hid : (s.heap p).userId = userId := (hs.room hroom).2.userId hp
  have hr := reaped_one (sound_released hs roomId userId).keyed hok
  rw [funext (news_append hsent₁ hsent)]
  refine (story_release hs roomId userId).append (departed_story [(roomId, p)] hsound
    (by rwa [hheap₁, hrooms]) (hheap.trans hheap₁.symm) ?_ hsent ?_ ?_)
  · rintro e he
    obtain rfl := List.mem_singleton.mp he
    exact hmember.mpr ⟨room, userId, hroom, hp⟩
  · intro q e he
    obtain ⟨hq, he⟩ := mem_queueAll.mp he
    refine ⟨(roomId, p), List.mem_singleton_self _, hmember.mpr (hrefs' hq), ?_⟩
    rw [hheap₁, hid]
    exact he
  · intro q x hx hq e he
    obtain rfl := List.mem_singleton.mp hx
    rw [hheap₁, hid] at he
    exact mem_queueAll.mpr ⟨hrefs (hrooms ▸ hq), he⟩

theorem roomLeave_story (hs : s.Sound) : s.scene.Story
    (s.news (handleRoomLeave session s pid userId roomId).1)
    (handleRoomLeave session s pid userId roomId).1.scene := by
  cases hrem : (releaseOnLeave s roomId userId).rooms.removeParticipant s.heap roomId userId with
  | error e =>
    rw [(handleRoomLeave_eq_error hrem).1]
    exact story_release hs roomId userId
  | ok t =>
    obtain ⟨rooms, p⟩ := t
    obtain ⟨room, room', -, -, hroom'⟩ := removeParticipant_lookup hrem
    rw [(handleRoomLeave_eq_ok hrem hroom').1]
    refine leave_story hs hrem rfl rfl rfl ?_ fun hq => member_of_left hrem hroom' hq
    rintro q ⟨room₁, u, hroom₁, hu⟩
    cases hroom'.symm.trans hroom₁
    exact DashMap.mem_values hu

theorem mem_others : q ∈ others room userId ↔
    ∃ u, u ≠ userId ∧ room.participants.lookup u = some q := by
  unfold others
  constructor
  · intro h
    obtain ⟨⟨u, q'⟩, he, rfl⟩ := List.mem_map.mp h
    obtain ⟨he, hne⟩ := List.mem_filter.mp he
    exact ⟨u, of_decide_eq_true hne, AList.mem_lookup_iff.mpr he⟩
  · rintro ⟨u, hne, hu⟩
    refine List.mem_map.mpr ⟨⟨u, q⟩, List.mem_filter.mpr ⟨AList.mem_lookup_iff.mp hu, ?_⟩, rfl⟩
    exact decide_eq_true hne

theorem cleanup_eq_error {e : LightError} (hcurrent : session.currentRoom = some roomId)
    (huser : session.userId = some userId)
    (herr : (releaseOnLeave s roomId userId).rooms.removeParticipant s.heap roomId userId =
      .error e) : ∃ refs, cleanup session s = { releaseOnLeave s roomId userId with
        sent := (releaseOnLeave s roomId userId).sent ++
          queueAll refs [.roomEvent .participantLeft roomId userId] } := by
  have hheap : (releaseOnLeave s roomId userId).heap = s.heap := by
    obtain ⟨queued, heq, -⟩ := releaseOnLeave_eq s roomId userId
    rw [heq]
  have herr' := herr
  rw [← hheap] at herr'
  unfold cleanup
  simp only [hcurrent, huser]
  cases hget : (releaseOnLeave s roomId userId).rooms.get roomId with
  | error e' =>
    refine ⟨[], ?_⟩
    simp only [herr']
    simp [queueAll]
  | ok room =>
    have hnone : room.getParticipant userId = none := by
      cases hp : room.getParticipant userId with
      | none => rfl
      | some p =>
        exact absurd (released_at.mp ⟨room, get_eq_ok_iff.mp hget, hp⟩) (notLeft_spec herr p)
    refine ⟨others room userId, ?_⟩
    simp only [broadcastToOthers_farewell]
    simp only [herr', hnone]
    rfl

theorem cleanup_story (hs : s.Sound) :
    s.scene.Story (s.news (cleanup session s)) (cleanup session s).scene := by
  rcases cleanup_eq_self_or session s with heq | ⟨roomId, userId, hcurrent, huser⟩
  · rw [heq]
    exact story_of_same rfl rfl
  obtain ⟨queued, hreleased, -⟩ := releaseOnLeave_eq s roomId userId
  have hmember : ∀ {r q}, (releaseOnLeave s roomId userId).rooms.Member r q ↔
      s.rooms.Member r q :=
    ((releaseOnLeave_freed s roomId userId).mono fun h => h.toFloorOnly).member
  cases hrem : (releaseOnLeave s roomId userId).rooms.removeParticipant s.heap roomId userId with
  | error e =>
    obtain ⟨refs, heq⟩ := cleanup_eq_error hcurrent huser hrem
    have hsent : (releaseOnLeave s roomId userId).sent = s.sent ++ queued := by rw [hreleased]
    have hlast : (cleanup session s).sent = (releaseOnLeave s roomId userId).sent ++
        queueAll refs [.roomEvent .participantLeft roomId userId] := by rw [heq]
    rw [funext (news_append hsent hlast)]
    refine (story_release hs roomId userId).append (story_of_idle (by rw [heq]; rfl) ?_)
    intro q m hm
    obtain ⟨e, he, rfl⟩ := (mem_news hlast).mp hm
    cases List.mem_singleton.mp (mem_queueAll.mp he).2
    trivial
  | ok t =>
    obtain ⟨rooms, p⟩ := t
    obtain ⟨room, room', hroom, hroomrem, -⟩ := removeParticipant_lookup hrem
    have hp := Room.Room.removeParticipant_eq_ok hroomrem
    rw [cleanup_eq_ok hcurrent huser hroom hrem hp]
    refine leave_story hs hrem rfl rfl rfl (fun {q} hq => ?_) fun {q} hq => ?_
    · obtain ⟨hq, hne⟩ := (left_spec hs hrem).2.mp hq
      obtain ⟨room₁, u, hroom₁, hu⟩ := hmember.mpr hq
      cases hroom.symm.trans hroom₁
      refine mem_others.mpr ⟨u, ?_, hu⟩
      rintro rfl
      exact hne (Option.some.inj (hu.symm.trans hp))
    · obtain ⟨u, -, hu⟩ := mem_others.mp hq
      exact hmember.mp ⟨room, u, hroom, hu⟩

theorem foldl_notifyReaped_eq (gone : List (String × Ref)) (s : AppState) :
    gone.foldl notifyReaped s = { s with
      sent := s.sent ++ gone.flatMap fun e =>
        queueAll (s.members e.1) (farewell (s.heap e.2).userId e.1 (s.heap e.2).tracks) } := by
  induction gone generalizing s with
  | nil => simp
  | cons e gone ih =>
    have hone : notifyReaped s e = { s with
        sent := s.sent ++ queueAll (s.members e.1)
          (farewell (s.heap e.2).userId e.1 (s.heap e.2).tracks) } := by
      obtain ⟨roomId, p⟩ := e
      unfold notifyReaped AppState.members
      dsimp only
      cases hget : s.rooms.get roomId with
      | error e' =>
        have hnil : ∀ events, queueAll [] events = [] := by simp [queueAll, List.flatMap_eq_nil_iff]
        simp only [get_eq_error hget, hnil, List.append_nil]
      | ok room => simp only [get_eq_ok_iff.mp hget, broadcastToRoom_farewell]
    rw [List.foldl_cons, hone, ih, List.flatMap_cons, ← List.append_assoc]
    rfl

theorem zombieReaper_notifies (s : AppState) (now : Nat) : zombieReaper s now = { s with
    rooms := (s.rooms.reapZombies s.heap now zombieTimeoutMs).1
    sent := s.sent ++ (s.rooms.reapZombies s.heap now zombieTimeoutMs).2.flatMap fun e =>
      queueAll
        ({ s with rooms := (s.rooms.reapZombies s.heap now zombieTimeoutMs).1 }.members e.1)
        (farewell (s.heap e.2).userId e.1 (s.heap e.2).tracks) } :=
  foldl_notifyReaped_eq (s.rooms.reapZombies s.heap now zombieTimeoutMs).2
    { s with rooms := (s.rooms.reapZombies s.heap now zombieTimeoutMs).1 }

theorem zombieReaper_story (hs : s.Sound) (now : Nat) :
    s.scene.Story (s.news (zombieReaper s now)) (zombieReaper s now).scene := by
  obtain ⟨hr, hgone⟩ := RoomHub.reaped_reapZombies hs.keyed now zombieTimeoutMs
  rw [zombieReaper_notifies]
  refine departed_story (s.rooms.reapZombies s.heap now zombieTimeoutMs).2 hs hr rfl
    (fun e he => (hgone.mp he).1) rfl (fun {q e} he => ?_) fun {q} x hx hq e he => ?_
  · obtain ⟨x, hx, he⟩ := List.mem_flatMap.mp he
    obtain ⟨hq, he⟩ := mem_queueAll.mp he
    exact ⟨x, hx, (hr.without.member.mp (mem_members_iff.mp hq)).1, he⟩
  · exact List.mem_flatMap.mpr ⟨x, hx, mem_queueAll.mpr ⟨mem_members_iff.mpr hq, he⟩⟩

end

end LightLivechat.Signaling
