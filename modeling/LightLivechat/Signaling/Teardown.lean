import LightLivechat.Signaling.Reachable

/-! The three ways out of a room: the participant leaves, its connection closes, or the
reaper takes it out. -/

namespace LightLivechat.Signaling

open LightLivechat.Config LightLivechat.Lib.Bytes LightLivechat.Lib.Std LightLivechat.Lib.Runs
open LightLivechat.Room (Heap Ref Participant Room RoomHub Track FloorController)

/-- The same participants and indices, the same floor and the same rewriter speakers. -/
structure SameRoom (room room' : Room) : Prop where
  participants : ∀ u, room.participants.lookup u = room'.participants.lookup u
  byUfrag : ∀ u, room.byUfrag.lookup u = room'.byUfrag.lookup u
  byAddr : ∀ a, room.byAddr.lookup a = room'.byAddr.lookup a
  floor : room.floor = room'.floor
  audioSpeaker : room.audioRewriter.state.speaker = room'.audioRewriter.state.speaker
  videoSpeaker : room.videoRewriter.state.speaker = room'.videoRewriter.state.speaker

structure SameHub (hub hub' : RoomHub) : Prop where
  rooms : ∀ r, Option.Rel SameRoom (hub.rooms.lookup r) (hub'.rooms.lookup r)
  ufragIndex : ∀ u, hub.ufragIndex.lookup u = hub'.ufragIndex.lookup u
  addrIndex : ∀ a, hub.addrIndex.lookup a = hub'.addrIndex.lookup a

section

variable {heap : Heap} {hub hub₁ hub₂ : RoomHub} {room room₁ room₂ : Room}

theorem SameRoom.refl (room : Room) : SameRoom room room :=
  ⟨fun _ => rfl, fun _ => rfl, fun _ => rfl, rfl, rfl, rfl⟩

theorem SameHub.refl (hub : RoomHub) : SameHub hub hub := by
  refine ⟨fun r => ?_, fun _ => rfl, fun _ => rfl⟩
  cases hub.rooms.lookup r with
  | none => exact .none
  | some room => exact .some (.refl room)

theorem SameRoom.of_without {gone : Ref → Prop} (h₁ : room.Without heap gone room₁)
    (h₂ : room.Without heap gone room₂) : SameRoom room₁ room₂ where
  participants := fun u => Option.ext fun p => h₁.participants.trans h₂.participants.symm
  byUfrag := fun u => Option.ext fun e => h₁.byUfrag.trans h₂.byUfrag.symm
  byAddr := fun a => Option.ext fun e => h₁.byAddr.trans h₂.byAddr.symm
  floor := by rw [h₁.frame, h₂.frame]
  audioSpeaker := by rw [h₁.frame, h₂.frame]
  videoSpeaker := by rw [h₁.frame, h₂.frame]

theorem SameHub.of_without {gone : String → Ref → Prop} (h₁ : hub.Without heap gone hub₁)
    (h₂ : hub.Without heap gone hub₂) (hrooms : ∀ r, r ∈ hub₁.rooms ↔ r ∈ hub₂.rooms) :
    SameHub hub₁ hub₂ := by
  refine ⟨fun r => ?_, fun u => Option.ext fun e => h₁.ufragIndex.trans h₂.ufragIndex.symm,
    fun a => Option.ext fun e => h₁.addrIndex.trans h₂.addrIndex.symm⟩
  have hr := hrooms r
  rw [← AList.lookup_isSome, ← AList.lookup_isSome] at hr
  cases hroom₁ : hub₁.rooms.lookup r with
  | none =>
    rw [hroom₁] at hr
    cases hroom₂ : hub₂.rooms.lookup r with
    | none => exact .none
    | some room₂ => simp [hroom₂] at hr
  | some room₁ =>
    rw [hroom₁] at hr
    cases hroom₂ : hub₂.rooms.lookup r with
    | none => simp [hroom₂] at hr
    | some room₂ =>
      obtain ⟨room, hroom, hw₁⟩ := h₁.room hroom₁
      obtain ⟨room', hroom', hw₂⟩ := h₂.room hroom₂
      cases hroom.symm.trans hroom'
      exact .some (.of_without hw₁ hw₂)

end

def AppState.told (s t : AppState) (p : Ref) : List Event :=
  (t.queued p).drop (s.queued p).length

/-- Both take the participant out in the same way: the hubs agree, and whoever stays is told
the same. -/
structure Agree (s : AppState) (room : Room) (p : Ref) (t t' : AppState) : Prop where
  hub : SameHub t.rooms t'.rooms
  told : ∀ v q e, room.participants.lookup v = some q → q ≠ p → (e ∈ s.told t q ↔ e ∈ s.told t' q)

def holdsFloor (room : Room) (userId : String) : Prop :=
  room.mode = .ptt ∧ room.floor.currentSpeaker = some userId

instance (room : Room) (userId : String) : Decidable (holdsFloor room userId) :=
  inferInstanceAs (Decidable (_ ∧ _))

/-- What the others are to be told of a participant that is gone. -/
def notices (room : Room) (roomId userId : String) (tracks : List Track) : List Event :=
  (if holdsFloor room userId then [.floorIdle room.id userId none] else []) ++
    farewell userId roomId tracks

section

variable {s t : AppState} {room : Room} {roomId userId v : String} {p q : Ref} {e : Event}
variable {queued : List (Ref × Event)} {session : Session} {pid : Nat} {rooms : RoomHub}

theorem mem_told (hsent : t.sent = s.sent ++ queued) : e ∈ s.told t q ↔ (q, e) ∈ queued := by
  unfold AppState.told
  rw [queued_append hsent, List.drop_left]
  constructor
  · intro h
    obtain ⟨⟨q', e'⟩, hx, rfl⟩ := List.mem_map.mp h
    obtain ⟨hx, hq⟩ := List.mem_filter.mp hx
    exact of_decide_eq_true hq ▸ hx
  · intro h
    exact List.mem_map.mpr ⟨(q, e), List.mem_filter.mpr ⟨h, decide_eq_true rfl⟩, rfl⟩

theorem mem_queueAll {refs : List Ref} {events : List Event} :
    (q, e) ∈ queueAll refs events ↔ q ∈ refs ∧ e ∈ events := by
  simp [queueAll, and_comm]

theorem mem_map_entries {event : Event} (hq : room.participants.lookup v = some q) :
    (q, e) ∈ room.participants.entries.map (fun x => (x.2, event)) ↔ e = event := by
  constructor
  · intro h
    obtain ⟨x, -, hx⟩ := List.mem_map.mp h
    cases hx
    rfl
  · rintro rfl
    exact List.mem_map.mpr ⟨⟨v, q⟩, AList.mem_lookup_iff.mp hq, rfl⟩

theorem mem_released (hroom : s.rooms.rooms.lookup roomId = some room)
    (hq : room.participants.lookup v = some q) (refs : List Ref) (hmem : q ∈ refs)
    (tracks : List Track)
    (hsent : t.sent = (releaseOnLeave s roomId userId).sent ++
      queueAll refs (farewell userId roomId tracks)) :
    e ∈ s.told t q ↔ e ∈ notices room roomId userId tracks := by
  unfold notices
  obtain ⟨room₀, hroom₀, hmode, hspeaker, h⟩ | ⟨hother, h⟩ := releaseOnLeave_cases s roomId userId
  · cases hroom.symm.trans hroom₀
    rw [h] at hsent
    rw [mem_told (hsent.trans (List.append_assoc ..)), if_pos ⟨hmode, hspeaker⟩, List.mem_append,
      List.mem_append, mem_map_entries hq, mem_queueAll, List.mem_singleton, and_iff_right hmem]
  · rw [h] at hsent
    rw [mem_told hsent, if_neg fun hheld => hother room hroom hheld.1 hheld.2, mem_queueAll,
      List.nil_append, and_iff_right hmem]

theorem room_left (hs : s.Sound) (hroom : s.rooms.rooms.lookup roomId = some room)
    (hok : (releaseOnLeave s roomId userId).rooms.removeParticipant s.heap roomId userId =
      .ok (rooms, p)) : ∃ room₀ room₁,
      (releaseOnLeave s roomId userId).rooms.rooms.lookup roomId = some room₀ ∧
      room₀.participants = room.participants ∧ rooms.rooms.lookup roomId = some room₁ ∧
      room₀.Without s.heap (fun q => roomId = roomId ∧ q = p) room₁ := by
  obtain ⟨room₀, room₁, hroom₀, -, hroom₁⟩ := removeParticipant_lookup hok
  obtain ⟨room', hroom', hfreed⟩ := (releaseOnLeave_freed s roomId userId).lookup hroom
  cases hroom₀.symm.trans hroom'
  obtain ⟨room', hroom', hw⟩ :=
    ((sound_released hs roomId userId).keyed.removeParticipant hok).room hroom₁
  cases hroom₀.symm.trans hroom'
  exact ⟨room₀, room₁, hroom₀, hfreed.participants, hroom₁, hw⟩

theorem told_leave (hs : s.Sound) (hroom : s.rooms.rooms.lookup roomId = some room)
    (hok : (releaseOnLeave s roomId userId).rooms.removeParticipant s.heap roomId userId =
      .ok (rooms, p)) (hq : room.participants.lookup v = some q) (hqp : q ≠ p) :
    e ∈ s.told (handleRoomLeave session s pid userId roomId).1 q ↔
      e ∈ notices room roomId userId (s.heap p).tracks := by
  obtain ⟨room₀, room₁, -, hparts, hroom₁, hw⟩ := room_left hs hroom hok
  have hq₁ := hw.participants.mpr ⟨hparts ▸ hq, fun h => hqp h.2⟩
  refine mem_released hroom hq (DashMap.values room₁.participants) (DashMap.mem_values hq₁) _ ?_
  rw [(handleRoomLeave_eq_ok hok hroom₁).1]

theorem rooms_cleanup (hs : s.Sound) (hroom : s.rooms.rooms.lookup roomId = some room)
    (hcurrent : session.currentRoom = some roomId) (huser : session.userId = some userId)
    (hp : room.participants.lookup userId = some p)
    (hok : (releaseOnLeave s roomId userId).rooms.removeParticipant s.heap roomId userId =
      .ok (rooms, p)) : (cleanup session s).rooms = rooms := by
  obtain ⟨room₀, room₁, hroom₀, hparts, -, -⟩ := room_left hs hroom hok
  rw [cleanup_eq_ok hcurrent huser hroom₀ hok (hparts ▸ hp)]

theorem told_cleanup (hs : s.Sound) (hroom : s.rooms.rooms.lookup roomId = some room)
    (hcurrent : session.currentRoom = some roomId) (huser : session.userId = some userId)
    (hp : room.participants.lookup userId = some p)
    (hok : (releaseOnLeave s roomId userId).rooms.removeParticipant s.heap roomId userId =
      .ok (rooms, p)) (hq : room.participants.lookup v = some q) (hqp : q ≠ p) :
    e ∈ s.told (cleanup session s) q ↔ e ∈ notices room roomId userId (s.heap p).tracks := by
  obtain ⟨room₀, room₁, hroom₀, hparts, -, -⟩ := room_left hs hroom hok
  refine mem_released hroom hq (others room₀ userId) ?_ _
    (by rw [cleanup_eq_ok hcurrent huser hroom₀ hok (hparts ▸ hp)])
  refine List.mem_map.mpr ⟨⟨v, q⟩, List.mem_filter.mpr ⟨?_, decide_eq_true ?_⟩, rfl⟩
  · exact AList.mem_lookup_iff.mp (hparts ▸ hq)
  · rintro rfl
    exact hqp (Option.some.inj (hq.symm.trans hp))

theorem told_zombieReaper {now : Nat} (hs : s.Sound)
    (hroom : s.rooms.rooms.lookup roomId = some room)
    (hp : room.participants.lookup userId = some p)
    (hreaped : (s.rooms.reapZombies s.heap now zombieTimeoutMs).2 = [(roomId, p)])
    (hq : room.participants.lookup v = some q) (hqp : q ≠ p) :
    e ∈ s.told (zombieReaper s now) q ↔ e ∈ farewell userId roomId (s.heap p).tracks := by
  obtain ⟨hr, -⟩ := RoomHub.reaped_reapZombies hs.keyed now zombieTimeoutMs
  obtain ⟨room₁, hroom₁, hw⟩ := hr.lookup hroom
  have hq₁ := hw.participants.mpr ⟨hq, by simp [hreaped, hqp]⟩
  have hsent : (zombieReaper s now).sent = s.sent ++ queueAll (DashMap.values room₁.participants)
      (farewell userId roomId (s.heap p).tracks) := by
    unfold zombieReaper
    dsimp only
    rw [hreaped, List.foldl_cons, List.foldl_nil]
    unfold notifyReaped
    dsimp only
    rw [get_eq_ok_iff.mpr hroom₁, (hs.keyed.room hroom).userId hp]
    dsimp only
    rw [broadcastToRoom_farewell]
  rw [mem_told hsent, mem_queueAll, and_iff_right (DashMap.mem_values hq₁)]

theorem rooms_zombieReaper (s : AppState) (now : Nat) :
    (zombieReaper s now).rooms = (s.rooms.reapZombies s.heap now zombieTimeoutMs).1 := by
  obtain ⟨queued, h⟩ := zombieReaper_eq s now
  rw [h]

/-- The hub after a leave and after a reaper's pass are the same just when the floor was not
held. -/
theorem sameHub_reaped_iff {now : Nat} (hs : s.Sound)
    (hroom : s.rooms.rooms.lookup roomId = some room)
    (hreaped : (s.rooms.reapZombies s.heap now zombieTimeoutMs).2 = [(roomId, p)])
    (hok : (releaseOnLeave s roomId userId).rooms.removeParticipant s.heap roomId userId =
      .ok (rooms, p)) :
    SameHub rooms (s.rooms.reapZombies s.heap now zombieTimeoutMs).1 ↔ ¬ holdsFloor room userId := by
  obtain ⟨hr, -⟩ := RoomHub.reaped_reapZombies hs.keyed now zombieTimeoutMs
  constructor
  · rintro h ⟨hmode, hspeaker⟩
    obtain ⟨room₀, room₁, hroom₀, -, hroom₁, hw₁⟩ := room_left hs hroom hok
    obtain ⟨room₂, hroom₂, hw₂⟩ := hr.lookup hroom
    obtain ⟨room', hroom', hfreed⟩ := (releaseOnLeave_freed s roomId userId).lookup hroom
    cases hroom₀.symm.trans hroom'
    have hsame := h.rooms roomId
    rw [hroom₁, hroom₂] at hsame
    cases hsame with
    | some hsame =>
      have hfloor := hsame.floor
      rw [hw₁.frame, hw₂.frame] at hfloor
      exact speaker_ne_of_released hroom₀ (hfreed.mode.trans hmode) (hfloor ▸ hspeaker)
  · intro hnot
    obtain ⟨room₀, hroom₀, hmode, hspeaker, -⟩ | ⟨-, h⟩ := releaseOnLeave_cases s roomId userId
    · cases hroom.symm.trans hroom₀
      exact absurd ⟨hmode, hspeaker⟩ hnot
    · rw [h] at hok
      refine .of_without (hs.keyed.removeParticipant hok) (hr.without.congr fun r q => ?_) fun r => ?_
      · simp [hreaped]
      · rw [hr.rooms, Room.RoomHub.mem_rooms_removeParticipant hok]

end

namespace Server

variable {s s₁ s₂ s₃ : Server} {sid : SessionId} {session : Session} {packet : Packet}
variable {draws : Draws} {roomId userId : String} {room : Room} {p : Ref} {now : Nat}

theorem step_roomLeave (hsession : s.sessions sid = some session)
    (huser : session.userId = some userId)
    (hreach : packet.reaches session = some (.roomLeave roomId))
    (h : s.step (.packet sid packet draws) = some s₁) :
    s₁.toAppState = (handleRoomLeave session s.toAppState packet.pid userId roomId).1 := by
  obtain rfl : session.userId.getD "" = userId := by rw [huser, Option.getD_some]
  simp only [step, hsession] at h
  split at h
  · cases h
  · rw [← Option.some.inj h, dispatch_of_reaches hreach]
    rfl

/-- Leaving, hanging up and being reaped take a participant out in the same way, and tell the
others what there is to tell, just when it does not hold the floor. -/
theorem teardowns_agree_iff (hs : s.Sound) (hsession : s.sessions sid = some session)
    (hcurrent : session.currentRoom = some roomId) (huser : session.userId = some userId)
    (hroom : s.rooms.rooms.lookup roomId = some room)
    (hp : room.participants.lookup userId = some p)
    (hreach : packet.reaches session = some (.roomLeave roomId))
    (hreaped : (s.rooms.reapZombies s.heap now zombieTimeoutMs).2 = [(roomId, p)])
    (h₁ : s.step (.packet sid packet draws) = some s₁) (h₂ : s.step (.disconnect sid) = some s₂)
    (h₃ : s.step (.zombieReaper now) = some s₃) :
    (Agree s.toAppState room p s₁.toAppState s₂.toAppState ∧
      Agree s.toAppState room p s₁.toAppState s₃.toAppState ∧
      ∀ v q e, room.participants.lookup v = some q → q ≠ p →
        (e ∈ s.told s₁.toAppState q ↔ e ∈ notices room roomId userId (s.heap p).tracks)) ↔
      ¬ holdsFloor room userId := by
  obtain ⟨room₀, hroom₀, hp₀⟩ : ∃ room₀,
      (releaseOnLeave s.toAppState roomId userId).rooms.rooms.lookup roomId = some room₀ ∧
        room₀.participants.lookup userId = some p := released_at.mpr ⟨room, hroom, hp⟩
  obtain ⟨rooms, hok⟩ := Room.RoomHub.removeParticipant_of_lookup s.heap hroom₀ hp₀
  obtain ⟨-, room₁, -, -, hroom₁, -⟩ := room_left hs hroom hok
  have hleave := step_roomLeave hsession huser hreach h₁
  have hrooms : s₁.rooms = rooms := by rw [hleave, (handleRoomLeave_eq_ok hok hroom₁).1]
  obtain ⟨session', hsession', rfl⟩ := step_disconnect h₂
  cases hsession.symm.trans hsession'
  cases h₃
  have htold : ∀ {v q e}, room.participants.lookup v = some q → q ≠ p →
      (e ∈ s.told s₁.toAppState q ↔ e ∈ notices room roomId userId (s.heap p).tracks) := by
    intro v q e hq hqp
    rw [hleave]
    exact told_leave hs hroom hok hq hqp
  rw [← sameHub_reaped_iff hs hroom hreaped hok, ← hrooms, ← rooms_zombieReaper]
  constructor
  · rintro ⟨-, hreaper, -⟩
    exact hreaper.hub
  · intro hsame
    have hnot : ¬ holdsFloor room userId := by
      rw [← sameHub_reaped_iff hs hroom hreaped hok, ← hrooms, ← rooms_zombieReaper]
      exact hsame
    refine ⟨⟨?_, fun v q e hq hqp => ?_⟩, ⟨hsame, fun v q e hq hqp => ?_⟩, fun v q e => htold⟩
    · rw [hrooms, rooms_cleanup hs hroom hcurrent huser hp hok]
      exact .refl rooms
    · rw [htold hq hqp, told_cleanup hs hroom hcurrent huser hp hok hq hqp]
    · rw [htold hq hqp, told_zombieReaper hs hroom hp hreaped hq hqp, notices, if_neg hnot,
        List.nil_append]

/-- Bob and Alice are in the room, and Bob has not been heard of for long. -/
def bobLost : List Label :=
  [ask 0 "b1" (.identify "" (some "bob")), ask 0 "b2" (.roomJoin "walkie"),
    ask 1 "a1" (.identify "" (some "alice")), ask 1 "a2" (.roomJoin "walkie"), .touch 1 1000000]

/-- If Bob holds the floor, the reaper leaves it to him. -/
theorem teardowns_disagree : ∃ s s₁ s₃ room, run step (start bootDraws)
      (bobLost ++ [ask 0 "b3" (.floorRequest "walkie")]) = some s ∧
    s.sessions 0 = some ⟨some "bob", some "walkie", some "b2p", some "b2s"⟩ ∧
    s.rooms.rooms.lookup "walkie" = some room ∧ room.participants.lookup "bob" = some 0 ∧
    (s.rooms.reapZombies s.heap 1000000 zombieTimeoutMs).2 = [("walkie", 0)] ∧
    s.step (ask 0 "b4" (.roomLeave "walkie")) = some s₁ ∧
    s.step (.zombieReaper 1000000) = some s₃ ∧
    ¬ Agree s.toAppState room 0 s₁.toAppState s₃.toAppState := by
  refine ⟨_, _, _, _, rfl, rfl, rfl, rfl, rfl, rfl, rfl, fun h => ?_⟩
  have hsame := h.hub.rooms "walkie"
  cases hsame with
  | some hsame => cases hsame.floor

/-- The same with a track of bob's. -/
def bobPublished : List Label := bobLost ++ [ask 0 "b3" (.publishTracks [⟨"audio", 1⟩])]

theorem teardowns_agree_iff_bob : ∃ s s₁ s₂ s₃, run step (start bootDraws) bobPublished = some s ∧
    s.step (ask 0 "b4" (.roomLeave "walkie")) = some s₁ ∧ s.step (.disconnect 0) = some s₂ ∧
    s.step (.zombieReaper 1000000) = some s₃ ∧
    s.told s₁.toAppState 1 = [.tracksUpdate .remove [⟨"bob", .audio, 1, "bob_0", none⟩],
      .roomEvent .participantLeft "walkie" "bob"] ∧
    SameHub s₁.rooms s₂.rooms ∧ SameHub s₁.rooms s₃.rooms := by
  obtain ⟨s, s₁, s₂, s₃, room, hrun, h₁, h₂, h₃, htold, hsession, hroom, hp, hreaped, hnot⟩ :
      ∃ s s₁ s₂ s₃ room, run step (start bootDraws) bobPublished = some s ∧
      s.step (ask 0 "b4" (.roomLeave "walkie")) = some s₁ ∧ s.step (.disconnect 0) = some s₂ ∧
      s.step (.zombieReaper 1000000) = some s₃ ∧
      s.told s₁.toAppState 1 = [.tracksUpdate .remove [⟨"bob", .audio, 1, "bob_0", none⟩],
        .roomEvent .participantLeft "walkie" "bob"] ∧
      s.sessions 0 = some ⟨some "bob", some "walkie", some "b2p", some "b2s"⟩ ∧
      s.rooms.rooms.lookup "walkie" = some room ∧ room.participants.lookup "bob" = some 0 ∧
      (s.rooms.reapZombies s.heap 1000000 zombieTimeoutMs).2 = [("walkie", 0)] ∧
      room.floor.currentSpeaker = none :=
    ⟨_, _, _, _, _, rfl, rfl, rfl, rfl, rfl, rfl, rfl, rfl, rfl, rfl⟩
  obtain ⟨hcleanup, hreaper, -⟩ := (teardowns_agree_iff (Reachable.sound ⟨_, _, hrun⟩) hsession rfl
    rfl hroom hp rfl hreaped h₁ h₂ h₃).mpr fun ⟨_, h⟩ => by simp [hnot] at h
  exact ⟨s, s₁, s₂, s₃, hrun, h₁, h₂, h₃, htold, hcleanup.hub, hreaper.hub⟩

end Server

end LightLivechat.Signaling
