import LightLivechat.Signaling.Reachable

/-! Who holds the floor of a push-to-talk room: a participant, unless it is granted to
somebody who is none, or its holder is reaped with it. -/

namespace LightLivechat.Signaling

open LightLivechat.Config LightLivechat.Lib.Bytes LightLivechat.Lib.Std LightLivechat.Lib.Runs
open LightLivechat.Room (Heap Ref Participant Room RoomHub)

/-- The floor of every push-to-talk room is held by a participant, or idle. -/
structure Seated (hub : RoomHub) : Prop where
  present : ∀ {r room u}, hub.rooms.lookup r = some room → room.mode = .ptt →
    room.floor.currentSpeaker = some u → u ∈ room.participants

section

variable {hub hub' : RoomHub} {heap : Heap} {room room' : Room} {roomId userId : String} {p : Ref}

theorem Seated.insert (h : Seated hub)
    (hroom' : ∀ {u}, room'.mode = .ptt → room'.floor.currentSpeaker = some u →
      u ∈ room'.participants) (hrooms : hub'.rooms = hub.rooms.insert roomId room') : Seated hub' := by
  refine ⟨fun {r room₁ u} hroom₁ hmode hu => ?_⟩
  rw [hrooms, DashMap.lookup_insert'] at hroom₁
  split at hroom₁
  · cases hroom₁
    exact hroom' hmode hu
  · exact h.present hroom₁ hmode hu

theorem Seated.create (h : Seated hub) (id name : String) (capacity : Option Nat) (mode : RoomMode)
    (createdAt : Nat) (audioSsrc videoSsrc : U32) :
    Seated (hub.create id name capacity mode createdAt audioSsrc videoSsrc) :=
  h.insert (fun _ hu => by cases hu) rfl

theorem Seated.addParticipant (h : Seated hub)
    (hok : hub.addParticipant heap roomId p = .ok hub') : Seated hub' := by
  obtain ⟨room, room', hroom, hadd, rfl⟩ := Room.RoomHub.addParticipant_eq_ok hok
  obtain ⟨-, rfl⟩ := Room.Room.addParticipant_eq_ok hadd
  refine h.insert (fun hmode hu => ?_) rfl
  exact AList.mem_insert _ |>.mpr (.inr (h.present hroom hmode hu))

theorem Seated.freed (h : Seated hub) (hf : EachRoom FloorFreed hub hub') : Seated hub' := by
  refine ⟨fun {r room' u} hroom' hmode hu => ?_⟩
  obtain ⟨room, hroom, hfreed⟩ := hf.lookup_back hroom'
  rw [hfreed.participants]
  rcases hfreed.speaker with hsame | hnone
  · exact h.present hroom (hfreed.mode.symm.trans hmode) (hsame.symm.trans hu)
  · simp [hnone] at hu

theorem Seated.without {gone : String → Ref → Prop} (h : Seated hub)
    (hw : hub.Without heap gone hub')
    (hstays : ∀ {r room u p}, hub.rooms.lookup r = some room → room.mode = .ptt →
      room.floor.currentSpeaker = some u → room.participants.lookup u = some p → ¬ gone r p) :
    Seated hub' := by
  refine ⟨fun {r room' u} hroom' hmode hu => ?_⟩
  obtain ⟨room, hroom, hwr⟩ := hw.room hroom'
  rw [hwr.frame] at hmode hu
  obtain ⟨q, hq⟩ := DashMap.mem_iff_lookup.mp (h.present hroom hmode hu)
  exact DashMap.mem_iff_lookup.mpr ⟨q, hwr.participants.mpr ⟨hq, hstays hroom hmode hu hq⟩⟩

end

section

variable {draws : Draws} {sid : SessionId} {s s' : AppState} {session session' : Session}
variable {roomId userId : String} {r : Request}

theorem seated_left {rooms : RoomHub} {p : Ref} (hs : s.Sound) (h : Seated s.rooms)
    (hok : (releaseOnLeave s roomId userId).rooms.removeParticipant s.heap roomId userId =
      .ok (rooms, p)) : Seated rooms := by
  have hkeyed := (sound_released hs roomId userId).keyed
  obtain ⟨room, room', hroom, hrem, -⟩ := removeParticipant_lookup hok
  refine (h.freed (releaseOnLeave_freed ..)).without (hkeyed.removeParticipant hok) ?_
  rintro r room₁ u q hroom₁ hmode hu hq ⟨rfl, rfl⟩
  cases hroom.symm.trans hroom₁
  have hp := Room.Room.removeParticipant_eq_ok hrem
  have hsame : u = userId :=
    ((hkeyed.room hroom).userId hq).symm.trans ((hkeyed.room hroom).userId hp)
  exact speaker_ne_of_released hroom hmode (hsame ▸ hu)

/-- A request that finds a floor idle comes from a participant. -/
def AsksFromRoom (s : AppState) (userId : String) (r : Request) : Prop :=
  ∀ roomId room, r = .floorRequest roomId → s.rooms.rooms.lookup roomId = some room →
    room.mode = .ptt → room.floor.currentSpeaker = none → userId ∈ room.participants

theorem Handled.seated (h : Handled draws sid s session userId r s' session') (hs : s.Sound)
    (hseated : Seated s.rooms) (hasks : AsksFromRoom s userId r) : Seated s'.rooms := by
  cases h with
  | same | identified | notPublished | notMuted | messaged | touched | published | muted =>
    exact hseated
  | created => exact hseated.create ..
  | joined hok => exact hseated.addParticipant hok
  | floorChanged hr hroom hframe hspeaker =>
    refine hseated.insert (fun hmode hu => ?_) rfl
    rw [hframe.participants]
    rcases hspeaker with hsame | hnone | ⟨rfl, hptt, hidle, hnew⟩
    · exact hseated.present hroom (hframe.mode.symm.trans hmode) (hsame.symm.trans hu)
    · simp [hnone] at hu
    · cases hnew.symm.trans hu
      exact hasks _ _ rfl hroom hptt hidle
  | left hok => exact seated_left hs hseated hok
  | notLeft => exact hseated.freed (releaseOnLeave_freed ..)

theorem Closed.seated (h : Closed s session s') (hs : s.Sound) (hseated : Seated s.rooms) :
    Seated s'.rooms := by
  cases h with
  | nowhere => exact hseated
  | left _ _ hok => exact seated_left hs hseated hok
  | notLeft => exact hseated.freed (releaseOnLeave_freed ..)

end

namespace Server

/-- The floor is asked for, where it is idle, by participants, and nobody is reaped while
holding one. -/
def FloorKept (s : Server) : Label → Prop
  | .packet sid packet _ => ∀ session r, s.sessions sid = some session →
    packet.reaches session = some r → AsksFromRoom s.toAppState (session.userId.getD "") r
  | .zombieReaper now => ∀ r room u p, s.rooms.rooms.lookup r = some room → room.mode = .ptt →
    room.floor.currentSpeaker = some u → room.participants.lookup u = some p →
    RoomHub.isZombie now zombieTimeoutMs (s.heap p) = false
  | _ => True

variable {s s' : Server} {l : Label}

theorem seated_step (hs : s.Sound) (h : Seated s.rooms) (hkept : s.FloorKept l)
    (hstep : s.step l = some s') : Seated s'.rooms := by
  cases l with
  | packet sid packet draws =>
    obtain ⟨session, hsession, -, ⟨-, rfl⟩ | ⟨r, state, session', hreach, hhandled, rfl⟩⟩ :=
      step_packet hstep
    · exact h
    · exact hhandled.seated hs h (hkept session r hsession hreach)
  | disconnect sid =>
    obtain ⟨session, -, rfl⟩ := step_disconnect hstep
    exact closed.seated hs h
  | floorTimer now =>
    cases hstep
    obtain ⟨rooms, queued, heq, hfreed⟩ := floorTimer_eq s.toAppState now
    rw [heq]
    exact h.freed hfreed
  | zombieReaper now =>
    cases hstep
    obtain ⟨queued, heq⟩ := zombieReaper_eq s.toAppState now
    rw [heq]
    obtain ⟨hreaped, hmem⟩ := RoomHub.reaped_reapZombies hs.keyed now zombieTimeoutMs
    refine h.without hreaped.without fun hroom hmode hu hp hgone => ?_
    simpa [hkept _ _ _ _ hroom hmode hu hp] using (hmem.mp hgone).2
  | latch ufrag addr =>
    obtain rfl | ⟨heap, rooms, p, pc, hlatch, rfl⟩ := step_latch hstep
    · exact h
    · obtain ⟨roomId, room, room', -, hroom, hl, rfl⟩ := Room.RoomHub.latchByUfrag_eq_some hlatch
      obtain ⟨-, -, hroom', -⟩ := Room.Room.latch_spec hl
      refine h.insert (fun hmode hu => ?_) rfl
      have hparts : room'.participants = room.participants := by rw [hroom']
      have hfloor : room'.floor = room.floor := by rw [hroom']
      have hm : room'.mode = room.mode := by rw [hroom']
      rw [hparts]
      exact h.present hroom (hm ▸ hmode) (hfloor ▸ hu)
  | touch p now =>
    cases hstep
    exact h

theorem seated_start (draws : Fin 3 → Draws) : Seated (start draws).rooms := by
  have h : Seated RoomHub.new := ⟨fun hroom => by cases hroom⟩
  exact ((h.create ..).create ..).create ..

/-- Whoever holds the floor of a push-to-talk room is in it. -/
theorem floor_holder_present {draws : Fin 3 → Draws} {labels : List Label}
    (hrun : run step (start draws) labels = some s)
    (hkept : Along step FloorKept (start draws) labels) {r u : String} {room : Room}
    (hroom : s.rooms.rooms.lookup r = some room) (hmode : room.mode = .ptt)
    (hu : room.floor.currentSpeaker = some u) : u ∈ room.participants := by
  have h := run_inv (P := fun s : Server => s.Sound ∧ Seated s.rooms)
    (fun _ _ _ h hkept hstep => ⟨sound_step h.1 hstep, seated_step h.1 h.2 hkept hstep⟩)
    ⟨sound_start draws, seated_start draws⟩ hkept hrun
  exact h.2.present hroom hmode hu

/-- Eve asks for the floor of a room she is not in. -/
theorem floor_holder_absent : ∃ s room, run step (start bootDraws)
      [ask 0 "e1" (.identify "" (some "eve")), ask 0 "e2" (.floorRequest "walkie")] = some s ∧
    s.rooms.rooms.lookup "walkie" = some room ∧ room.mode = .ptt ∧
    room.floor.currentSpeaker = some "eve" ∧ "eve" ∉ room.participants :=
  ⟨_, _, rfl, rfl, rfl, rfl, by decide⟩

def aliceTalks : List Label :=
  [ask 0 "a1" (.identify "" (some "alice")), ask 0 "a2" (.roomJoin "walkie"),
    ask 0 "a3" (.floorRequest "walkie")]

theorem floor_holder_present_alice : ∃ s room, run step (start bootDraws) aliceTalks = some s ∧
    s.rooms.rooms.lookup "walkie" = some room ∧ room.floor.currentSpeaker = some "alice" ∧
    "alice" ∈ room.participants := by
  have hkept : Along step FloorKept (start bootDraws) aliceTalks := by
    refine ⟨fun session r hs hr => ?_, fun s h => ?_⟩
    · cases hs
      cases hr
      intro roomId room h
      cases h
    cases h
    refine ⟨fun session r hs hr => ?_, fun s h => ?_⟩
    · cases hs
      cases hr
      intro roomId room h
      cases h
    cases h
    refine ⟨fun session r hs hr => ?_, fun s h => trivial⟩
    cases hs
    cases hr
    intro roomId room h hroom _ _
    cases h
    cases hroom
    decide
  obtain ⟨s, room, hrun, hroom, hmode, hu⟩ : ∃ s room, run step (start bootDraws) aliceTalks =
      some s ∧ s.rooms.rooms.lookup "walkie" = some room ∧ room.mode = .ptt ∧
      room.floor.currentSpeaker = some "alice" := ⟨_, _, rfl, rfl, rfl, rfl⟩
  exact ⟨s, room, hrun, hroom, hu, floor_holder_present hrun hkept hroom hmode hu⟩

end Server

end LightLivechat.Signaling
