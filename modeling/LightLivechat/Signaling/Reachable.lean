import LightLivechat.Signaling.Handled

/-! What every state of the server satisfies, and who is where after a step. -/

namespace LightLivechat.Signaling

open LightLivechat.Config LightLivechat.Lib.Bytes LightLivechat.Lib.Std LightLivechat.Lib.Runs
open LightLivechat.Room (Heap Ref Participant PcType Room RoomHub Track TrackKind FloorAction
  FloorController)

section

variable {draws : Draws} {sid : SessionId} {s s' : AppState} {session session' : Session}
variable {userId : String} {r : Request} {next : Ref}

theorem addTrack_eq (p : Participant) (ssrc : U32) (kind : TrackKind) (trackId : String) :
    ∃ tracks counter, p.addTrack ssrc kind trackId =
      { p with tracks := tracks, rtxSsrcCounter := counter } := by
  unfold Participant.addTrack
  split
  · exact ⟨p.tracks, p.rtxSsrcCounter, rfl⟩
  · cases kind with
    | audio => exact ⟨_, p.rtxSsrcCounter, rfl⟩
    | video => exact ⟨_, _, rfl⟩

theorem publishTrack_of_none {t : PublishTrackItem} (h : trackKind t.kind = none)
    (acc : Participant × Nat × List TrackInfo) : publishTrack userId acc t = acc := by
  unfold publishTrack
  rw [h]

theorem publishTrack_of_some {t : PublishTrackItem} {kind : TrackKind}
    (h : trackKind t.kind = some kind) (p : Participant) (n : Nat) (infos : List TrackInfo) :
    ∃ infos', publishTrack userId (p, n, infos) t =
      (p.addTrack t.ssrc kind (userId ++ "_" ++ toString n), n + 1, infos') := by
  unfold publishTrack
  rw [h]
  exact ⟨_, rfl⟩

theorem foldl_publishTrack_eq (userId : String) (items : List PublishTrackItem) (p : Participant)
    (n : Nat) (infos : List TrackInfo) : ∃ tracks counter,
      (items.foldl (publishTrack userId) (p, n, infos)).1 =
        { p with tracks := tracks, rtxSsrcCounter := counter } := by
  induction items generalizing p n infos with
  | nil => exact ⟨p.tracks, p.rtxSsrcCounter, rfl⟩
  | cons t items ih =>
    rw [List.foldl_cons]
    cases hkind : trackKind t.kind with
    | none =>
      rw [publishTrack_of_none hkind]
      exact ih p n infos
    | some kind =>
      obtain ⟨infos', hpublish⟩ := publishTrack_of_some hkind p n infos
      obtain ⟨tracks, counter, hadd⟩ := addTrack_eq p t.ssrc kind (userId ++ "_" ++ toString n)
      rw [hpublish, hadd]
      exact ih _ _ _

theorem setTrackMuted_eq {p x : Participant} {ssrc : U32} {mute : Bool} {kind : TrackKind}
    (h : p.setTrackMuted ssrc mute = some (x, kind)) : ∃ tracks, x = { p with tracks := tracks } := by
  obtain ⟨t, -, ht⟩ := Option.map_eq_some_iff.mp h
  cases ht
  exact ⟨t.1, rfl⟩

theorem sameUsers_publish {heap : Heap} {p : Ref} {items : List PublishTrackItem} :
    heap.SameUsers next (heap.update p fun x =>
      (items.foldl (publishTrack userId) (x, x.tracks.length, [])).1) := by
  obtain ⟨tracks, counter, h⟩ := foldl_publishTrack_eq userId items (heap p) (heap p).tracks.length []
  refine .update ?_ ?_
  · rw [h]
  · rw [h]
    funext pc
    cases pc <;> rfl

theorem sameUsers_mute {heap : Heap} {p : Ref} {x : Participant} {ssrc : U32} {mute : Bool}
    {kind : TrackKind} (h : (heap p).setTrackMuted ssrc mute = some (x, kind)) :
    heap.SameUsers next (heap.update p fun _ => x) := by
  obtain ⟨tracks, rfl⟩ := setTrackMuted_eq h
  exact .update rfl (funext fun pc => by cases pc <;> rfl)

/-- The room stores the participant under the user id. -/
def AppState.At (s : AppState) (roomId userId : String) (p : Ref) : Prop :=
  ∃ room, s.rooms.rooms.lookup roomId = some room ∧ room.participants.lookup userId = some p

theorem AppState.At.member {s : AppState} {roomId userId : String} {p : Ref}
    (h : s.At roomId userId p) : s.rooms.Member roomId p := by
  obtain ⟨room, hroom, hp⟩ := h
  exact ⟨room, userId, hroom, hp⟩

theorem AppState.At.unique {s : AppState} {roomId userId : String} {p q : Ref}
    (h : s.At roomId userId p) (h' : s.At roomId userId q) : p = q := by
  obtain ⟨room, hroom, hp⟩ := h
  obtain ⟨room', hroom', hq⟩ := h'
  cases hroom.symm.trans hroom'
  exact Option.some.inj (hp.symm.trans hq)

theorem currentParticipant_at {room : Room} {p : Ref}
    (h : currentParticipant session s = .ok (room, userId, p)) :
    ∃ roomId, session.currentRoom = some roomId ∧ s.At roomId userId p := by
  obtain ⟨-, roomId, hcurrent, hroom, hp⟩ := currentParticipant_eq_ok h
  exact ⟨roomId, hcurrent, room, hroom, hp⟩

/-- What an index names is a participant of the room, in every room. -/
def AppState.Sound (s : AppState) : Prop := s.rooms.Sound s.heap s.next

theorem sound_released (hs : s.Sound) (roomId userId : String) :
    (releaseOnLeave s roomId userId).rooms.Sound s.heap s.next :=
  ((releaseOnLeave_freed s roomId userId).mono fun h => h.toFloorOnly).sound hs

theorem sound_left {roomId : String} {rooms : RoomHub} {p : Ref} (hs : s.Sound)
    (hok : (releaseOnLeave s roomId userId).rooms.removeParticipant s.heap roomId userId =
      .ok (rooms, p)) : rooms.Sound s.heap s.next :=
  have hrel := sound_released hs roomId userId
  hrel.without (hrel.keyed.removeParticipant hok)

theorem released_at {roomId : String} {r u : String} {p : Ref} :
    (∃ room, (releaseOnLeave s roomId userId).rooms.rooms.lookup r = some room ∧
      room.participants.lookup u = some p) ↔ s.At r u p := by
  have hfreed := releaseOnLeave_freed s roomId userId
  constructor
  · rintro ⟨room', hroom', hp⟩
    obtain ⟨room, hroom, hf⟩ := hfreed.lookup_back hroom'
    exact ⟨room, hroom, hf.participants ▸ hp⟩
  · rintro ⟨room, hroom, hp⟩
    obtain ⟨room', hroom', hf⟩ := hfreed.lookup hroom
    exact ⟨room', hroom', hf.participants ▸ hp⟩

theorem left_spec {roomId : String} {rooms : RoomHub} {p : Ref} (hs : s.Sound)
    (hok : (releaseOnLeave s roomId userId).rooms.removeParticipant s.heap roomId userId =
      .ok (rooms, p)) : s.At roomId userId p ∧
      ∀ {r q}, rooms.Member r q ↔ s.rooms.Member r q ∧ q ≠ p := by
  obtain ⟨room, room', hroom, hrem, -⟩ := removeParticipant_lookup hok
  have hat : s.At roomId userId p :=
    released_at.mp ⟨room, hroom, Room.Room.removeParticipant_eq_ok hrem⟩
  refine ⟨hat, fun {r q} => ?_⟩
  rw [((sound_released hs roomId userId).keyed.removeParticipant hok).member,
    ((releaseOnLeave_freed s roomId userId).mono fun h => h.toFloorOnly).member]
  refine and_congr_right fun hm => not_congr ⟨And.right, ?_⟩
  rintro rfl
  exact ⟨hs.home hm hat.member, rfl⟩

theorem notLeft_spec {roomId : String} {e : LightError}
    (herr : (releaseOnLeave s roomId userId).rooms.removeParticipant s.heap roomId userId =
      .error e) (p : Ref) : ¬ s.At roomId userId p := by
  intro hat
  obtain ⟨room, hroom, hp⟩ := released_at.mpr hat
  obtain ⟨rooms, hok⟩ := Room.RoomHub.removeParticipant_of_lookup s.heap hroom hp
  cases hok.symm.trans herr

theorem Handled.sound (h : Handled draws sid s session userId r s' session') (hs : s.Sound) :
    s'.Sound := by
  cases h with
  | same | identified | notPublished | notMuted | messaged => exact hs
  | touched => exact hs.frame Room.HubState.sameUsers_touch (Nat.le_refl _)
  | created => exact hs.create ..
  | joined hok => exact hs.addParticipant hok
  | published => exact hs.frame sameUsers_publish (Nat.le_refl _)
  | muted _ hset => exact hs.frame (sameUsers_mute hset) (Nat.le_refl _)
  | floorChanged _ hroom hframe => exact (EachRoom.insert (fun _ => .refl) hroom hframe).sound hs
  | left hok =>
    have hleft := sound_left hs hok
    exact hleft
  | notLeft => exact sound_released hs ..

theorem Closed.sound (h : Closed s session s') (hs : s.Sound) : s'.Sound := by
  cases h with
  | nowhere => exact hs
  | left _ _ hok =>
    have hleft := sound_left hs hok
    exact hleft
  | notLeft => exact sound_released hs ..

end

namespace Server

variable {s s' : Server} {l : Label}

/-- What a packet does: its request is handled, or nothing happens. -/
theorem step_packet {sid : SessionId} {packet : Packet} {draws : Draws}
    (h : s.step (.packet sid packet draws) = some s') :
    ∃ session, s.sessions sid = some session ∧ draws.uuid ∉ s.rooms.rooms ∧
      ((packet.reaches session = none ∧ s' = s) ∨
      ∃ r state session', packet.reaches session = some r ∧
        Handled draws sid s.toAppState session (session.userId.getD "") r state session' ∧
        s' = ⟨state, Function.update s.sessions sid (some session')⟩) := by
  simp only [step] at h
  split at h
  · cases h
  · rename_i session hsession
    split at h
    · cases h
    · refine ⟨session, hsession, ‹_›, ?_⟩
      cases hreach : packet.reaches session with
      | none =>
        obtain ⟨reply, hdispatch⟩ : ∃ reply, dispatch draws session sid s.toAppState packet =
            (s.toAppState, session, reply) := dispatch_of_not_reaches hreach
        rw [hdispatch] at h
        cases h
        refine .inl ⟨rfl, ?_⟩
        rw [← hsession, Function.update_eq_self]
      | some r =>
        rw [dispatch_of_reaches hreach] at h
        cases h
        exact .inr ⟨r, _, _, rfl, handled r, rfl⟩

theorem step_disconnect {sid : SessionId} (h : s.step (.disconnect sid) = some s') :
    ∃ session, s.sessions sid = some session ∧
      s' = ⟨cleanup session s.toAppState, Function.update s.sessions sid none⟩ := by
  simp only [step] at h
  split at h
  · cases h
  · cases h
    exact ⟨_, ‹_›, rfl⟩

theorem step_latch {ufrag : String} {addr : SocketAddr} (h : s.step (.latch ufrag addr) = some s') :
    s' = s ∨ ∃ heap rooms p pc, s.rooms.latchByUfrag s.heap ufrag addr = some (heap, rooms, p, pc) ∧
      s' = { s with heap := heap, rooms := rooms } := by
  simp only [step] at h
  split at h
  · cases h
    exact .inr ⟨_, _, _, _, ‹_›, rfl⟩
  · cases h
    exact .inl rfl

theorem sound_step (hs : s.Sound) (h : s.step l = some s') : s'.Sound := by
  cases l with
  | packet sid packet draws =>
    obtain ⟨session, -, -, ⟨-, rfl⟩ | ⟨r, state, session', -, hhandled, rfl⟩⟩ := step_packet h
    · exact hs
    · exact hhandled.sound hs
  | disconnect sid =>
    obtain ⟨session, -, rfl⟩ := step_disconnect h
    exact closed.sound hs
  | floorTimer now =>
    cases h
    obtain ⟨rooms, queued, heq, hfreed⟩ := floorTimer_eq s.toAppState now
    rw [AppState.Sound, heq]
    exact (hfreed.mono fun h => h.toFloorOnly).sound hs
  | zombieReaper now =>
    cases h
    obtain ⟨queued, heq⟩ := zombieReaper_eq s.toAppState now
    rw [AppState.Sound, heq]
    exact hs.without (RoomHub.reaped_reapZombies hs.keyed ..).1.without
  | latch ufrag addr =>
    obtain rfl | ⟨heap, rooms, p, pc, hlatch, rfl⟩ := step_latch h
    · exact hs
    · exact Room.RoomHub.Sound.latchByUfrag hs hlatch
  | touch p now =>
    cases h
    exact hs.frame Room.HubState.sameUsers_touch (Nat.le_refl _)

theorem sound_start (draws : Fin 3 → Draws) : (start draws).Sound := by
  have h : RoomHub.new.Sound (AppState.new RoomHub.new).heap 0 := Room.RoomHub.sound_new
  exact ((h.create ..).create ..).create ..

def Reachable (s : Server) : Prop := ∃ draws labels, run step (start draws) labels = some s

theorem Reachable.sound (h : s.Reachable) : s.Sound := by
  obtain ⟨draws, labels, hrun⟩ := h
  exact run_inv (G := fun _ _ => True) (P := fun s => s.Sound) (fun _ _ _ h _ hs => sound_step h hs)
    (sound_start draws) (.of_forall (fun _ _ => trivial) ..) hrun

end Server

end LightLivechat.Signaling
