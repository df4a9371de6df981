import LightLivechat.Room.HubRuns
import LightLivechat.Signaling.Server

/-! What the handlers and the tasks do, as equations. -/

namespace LightLivechat.Signaling

open LightLivechat.Config LightLivechat.Lib.Bytes LightLivechat.Lib.Std
open LightLivechat.Room (Heap Ref Participant PcType Room RoomHub Track TrackKind FloorAction
  FloorController)

/-- A room's floor and rewriters change, and nothing else of it. -/
structure FloorOnly (room room' : Room) : Prop where
  frame : room' = { room with
    floor := room'.floor
    audioRewriter := room'.audioRewriter
    videoRewriter := room'.videoRewriter }

namespace FloorOnly

variable {room room' : Room}

theorem refl : FloorOnly room room := ⟨rfl⟩

theorem id_eq (h : FloorOnly room room') : room'.id = room.id := by rw [h.frame]

theorem mode (h : FloorOnly room room') : room'.mode = room.mode := by rw [h.frame]

theorem participants (h : FloorOnly room room') : room'.participants = room.participants := by
  rw [h.frame]

theorem byUfrag (h : FloorOnly room room') : room'.byUfrag = room.byUfrag := by rw [h.frame]

theorem byAddr (h : FloorOnly room room') : room'.byAddr = room.byAddr := by rw [h.frame]

theorem trans {room'' : Room} (h : FloorOnly room room') (h' : FloorOnly room' room'') :
    FloorOnly room room'' := ⟨by rw [h'.frame, h.frame]⟩

end FloorOnly

/-- The floor changes hands at most to nobody. -/
structure FloorFreed (room room' : Room) : Prop extends FloorOnly room room' where
  speaker : room'.floor.currentSpeaker = room.floor.currentSpeaker ∨
    room'.floor.currentSpeaker = none

theorem FloorFreed.trans {room room' room'' : Room} (h : FloorFreed room room')
    (h' : FloorFreed room' room'') : FloorFreed room room'' where
  toFloorOnly := h.toFloorOnly.trans h'.toFloorOnly
  speaker := h'.speaker.elim (fun h' => h.speaker.imp h'.trans h'.trans) .inr

theorem FloorFreed.refl (room : Room) : FloorFreed room room := ⟨⟨rfl⟩, .inl rfl⟩

/-- Every room changes as the relation says, and nothing else of the hub does. -/
structure EachRoom (R : Room → Room → Prop) (hub hub' : RoomHub) : Prop where
  ufragIndex : hub'.ufragIndex = hub.ufragIndex
  addrIndex : hub'.addrIndex = hub.addrIndex
  room : ∀ r, Option.Rel R (hub.rooms.lookup r) (hub'.rooms.lookup r)

namespace EachRoom

variable {R R' : Room → Room → Prop} {hub hub' hub'' : RoomHub} {room room' : Room}
variable {r roomId : String} {p : Ref}

theorem refl (hR : ∀ room, R room room) : EachRoom R hub hub := by
  refine ⟨rfl, rfl, fun r => ?_⟩
  cases hub.rooms.lookup r with
  | none => exact .none
  | some room => exact .some (hR room)

theorem mono (h : EachRoom R hub hub') (hR : ∀ {room room'}, R room room' → R' room room') :
    EachRoom R' hub hub' := by
  refine ⟨h.ufragIndex, h.addrIndex, fun r => ?_⟩
  have hr := h.room r
  generalize hub.rooms.lookup r = x at *
  generalize hub'.rooms.lookup r = y at *
  cases hr with
  | none => exact .none
  | some hr => exact .some (hR hr)

theorem trans (hR : ∀ {x y z}, R x y → R y z → R x z) (h : EachRoom R hub hub')
    (h' : EachRoom R hub' hub'') : EachRoom R hub hub'' := by
  refine ⟨h'.ufragIndex.trans h.ufragIndex, h'.addrIndex.trans h.addrIndex, fun r => ?_⟩
  have h₁ := h.room r
  have h₂ := h'.room r
  generalize hub.rooms.lookup r = x at *
  generalize hub'.rooms.lookup r = y at *
  generalize hub''.rooms.lookup r = z at *
  cases h₁ with
  | none => exact h₂
  | some h₁ =>
    cases h₂ with
    | some h₂ => exact .some (hR h₁ h₂)

theorem insert (hR : ∀ room, R room room) (hroom : hub.rooms.lookup roomId = some room)
    (h : R room room') : EachRoom R hub { hub with rooms := hub.rooms.insert roomId room' } := by
  refine ⟨rfl, rfl, fun r => ?_⟩
  rw [DashMap.lookup_insert']
  split
  · subst r
    rw [hroom]
    exact .some h
  · exact (refl hR).room r

theorem lookup (h : EachRoom R hub hub') (hroom : hub.rooms.lookup r = some room) :
    ∃ room', hub'.rooms.lookup r = some room' ∧ R room room' := by
  have hr := h.room r
  rw [hroom] at hr
  generalize hub'.rooms.lookup r = y at *
  cases hr with
  | some hr => exact ⟨_, rfl, hr⟩

theorem lookup_back (h : EachRoom R hub hub') (hroom' : hub'.rooms.lookup r = some room') :
    ∃ room, hub.rooms.lookup r = some room ∧ R room room' := by
  have hr := h.room r
  rw [hroom'] at hr
  generalize hub.rooms.lookup r = x at *
  cases hr with
  | some hr => exact ⟨_, rfl, hr⟩

theorem member (h : EachRoom FloorOnly hub hub') : hub'.Member r p ↔ hub.Member r p := by
  constructor
  · rintro ⟨room', u, hroom', hu⟩
    obtain ⟨room, hroom, hfloor⟩ := h.lookup_back hroom'
    exact ⟨room, u, hroom, hfloor.participants ▸ hu⟩
  · rintro ⟨room, u, hroom, hu⟩
    obtain ⟨room', hroom', hfloor⟩ := h.lookup hroom
    exact ⟨room', u, hroom', hfloor.participants ▸ hu⟩

theorem sound {heap : Heap} {next : Ref} (h : EachRoom FloorOnly hub hub')
    (hs : hub.Sound heap next) : hub'.Sound heap next := by
  refine ⟨fun {r room'} hroom' => ?_, fun hr hr' => hs.home (h.member.mp hr) (h.member.mp hr')⟩
  obtain ⟨room, hroom, hfloor⟩ := h.lookup_back hroom'
  obtain ⟨hid, hsound⟩ := hs.room hroom
  refine ⟨hfloor.id_eq.trans hid, ⟨fun hu => ?_⟩, fun hu => ?_, fun hu => ?_, fun hu => ?_⟩
  · exact hsound.userId (hfloor.participants ▸ hu)
  · exact hsound.allocated (hfloor.participants ▸ hu)
  · rw [hfloor.participants]
    exact hsound.ufrag (hfloor.byUfrag ▸ hu)
  · rw [hfloor.participants]
    exact hsound.addr (hfloor.byAddr ▸ hu)

end EachRoom

def Packet.reaches (packet : Packet) (session : Session) : Option Request :=
  if packet.isResponse then none
  else
    match packet.body with
    | .request r =>
      if r.op ≠ Opcode.heartbeat ∧ r.op ≠ Opcode.identify ∧ !session.isAuthenticated then none
      else some r
    | _ => none

def AppState.queued (s : AppState) (p : Ref) : List Event :=
  (s.sent.filter fun e => e.1 = p).map fun e => e.2

theorem queued_append {s s' : AppState} {queued : List (Ref × Event)}
    (hsent : s'.sent = s.sent ++ queued) (p : Ref) :
    s'.queued p = s.queued p ++ (queued.filter fun e => e.1 = p).map fun e => e.2 := by
  unfold AppState.queued
  rw [hsent, List.filter_append, List.map_append]

/-- Whoever is queued something is in the room. -/
def SentTo (hub : RoomHub) (roomId : String) (queued : List (Ref × Event)) : Prop :=
  ∀ e ∈ queued, hub.Member roomId e.1

namespace SentTo

variable {hub : RoomHub} {roomId : String} {room : Room} {queued queued' : List (Ref × Event)}

theorem nil : SentTo hub roomId [] := fun _ he => absurd he (List.not_mem_nil)

theorem append (h : SentTo hub roomId queued) (h' : SentTo hub roomId queued') :
    SentTo hub roomId (queued ++ queued') :=
  fun e he => (List.mem_append.mp he).elim (h e) (h' e)

theorem map_entries (hroom : hub.rooms.lookup roomId = some room)
    {entries : List (Sigma fun _ : String => Ref)} (hsub : entries ⊆ room.participants.entries)
    {event : Event} : SentTo hub roomId (entries.map fun e => (e.2, event)) := by
  intro e he
  obtain ⟨⟨u, p⟩, hp, rfl⟩ := List.mem_map.mp he
  exact ⟨room, u, hroom, AList.mem_lookup_iff.mpr (hsub hp)⟩

theorem broadcastToOthers (hroom : hub.rooms.lookup roomId = some room) {userId : String}
    {event : Event} : SentTo hub roomId
      ((room.participants.entries.filter fun e => e.1 ≠ userId).map fun e => (e.2, event)) :=
  map_entries hroom List.filter_sublist.subset

end SentTo

section

variable {draws : Draws} {session : Session} {sid : SessionId} {state s : AppState} {pid : Nat}
variable {roomId userId : String} {room : Room}

theorem get_eq_ok_iff {rooms : RoomHub} :
    rooms.get roomId = .ok room ↔ rooms.rooms.lookup roomId = some room := by
  refine ⟨Room.RoomHub.get_eq_ok, fun h => ?_⟩
  simp [RoomHub.get, h]

theorem get_eq_error {rooms : RoomHub} {e : LightError} (h : rooms.get roomId = .error e) :
    rooms.rooms.lookup roomId = none := by
  cases hroom : rooms.rooms.lookup roomId with
  | none => rfl
  | some room => simp [get_eq_ok_iff.mpr hroom] at h

theorem dispatch_of_reaches {packet : Packet} {r : Request} (h : packet.reaches session = some r) :
    dispatch draws session sid state packet = handle draws session sid state packet.pid r := by
  unfold Packet.reaches at h
  split at h
  · cases h
  · rename_i hresp
    cases hbody : packet.body with
    | invalid | unknown => simp [hbody] at h
    | request r' =>
      simp only [hbody] at h
      split at h
      · cases h
      · cases h
        unfold dispatch
        rw [if_neg hresp, hbody]
        exact if_neg ‹_›

theorem refused_of_not_reaches {packet : Packet} (h : packet.reaches session = none) :
    ∃ reply, dispatch draws session sid state packet = (state, session, reply) ∧
      (reply = none ∨ ∃ op code msg, reply = some (.err op packet.pid code msg)) := by
  unfold dispatch
  dsimp only
  split_ifs with hresp hauth
  · exact ⟨_, rfl, .inl rfl⟩
  · exact ⟨_, rfl, .inr ⟨_, _, _, rfl⟩⟩
  · cases hbody : packet.body with
    | invalid | unknown => exact ⟨_, rfl, .inr ⟨_, _, _, rfl⟩⟩
    | request r =>
      rw [hbody] at hauth
      unfold Packet.reaches at h
      rw [if_neg hresp, hbody] at h
      cases (if_neg hauth).symm.trans h

theorem dispatch_of_not_reaches {packet : Packet} (h : packet.reaches session = none) :
    ∃ reply, dispatch draws session sid state packet = (state, session, reply) := by
  obtain ⟨reply, hdispatch, -⟩ := @refused_of_not_reaches draws session sid state packet h
  exact ⟨reply, hdispatch⟩

theorem body_of_reaches {packet : Packet} {r : Request} (h : packet.reaches session = some r) :
    packet.body = .request r := by
  unfold Packet.reaches at h
  split at h
  · cases h
  · split at h
    · rename_i hbody
      split at h
      · cases h
      · cases h
        exact hbody
    · cases h

theorem reply_of_not_reaches {packet : Packet} (h : packet.reaches session = none) :
    (dispatch draws session sid state packet).2.2 = none ∨ ∃ op code msg,
      (dispatch draws session sid state packet).2.2 = some (.err op packet.pid code msg) := by
  obtain ⟨reply, hdispatch, hreply⟩ := refused_of_not_reaches h
  rw [hdispatch]
  exact hreply

theorem currentParticipant_eq_ok {u : String} {p : Ref}
    (h : currentParticipant session s = .ok (room, u, p)) :
    u = session.userId.getD "" ∧ ∃ roomId, session.currentRoom = some roomId ∧
      s.rooms.rooms.lookup roomId = some room ∧ room.participants.lookup u = some p := by
  unfold currentParticipant at h
  split at h
  · cases h
  · split at h
    · cases h
    · dsimp only at h
      split at h
      · cases h
      · cases h
        exact ⟨rfl, _, ‹_›, get_eq_ok_iff.mp ‹_›, ‹_›⟩

theorem applyFloorAction_eq (hroom : s.rooms.rooms.lookup roomId = some room) (pid : Nat) (op : U16)
    (action : FloorAction) (userId : String) : ∃ queued,
      (applyFloorAction s pid op action room userId).1 = { s with sent := s.sent ++ queued } ∧
      SentTo s.rooms roomId queued := by
  cases action with
  | granted => exact ⟨_, rfl, .broadcastToOthers hroom⟩
  | released => exact ⟨_, rfl, .map_entries hroom (List.Subset.refl _)⟩
  | denied | pingOk | pingDenied | notPttRoom => exact ⟨[], by simp [applyFloorAction], .nil⟩
  | revoked prevSpeaker cause =>
    have hall : SentTo s.rooms roomId (room.participants.entries.map fun e =>
        (e.2, .floorIdle room.id prevSpeaker (some cause))) :=
      .map_entries hroom (List.Subset.refl _)
    cases hp : room.getParticipant prevSpeaker with
    | none => exact ⟨_, by simp only [applyFloorAction, hp]; rfl, hall⟩
    | some p =>
      have hone : SentTo s.rooms roomId [(p, .floorRevoke room.id cause)] := fun e he =>
        List.mem_singleton.mp he ▸ ⟨room, prevSpeaker, hroom, hp⟩
      refine ⟨_, ?_, hone.append hall⟩
      simp only [applyFloorAction, hp, AppState.send, AppState.broadcastToRoom, List.append_assoc]

def requested (room : Room) (userId : String) (now : Nat) : Room :=
  match (room.floor.request userId now).2 with
  | .granted speaker => switchSpeakers { room with floor := (room.floor.request userId now).1 } speaker
  | _ => { room with floor := (room.floor.request userId now).1 }

def released (room : Room) (userId : String) : Room :=
  match (room.floor.release userId).2 with
  | .released _ => clearSpeakers { room with floor := (room.floor.release userId).1 }
  | _ => { room with floor := (room.floor.release userId).1 }

theorem requested_floorOnly (room : Room) (userId : String) (now : Nat) :
    FloorOnly room (requested room userId now) := by
  unfold requested
  split <;> exact ⟨rfl⟩

theorem released_floorOnly (room : Room) (userId : String) :
    FloorOnly room (released room userId) := by
  unfold released
  split <;> exact ⟨rfl⟩

theorem applyFloorAction_setRoom (op : U16) (action : FloorAction) (room room' : Room) :
    (applyFloorAction (s.setRoom roomId room') pid op action room userId).1 =
      (applyFloorAction s pid op action room userId).1.setRoom roomId room' := by
  cases action with
  | revoked prevSpeaker cause =>
    simp only [applyFloorAction]
    split <;> rfl
  | _ => rfl

theorem applyFloorAction_floorOnly {room' : Room} (h : FloorOnly room room') (op : U16)
    (action : FloorAction) : applyFloorAction s pid op action room' userId =
      applyFloorAction s pid op action room userId := by
  rw [h.frame]
  rfl

theorem handleFloorRequest_eq (hroom : s.rooms.rooms.lookup roomId = some room)
    (hmode : room.mode = .ptt) : (handleFloorRequest draws s pid userId roomId).1 =
      (applyFloorAction s pid Opcode.floorRequest (room.floor.request userId draws.now).2 room
        userId).1.setRoom roomId (requested room userId draws.now) := by
  unfold handleFloorRequest
  rw [get_eq_ok_iff.mpr hroom]
  dsimp only
  rw [if_neg (not_not.mpr hmode)]
  rfl

theorem handleFloorRelease_eq (hroom : s.rooms.rooms.lookup roomId = some room)
    (hmode : room.mode = .ptt) : (handleFloorRelease s pid userId roomId).1 =
      (applyFloorAction s pid Opcode.floorRelease (room.floor.release userId).2
        room userId).1.setRoom roomId (released room userId) := by
  unfold handleFloorRelease
  rw [get_eq_ok_iff.mpr hroom]
  dsimp only
  rw [if_neg (not_not.mpr hmode), ← applyFloorAction_setRoom,
    ← applyFloorAction_floorOnly (released_floorOnly room userId)]
  rfl

theorem releaseOnLeave_cases (state : AppState) (roomId userId : String) :
    (∃ room, state.rooms.rooms.lookup roomId = some room ∧ room.mode = .ptt ∧
      room.floor.currentSpeaker = some userId ∧
      releaseOnLeave state roomId userId =
        (state.broadcastToRoom room (.floorIdle room.id userId none)).setRoom roomId
          (clearSpeakers { room with floor := .new })) ∨
    (∀ room, state.rooms.rooms.lookup roomId = some room → room.mode = .ptt →
      room.floor.currentSpeaker ≠ some userId) ∧ releaseOnLeave state roomId userId = state := by
  unfold releaseOnLeave
  cases hget : state.rooms.get roomId with
  | error e => exact .inr ⟨fun room hroom => by simp [get_eq_error hget] at hroom, rfl⟩
  | ok room =>
    have hroom := get_eq_ok_iff.mp hget
    by_cases hmode : room.mode = .ptt
    · cases hstate : room.floor.state with
      | idle =>
        refine .inr ⟨fun room' hroom' _ => ?_, ?_⟩
        · cases hroom.symm.trans hroom'
          simp [FloorController.currentSpeaker, hstate]
        · simp [hmode, FloorController.onParticipantLeave, hstate]
      | taken speaker burst ping =>
        by_cases hu : speaker = userId
        · refine .inl ⟨room, hroom, hmode, ?_, ?_⟩
          · simp [FloorController.currentSpeaker, hstate, hu]
          · simp [hmode, FloorController.onParticipantLeave, hstate, hu, applyFloorAction,
              FloorController.new]
        · refine .inr ⟨fun room' hroom' _ => ?_, ?_⟩
          · cases hroom.symm.trans hroom'
            simp [FloorController.currentSpeaker, hstate, hu]
          · simp [hmode, FloorController.onParticipantLeave, hstate, hu]
    · refine .inr ⟨fun room' hroom' h => ?_, by simp [hmode]⟩
      cases hroom.symm.trans hroom'
      exact absurd h hmode

theorem speaker_ne_of_released {room : Room}
    (hroom : (releaseOnLeave s roomId userId).rooms.rooms.lookup roomId = some room)
    (hmode : room.mode = .ptt) : room.floor.currentSpeaker ≠ some userId := by
  obtain ⟨room₀, -, -, -, h⟩ | ⟨hother, h⟩ := releaseOnLeave_cases s roomId userId
  · rw [h] at hroom
    cases (AList.lookup_insert _).symm.trans hroom
    exact fun h => by cases h
  · rw [h] at hroom
    exact hother room hroom hmode

theorem releaseOnLeave_freed (s : AppState) (roomId userId : String) :
    EachRoom FloorFreed s.rooms (releaseOnLeave s roomId userId).rooms := by
  obtain ⟨room, hroom, -, -, h⟩ | ⟨-, h⟩ := releaseOnLeave_cases s roomId userId
  · rw [h]
    exact .insert FloorFreed.refl hroom ⟨⟨rfl⟩, .inr rfl⟩
  · rw [h]
    exact .refl FloorFreed.refl

theorem releaseOnLeave_eq (s : AppState) (roomId userId : String) :
    ∃ queued, releaseOnLeave s roomId userId = { s with
      rooms := (releaseOnLeave s roomId userId).rooms
      sent := s.sent ++ queued } ∧ SentTo s.rooms roomId queued := by
  obtain ⟨room, hroom, -, -, h⟩ | ⟨-, h⟩ := releaseOnLeave_cases s roomId userId
  · rw [h]
    exact ⟨_, rfl, .map_entries hroom (List.Subset.refl _)⟩
  · rw [h]
    exact ⟨[], by rw [List.append_nil], .nil⟩

def farewell (userId roomId : String) (tracks : List Track) : List Event :=
  (if tracks = [] then [] else [.tracksUpdate .remove (tracks.map (trackInfo userId))]) ++
    [.roomEvent .participantLeft roomId userId]

def queueAll (refs : List Ref) (events : List Event) : List (Ref × Event) :=
  events.flatMap fun event => refs.map fun p => (p, event)

theorem SentTo.queueAll {hub : RoomHub} {refs : List Ref} (hrefs : ∀ p ∈ refs, hub.Member roomId p)
    (events : List Event) : SentTo hub roomId (queueAll refs events) := by
  intro e he
  obtain ⟨event, -, he⟩ := List.mem_flatMap.mp he
  obtain ⟨p, hp, rfl⟩ := List.mem_map.mp he
  exact hrefs p hp

theorem broadcastToRoom_farewell (state : AppState) (room : Room) (tracks : List Track) :
    (if tracks = [] then state
      else state.broadcastToRoom room (.tracksUpdate .remove (tracks.map (trackInfo userId)))
      ).broadcastToRoom room (.roomEvent .participantLeft roomId userId) =
    { state with
      sent := state.sent ++ queueAll (DashMap.values room.participants)
        (farewell userId roomId tracks) } := by
  by_cases h : tracks = [] <;>
    simp [h, farewell, queueAll, AppState.broadcastToRoom, DashMap.values, Function.comp_def]

theorem removeParticipant_lookup {heap : Heap} {rooms rooms' : RoomHub} {p : Ref}
    (hok : rooms.removeParticipant heap roomId userId = .ok (rooms', p)) :
    ∃ room room', rooms.rooms.lookup roomId = some room ∧
      room.removeParticipant heap userId = .ok (room', p) ∧
      rooms'.rooms.lookup roomId = some room' := by
  obtain ⟨room, room', hroom, hrem, rfl⟩ := Room.RoomHub.removeParticipant_eq_ok hok
  exact ⟨room, room', hroom, hrem, AList.lookup_insert _⟩

theorem member_of_left {rooms : RoomHub} {p : Ref}
    (hok : (releaseOnLeave s roomId userId).rooms.removeParticipant s.heap roomId userId =
      .ok (rooms, p)) (hroom : rooms.rooms.lookup roomId = some room) {q : Ref}
    (hq : q ∈ DashMap.values room.participants) : s.rooms.Member roomId q := by
  obtain ⟨room₀, room₁, hroom₀, hrem, hroom₁⟩ := removeParticipant_lookup hok
  cases hroom₁.symm.trans hroom
  obtain ⟨u, hu⟩ := DashMap.exists_lookup_of_mem_values hq
  refine ((releaseOnLeave_freed s roomId userId).mono fun h => h.toFloorOnly).member.mp
    ⟨room₀, u, hroom₀, ?_⟩
  unfold Room.removeParticipant at hrem
  split at hrem
  · cases hrem
  · cases hrem
    exact DashMap.lookup_erase_some hu

theorem handleRoomLeave_eq_error {e : LightError}
    (herr : (releaseOnLeave s roomId userId).rooms.removeParticipant s.heap roomId userId =
      .error e) :
    (handleRoomLeave session s pid userId roomId).1 = releaseOnLeave s roomId userId ∧
      (handleRoomLeave session s pid userId roomId).2.1 = session := by
  obtain ⟨queued, heq, -⟩ := releaseOnLeave_eq s roomId userId
  have hheap : (releaseOnLeave s roomId userId).heap = s.heap := by rw [heq]
  unfold handleRoomLeave
  simp only [hheap, herr, and_self]

theorem handleRoomLeave_eq_ok {rooms : RoomHub} {p : Ref}
    (hok : (releaseOnLeave s roomId userId).rooms.removeParticipant s.heap roomId userId =
      .ok (rooms, p)) (hroom : rooms.rooms.lookup roomId = some room) :
    (handleRoomLeave session s pid userId roomId).1 = { s with
        rooms := rooms
        sent := (releaseOnLeave s roomId userId).sent ++ queueAll (DashMap.values room.participants)
          (farewell userId roomId (s.heap p).tracks) } ∧
      (handleRoomLeave session s pid userId roomId).2.1 =
        { session with currentRoom := none, pubUfrag := none, subUfrag := none } := by
  obtain ⟨queued, heq, hqueued⟩ := releaseOnLeave_eq s roomId userId
  have hheap : (releaseOnLeave s roomId userId).heap = s.heap := by rw [heq]
  unfold handleRoomLeave
  simp only [hheap, hok, get_eq_ok_iff.mpr hroom, broadcastToRoom_farewell, and_true]
  rw [heq]

def others (room : Room) (userId : String) : List Ref :=
  (room.participants.entries.filter fun e => e.1 ≠ userId).map fun e => e.2

theorem broadcastToOthers_farewell (state : AppState) (room : Room) (tracks : List Track) :
    (if tracks = [] then state
      else state.broadcastToOthers room userId
        (.tracksUpdate .remove (tracks.map (trackInfo userId)))
      ).broadcastToOthers room userId (.roomEvent .participantLeft roomId userId) =
    { state with
      sent := state.sent ++ queueAll (others room userId) (farewell userId roomId tracks) } := by
  by_cases h : tracks = [] <;>
    simp [h, farewell, queueAll, others, AppState.broadcastToOthers, Function.comp_def]

theorem cleanup_eq_self_or (session : Session) (s : AppState) : cleanup session s = s ∨
    ∃ roomId userId, session.currentRoom = some roomId ∧ session.userId = some userId := by
  cases hcurrent : session.currentRoom with
  | none => exact .inl (by simp only [cleanup, hcurrent])
  | some roomId =>
    cases huser : session.userId with
    | none => exact .inl (by simp only [cleanup, hcurrent, huser])
    | some userId => exact .inr ⟨roomId, userId, rfl, rfl⟩

theorem cleanup_eq_ok {p : Ref} {rooms : RoomHub}
    (hcurrent : session.currentRoom = some roomId) (huser : session.userId = some userId)
    (hroom : (releaseOnLeave s roomId userId).rooms.rooms.lookup roomId = some room)
    (hok : (releaseOnLeave s roomId userId).rooms.removeParticipant s.heap roomId userId =
      .ok (rooms, p)) (hp : room.participants.lookup userId = some p) :
    cleanup session s = { s with
      rooms := rooms
      sent := (releaseOnLeave s roomId userId).sent ++ queueAll (others room userId)
        (farewell userId roomId (s.heap p).tracks) } := by
  obtain ⟨queued, heq, hqueued⟩ := releaseOnLeave_eq s roomId userId
  have hheap : (releaseOnLeave s roomId userId).heap = s.heap := by rw [heq]
  unfold cleanup
  simp only [hcurrent, huser, get_eq_ok_iff.mpr hroom, Room.getParticipant, hp, hheap,
    broadcastToOthers_farewell, hok]
  rw [heq]

theorem checkFloor_eq (now : Nat) (s : AppState) (roomId : String) : ∃ rooms queued,
    checkFloor now s roomId = { s with
      rooms := rooms
      sent := s.sent ++ queued } ∧ EachRoom FloorFreed s.rooms rooms := by
  have hsame : ∃ rooms queued, s = { s with
      rooms := rooms
      sent := s.sent ++ queued } ∧ EachRoom FloorFreed s.rooms rooms :=
    ⟨s.rooms, [], by rw [List.append_nil], .refl FloorFreed.refl⟩
  unfold checkFloor
  cases hroom : s.rooms.rooms.lookup roomId with
  | none => exact hsame
  | some room =>
    dsimp only
    split_ifs with hmode
    · exact hsame
    · obtain ⟨c', prev, cause, hcheck, hspeaker⟩ | hcheck :=
        FloorController.checkTimers_cases room.floor now
      · have hfreed : EachRoom FloorFreed s.rooms { s.rooms with
            rooms := s.rooms.rooms.insert roomId (clearSpeakers { room with floor := c' }) } :=
          .insert FloorFreed.refl hroom ⟨⟨rfl⟩, .inr hspeaker⟩
        simp only [hcheck]
        split
        · rename_i q _
          refine ⟨_, [(q, .floorRevoke room.id cause)] ++ room.participants.entries.map fun e =>
            (e.2, .floorIdle room.id prev none), ?_, hfreed⟩
          simp only [AppState.broadcastToRoom, AppState.send, AppState.setRoom, List.append_assoc]
          rfl
        · exact ⟨_, _, rfl, hfreed⟩
      · simp only [hcheck]
        exact hsame

theorem floorTimer_eq (s : AppState) (now : Nat) : ∃ rooms queued,
    floorTimer s now = { s with
      rooms := rooms
      sent := s.sent ++ queued } ∧ EachRoom FloorFreed s.rooms rooms := by
  unfold floorTimer
  generalize s.rooms.rooms.entries.map (fun e => e.1) = ids
  induction ids generalizing s with
  | nil => exact ⟨s.rooms, [], by rw [List.append_nil]; rfl, .refl FloorFreed.refl⟩
  | cons roomId ids ih =>
    obtain ⟨rooms, queued, hcheck, hfreed⟩ := checkFloor_eq now s roomId
    obtain ⟨rooms', queued', hrest, hfreed'⟩ := ih (checkFloor now s roomId)
    rw [hcheck] at hrest hfreed'
    refine ⟨rooms', queued ++ queued', ?_, hfreed.trans FloorFreed.trans hfreed'⟩
    rw [List.foldl_cons, hcheck, hrest, List.append_assoc]

theorem foldl_notifyReaped (reaped : List (String × Ref)) (s : AppState) : ∃ queued,
    reaped.foldl notifyReaped s = { s with sent := s.sent ++ queued } := by
  induction reaped generalizing s with
  | nil => exact ⟨[], by rw [List.append_nil]; rfl⟩
  | cons e reaped ih =>
    have hone : ∃ queued, notifyReaped s e = { s with sent := s.sent ++ queued } := by
      unfold notifyReaped
      dsimp only
      split
      · exact ⟨[], by rw [List.append_nil]⟩
      · exact ⟨_, broadcastToRoom_farewell ..⟩
    obtain ⟨queued, hone⟩ := hone
    obtain ⟨queued', hrest⟩ := ih (notifyReaped s e)
    rw [hone] at hrest
    exact ⟨queued ++ queued', by rw [List.foldl_cons, hone, hrest, List.append_assoc]⟩

theorem zombieReaper_eq (s : AppState) (now : Nat) : ∃ queued,
    zombieReaper s now = { s with
      rooms := (s.rooms.reapZombies s.heap now zombieTimeoutMs).1
      sent := s.sent ++ queued } :=
  foldl_notifyReaped _ { s with rooms := (s.rooms.reapZombies s.heap now zombieTimeoutMs).1 }

end

end LightLivechat.Signaling
