import LightLivechat.Room.Sound
import LightLivechat.Signaling.Message

/-! The handlers of the signalling connections, and the two tasks that look after the
floors and the zombies.  Each runs to completion. -/

namespace LightLivechat.Signaling

open LightLivechat.Config LightLivechat.Lib.Bytes LightLivechat.Lib.Std
open LightLivechat.Room (Heap Ref Participant Room RoomHub TrackKind FloorAction)

/-- A connection is told by the sending half of its channel. -/
abbrev SessionId := Nat

structure Session where
  userId : Option String
  currentRoom : Option String
  pubUfrag : Option String
  subUfrag : Option String
  deriving DecidableEq

namespace Session

def new : Session := ⟨none, none, none, none⟩

def isAuthenticated (s : Session) : Bool := s.userId.isSome

end Session

structure AppState where
  heap : Heap
  /-- The first reference not yet allocated. -/
  next : Ref
  rooms : RoomHub
  /-- The connection whose channel a participant is sent through. -/
  wsTx : Ref → SessionId
  /-- What has been queued to the participants, the latest last. -/
  sent : List (Ref × Event)

/-- What a handler takes from outside: the clock and the random generator. -/
structure Draws where
  now : Nat
  random : U16
  uuid : String
  audioSsrc : U32
  videoSsrc : U32
  publish : IceCredentials
  subscribe : IceCredentials

namespace AppState

variable (state : AppState)

def setRoom (roomId : String) (room : Room) : AppState :=
  { state with rooms := { state.rooms with rooms := state.rooms.rooms.insert roomId room } }

def send (p : Ref) (event : Event) : AppState := { state with sent := state.sent ++ [(p, event)] }

def broadcastToOthers (room : Room) (exclude : String) (event : Event) : AppState :=
  { state with sent := state.sent ++
    (room.participants.entries.filter fun e => e.1 ≠ exclude).map fun e => (e.2, event) }

def broadcastToRoom (room : Room) (event : Event) : AppState :=
  { state with sent := state.sent ++ room.participants.entries.map fun e => (e.2, event) }

end AppState

def clearSpeakers (room : Room) : Room :=
  { room with
    audioRewriter := room.audioRewriter.clearSpeaker
    videoRewriter := room.videoRewriter.clearSpeaker }

def switchSpeakers (room : Room) (speaker : String) : Room :=
  { room with
    audioRewriter := room.audioRewriter.switchSpeaker speaker
    videoRewriter := room.videoRewriter.switchSpeaker speaker }

/-- `char::is_whitespace`. -/
def isWhitespace (c : Char) : Bool :=
  (9 ≤ c.toNat ∧ c.toNat ≤ 13) ∨ c.toNat ∈ [0x20, 0x85, 0xa0, 0x1680, 0x2028, 0x2029, 0x202f, 0x205f,
    0x3000] ∨ (0x2000 ≤ c.toNat ∧ c.toNat ≤ 0x200a)

/-- `trim().is_empty()`. -/
def isBlank (s : String) : Bool := s.toList.all isWhitespace

/-- `format!("U{:03}", n)` of a number with three digits at most. -/
def anonymousId (n : Nat) : String :=
  String.ofList ['U', (n / 100).digitChar, (n / 10 % 10).digitChar, (n % 10).digitChar]

section

variable (draws : Draws) (session : Session) (sid : SessionId) (state : AppState) (pid : Nat)

def trackKind : String → Option TrackKind
  | "audio" => some .audio
  | "video" => some .video
  | _ => none

def applyFloorAction (op : U16) (action : FloorAction) (room : Room) (userId : String) :
    AppState × Reply :=
  match action with
  | .granted speaker =>
    (state.broadcastToOthers room userId (.floorTaken room.id speaker),
      .ok op pid (.granted speaker))
  | .denied reason currentSpeaker =>
    (state, .err op pid 2010 (reason ++ " (speaker=" ++ currentSpeaker ++ ")"))
  | .released prevSpeaker =>
    (state.broadcastToRoom room (.floorIdle room.id prevSpeaker none), .ok op pid .empty)
  | .revoked prevSpeaker cause =>
    let state := match room.getParticipant prevSpeaker with
      | some p => state.send p (.floorRevoke room.id cause)
      | none => state
    (state.broadcastToRoom room (.floorIdle room.id prevSpeaker (some cause)), .ok op pid .empty)
  | _ => (state, .ok op pid .empty)

def handleHeartbeat : AppState × Reply :=
  let state := match session.currentRoom, session.userId with
    | some roomId, some userId =>
      match state.rooms.get roomId with
      | .error _ => state
      | .ok room =>
        match room.getParticipant userId with
        | none => state
        | some p => { state with heap := state.heap.update p fun x => x.touch draws.now }
    | _, _ => state
  (state, .ok Opcode.heartbeat pid .empty)

def handleIdentify (reqUserId : Option String) : Session × Reply :=
  let userId := (reqUserId.filter fun id => !isBlank id).getD
    (anonymousId (draws.random.toNat % 1000))
  ({ session with userId := some userId }, .ok Opcode.identify pid (.identified userId))

def roomInfo (room : Room) (participants : Option Nat) : RoomInfo where
  roomId := room.id
  name := room.name
  capacity := room.capacity
  mode := room.mode
  participants := participants

def handleRoomList : Reply :=
  .ok Opcode.roomList pid (.rooms ((DashMap.values state.rooms.rooms).map fun room =>
    roomInfo room (some room.participants.entries.length)))

def handleRoomCreate (name : String) (capacity : Option Nat) (mode : Option RoomMode) :
    AppState × Reply :=
  let mode := mode.getD .conference
  let room := Room.new draws.uuid name capacity mode draws.now draws.audioSsrc draws.videoSsrc
  let rooms := state.rooms.create draws.uuid name capacity mode draws.now draws.audioSsrc
    draws.videoSsrc
  ({ state with rooms := rooms }, .ok Opcode.roomCreate pid (.created (roomInfo room none)))

def existingTracks (heap : Heap) (room : Room) (userId : String) : List TrackInfo :=
  (room.participants.entries.filter fun e => e.1 ≠ userId).flatMap fun e =>
    (heap e.2).tracks.map (trackInfo (heap e.2).userId)

def handleRoomJoin (userId roomId : String) : AppState × Session × Reply :=
  match state.rooms.get roomId with
  | .error _ => (state, session, .err Opcode.roomJoin pid 2001 "room not found")
  | .ok room =>
    let participant := Participant.new userId roomId draws.publish.ufrag draws.publish.pwd
      draws.subscribe.ufrag draws.subscribe.pwd draws.now
    let heap := state.heap.alloc state.next participant
    match state.rooms.addParticipant heap roomId state.next with
    | .error e => (state, session, .err Opcode.roomJoin pid e.code e.toString)
    | .ok rooms =>
      let state := { state with
        heap := heap
        next := state.next + 1
        rooms := rooms
        wsTx := Function.update state.wsTx state.next sid }
      let session := { session with
        currentRoom := some roomId
        pubUfrag := some draws.publish.ufrag
        subUfrag := some draws.subscribe.ufrag }
      -- The room is the same one, by now with the participant.
      let room := (state.rooms.rooms.lookup roomId).getD room
      let info : JoinInfo := {
        roomId := roomId
        mode := room.mode
        participants := room.participants.keys
        publish := draws.publish
        subscribe := draws.subscribe
        tracks := existingTracks heap room userId
        pttVirtualSsrc :=
          if room.mode = .ptt then
            some (room.audioRewriter.virtualSsrc, room.videoRewriter.virtualSsrc)
          else none }
      (state.broadcastToOthers room userId (.roomEvent .participantJoined roomId userId), session,
        .ok Opcode.roomJoin pid (.joined info))

/-- One entry of a request is registered; an unknown kind is passed over. -/
def publishTrack (userId : String) (acc : Participant × Nat × List TrackInfo)
    (t : PublishTrackItem) : Participant × Nat × List TrackInfo :=
  let (participant, trackIdCounter, newTracks) := acc
  match trackKind t.kind with
  | none => acc
  | some kind =>
    let trackId := userId ++ "_" ++ toString trackIdCounter
    let participant := participant.addTrack t.ssrc kind trackId
    let rtxSsrc := (participant.tracks.find? fun tr => tr.ssrc = t.ssrc).bind fun tr => tr.rtxSsrc
    (participant, trackIdCounter + 1, newTracks ++ [⟨userId, kind, t.ssrc, trackId, rtxSsrc⟩])

/-- The participant of the current room that the session's user id names. -/
def currentParticipant : Except (Nat × String) (Room × String × Ref) :=
  match session.currentRoom with
  | none => .error (2004, "not in room")
  | some roomId =>
    match state.rooms.get roomId with
    | .error _ => .error (2001, "room not found")
    | .ok room =>
      let userId := session.userId.getD ""
      match room.getParticipant userId with
      | none => .error (2004, "not in room")
      | some p => .ok (room, userId, p)

def handlePublishTracks (tracks : List PublishTrackItem) : AppState × Reply :=
  match currentParticipant session state with
  | .error (code, msg) => (state, .err Opcode.publishTracks pid code msg)
  | .ok (room, userId, p) =>
    let (participant, _, newTracks) :=
      tracks.foldl (publishTrack userId) (state.heap p, (state.heap p).tracks.length, [])
    let state := { state with heap := state.heap.update p fun _ => participant }
    let state := if newTracks = [] then state
      else state.broadcastToOthers room userId (.tracksUpdate .add newTracks)
    (state, .ok Opcode.publishTracks pid (.registered newTracks.length))

def handleMuteUpdate (ssrc : U32) (muted : Bool) : AppState × Reply :=
  match currentParticipant session state with
  | .error (code, msg) => (state, .err Opcode.muteUpdate pid code msg)
  | .ok (room, userId, p) =>
    match (state.heap p).setTrackMuted ssrc muted with
    | none => (state, .err Opcode.muteUpdate pid 2005 "track not found")
    | some (participant, kind) =>
      let state := { state with heap := state.heap.update p fun _ => participant }
      (state.broadcastToOthers room userId (.trackState userId ssrc kind muted),
        .ok Opcode.muteUpdate pid (.muted ssrc muted))

/-- What `ROOM_LEAVE` and a lost connection do first: a leaving speaker gives the floor up. -/
def releaseOnLeave (roomId userId : String) : AppState :=
  match state.rooms.get roomId with
  | .error _ => state
  | .ok room =>
    if room.mode = .ptt then
      match room.floor.onParticipantLeave userId with
      | (floor, some action) =>
        let (state, _) := applyFloorAction state 0 Opcode.floorRelease action room userId
        state.setRoom roomId (clearSpeakers { room with floor := floor })
      | (_, none) => state
    else state

def handleRoomLeave (userId roomId : String) : AppState × Session × Reply :=
  let state := releaseOnLeave state roomId userId
  match state.rooms.removeParticipant state.heap roomId userId with
  | .error e => (state, session, .err Opcode.roomLeave pid e.code e.toString)
  | .ok (rooms, p) =>
    let state := { state with rooms := rooms }
    let state := match state.rooms.get roomId with
      | .error _ => state
      | .ok room =>
        let tracks := (state.heap p).tracks
        let state := if tracks = [] then state
          else state.broadcastToRoom room (.tracksUpdate .remove (tracks.map (trackInfo userId)))
        state.broadcastToRoom room (.roomEvent .participantLeft roomId userId)
    (state, { session with currentRoom := none, pubUfrag := none, subUfrag := none },
      .ok Opcode.roomLeave pid .empty)

def handleMessage (userId roomId content : String) : AppState × Reply :=
  let state := match state.rooms.get roomId with
    | .error _ => state
    | .ok room => state.broadcastToOthers room userId (.messageEvent roomId userId content)
  (state, .ok Opcode.message pid (.msgId draws.uuid))

def handleFloorRequest (userId roomId : String) : AppState × Reply :=
  match state.rooms.get roomId with
  | .error _ => (state, .err Opcode.floorRequest pid 2001 "room not found")
  | .ok room =>
    if room.mode ≠ .ptt then (state, .err Opcode.floorRequest pid 2020 "not a PTT room")
    else
      let (floor, action) := room.floor.request userId draws.now
      let (state, response) := applyFloorAction state pid Opcode.floorRequest action room userId
      let room := { room with floor := floor }
      let room := match action with
        | .granted speaker => switchSpeakers room speaker
        | _ => room
      (state.setRoom roomId room, response)

def handleFloorRelease (userId roomId : String) : AppState × Reply :=
  match state.rooms.get roomId with
  | .error _ => (state, .err Opcode.floorRelease pid 2001 "room not found")
  | .ok room =>
    if room.mode ≠ .ptt then (state, .err Opcode.floorRelease pid 2020 "not a PTT room")
    else
      let (floor, action) := room.floor.release userId
      let room := { room with floor := floor }
      let room := match action with
        | .released _ => clearSpeakers room
        | _ => room
      applyFloorAction (state.setRoom roomId room) pid Opcode.floorRelease action room userId

def handleFloorPing (userId roomId : String) : AppState × Reply :=
  match state.rooms.get roomId with
  | .error _ => (state, .err Opcode.floorPing pid 2001 "room not found")
  | .ok room =>
    let (floor, action) := room.floor.ping userId draws.now
    let state := state.setRoom roomId { room with floor := floor }
    match action with
    | .pingOk => (state, .ok Opcode.floorPing pid .empty)
    | _ => (state, .err Opcode.floorPing pid 2021 "not current speaker")

/-- The user id is there wherever the source unwraps it. -/
def handle (r : Request) : AppState × Session × Option Reply :=
  let userId := session.userId.getD ""
  match r with
  | .heartbeat =>
    let (state, reply) := handleHeartbeat draws session state pid
    (state, session, some reply)
  | .identify _ reqUserId =>
    let (session, reply) := handleIdentify draws session pid reqUserId
    (state, session, some reply)
  | .roomList => (state, session, some (handleRoomList state pid))
  | .roomCreate name capacity mode =>
    let (state, reply) := handleRoomCreate draws state pid name capacity mode
    (state, session, some reply)
  | .roomJoin roomId =>
    let (state, session, reply) := handleRoomJoin draws session sid state pid userId roomId
    (state, session, some reply)
  | .roomLeave roomId =>
    let (state, session, reply) := handleRoomLeave session state pid userId roomId
    (state, session, some reply)
  | .publishTracks tracks =>
    let (state, reply) := handlePublishTracks session state pid tracks
    (state, session, some reply)
  | .muteUpdate ssrc muted =>
    let (state, reply) := handleMuteUpdate session state pid ssrc muted
    (state, session, some reply)
  | .message roomId content =>
    let (state, reply) := handleMessage draws state pid userId roomId content
    (state, session, some reply)
  | .telemetry => (state, session, none)
  | .floorRequest roomId =>
    let (state, reply) := handleFloorRequest draws state pid userId roomId
    (state, session, some reply)
  | .floorRelease roomId =>
    let (state, reply) := handleFloorRelease state pid userId roomId
    (state, session, some reply)
  | .floorPing roomId =>
    let (state, reply) := handleFloorPing draws state pid userId roomId
    (state, session, some reply)

def dispatch (packet : Packet) : AppState × Session × Option Reply :=
  let op := packet.body.op
  if packet.isResponse then (state, session, none)
  else if op ≠ Opcode.heartbeat ∧ op ≠ Opcode.identify ∧ !session.isAuthenticated then
    (state, session, some (.err op packet.pid 1001 "not authenticated"))
  else
    match packet.body with
    | .request r => handle draws session sid state packet.pid r
    | .invalid .. => (state, session, some (.err op packet.pid 3002 "invalid payload"))
    | .unknown .. => (state, session, some (.err op packet.pid 3001 "invalid opcode"))

def cleanup : AppState :=
  match session.currentRoom, session.userId with
  | some roomId, some userId =>
    let state := releaseOnLeave state roomId userId
    let state := match state.rooms.get roomId with
      | .error _ => state
      | .ok room =>
        let tracks := match room.getParticipant userId with
          | some p => (state.heap p).tracks
          | none => []
        let state := if tracks = [] then state
          else state.broadcastToOthers room userId
            (.tracksUpdate .remove (tracks.map (trackInfo userId)))
        state.broadcastToOthers room userId (.roomEvent .participantLeft roomId userId)
    match state.rooms.removeParticipant state.heap roomId userId with
    | .ok (rooms, _) => { state with rooms := rooms }
    | .error _ => state
  | _, _ => state

def checkFloor (now : Nat) (state : AppState) (roomId : String) : AppState :=
  match state.rooms.rooms.lookup roomId with
  | none => state
  | some room =>
    if room.mode ≠ .ptt then state
    else
      match room.floor.checkTimers now with
      | (floor, some (.revoked prevSpeaker cause)) =>
        let room := clearSpeakers { room with floor := floor }
        let state := state.setRoom roomId room
        let state := match room.getParticipant prevSpeaker with
          | some p => state.send p (.floorRevoke room.id cause)
          | none => state
        state.broadcastToRoom room (.floorIdle room.id prevSpeaker none)
      | _ => state

/-- One tick of `run_floor_timer`. -/
def floorTimer (now : Nat) : AppState :=
  (state.rooms.rooms.entries.map fun e => e.1).foldl (checkFloor now) state

def notifyReaped (state : AppState) (e : String × Ref) : AppState :=
  let (roomId, p) := e
  match state.rooms.get roomId with
  | .error _ => state
  | .ok room =>
    let zombie := state.heap p
    let state := if zombie.tracks = [] then state
      else state.broadcastToRoom room
        (.tracksUpdate .remove (zombie.tracks.map (trackInfo zombie.userId)))
    state.broadcastToRoom room (.roomEvent .participantLeft roomId zombie.userId)

/-- One tick of `run_zombie_reaper`. -/
def zombieReaper (now : Nat) : AppState :=
  let (rooms, reaped) := state.rooms.reapZombies state.heap now zombieTimeoutMs
  reaped.foldl notifyReaped { state with rooms := rooms }

end

def createDefaultRooms (draws : Fin 3 → Draws) (rooms : RoomHub) : RoomHub :=
  let defaults := [("무전 대화방", 10, RoomMode.ptt, draws 0), ("회의실-2", 10, RoomMode.conference, draws 1),
    ("대회의실", 20, RoomMode.conference, draws 2)]
  defaults.foldl (fun rooms (name, capacity, mode, d) =>
    rooms.create d.uuid name (some capacity) mode d.now d.audioSsrc d.videoSsrc) rooms

def AppState.new (rooms : RoomHub) : AppState where
  heap := fun _ => .new "" "" "" "" "" "" 0
  next := 0
  rooms := rooms
  wsTx := fun _ => 0
  sent := []

end LightLivechat.Signaling
