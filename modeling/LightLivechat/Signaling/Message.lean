import LightLivechat.Room.Room

/-! The signalling protocol: what a client asks, what it is answered and what is sent to
it unasked. -/

namespace LightLivechat.Signaling

open LightLivechat.Config LightLivechat.Lib.Bytes
open LightLivechat.Room (Track TrackKind)

namespace Opcode

def heartbeat : U16 := 1
def identify : U16 := 3
def roomList : U16 := 9
def roomCreate : U16 := 10
def roomJoin : U16 := 11
def roomLeave : U16 := 12
def publishTracks : U16 := 15
def muteUpdate : U16 := 17
def message : U16 := 20
def telemetry : U16 := 30
def floorRequest : U16 := 40
def floorRelease : U16 := 41
def floorPing : U16 := 42

/-- The requests whose payload is read. -/
def withPayload : List U16 :=
  [identify, roomCreate, roomJoin, roomLeave, publishTracks, muteUpdate, message, floorRequest,
    floorRelease, floorPing]

def known : List U16 := heartbeat :: roomList :: telemetry :: withPayload

end Opcode

structure PublishTrackItem where
  kind : String
  ssrc : U32

inductive Request where
  | heartbeat
  | identify (token : String) (userId : Option String)
  | roomList
  | roomCreate (name : String) (capacity : Option Nat) (mode : Option RoomMode)
  | roomJoin (roomId : String)
  | roomLeave (roomId : String)
  | publishTracks (tracks : List PublishTrackItem)
  | muteUpdate (ssrc : U32) (muted : Bool)
  | message (roomId content : String)
  | telemetry
  | floorRequest (roomId : String)
  | floorRelease (roomId : String)
  | floorPing (roomId : String)

def Request.op : Request → U16
  | .heartbeat => Opcode.heartbeat
  | .identify .. => Opcode.identify
  | .roomList => Opcode.roomList
  | .roomCreate .. => Opcode.roomCreate
  | .roomJoin .. => Opcode.roomJoin
  | .roomLeave .. => Opcode.roomLeave
  | .publishTracks .. => Opcode.publishTracks
  | .muteUpdate .. => Opcode.muteUpdate
  | .message .. => Opcode.message
  | .telemetry => Opcode.telemetry
  | .floorRequest .. => Opcode.floorRequest
  | .floorRelease .. => Opcode.floorRelease
  | .floorPing .. => Opcode.floorPing

/-- The opcode of a packet and what its payload deserialises to. -/
inductive Body where
  | request (r : Request)
  /-- The payload is not one of the request's. -/
  | invalid (op : U16) (h : op ∈ Opcode.withPayload)
  | unknown (op : U16) (h : op ∉ Opcode.known)

def Body.op : Body → U16
  | .request r => r.op
  | .invalid op _ => op
  | .unknown op _ => op

structure Packet where
  pid : Nat
  ok : Option Bool
  body : Body

def Packet.isResponse (p : Packet) : Bool := p.ok.isSome

structure TrackInfo where
  userId : String
  kind : TrackKind
  ssrc : U32
  trackId : String
  rtxSsrc : Option U32
  deriving DecidableEq

def trackInfo (userId : String) (t : Track) : TrackInfo where
  userId := userId
  kind := t.kind
  ssrc := t.ssrc
  trackId := t.trackId
  rtxSsrc := t.rtxSsrc

inductive TracksAction where
  | add
  | remove
  deriving DecidableEq

inductive RoomEventType where
  | participantJoined
  | participantLeft
  deriving DecidableEq

inductive Event where
  | roomEvent (type : RoomEventType) (roomId userId : String)
  | tracksUpdate (action : TracksAction) (tracks : List TrackInfo)
  | trackState (userId : String) (ssrc : U32) (kind : TrackKind) (muted : Bool)
  | messageEvent (roomId userId content : String)
  | floorTaken (roomId speaker : String)
  | floorIdle (roomId prevSpeaker : String) (cause : Option String)
  | floorRevoke (roomId cause : String)
  deriving DecidableEq

structure RoomInfo where
  roomId : String
  name : String
  capacity : Nat
  mode : RoomMode
  participants : Option Nat
  deriving DecidableEq

structure IceCredentials where
  ufrag : String
  pwd : String
  deriving DecidableEq

/-- The rest of the server's configuration is the same in every answer. -/
structure JoinInfo where
  roomId : String
  mode : RoomMode
  participants : List String
  publish : IceCredentials
  subscribe : IceCredentials
  tracks : List TrackInfo
  pttVirtualSsrc : Option (U32 × U32)
  deriving DecidableEq

inductive Answer where
  | empty
  | identified (userId : String)
  | rooms (rooms : List RoomInfo)
  | created (room : RoomInfo)
  | joined (info : JoinInfo)
  | registered (count : Nat)
  | muted (ssrc : U32) (muted : Bool)
  | msgId (id : String)
  | granted (speaker : String)
  deriving DecidableEq

structure ErrorBody where
  code : Nat
  msg : String
  deriving DecidableEq

structure Reply where
  op : U16
  pid : Nat
  result : Except ErrorBody Answer

def Reply.ok (op : U16) (pid : Nat) (d : Answer) : Reply := ⟨op, pid, .ok d⟩

def Reply.err (op : U16) (pid : Nat) (code : Nat) (msg : String) : Reply :=
  ⟨op, pid, .error ⟨code, msg⟩⟩

end LightLivechat.Signaling
