import LightLivechat.Error
import LightLivechat.Room.Floor
import LightLivechat.Room.Participant
import LightLivechat.Room.PttRewriter

/-! Rooms and the hub that finds them by user, by ufrag and by address. -/

set_option linter.dupNamespace false

namespace LightLivechat.Room

open LightLivechat.Config LightLivechat.Lib.Bytes LightLivechat.Lib.Std

structure Room where
  id : String
  name : String
  capacity : Nat
  mode : RoomMode
  createdAt : Nat
  floor : FloorController
  audioRewriter : PttRewriter
  videoRewriter : PttRewriter
  participants : DashMap String Ref
  byUfrag : DashMap String (Ref × PcType)
  byAddr : DashMap SocketAddr (Ref × PcType)

namespace Room

/-- The two virtual SSRCs are the random numbers the rewriters draw. -/
def new (id name : String) (capacity : Option Nat) (mode : RoomMode) (createdAt : Nat)
    (audioSsrc videoSsrc : U32) : Room where
  id := id
  name := name
  capacity := min (capacity.getD roomDefaultCapacity) roomMaxCapacity
  mode := mode
  createdAt := createdAt
  floor := .new
  audioRewriter := .newAudio audioSsrc
  videoRewriter := .newVideo videoSsrc
  participants := ∅
  byUfrag := ∅
  byAddr := ∅

variable (heap : Heap) (room : Room)

def addParticipant (p : Ref) : Except LightError Room :=
  if room.capacity ≤ room.participants.entries.length then .error .roomFull
  else if (heap p).userId ∈ room.participants then .error .alreadyInRoom
  else
    let byUfrag := room.byUfrag.insert (heap p).publish.ufrag (p, .publish)
    let byUfrag := byUfrag.insert (heap p).subscribe.ufrag (p, .subscribe)
    .ok { room with byUfrag := byUfrag, participants := room.participants.insert (heap p).userId p }

def eraseAddr {β : Type} (m : DashMap SocketAddr β) (addr : Option SocketAddr) :
    DashMap SocketAddr β :=
  match addr with
  | some addr => m.erase addr
  | none => m

def removeParticipant (userId : String) : Except LightError (Room × Ref) :=
  match room.participants.lookup userId with
  | none => .error .notInRoom
  | some p =>
    let byUfrag := room.byUfrag.erase (heap p).publish.ufrag
    let byUfrag := byUfrag.erase (heap p).subscribe.ufrag
    let byAddr := eraseAddr room.byAddr (heap p).publish.address
    let byAddr := eraseAddr byAddr (heap p).subscribe.address
    .ok ({ room with
      participants := room.participants.erase userId
      byUfrag := byUfrag
      byAddr := byAddr }, p)

def latch (ufrag : String) (addr : SocketAddr) : Option (Heap × Room × Ref × PcType) :=
  match room.byUfrag.lookup ufrag with
  | none => none
  | some (p, pcType) =>
    let byAddr :=
      match ((heap p).session pcType).address with
      | some oldAddr => if oldAddr ≠ addr then room.byAddr.erase oldAddr else room.byAddr
      | none => room.byAddr
    some (heap.update p fun p => p.updateSession pcType fun s => s.latchAddress addr,
      { room with byAddr := byAddr.insert addr (p, pcType) }, p, pcType)

def getParticipant (userId : String) : Option Ref := room.participants.lookup userId

def getByAddr (addr : SocketAddr) : Option (Ref × PcType) := room.byAddr.lookup addr

def getByUfrag (ufrag : String) : Option (Ref × PcType) := room.byUfrag.lookup ufrag

def findByTrackSsrc (ssrc : U32) : Option Ref :=
  (DashMap.values room.participants).find? fun p => (heap p).registered ssrc

variable {heap room}

theorem findByTrackSsrc_eq_some {ssrc : U32} {q : Ref}
    (h : room.findByTrackSsrc heap ssrc = some q) :
    q ∈ DashMap.values room.participants ∧ (heap q).registered ssrc = true := by
  refine ⟨List.mem_of_find?_eq_some h, ?_⟩
  exact List.find?_some (p := fun p => (heap p).registered ssrc) h

theorem findByTrackSsrc_owner {ssrc : U32} {q : Ref} (hq : q ∈ DashMap.values room.participants)
    (hreg : (heap q).registered ssrc = true)
    (honly : ∀ q' ∈ DashMap.values room.participants, (heap q').registered ssrc = true → q' = q) :
    room.findByTrackSsrc heap ssrc = some q := by
  cases hfind : room.findByTrackSsrc heap ssrc with
  | none => exact absurd hreg (List.find?_eq_none.mp hfind q hq)
  | some q' =>
    obtain ⟨hmem, hreg'⟩ := findByTrackSsrc_eq_some hfind
    rw [honly q' hmem hreg']

end Room

structure RoomHub where
  rooms : DashMap String Room
  ufragIndex : DashMap String String
  addrIndex : DashMap SocketAddr String

namespace RoomHub

def new : RoomHub := ⟨∅, ∅, ∅⟩

variable (heap : Heap) (hub : RoomHub)

/-- `id` is the fresh identifier the source generates. -/
def create (id name : String) (capacity : Option Nat) (mode : RoomMode) (createdAt : Nat)
    (audioSsrc videoSsrc : U32) : RoomHub :=
  { hub with
    rooms := hub.rooms.insert id (.new id name capacity mode createdAt audioSsrc videoSsrc) }

def get (roomId : String) : Except LightError Room :=
  match hub.rooms.lookup roomId with
  | some room => .ok room
  | none => .error .roomNotFound

def dropIndices (p : Ref) : RoomHub :=
  let ufragIndex := hub.ufragIndex.erase (heap p).publish.ufrag
  let addrIndex := Room.eraseAddr hub.addrIndex (heap p).publish.address
  { hub with
    ufragIndex := ufragIndex.erase (heap p).subscribe.ufrag
    addrIndex := Room.eraseAddr addrIndex (heap p).subscribe.address }

def removeRoom (roomId : String) : Except LightError RoomHub :=
  match hub.rooms.lookup roomId with
  | none => .error .roomNotFound
  | some room =>
    .ok ((DashMap.values room.participants).foldl (dropIndices heap)
      { hub with rooms := hub.rooms.erase roomId })

def addParticipant (roomId : String) (p : Ref) : Except LightError RoomHub := do
  let room ← hub.get roomId
  let room ← room.addParticipant heap p
  let ufragIndex := hub.ufragIndex.insert (heap p).publish.ufrag roomId
  return { hub with
    rooms := hub.rooms.insert roomId room
    ufragIndex := ufragIndex.insert (heap p).subscribe.ufrag roomId }

def removeParticipant (roomId userId : String) : Except LightError (RoomHub × Ref) := do
  let room ← hub.get roomId
  let (room, p) ← room.removeParticipant heap userId
  return ({ hub with rooms := hub.rooms.insert roomId room }.dropIndices heap p, p)

def latchByUfrag (ufrag : String) (addr : SocketAddr) : Option (Heap × RoomHub × Ref × PcType) := do
  let roomId ← hub.ufragIndex.lookup ufrag
  let room ← hub.rooms.lookup roomId
  let (heap, room, p, pcType) ← room.latch heap ufrag addr
  return (heap, { hub with
    rooms := hub.rooms.insert roomId room
    addrIndex := hub.addrIndex.insert addr roomId }, p, pcType)

def findByAddr (addr : SocketAddr) : Option (Ref × PcType × Room) := do
  let roomId ← hub.addrIndex.lookup addr
  let room ← hub.rooms.lookup roomId
  let (p, pcType) ← room.getByAddr addr
  return (p, pcType, room)

def findByUfrag (ufrag : String) : Option (Ref × PcType × Room) := do
  let roomId ← hub.ufragIndex.lookup ufrag
  let room ← hub.rooms.lookup roomId
  let (p, pcType) ← room.getByUfrag ufrag
  return (p, pcType, room)

def isZombie (nowMs timeoutMs : Nat) (p : Participant) : Bool :=
  0 < p.lastSeen ∧ nowMs - p.lastSeen > timeoutMs

def zombieIds (room : Room) (nowMs timeoutMs : Nat) : List String :=
  (room.participants.entries.filter fun e => isZombie nowMs timeoutMs (heap e.2)).map fun e => e.1

def reap (roomId : String) (acc : RoomHub × List (String × Ref)) (userId : String) :
    RoomHub × List (String × Ref) :=
  match acc.1.removeParticipant heap roomId userId with
  | .ok (hub, p) => (hub, acc.2 ++ [(roomId, p)])
  | .error _ => acc

def reapRoom (nowMs timeoutMs : Nat) (acc : RoomHub × List (String × Ref)) (roomId : String) :
    RoomHub × List (String × Ref) :=
  match acc.1.rooms.lookup roomId with
  | none => acc
  | some room => (zombieIds heap room nowMs timeoutMs).foldl (reap heap roomId) acc

def reapZombies (nowMs timeoutMs : Nat) : RoomHub × List (String × Ref) :=
  (hub.rooms.entries.map fun e => e.1).foldl (reapRoom heap nowMs timeoutMs) (hub, [])

end RoomHub

end LightLivechat.Room
