import LightLivechat.Lib.Runs
import LightLivechat.Room.Room
import LightLivechat.Transport.Stun

/-! The STUN and DTLS handlers of the UDP workers, and the server state they share
with joins, leaves and the zombie reaper. -/

namespace LightLivechat.Transport.Udp

open LightLivechat.Lib LightLivechat.Lib.Bytes LightLivechat.Lib.Std LightLivechat.Config
open LightLivechat.Room (Heap Ref Participant PcType RoomHub)
open LightLivechat.Transport.Stun (Primitives)

structure DtlsPacketTx where
  queue : List Bytes
  closed : Bool

abbrev DtlsSessionMap := DashMap SocketAddr DtlsPacketTx

namespace DtlsSessionMap

def inject (m : DtlsSessionMap) (addr : SocketAddr) (data : Bytes) : DtlsSessionMap × Bool :=
  match m.lookup addr with
  | some tx =>
    if tx.closed then (m, false) else (m.insert addr { tx with queue := tx.queue ++ [data] }, true)
  | none => (m, false)

def has (m : DtlsSessionMap) (addr : SocketAddr) : Bool := (m.lookup addr).isSome

def removeStale (m : DtlsSessionMap) : DtlsSessionMap :=
  (m.entries.filter fun e => e.2.closed).foldl (fun m e => m.erase e.1) m

end DtlsSessionMap

structure Handshake where
  remote : SocketAddr
  participant : Ref
  pcType : PcType

/-- The state all workers share, each worker's own `dtlsMap`, and what they have
sent and started so far. -/
structure Server where
  heap : Heap
  next : Ref
  hub : RoomHub
  dtlsMap : Nat → DtlsSessionMap
  sent : List (SocketAddr × Bytes)
  handshakes : List Handshake

/-- `username.split(':').next()`. -/
def serverUfrag (username : String) : String :=
  String.ofList (username.toList.takeWhile fun ch => ch ≠ ':')

namespace Server

def init : Server where
  heap := fun _ => .new "" "" "" "" "" "" 0
  next := 0
  hub := .new
  dtlsMap := fun _ => ∅
  sent := []
  handshakes := []

def setDtlsMap (s : Server) (worker : Nat) (m : DtlsSessionMap) : Server :=
  { s with dtlsMap := Function.update s.dtlsMap worker m }

def startDtlsHandshake (s : Server) (worker : Nat) (remote : SocketAddr) (participant : Ref)
    (pcType : PcType) : Server :=
  { s.setDtlsMap worker ((s.dtlsMap worker).insert remote ⟨[], false⟩) with
    handshakes := s.handshakes ++ [⟨remote, participant, pcType⟩] }

variable (c : Primitives)

def handleStun (s : Server) (worker : Nat) (buf : Bytes) (remote : SocketAddr) (now : Nat) :
    Server :=
  match Stun.parse buf with
  | none => s
  | some msg =>
    if msg.msgType ≠ Stun.bindingRequest then s
    else
      match msg.username with
      | none => s
      | some username =>
        match s.hub.latchByUfrag s.heap (serverUfrag username) remote with
        | none => s
        | some (heap, hub, participant, pcType) =>
          let heap := heap.update participant fun p => p.touch now
          let s := { s with heap := heap, hub := hub }
          let session := (heap participant).session pcType
          let integrityKey := Stun.iceIntegrityKey session.icePwd
          if ¬ Stun.verifyMessageIntegrity c msg integrityKey then s
          else
            let response := Stun.buildBindingResponse c msg.transactionId remote integrityKey
            let s := { s with sent := s.sent ++ [(remote, response)] }
            if msg.hasUseCandidate ∧ ¬ (s.dtlsMap worker).has remote then
              s.startDtlsHandshake worker remote participant pcType
            else s

def handleDtls (s : Server) (worker : Nat) (data : Bytes) (remote : SocketAddr) : Server :=
  let (m, sent) := (s.dtlsMap worker).inject remote data
  if sent then s.setDtlsMap worker m
  else
    match s.hub.findByAddr remote with
    | none => s
    | some (participant, pcType, _) =>
      let s := s.startDtlsHandshake worker remote participant pcType
      s.setDtlsMap worker ((s.dtlsMap worker).inject remote data).1

end Server

inductive Event where
  | stun (worker : Nat) (buf : Bytes) (remote : SocketAddr) (now : Nat)
  | dtls (worker : Nat) (data : Bytes) (remote : SocketAddr)
  | dtlsClosed (worker : Nat) (addr : SocketAddr)
  | removeStale (worker : Nat)
  | touch (participant : Ref) (now : Nat)
  | create (id name : String) (capacity : Option Nat) (mode : RoomMode) (now : Nat)
      (audioSsrc videoSsrc : U32)
  | join (roomId userId pubUfrag pubPwd subUfrag subPwd : String) (now : Nat)
  | leave (roomId userId : String)
  | reap (now : Nat)
  | removeRoom (roomId : String)

namespace Server

/-- A refused join leaves the participant unreachable; refused leaves do nothing. -/
def step (c : Primitives) (s : Server) : Event → Option Server
  | .stun worker buf remote now => some (s.handleStun c worker buf remote now)
  | .dtls worker data remote => some (s.handleDtls worker data remote)
  | .dtlsClosed worker addr =>
    ((s.dtlsMap worker).lookup addr).map fun tx =>
      s.setDtlsMap worker ((s.dtlsMap worker).insert addr { tx with closed := true })
  | .removeStale worker => some (s.setDtlsMap worker (s.dtlsMap worker).removeStale)
  | .touch participant now =>
    if participant < s.next then
      some { s with heap := s.heap.update participant fun p => p.touch now }
    else none
  | .create id name capacity mode now audioSsrc videoSsrc =>
    some { s with hub := s.hub.create id name capacity mode now audioSsrc videoSsrc }
  | .join roomId userId pubUfrag pubPwd subUfrag subPwd now =>
    let heap := s.heap.update s.next fun _ =>
      .new userId roomId pubUfrag pubPwd subUfrag subPwd now
    match s.hub.addParticipant heap roomId s.next with
    | .ok hub => some { s with heap := heap, next := s.next + 1, hub := hub }
    | .error _ => some { s with heap := heap, next := s.next + 1 }
  | .leave roomId userId =>
    match s.hub.removeParticipant s.heap roomId userId with
    | .ok (hub, _) => some { s with hub := hub }
    | .error _ => some s
  | .reap now => some { s with hub := (s.hub.reapZombies s.heap now zombieTimeoutMs).1 }
  | .removeRoom roomId =>
    match s.hub.removeRoom s.heap roomId with
    | .ok hub => some { s with hub := hub }
    | .error _ => some s

end Server

end LightLivechat.Transport.Udp
