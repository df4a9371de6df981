import LightLivechat.Lib.Runs
import LightLivechat.Signaling.Handler

/-! The server in operation: packets of any connections, connections that close, ticks
of the two tasks, and what the media side does to the participants meanwhile. -/

namespace LightLivechat.Signaling

open LightLivechat.Config LightLivechat.Lib.Bytes LightLivechat.Lib.Std LightLivechat.Lib.Runs
open LightLivechat.Room (Heap Ref Participant PcType Room RoomHub FloorAction)

structure Server extends AppState where
  /-- None once the connection is closed. -/
  sessions : SessionId → Option Session

inductive Label where
  | packet (sid : SessionId) (packet : Packet) (draws : Draws)
  | disconnect (sid : SessionId)
  | floorTimer (now : Nat)
  | zombieReaper (now : Nat)
  /-- A STUN request latches a session at its address. -/
  | latch (ufrag : String) (addr : SocketAddr)
  /-- Media arrives from a participant. -/
  | touch (p : Ref) (now : Nat)

namespace Server

def start (draws : Fin 3 → Draws) : Server where
  toAppState := .new (createDefaultRooms draws .new)
  sessions := fun _ => some .new

/-- A drawn room id is no room's. -/
def step (s : Server) : Label → Option Server
  | .packet sid packet draws =>
    match s.sessions sid with
    | none => none
    | some session =>
      if draws.uuid ∈ s.rooms.rooms then none
      else
        let (state, session, _) := dispatch draws session sid s.toAppState packet
        some ⟨state, Function.update s.sessions sid (some session)⟩
  | .disconnect sid =>
    match s.sessions sid with
    | none => none
    | some session =>
      some ⟨cleanup session s.toAppState, Function.update s.sessions sid none⟩
  | .floorTimer now => some { s with toAppState := floorTimer s.toAppState now }
  | .zombieReaper now => some { s with toAppState := zombieReaper s.toAppState now }
  | .latch ufrag addr =>
    match s.rooms.latchByUfrag s.heap ufrag addr with
    | some (heap, rooms, _, _) => some { s with heap := heap, rooms := rooms }
    | none => some s
  | .touch p now => some { s with heap := s.heap.update p fun x => x.touch now }

def draws (uuid : String) : Draws where
  now := 1
  random := 0
  uuid := uuid
  audioSsrc := 0
  videoSsrc := 0
  publish := ⟨uuid ++ "p", ""⟩
  subscribe := ⟨uuid ++ "s", ""⟩

def bootDraws : Fin 3 → Draws
  | 0 => draws "walkie"
  | 1 => draws "meeting"
  | 2 => draws "hall"

def ask (sid : SessionId) (uuid : String) (r : Request) : Label :=
  .packet sid ⟨1, none, .request r⟩ (draws uuid)

end Server

end LightLivechat.Signaling
