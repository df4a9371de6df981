import LightLivechat.Signaling.Teardown
import LightLivechat.Signaling.Views

/-! The server together with what has been sent to its participants, and what every step
makes of the scene. -/

namespace LightLivechat.Signaling

open LightLivechat.Config LightLivechat.Lib.Bytes LightLivechat.Lib.Std LightLivechat.Lib.Runs
open LightLivechat.Room (Heap Ref Participant Room RoomHub Track TrackKind FloorAction
  FloorController)

namespace AppState

def scene (s : AppState) : Scene where
  occupant := fun roomId userId =>
    (s.rooms.rooms.lookup roomId).bind fun room => room.participants.lookup userId
  tracks := fun p => (s.heap p).tracks
  speaker := fun roomId => (s.rooms.rooms.lookup roomId).bind fun room => room.floor.currentSpeaker

def members (s : AppState) (roomId : String) : List Ref :=
  match s.rooms.rooms.lookup roomId with
  | some room => DashMap.values room.participants
  | none => []

/-- What an answer to the connection tells a participant.  The answer to a join is the first
its participant gets, and the floor is granted to whoever asks. -/
def answered (s : AppState) (sid : SessionId) (request : Request) (reply : Option Reply) (p : Ref) :
    List Message :=
  match request, reply with
  | .roomJoin _, some ⟨_, _, .ok (.joined info)⟩ => if p = s.next then [.joined info] else []
  | .floorRequest roomId, some ⟨_, _, .ok (.granted speaker)⟩ =>
    if p ∈ s.members roomId ∧ s.wsTx p = sid then [.granted roomId speaker] else []
  | _, _ => []

def news (s t : AppState) (p : Ref) : List Message := (s.told t p).map .event

end AppState

def Server.answered (s : Server) (l : Label) (p : Ref) : List Message :=
  match l with
  | .packet sid packet draws =>
    match s.sessions sid, packet.body with
    | some session, .request r =>
      s.toAppState.answered sid r (dispatch draws session sid s.toAppState packet).2.2 p
    | _, _ => []
  | _ => []

/-- The server together with what has been sent to each participant through its own entry, the
latest last.  What its connection gets for another membership is not in it, and what is sent
to a connection that is closed is. -/
structure Audience extends Server where
  heard : Ref → List Message

namespace Audience

def start (draws : Fin 3 → Draws) : Audience := ⟨.start draws, fun _ => []⟩

def step (s : Audience) (l : Label) : Option Audience :=
  (s.toServer.step l).map fun s' =>
    ⟨s', fun p => s.heard p ++ (s.answered l p ++ s.news s'.toAppState p)⟩

end Audience

section

variable {draws : Draws} {session : Session} {sid : SessionId} {s t s' : AppState} {pid : Nat}
variable {roomId userId r u : String} {room : Room} {p q : Ref} {m : Message}
variable {queued queued' : List (Ref × Event)} {event : Event}

theorem occupant_iff : s.scene.occupant r u = some p ↔ s.At r u p := Option.bind_eq_some_iff

def eventsTo (queued : List (Ref × Event)) (q : Ref) : List Event :=
  (queued.filter fun e => e.1 = q).map fun e => e.2

theorem told_eq (hsent : t.sent = s.sent ++ queued) (q : Ref) : s.told t q = eventsTo queued q := by
  unfold AppState.told
  rw [queued_append hsent, List.drop_left]
  rfl

theorem mem_news (hsent : t.sent = s.sent ++ queued) :
    m ∈ s.news t q ↔ ∃ e, (q, e) ∈ queued ∧ m = .event e := by
  unfold AppState.news
  simp only [List.mem_map, mem_told hsent, eq_comm (a := m)]

theorem news_of_sent (hsent : t.sent = s.sent) (q : Ref) : s.news t q = [] := by
  have hnil : s.told t q = eventsTo [] q := told_eq (by rw [hsent, List.append_nil]) q
  unfold AppState.news
  rw [hnil]
  rfl

theorem eventsTo_entries (hs : s.Sound) (hroom : s.rooms.rooms.lookup roomId = some room)
    (hq : s.At r u q) (keep : String → Bool) (event : Event) :
    eventsTo ((room.participants.entries.filter fun e => keep e.1).map fun e => (e.2, event)) q =
      if r = roomId ∧ keep u then [event] else [] := by
  have hhere : ∀ e ∈ room.participants.entries, e.2 = q → r = roomId ∧ e = ⟨u, q⟩ := by
    rintro ⟨v, q'⟩ he rfl
    have hv : room.participants.lookup v = some q' := AList.mem_lookup_iff.mpr he
    obtain rfl : r = roomId := hs.home hq.member ⟨room, v, hroom, hv⟩
    obtain ⟨room', hroom', hu⟩ := hq
    cases hroom.symm.trans hroom'
    have hkey : v = u := ((hs.room hroom).2.userId hv).symm.trans ((hs.room hroom).2.userId hu)
    exact ⟨rfl, by rw [hkey]⟩
  unfold eventsTo
  rw [List.filter_map, List.map_map, List.filter_filter]
  split
  · rename_i hkeep
    obtain ⟨rfl, hkeep⟩ := hkeep
    obtain ⟨room', hroom', hu⟩ := hq
    cases hroom.symm.trans hroom'
    have hone : room.participants.entries.filter (fun e => e = ⟨u, q⟩) = [⟨u, q⟩] := by
      rw [List.filter_eq, List.count_eq_one_of_mem room.participants.nodupKeys.nodup
        (AList.mem_lookup_iff.mp hu)]
      rfl
    have hfilter : room.participants.entries.filter (fun e => decide (e.2 = q) && keep e.1) =
        room.participants.entries.filter fun e => e = ⟨u, q⟩ := by
      refine List.filter_congr fun e he => ?_
      rw [Bool.eq_iff_iff, Bool.and_eq_true, decide_eq_true_iff, decide_eq_true_iff]
      constructor
      · exact fun h => (hhere e he h.1).2
      · rintro rfl
        exact ⟨rfl, hkeep⟩
    simp only [Function.comp_def, hfilter, hone, List.map_cons, List.map_nil]
  · rename_i hkeep
    rw [List.filter_eq_nil_iff.mpr, List.map_nil]
    intro e he hboth
    rw [Function.comp_apply, Bool.and_eq_true, decide_eq_true_iff] at hboth
    obtain ⟨rfl, rfl⟩ := hhere e he hboth.1
    exact hkeep ⟨rfl, hboth.2⟩

theorem eventsTo_append (queued queued' : List (Ref × Event)) (q : Ref) :
    eventsTo (queued ++ queued') q = eventsTo queued q ++ eventsTo queued' q := by
  unfold eventsTo
  rw [List.filter_append, List.map_append]

theorem news_append (hsent : t.sent = s.sent ++ queued) (hsent' : s'.sent = t.sent ++ queued')
    (q : Ref) : s.news s' q = s.news t q ++ t.news s' q := by
  have hboth : s'.sent = s.sent ++ (queued ++ queued') := by
    rw [hsent', hsent, List.append_assoc]
  unfold AppState.news
  rw [told_eq hsent, told_eq hsent', told_eq hboth, eventsTo_append, List.map_append]

theorem broadcast_of_sent (hs : s.Sound) (hroom : s.rooms.rooms.lookup roomId = some room)
    (hsent : t.sent = (s.broadcastToOthers room userId event).sent) :
    s.scene.Broadcast (s.news t) roomId (some userId) [.event event] := by
  intro r u q hq
  unfold AppState.news
  rw [told_eq hsent, eventsTo_entries hs hroom (occupant_iff.mp hq) (fun v => v ≠ userId)]
  simp only [decide_eq_true_iff, ne_eq, Option.some.injEq, eq_comm (a := userId)]
  split
  · rfl
  · rfl

theorem scene_congr (hrooms : t.rooms.rooms = s.rooms.rooms)
    (htracks : ∀ p, (t.heap p).tracks = (s.heap p).tracks) : t.scene = s.scene := by
  unfold AppState.scene
  rw [hrooms]
  congr 1
  exact funext htracks

theorem scene_update {f : Participant → Participant} (hrooms : t.rooms = s.rooms)
    (hheap : t.heap = s.heap.update p f) : t.scene =
      { s.scene with tracks := Function.update s.scene.tracks p (f (s.heap p)).tracks } := by
  unfold AppState.scene
  rw [hrooms, hheap]
  congr 1
  funext q
  rw [Heap.update_apply, Function.update_apply]
  split
  · rfl
  · rfl

theorem scene_setRoom {room' : Room} (hroom : s.rooms.rooms.lookup roomId = some room)
    (hparts : room'.participants = room.participants) : (s.setRoom roomId room').scene =
      { s.scene with speaker := Function.update s.scene.speaker roomId room'.floor.currentSpeaker } := by
  unfold AppState.scene AppState.setRoom
  dsimp only
  congr 1
  · funext r u
    rw [DashMap.lookup_insert']
    split
    · subst r
      rw [hroom, Option.bind_some, Option.bind_some, hparts]
    · rfl
  · funext r
    rw [DashMap.lookup_insert', Function.update_apply]
    split
    · rfl
    · rfl

theorem speaker_eq (hroom : s.rooms.rooms.lookup roomId = some room) :
    s.scene.speaker roomId = room.floor.currentSpeaker := by
  unfold AppState.scene
  dsimp only
  rw [hroom, Option.bind_some]

end

end LightLivechat.Signaling
