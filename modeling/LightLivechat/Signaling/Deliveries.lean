import LightLivechat.Signaling.Turns

/-! The server with the connections that its messages go out by.  What handlers and tasks send
waits in the queue of the connection, and the answer to a request is written past it. -/

namespace LightLivechat.Signaling

open LightLivechat.Config LightLivechat.Lib.Bytes LightLivechat.Lib.Std LightLivechat.Lib.Runs
open LightLivechat.Room (Heap Ref Participant Room RoomHub Track)

/-- What a message says of the floor of a room: who has it, or that nobody has. -/
def Message.floor (roomId : String) : Message → Option (Option String)
  | .granted r speaker => if r = roomId then some (some speaker) else none
  | .event (.floorTaken r speaker) => if r = roomId then some (some speaker) else none
  | .event (.floorIdle r ..) => if r = roomId then some none else none
  | .event (.floorRevoke r ..) => if r = roomId then some none else none
  | _ => none

def lastSaid (roomId : String) (log : List Message) : Option (Option String) :=
  log.findSomeRev? (Message.floor roomId)

/-- Who has heard nothing of the floor takes it to be idle. -/
def belief (roomId : String) (log : List Message) : Option String := (lastSaid roomId log).join

def AppState.queuedTo (s t : AppState) (sid : SessionId) : List Event :=
  ((t.sent.drop s.sent.length).filter fun e => t.wsTx e.1 = sid).map fun e => e.2

/-- What the answer to a request for the floor says of it. -/
def grant (roomId : String) : Option Reply → List Message
  | some ⟨_, _, .ok (.granted speaker)⟩ => [.granted roomId speaker]
  | _ => []

/-- No other answer says anything of a floor. -/
def Server.grants (s : Server) (l : Label) (sid : SessionId) : List Message :=
  match l with
  | .packet sid' packet draws =>
    match s.sessions sid', packet.body with
    | some session, .request (.floorRequest roomId) =>
      if sid = sid' then grant roomId (dispatch draws session sid' s.toAppState packet).2.2 else []
    | _, _ => []
  | _ => []

structure World extends Server where
  /-- What waits in the channel of a connection, the oldest first. -/
  queue : SessionId → List Event
  /-- What has been written to a connection, the latest last. -/
  socket : SessionId → List Message

inductive Act where
  | serve (l : Label)
  /-- A connection writes the oldest of its queue. -/
  | write (sid : SessionId)

namespace World

def start (draws : Fin 3 → Draws) : World := ⟨.start draws, fun _ => [], fun _ => []⟩

/-- What is sent to a closed connection is lost. -/
def step (w : World) : Act → Option World
  | .serve l => (w.toServer.step l).map fun s => {
      toServer := s
      queue := fun sid => if (s.sessions sid).isNone then []
        else w.queue sid ++ w.queuedTo s.toAppState sid
      socket := fun sid => w.socket sid ++ w.grants l sid }
  | .write sid =>
    match w.sessions sid, w.queue sid with
    | some _, event :: events => some { w with
        queue := Function.update w.queue sid events
        socket := Function.update w.socket sid (w.socket sid ++ [.event event]) }
    | _, _ => none

/-- What will have been written once the queue is empty. -/
def heard (w : World) (sid : SessionId) : List Message :=
  w.socket sid ++ (w.queue sid).map .event

end World

section

variable {s t s' : AppState} {r roomId userId : String} {room : Room} {q : Ref} {m : Message}
variable {log log' : List Message} {speaker : Option String} {queued queued' : List (Ref × Event)}

theorem lastSaid_append (r : String) (log log' : List Message) :
    lastSaid r (log ++ log') = (lastSaid r log').or (lastSaid r log) := by
  unfold lastSaid
  simp only [List.findSomeRev?_eq_findSome?_reverse, List.reverse_append, List.findSome?_append]

theorem lastSaid_eq_none_iff : lastSaid r log = none ↔ ∀ m ∈ log, m.floor r = none := by
  unfold lastSaid
  rw [List.findSomeRev?_eq_findSome?_reverse, List.findSome?_eq_none_iff]
  simp only [List.mem_reverse]

theorem lastSaid_of_forall (h : ∀ m ∈ log, ∀ x, m.floor r = some x → x = speaker) :
    lastSaid r log = none ∨ lastSaid r log = some speaker := by
  cases hsaid : lastSaid r log with
  | none => exact .inl rfl
  | some x =>
    unfold lastSaid at hsaid
    rw [List.findSomeRev?_eq_findSome?_reverse] at hsaid
    obtain ⟨m, hm, hx⟩ := List.exists_of_findSome?_eq_some hsaid
    rw [h m (List.mem_reverse.mp hm) x hx]
    exact .inr rfl

theorem lastSaid_of_mem (h : ∀ m ∈ log, ∀ x, m.floor r = some x → x = speaker) (hm : m ∈ log)
    (hsome : m.floor r = some speaker) : lastSaid r log = some speaker :=
  (lastSaid_of_forall h).resolve_left fun hnone => by
    rw [lastSaid_eq_none_iff.mp hnone m hm] at hsome
    cases hsome

theorem belief_append_silent (h : lastSaid r log' = none) :
    belief r (log ++ log') = belief r log := by
  unfold belief
  rw [lastSaid_append, h, Option.none_or]

theorem belief_append_said (h : lastSaid r log' = some speaker) :
    belief r (log ++ log') = speaker := by
  unfold belief
  rw [lastSaid_append, h, Option.some_or, Option.join_some]

theorem belief_insert_silent {written : List Message} (h : lastSaid r written = none) :
    belief r (log ++ written ++ log') = belief r (log ++ log') := by
  unfold belief
  rw [lastSaid_append, lastSaid_append, lastSaid_append, h, Option.none_or]

theorem belief_overtaken (h : lastSaid r log' ≠ none) (written : List Message) :
    belief r (log ++ written ++ log') = belief r (log ++ log') := by
  obtain ⟨x, hx⟩ := Option.ne_none_iff_exists'.mp h
  rw [belief_append_said hx, belief_append_said hx]

theorem floor_eq_none (h : m.speaker = none) : m.floor r = none := by
  unfold Message.floor
  split
  · cases h
  · cases h
  · cases h
  · cases h
  · rfl

theorem queuedTo_eq (hsent : t.sent = s.sent ++ queued) (sid : SessionId) :
    s.queuedTo t sid = (queued.filter fun e => t.wsTx e.1 = sid).map fun e => e.2 := by
  unfold AppState.queuedTo
  rw [hsent, List.drop_left]

theorem mem_queuedTo (hsent : t.sent = s.sent ++ queued) {sid : SessionId} :
    m ∈ (s.queuedTo t sid).map Message.event ↔ ∃ e ∈ queued, t.wsTx e.1 = sid ∧ m = .event e.2 := by
  rw [queuedTo_eq hsent]
  simp only [List.map_map, List.mem_map, List.mem_filter, decide_eq_true_iff, Function.comp_apply,
    and_assoc, eq_comm (a := m)]

theorem queuedTo_append (hsent : t.sent = s.sent ++ queued) (hsent' : s'.sent = t.sent ++ queued')
    (hwsTx : s'.wsTx = t.wsTx) (sid : SessionId) :
    s.queuedTo s' sid = s.queuedTo t sid ++ t.queuedTo s' sid := by
  have hboth : s'.sent = s.sent ++ (queued ++ queued') := by
    rw [hsent', hsent, List.append_assoc]
  rw [queuedTo_eq hsent, queuedTo_eq hsent', queuedTo_eq hboth, hwsTx, List.filter_append,
    List.map_append]

end

end LightLivechat.Signaling
