import LightLivechat.Lib.Runs
import LightLivechat.Room.Sound

/-! The hub in operation: rooms are made and removed, participants join, latch, leave
and are reaped, in any order. -/

set_option linter.dupNamespace false

namespace LightLivechat.Room

open LightLivechat.Config LightLivechat.Lib.Bytes LightLivechat.Lib.Std LightLivechat.Lib.Runs

structure HubState where
  heap : Heap
  /-- The first reference not yet allocated. -/
  next : Ref
  hub : RoomHub
  /-- Every latch made so far, the latest first; nothing reads it. -/
  latches : List (SocketAddr × Ref × PcType)

inductive HubOp where
  | create (id name : String) (capacity : Option Nat) (mode : RoomMode) (createdAt : Nat)
    (audioSsrc videoSsrc : U32)
  /-- A freshly built participant is added; `ownRoom` is the room it says it is in. -/
  | addParticipant (roomId userId ownRoom pubUfrag pubPwd subUfrag subPwd : String)
    (joinedAt : Nat)
  | latchByUfrag (ufrag : String) (addr : SocketAddr)
  | removeParticipant (roomId userId : String)
  | reapZombies (nowMs timeoutMs : Nat)
  | removeRoom (roomId : String)
  /-- Media arrived from the participant. -/
  | touch (p : Ref) (ts : Nat)

namespace HubState

def new : HubState where
  heap := fun _ => .new "" "" "" "" "" "" 0
  next := 0
  hub := .new
  latches := []

/-- A failed operation leaves the hub as it was.  A fresh room id is no room's. -/
def step (s : HubState) : HubOp → Option HubState
  | .create id name capacity mode createdAt audioSsrc videoSsrc =>
    if id ∈ s.hub.rooms then none
    else some { s with
      hub := s.hub.create id name capacity mode createdAt audioSsrc videoSsrc }
  | .addParticipant roomId userId ownRoom pubUfrag pubPwd subUfrag subPwd joinedAt =>
    let p := Participant.new userId ownRoom pubUfrag pubPwd subUfrag subPwd joinedAt
    let heap := s.heap.alloc s.next p
    match s.hub.addParticipant heap roomId s.next with
    | .ok hub => some { s with heap := heap, next := s.next + 1, hub := hub }
    | .error _ => some s
  | .latchByUfrag ufrag addr =>
    match s.hub.latchByUfrag s.heap ufrag addr with
    | some (heap, hub, p, pcType) =>
      some { s with heap := heap, hub := hub, latches := (addr, p, pcType) :: s.latches }
    | none => some s
  | .removeParticipant roomId userId =>
    match s.hub.removeParticipant s.heap roomId userId with
    | .ok (hub, _) => some { s with hub := hub }
    | .error _ => some s
  | .reapZombies nowMs timeoutMs =>
    some { s with hub := (s.hub.reapZombies s.heap nowMs timeoutMs).1 }
  | .removeRoom roomId =>
    match s.hub.removeRoom s.heap roomId with
    | .ok hub => some { s with hub := hub }
    | .error _ => some s
  | .touch p ts => some { s with heap := s.heap.update p fun x => x.touch ts }

/-- The operation takes the participant out of the room. -/
def Leaves (s : HubState) (op : HubOp) (r : String) (p : Ref) : Prop :=
  match op with
  | .removeParticipant roomId userId => r = roomId ∧ ∃ room,
    s.hub.rooms.lookup roomId = some room ∧ room.participants.lookup userId = some p
  | .reapZombies nowMs timeoutMs =>
    s.hub.Member r p ∧ RoomHub.isZombie nowMs timeoutMs (s.heap p) = true
  | .removeRoom roomId => r = roomId ∧ s.hub.Member r p
  | _ => False

inductive Step (s : HubState) : HubOp → HubState → Prop
  | failed (op : HubOp) : Step s op s
  | created {id name : String} {capacity : Option Nat} {mode : RoomMode} {createdAt : Nat}
    {audioSsrc videoSsrc : U32} (hid : id ∉ s.hub.rooms) :
    Step s (.create id name capacity mode createdAt audioSsrc videoSsrc) { s with
      hub := s.hub.create id name capacity mode createdAt audioSsrc videoSsrc }
  | added {roomId userId ownRoom pubUfrag pubPwd subUfrag subPwd : String} {joinedAt : Nat}
    {p : Participant} {hub : RoomHub}
    (hp : p = .new userId ownRoom pubUfrag pubPwd subUfrag subPwd joinedAt)
    (hok : s.hub.addParticipant (s.heap.alloc s.next p) roomId s.next = .ok hub) :
    Step s (.addParticipant roomId userId ownRoom pubUfrag pubPwd subUfrag subPwd joinedAt) { s with
      heap := s.heap.alloc s.next p, next := s.next + 1, hub := hub }
  | latched {ufrag : String} {addr : SocketAddr} {heap : Heap} {hub : RoomHub} {p : Ref}
    {pcType : PcType} (hok : s.hub.latchByUfrag s.heap ufrag addr = some (heap, hub, p, pcType)) :
    Step s (.latchByUfrag ufrag addr) { s with
      heap := heap, hub := hub, latches := (addr, p, pcType) :: s.latches }
  | left {op : HubOp} {hub : RoomHub} (hw : s.hub.Without s.heap (s.Leaves op) hub) :
    Step s op { s with hub := hub }
  | touched (p : Ref) (ts : Nat) :
    Step s (.touch p ts) { s with heap := s.heap.update p fun x => x.touch ts }

variable {s s' : HubState} {op : HubOp}

theorem step_cases (hk : s.hub.Keyed s.heap) (h : s.step op = some s') : Step s op s' := by
  cases op with
  | create =>
    simp only [step] at h
    split at h
    · cases h
    · cases h
      exact .created ‹_›
  | addParticipant =>
    simp only [step] at h
    split at h
    · cases h
      exact .added rfl ‹_›
    · cases h
      exact .failed _
  | latchByUfrag =>
    simp only [step] at h
    split at h
    · cases h
      exact .latched ‹_›
    · cases h
      exact .failed _
  | removeParticipant roomId userId =>
    simp only [step] at h
    split at h
    · rename_i hub p hok
      cases h
      refine .left ((hk.removeParticipant hok).congr fun r q => ?_)
      obtain ⟨room, room', hroom, hrem, -⟩ := RoomHub.removeParticipant_eq_ok hok
      have hp := Room.removeParticipant_eq_ok hrem
      refine and_congr_right fun _ => ⟨fun hq => ⟨room, hroom, hq ▸ hp⟩, ?_⟩
      rintro ⟨room₁, hroom₁, hq⟩
      cases hroom.symm.trans hroom₁
      exact Option.some.inj (hq.symm.trans hp)
    · cases h
      exact .failed _
  | reapZombies nowMs timeoutMs =>
    cases h
    obtain ⟨hreaped, hmem⟩ := RoomHub.reaped_reapZombies hk nowMs timeoutMs
    exact .left (hreaped.without.congr fun r p => hmem)
  | removeRoom =>
    simp only [step] at h
    split at h
    · cases h
      exact .left (RoomHub.removeRoom_without ‹_›)
    · cases h
      exact .failed _
  | touch p ts =>
    cases h
    exact .touched p ts

theorem sameUsers_touch {heap : Heap} {next p : Ref} {ts : Nat} :
    heap.SameUsers next (heap.update p fun x => x.touch ts) :=
  .update rfl (funext fun _ => Participant.touch_session ..)

theorem sound_step (h : s.hub.Sound s.heap s.next) (hstep : s.step op = some s') :
    s'.hub.Sound s'.heap s'.next := by
  cases step_cases h.keyed hstep with
  | failed => exact h
  | created => exact h.create ..
  | added hp hok => exact h.addParticipant hok
  | latched hok => exact h.latchByUfrag hok
  | left hw => exact h.without hw
  | touched p ts => exact h.frame sameUsers_touch (Nat.le_refl _)

theorem sound_run {ops : List HubOp} (hs : s.hub.Sound s.heap s.next)
    (hrun : run step s ops = some s') : s'.hub.Sound s'.heap s'.next :=
  run_inv (G := fun _ _ => True) (P := fun s => s.hub.Sound s.heap s.next)
    (fun _ _ _ h _ hstep => sound_step h hstep) hs
    (.of_forall (fun _ _ => trivial) ..) hrun

theorem sound_new : new.hub.Sound new.heap new.next := RoomHub.sound_new

/-- What the indices find is a participant of the room it is found in, and its session
has the key. -/
theorem lookups_sound {ops : List HubOp} (hrun : run step new ops = some s) :
    (∀ a p pc room, s.hub.findByAddr a = some (p, pc, room) →
      s.hub.rooms.lookup room.id = some room ∧
      room.participants.lookup (s.heap p).userId = some p ∧
      ((s.heap p).session pc).address = some a) ∧
    ∀ u p pc room, s.hub.findByUfrag u = some (p, pc, room) →
      s.hub.rooms.lookup room.id = some room ∧
      room.participants.lookup (s.heap p).userId = some p ∧
      ((s.heap p).session pc).ufrag = u := by
  have hsound := sound_run sound_new hrun
  exact ⟨fun a p pc room h => hsound.findByAddr h, fun u p pc room h => hsound.findByUfrag h⟩

def addr (port : U16) : SocketAddr := .v4 0x0a000001 port

def twoJoined : List HubOp :=
  [.create "r" "" none .conference 0 0 0,
    .addParticipant "r" "alice" "r" "a1" "" "a2" "" 1, .addParticipant "r" "bob" "r" "b1" "" "b2" "" 1]

/-- Alice is found at the address she latched. -/
theorem lookups_sound_joined : ∃ s room, run step new (twoJoined ++ [.latchByUfrag "a1" (addr 5000)]) =
      some s ∧ s.hub.findByAddr (addr 5000) = some (0, .publish, room) ∧
    s.hub.rooms.lookup room.id = some room ∧ room.participants.lookup "alice" = some 0 := by
  refine ⟨_, _, rfl, rfl, ?_⟩
  have h := fun s (hrun : run step new (twoJoined ++ [.latchByUfrag "a1" (addr 5000)]) = some s) =>
    (lookups_sound hrun).1 (addr 5000) 0 .publish
  obtain ⟨hroom, hp, -⟩ := h _ rfl _ rfl
  exact ⟨hroom, hp⟩

end HubState

end LightLivechat.Room
