import LightLivechat.Sfu.Invariants
import LightLivechat.Signaling.Turns

/-! Who is heard of, and who is given up.  A participant is heard of by a heartbeat of its
user's, by a Binding Request that names it and by media from its address, whether or not what
comes verifies or decrypts. -/

namespace LightLivechat.Signaling

open LightLivechat.Config LightLivechat.Lib.Std
open LightLivechat.Room (Ref Participant)

def heartOf (s : AppState) (session : Session) : Request → Option Ref
  | .heartbeat => do
    let roomId ← session.currentRoom
    let userId ← session.userId
    let room ← s.rooms.rooms.lookup roomId
    room.getParticipant userId
  | _ => none

section

variable {draws : Draws} {sid : SessionId} {s s' : AppState} {session session' : Session}
variable {userId : String} {r : Request} {p : Ref}

theorem publish_lastSeen (userId : String) (tracks : List PublishTrackItem) (x : Participant)
    (counter : Nat) (new : List TrackInfo) :
    (tracks.foldl (publishTrack userId) (x, counter, new)).1.lastSeen = x.lastSeen := by
  refine List.foldlRecOn (motive := fun acc : Participant × _ => acc.1.lastSeen = x.lastSeen) tracks
    _ rfl fun acc hacc t _ => Eq.trans ?_ hacc
  unfold publishTrack
  dsimp only
  split
  · rfl
  · unfold Participant.addTrack
    split
    · rfl
    · split <;> rfl

theorem mute_lastSeen {x x' : Participant} {ssrc : Lib.Bytes.U32} {mute : Bool}
    {kind : Room.TrackKind} (h : x.setTrackMuted ssrc mute = some (x', kind)) :
    x'.lastSeen = x.lastSeen := by
  obtain ⟨⟨tracks, kind'⟩, -, heq⟩ := Option.map_eq_some_iff.mp h
  cases heq
  rfl

theorem Handled.lastSeen (h : Handled draws sid s session userId r s' session')
    (hr : r ≠ .heartbeat) (hp : p < s.next) : (s'.heap p).lastSeen = (s.heap p).lastSeen := by
  cases h with
  | same | identified | created | messaged | floorChanged | left | notLeft | notPublished
  | notMuted => rfl
  | touched => exact absurd rfl hr
  | joined hok =>
    dsimp only
    rw [Room.Heap.alloc_of_lt hp]
  | published => exact Room.Heap.update_field (fun x => x.lastSeen) (publish_lastSeen ..) p
  | muted _ hset => exact Room.Heap.update_field (fun x => x.lastSeen) (mute_lastSeen hset) p

theorem Closed.heap (h : Closed s session s') : s'.heap = s.heap := by cases h <;> rfl

end

namespace Server

def heartIn (s : Server) (sid : SessionId) (packet : Packet) : Option Ref := do
  let session ← s.sessions sid
  let r ← packet.reaches session
  heartOf s.toAppState session r

end Server

end LightLivechat.Signaling

namespace LightLivechat.Sfu

open LightLivechat.Config LightLivechat.Lib.Bytes LightLivechat.Lib.Std LightLivechat.Lib.Runs
open LightLivechat.Room (Heap Ref Participant PcType Room RoomHub)
open LightLivechat.Transport LightLivechat.Transport.Srtp
open LightLivechat.Transport.Udp (Instant)

def stunUfrag (data : Bytes) : Option String := do
  let msg ← Stun.parse data
  if msg.msgType = Stun.bindingRequest then msg.username.map Udp.serverUfrag else none

namespace State

variable {P : Platform}

def heardOf (s : State P) : Label → Option (Ref × Nat)
  | .packet sid packet draws => (s.toServer.heartIn sid packet).map fun p => (p, draws.now)
  | .datagram _ data remote now _ =>
    let found := match classify data with
      | .stun => (stunUfrag data).bind s.rooms.findByUfrag
      | .srtp => s.rooms.findByAddr remote
      | _ => none
    found.map fun x => (x.1, now)
  | _ => none

def seen (p : Ref) (s : State P) (l : Label) : List Nat :=
  ((s.heardOf l).filter fun x => x.1 = p).toList.map fun x => x.2

section

variable {s s' : State P} {l : Label} {p : Ref}

theorem seen_eq_nil (h : ∀ now, s.heardOf l ≠ some (p, now)) : s.seen p l = [] := by
  unfold seen
  cases hheard : s.heardOf l with
  | none => rfl
  | some x =>
    have hne : x.1 ≠ p := fun heq => h x.2 (hheard.trans (by rw [← heq]))
    simp [Option.filter, hne]

theorem Inv.heardOf_member (hinv : s.Inv) {now : Nat} (h : s.heardOf l = some (p, now)) :
    ∃ r, s.rooms.Member r p := by
  cases l with
  | packet sid packet draws =>
    obtain ⟨q, hq, heq⟩ := Option.map_eq_some_iff.mp h
    cases heq
    obtain ⟨session, -, hr⟩ := Option.bind_eq_some_iff.mp hq
    obtain ⟨r, -, hheart⟩ := Option.bind_eq_some_iff.mp hr
    cases r with
    | heartbeat =>
      obtain ⟨roomId, -, huser⟩ := Option.bind_eq_some_iff.mp hheart
      obtain ⟨userId, -, hroom⟩ := Option.bind_eq_some_iff.mp huser
      obtain ⟨room, hroom, hp⟩ := Option.bind_eq_some_iff.mp hroom
      exact ⟨roomId, room, userId, hroom, hp⟩
    | _ => cases hheart
  | datagram worker data remote now arrival =>
    obtain ⟨⟨q, pc, room⟩, hfound, heq⟩ := Option.map_eq_some_iff.mp h
    cases heq
    split at hfound
    · obtain ⟨ufrag, -, hufrag⟩ := Option.bind_eq_some_iff.mp hfound
      obtain ⟨hroom, hp, -⟩ := hinv.sound.findByUfrag hufrag
      exact ⟨room.id, room, _, hroom, hp⟩
    · obtain ⟨hroom, hp, -⟩ := hinv.sound.findByAddr hfound
      exact ⟨room.id, room, _, hroom, hp⟩
    · cases hfound
  | _ => cases h

theorem Stepped.lastSeen {heap : Heap} {next : Ref} {rooms : RoomHub}
    (h : Stepped s l heap next rooms) (hsignals : l.signals = none)
    (hl : ∀ worker data remote now arrival, l ≠ .datagram worker data remote now arrival) :
    (heap p).lastSeen = (s.heap p).lastSeen := by
  cases h with
  | same => rfl
  | signalled hl => cases hsignals.symm.trans hl
  | latched | touched | answered | relayed | forwarded => exact (hl _ _ _ _ _ rfl).elim
  | @installed _ _ x =>
    exact Heap.update_field (fun y => y.lastSeen) (by cases x.pcType <;> rfl) p
  | @taken q _ rest =>
    exact Heap.update_field (f := fun y => { y with egress := rest }) (fun y => y.lastSeen) rfl p
  | readOut h =>
    obtain ⟨recorder, hread⟩ := h p
    rw [hread]

end

section

variable {draws : Fin 3 → Signaling.Draws} {labels : List Label} {s s' : State P} {p : Ref}

end

end State

end LightLivechat.Sfu
