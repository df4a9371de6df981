import LightLivechat.Lib.Components
import LightLivechat.Sfu.Forwarding
import LightLivechat.Sfu.Tasks

/-! What the whole server keeps in every step: participants are found in their rooms, and
references that are not allocated yet stand for nobody. -/

namespace LightLivechat.Sfu

open LightLivechat.Config LightLivechat.Lib.Bytes LightLivechat.Lib.Std LightLivechat.Lib.Runs
open LightLivechat.Room (Heap Ref Participant PcType MediaSession Room RoomHub EgressPacket)
open LightLivechat.Signaling (FloorOnly EachRoom SameMedia)
open LightLivechat.Transport LightLivechat.Transport.Srtp
open LightLivechat.Transport.Udp (Instant)

/-- The lookups of a hub depend on who the participants are, their ufrags and addresses. -/
structure SameEntry (x x' : Participant) : Prop where
  userId : x'.userId = x.userId
  ufrag : ∀ pc, (x'.session pc).ufrag = (x.session pc).ufrag
  address : ∀ pc, (x'.session pc).address = (x.session pc).address

theorem MediaOnly.sameEntry {x x' : Participant} (h : MediaOnly x x') : SameEntry x x' where
  userId := h.userId
  ufrag := fun pc => by rw [h.session]
  address := fun pc => by rw [h.session]

theorem sound_of_sameEntry {hub : RoomHub} {heap heap' : Heap} {next : Ref}
    (h : hub.Sound heap next) (hsame : ∀ p, p < next → SameEntry (heap p) (heap' p)) :
    hub.Sound heap' next where
  room := by
    intro r room hroom
    obtain ⟨hid, hs⟩ := h.room hroom
    refine ⟨hid, ⟨fun hu => ?_⟩, hs.allocated, fun hu => ?_, fun ha => ?_⟩
    · rw [(hsame _ (hs.allocated hu)).userId]
      exact hs.userId hu
    · obtain ⟨hp, hufrag⟩ := hs.ufrag hu
      have he := hsame _ (hs.allocated hp)
      rw [he.userId, he.ufrag]
      exact ⟨hp, hufrag⟩
    · obtain ⟨hp, haddr⟩ := hs.addr ha
      have he := hsame _ (hs.allocated hp)
      rw [he.userId, he.address]
      exact ⟨hp, haddr⟩
  home := h.home

namespace State

variable {P : Platform}

def blank : Participant := .new "" "" "" "" "" "" 0

structure Inv (s : State P) : Prop where
  sound : s.rooms.Sound s.heap s.next
  home : ∀ {r p}, s.rooms.Member r p → (s.heap p).roomId = r
  free : ∀ {p}, s.next ≤ p → s.heap p = blank
  handshakes : ∀ x ∈ s.handshakes, x.participant < s.next

section

variable {s s' : State P} {l : Label} {heap : Heap} {next : Ref} {rooms : RoomHub}

theorem isReady_of_toOption {ctx : SrtpContext P.srtp} {data b : Bytes}
    {f : P.srtp.Context → Bytes → P.srtp.Context × Except String Bytes}
    {failed : String → SrtpError} (h : (ctx.pass f failed data).2.toOption = some b) :
    ctx.isReady = true := by
  have hpass : ctx.pass f failed data = ((ctx.pass f failed data).1, .ok b) →
      ctx.isReady = true := fun h => SrtpContext.isReady_of_pass ctx data h
  refine hpass ?_
  cases hresult : (ctx.pass f failed data).2 with
  | error e => simp [hresult, Except.toOption] at h
  | ok b' =>
    rw [hresult] at h
    cases h
    rw [← hresult]

theorem heard_source {worker now : Nat} {data : Bytes} {remote : SocketAddr} {arrival : Instant}
    {m : Media} (h : s.heard (.datagram worker data remote now arrival) = some m) :
    s.rooms.findByAddr remote = some m.source ∧
      (s.srtp m.source.1 m.source.2.1).inbound.isReady = true := by
  unfold heard at h
  dsimp only at h
  split at h
  · unfold decrypted at h
    split at h
    · cases h
    · rename_i p room hfind
      split at h
      · obtain ⟨b, hb, rfl⟩ := Option.map_eq_some_iff.mp h
        exact ⟨hfind, isReady_of_toOption hb⟩
      · cases h
    · rename_i p room hfind
      split at h
      · cases h
      · split at h
        · obtain ⟨b, hb, rfl⟩ := Option.map_eq_some_iff.mp h
          exact ⟨hfind, isReady_of_toOption hb⟩
        · obtain ⟨b, hb, rfl⟩ := Option.map_eq_some_iff.mp h
          exact ⟨hfind, isReady_of_toOption hb⟩
  · cases h

theorem Inv.member (h : s.Inv) {worker now : Nat} {data : Bytes} {remote : SocketAddr}
    {arrival : Instant} {m : Media}
    (hm : s.heard (.datagram worker data remote now arrival) = some m) :
    s.rooms.rooms.lookup m.source.2.2.id = some m.source.2.2 ∧
      m.source.2.2.participants.lookup (s.heap m.source.1).userId = some m.source.1 ∧
      ((s.heap m.source.1).session m.source.2.1).address = some remote :=
  h.sound.findByAddr (heard_source hm).1

theorem Inv.lt (h : s.Inv) {worker now : Nat} {data : Bytes} {remote : SocketAddr}
    {arrival : Instant} {m : Media}
    (hm : s.heard (.datagram worker data remote now arrival) = some m) : m.source.1 < s.next := by
  obtain ⟨hroom, hp, -⟩ := h.member hm
  exact (h.sound.room hroom).2.allocated hp

/-- What a step keeps of the participants there are, and who comes in by it. -/
structure Kept (s : State P) (heap : Heap) (next : Ref) (rooms : RoomHub) : Prop where
  le : s.next ≤ next
  userId : ∀ {p}, p < s.next → (heap p).userId = (s.heap p).userId
  roomId : ∀ {p}, p < s.next → (heap p).roomId = (s.heap p).roomId
  joinedAt : ∀ {p}, p < s.next → (heap p).joinedAt = (s.heap p).joinedAt
  ufrag : ∀ {p}, p < s.next → ∀ pc, ((heap p).session pc).ufrag = ((s.heap p).session pc).ufrag
  icePwd : ∀ {p}, p < s.next → ∀ pc, ((heap p).session pc).icePwd = ((s.heap p).session pc).icePwd
  fresh : ∀ {p}, s.next ≤ p → p < next → ∃ draws userId roomId,
    heap p = Signaling.newParticipant draws userId roomId ∧ ∀ r, rooms.Member r p → r = roomId
  free : ∀ {p}, next ≤ p → heap p = s.heap p
  member : ∀ {r p}, p < s.next → rooms.Member r p → s.rooms.Member r p
  sound : rooms.Sound heap next

theorem Kept.of_media (hinv : s.Inv) (hheap : ∀ p, MediaOnly (s.heap p) (heap p))
    (hfree : ∀ p, s.next ≤ p → heap p = s.heap p) (hrooms : EachRoom FloorOnly s.rooms rooms) :
    Kept s heap s.next rooms where
  le := Nat.le_refl _
  userId := fun _ => (hheap _).userId
  roomId := fun _ => (hheap _).roomId
  joinedAt := fun _ => (hheap _).joinedAt
  ufrag := fun _ pc => by rw [(hheap _).session]
  icePwd := fun _ pc => by rw [(hheap _).session]
  fresh := fun hle hlt => absurd hlt (Nat.not_lt_of_le hle)
  free := fun hp => hfree _ hp
  member := fun _ hm => hrooms.member.mp hm
  sound := sound_of_sameEntry (hrooms.sound hinv.sound) fun p _ => (hheap p).sameEntry

theorem Inv.values_lt (h : s.Inv) {r : String} {room : Room} {p : Ref}
    (hroom : s.rooms.rooms.lookup r = some room) (hp : p ∈ DashMap.values room.participants) :
    p < s.next := by
  obtain ⟨u, hu⟩ := DashMap.exists_lookup_of_mem_values hp
  exact (h.sound.room hroom).2.allocated hu

theorem Stepped.kept (h : Stepped s l heap next rooms) (hinv : s.Inv) : Kept s heap next rooms := by
  have hsame : EachRoom FloorOnly s.rooms s.rooms := .refl fun _ => .refl
  have hupdate : ∀ (heap : Heap) {p : Ref} (f : Participant → Participant), p < s.next →
      ∀ q, s.next ≤ q → heap.update p f q = heap q := by
    intro heap p f hp q hq
    exact Heap.update_of_ne (Nat.ne_of_gt (Nat.lt_of_lt_of_le hp hq)) f
  have htouch : ∀ p now q, MediaOnly (s.heap q) (s.heap.update p (fun x => x.touch now) q) :=
    fun p now => MediaOnly.update ⟨rfl⟩
  cases h with
  | same => exact .of_media hinv (fun _ => .refl) (fun _ _ => rfl) hsame
  | @signalled _ l' server hl h =>
    have hleaves := Signaling.Server.step_leavesMedia hinv.sound h
      (by rintro ufrag addr rfl; cases l <;> cases hl) (by rintro p now rfl; cases l <;> cases hl)
    refine ⟨hleaves.next, fun hp => ?_, fun hp => ?_, fun hp => ?_, fun hp pc => ?_, fun hp pc => ?_,
      hleaves.fresh, hleaves.free, fun hp hm => ?_, Signaling.Server.sound_step hinv.sound h⟩
    · exact (hleaves.old hp).field fun x => x.userId
    · exact (hleaves.old hp).field fun x => x.roomId
    · exact (hleaves.old hp).field fun x => x.joinedAt
    · exact (hleaves.old hp).field fun x => (x.session pc).ufrag
    · exact (hleaves.old hp).field fun x => (x.session pc).icePwd
    · exact (Signaling.Server.step_admits hinv.sound h).member hp hm
  | @latched _ now _ remote _ _ _ _ p pc _ h =>
    obtain ⟨roomId, room, room', -, hroom, hlatch, rfl⟩ := Room.RoomHub.latchByUfrag_eq_some h
    have hsound := hinv.sound.latchByUfrag h
    obtain ⟨hu, rfl, hroom', -⟩ := Room.Room.latch_spec hlatch
    have hp := (hinv.sound.room hroom).2.allocated ((hinv.sound.room hroom).2.ufrag hu).1
    have hmedia : ∀ q, MediaOnly (s.heap.latch p pc remote q)
        ((s.heap.latch p pc remote).update p (fun x => x.touch now) q) := MediaOnly.update ⟨rfl⟩
    refine ⟨Nat.le_refl _, fun _ => ?_, fun _ => ?_, fun _ => ?_, fun _ pc' => ?_, fun _ pc' => ?_,
      fun hle hlt => absurd hlt (Nat.not_lt_of_le hle), fun {q} hq => ?_, fun _ hm => ?_,
      sound_of_sameEntry hsound fun q _ => (hmedia q).sameEntry⟩
    · rw [(hmedia _).userId, Room.Heap.latch_userId]
    · rw [(hmedia _).roomId]
      exact Heap.update_field (fun x => x.roomId) (by cases pc <;> rfl) _
    · rw [(hmedia _).joinedAt]
      exact Heap.update_field (fun x => x.joinedAt) (by cases pc <;> rfl) _
    · rw [(hmedia _).session, Room.Heap.latch_ufrag]
    · rw [(hmedia _).session]
      exact Heap.update_field (fun x => (x.session pc').icePwd) (by cases pc <;> cases pc' <;> rfl) _
    · rw [hupdate _ _ hp q hq]
      exact hupdate s.heap _ hp q hq
    · exact (Room.RoomHub.member_insert hroom (by rw [hroom']) rfl).mp hm
  | touched _ h =>
    obtain ⟨hroom, hp, -⟩ := hinv.sound.findByAddr h
    exact .of_media hinv (htouch _ _) (hupdate _ _ ((hinv.sound.room hroom).2.allocated hp)) hsame
  | answered h =>
    obtain ⟨hroom, -, -⟩ := hinv.member h
    have hlt := hinv.lt h
    dsimp only [Media.source] at hroom hlt
    refine .of_media hinv (fun q => (htouch _ _ q).trans (mediaOnly_handleSubscribeRtcp ..))
      (fun q hq => ?_) hsame
    rw [handleSubscribeRtcp_elsewhere (fun hv => ?_) (Nat.ne_of_gt (Nat.lt_of_lt_of_le hlt hq)),
      hupdate _ _ hlt q hq]
    exact absurd (hinv.values_lt hroom hv) (Nat.not_lt_of_le hq)
  | relayed h =>
    obtain ⟨hroom, -, -⟩ := hinv.member h
    have hlt := hinv.lt h
    dsimp only [Media.source] at hroom hlt
    refine .of_media hinv (fun q => (htouch _ _ q).trans (mediaOnly_relayPublishRtcp ..))
      (fun q hq => ?_) hsame
    unfold Udp.relayPublishRtcp
    split
    · exact hupdate _ _ hlt q hq
    · rw [fanOut_elsewhere (fun hv => ?_), hupdate _ _ hlt q hq]
      exact absurd (hinv.values_lt hroom hv) (Nat.not_lt_of_le hq)
  | forwarded h =>
    obtain ⟨hroom, -, -⟩ := hinv.member h
    have hlt := hinv.lt h
    dsimp only [Media.source] at hroom hlt
    refine .of_media hinv (fun q => (htouch _ _ q).trans (mediaOnly_handleSrtp ..))
      (fun q hq => ?_) (.insert (fun _ => .refl) hroom ?_)
    · rw [handleSrtp_elsewhere (fun hv => ?_) (Nat.ne_of_gt (Nat.lt_of_lt_of_le hlt hq)),
        hupdate _ _ hlt q hq]
      exact absurd (hinv.values_lt hroom hv) (Nat.not_lt_of_le hq)
    · rw [handleSrtp_eq]
      exact passGate_floorOnly ..
  | @installed i _ x h hi =>
    have hp := hinv.handshakes x (List.mem_of_getElem? h)
    refine ⟨Nat.le_refl _, fun _ => ?_, fun _ => ?_, fun _ => ?_, fun _ pc => ?_, fun _ pc => ?_,
      fun hle hlt => absurd hlt (Nat.not_lt_of_le hle), fun hq => hupdate _ _ hp _ hq,
      fun _ hm => hm, sound_of_sameEntry hinv.sound fun q _ => ⟨?_, fun pc => ?_, fun pc => ?_⟩⟩
    · exact Heap.update_field (fun y => y.userId) (by cases x.pcType <;> rfl) _
    · exact Heap.update_field (fun y => y.roomId) (by cases x.pcType <;> rfl) _
    · exact Heap.update_field (fun y => y.joinedAt) (by cases x.pcType <;> rfl) _
    · exact Heap.update_field (fun y => (y.session pc).ufrag)
        (by cases x.pcType <;> cases pc <;> rfl) _
    · exact Heap.update_field (fun y => (y.session pc).icePwd)
        (by cases x.pcType <;> cases pc <;> rfl) _
    · exact Heap.update_field (fun y => y.userId) (by cases x.pcType <;> rfl) _
    · exact Heap.update_field (fun y => (y.session pc).ufrag)
        (by cases x.pcType <;> cases pc <;> rfl) _
    · exact Heap.update_field (fun y => (y.session pc).address)
        (by cases x.pcType <;> cases pc <;> rfl) _
  | @taken p _ rest h hp =>
    refine .of_media hinv (MediaOnly.update ⟨rfl⟩) (hupdate _ _ ?_) hsame
    -- Whoever is not allocated has nothing queued.
    by_contra hle
    rw [hinv.free (Nat.not_lt.mp hle)] at h
    cases h
  | readOut h hout =>
    refine .of_media hinv (fun q => ?_) (fun q hq => hout q fun r hm => ?_) hsame
    · obtain ⟨recorder, hq⟩ := h q
      rw [hq]
      exact ⟨rfl⟩
    · exact absurd (hinv.sound.allocated hm) (Nat.not_lt_of_le hq)

theorem inv_start (P : Platform) (draws : Fin 3 → Signaling.Draws) : (start P draws).Inv where
  sound := Signaling.Server.sound_start draws
  home := fun hm => absurd ((Signaling.Server.sound_start draws).allocated hm) (Nat.not_lt_zero _)
  free := fun _ => rfl
  handshakes := fun _ hx => absurd hx List.not_mem_nil

theorem Tasked.handshakes_lt (h : Tasked s s' l) (hinv : s.Inv) :
    ∀ x ∈ s'.handshakes, x.participant < s.next := by
  cases h with
  | same h _ _ =>
    rw [h.handshakes]
    exact hinv.handshakes
  | @started l x hx h =>
    rw [h.handshakes]
    intro y hy
    rcases List.mem_append.mp hy with hy | hy
    · exact hinv.handshakes y hy
    · cases List.mem_singleton.mp hy
      cases l with
      | datagram =>
        obtain ⟨-, ⟨msg, ufrag, room, -, hfind, -⟩ | ⟨-, room, hfind⟩⟩ := hx
        · obtain ⟨hroom, hp, -⟩ := hinv.sound.findByUfrag hfind
          exact (hinv.sound.room hroom).2.allocated hp
        · obtain ⟨hroom, hp, -⟩ := hinv.sound.findByAddr hfind
          exact (hinv.sound.room hroom).2.allocated hp
      | _ => exact hx.elim
  | finished _ _ h =>
    rw [h.handshakes]
    exact hinv.handshakes
  | @spawned _ _ x _ _ h =>
    rw [h.handshakes]
    unfold spawnEgressTask
    split <;> exact hinv.handshakes
  | @taken p packet rest _ _ h =>
    rw [h, (s.passed_runEgress p packet rest).frame]
    exact hinv.handshakes

theorem inv_step (hinv : s.Inv) (h : s.step l = some s') : s'.Inv := by
  have hkept := (step_stepped h).kept hinv
  refine ⟨hkept.sound, fun {r p} hm => ?_, fun hp => ?_, fun x hx => ?_⟩
  · rcases Nat.lt_or_ge p s.next with hlt | hge
    · rw [hkept.roomId hlt]
      exact hinv.home (hkept.member hlt hm)
    · obtain ⟨draws, userId, roomId, hnew, hroom⟩ := hkept.fresh hge (hkept.sound.allocated hm)
      rw [hnew, hroom r hm]
      rfl
  · rw [hkept.free hp]
    exact hinv.free (Nat.le_trans hkept.le hp)
  · exact Nat.lt_of_lt_of_le ((step_tasked h).handshakes_lt hinv x hx) hkept.le

theorem Inv.signalled_field (hinv : s.Inv) {l' : Signaling.Label} {server : Signaling.Server}
    (hl : l.signals = some l') (h : s.toServer.step l' = some server) {β : Type}
    (f : Participant → β) (hf : ∀ y lastSeen tracks counter, f { y with
      lastSeen := lastSeen
      tracks := tracks
      rtxSsrcCounter := counter } = f y)
    (hnew : ∀ draws userId roomId, f (Signaling.newParticipant draws userId roomId) = f blank)
    (p : Ref) : f (server.heap p) = f (s.heap p) := by
  have hleaves := Signaling.Server.step_leavesMedia hinv.sound h
    (by rintro ufrag addr rfl; cases l <;> cases hl) (by rintro p now rfl; cases l <;> cases hl)
  rcases Nat.lt_or_ge p s.next with hlt | hge
  · exact (hleaves.old hlt).field f hf
  · rw [hinv.free hge]
    rcases Nat.lt_or_ge p server.next with hlt | hge'
    · obtain ⟨draws, userId, roomId, heq, -⟩ := hleaves.fresh hge hlt
      rw [heq]
      exact hnew ..
    · rw [hleaves.free hge', hinv.free hge]

def Reachable (s : State P) : Prop := ∃ draws labels, run step (start P draws) labels = some s

theorem inv_run {draws : Fin 3 → Signaling.Draws} {labels : List Label}
    (h : run step (start P draws) labels = some s) : s.Inv :=
  run_inv (G := fun _ _ => True) (fun _ _ _ hs _ h => inv_step hs h) (inv_start P draws)
    (.of_forall (fun _ _ => trivial) ..) h

theorem Reachable.inv (h : s.Reachable) : s.Inv := by
  obtain ⟨draws, labels, hrun⟩ := h
  exact inv_run hrun

end

end State

end LightLivechat.Sfu
