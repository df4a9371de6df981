import LightLivechat.Room.HubRuns
import Mathlib.Algebra.Ring.Nat

/-! Who an address is looked up for: the session that latched it last.  Entries are
dropped by address and without a look at whose they are, and the hub's reverse index
is not told when a session moves. -/

set_option linter.dupNamespace false

namespace LightLivechat.Room.HubState

open LightLivechat.Config LightLivechat.Lib.Bytes LightLivechat.Lib.Std LightLivechat.Lib.Runs

/-- The latest latch at the address was the session's, which has not latched another
since, and its participant is in the room. -/
structure Owns (s : HubState) (r : String) (p : Ref) (pc : PcType) (a : SocketAddr) : Prop where
  member : s.hub.Member r p
  latest : ∃ after before, s.latches = after ++ (a, p, pc) :: before ∧
    ∀ e ∈ after, e.1 ≠ a ∧ e.2 ≠ (p, pc)

/-- The operation takes the address from the session: another is latched, or the
participant goes. -/
def Releases (s : HubState) (op : HubOp) (r : String) (p : Ref) (pc : PcType) (a : SocketAddr) :
    Prop :=
  ((s.heap p).session pc).address = some a ∧
    match op with
    | .latchByUfrag u b => b ≠ a ∧ ∃ room, s.hub.findByUfrag u = some (p, pc, room) ∧ room.id = r
    | op => s.Leaves op r p

/-- The operation drops what is entered for the address in the room or in the hub. -/
def Drops (s : HubState) (op : HubOp) (r : String) (a : SocketAddr) : Prop :=
  ∃ r' q qc, s.Releases op r' q qc a ∧ (r' = r ∨ s.Leaves op r' q)

/-- An address is dropped only as its owner gives it up. -/
def DropsOwn (s : HubState) (op : HubOp) : Prop :=
  ∀ r p pc a, s.Owns r p pc a → s.Drops op r a → s.Releases op r p pc a

/-- The sessions' addresses are those of their latest latches. -/
structure Latched (s : HubState) : Prop where
  allocated : ∀ e ∈ s.latches, e.2.1 < s.next
  address : ∀ {p pc}, p < s.next →
    ((s.heap p).session pc).address = (s.latches.find? fun e => e.2 = (p, pc)).map fun e => e.1

/-- The address is entered for the session in the hub and in the room. -/
structure Found (hub : RoomHub) (r : String) (p : Ref) (pc : PcType) (a : SocketAddr) : Prop where
  addrIndex : hub.addrIndex.lookup a = some r
  byAddr : ∃ room, hub.rooms.lookup r = some room ∧ room.byAddr.lookup a = some (p, pc)

structure Complete (s : HubState) : Prop extends s.Latched where
  sound : s.hub.Sound s.heap s.next
  found : ∀ {r p pc a}, s.Owns r p pc a → Found s.hub r p pc a

variable {s s' : HubState} {op : HubOp} {r : String} {p : Ref} {pc : PcType} {a : SocketAddr}

theorem Owns.mem_latches (h : s.Owns r p pc a) : (a, p, pc) ∈ s.latches := by
  obtain ⟨after, before, heq, -⟩ := h.latest
  simp [heq]

theorem Latched.congr (h : s.Latched) (hnext : s'.next = s.next) (hl : s'.latches = s.latches)
    (hs : ∀ {q}, q < s.next → (s'.heap q).session = (s.heap q).session) : s'.Latched where
  allocated := by
    rw [hl, hnext]
    exact h.allocated
  address := by
    intro p pc hp
    rw [hnext] at hp
    rw [hl, hs hp]
    exact h.address hp

theorem latched_step (hs : s.hub.Sound s.heap s.next) (h : s.Latched)
    (hstep : s.step op = some s') : s'.Latched := by
  cases step_cases hs.keyed hstep with
  | failed => exact h
  | created => exact h.congr rfl rfl fun _ => rfl
  | added hp hok =>
    subst hp
    refine ⟨fun e he => Nat.lt_succ_of_lt (h.allocated e he), fun {p pc} hp => ?_⟩
    rcases Nat.lt_succ_iff_lt_or_eq.mp hp with hp | rfl
    · simpa only [Heap.alloc_of_lt hp] using h.address hp
    · -- Nobody has latched for a participant just allocated.
      rw [List.find?_eq_none.mpr fun e he => ?_]
      · cases pc <;> simp [Participant.session, Participant.new, MediaSession.new]
      · have := h.allocated e he
        simp only [decide_eq_true_eq]
        rintro heq
        simp [heq] at this
  | @latched u b heap hub x xc hok =>
    obtain ⟨roomId, room, room', -, hroom, hlatch, rfl⟩ := RoomHub.latchByUfrag_eq_some hok
    obtain ⟨hu, rfl, -⟩ := Room.latch_spec hlatch
    refine ⟨List.forall_mem_cons.mpr ⟨?_, h.allocated⟩, fun {q qc} hq => ?_⟩
    · exact (hs.room hroom).2.allocated ((hs.room hroom).2.ufrag hu).1
    · rw [Heap.latch_address, List.find?_cons]
      by_cases heq : (x, xc) = (q, qc)
      · cases heq
        simp
      · have hne : ¬ (q = x ∧ qc = xc) := by
          rintro ⟨rfl, rfl⟩
          exact heq rfl
        rw [if_neg hne, h.address hq]
        simp only [heq, decide_false]
  | left => exact h.congr rfl rfl fun _ => rfl
  | touched => exact h.congr rfl rfl fun hq => sameUsers_touch.session hq

theorem Owns.congr (ho : s'.Owns r p pc a) (hl : s'.latches = s.latches)
    (hm : s.hub.Member r p) : s.Owns r p pc a := ⟨hm, hl ▸ ho.latest⟩

/-- An owner after a latch is the session latched, or was the owner before. -/
theorem Owns.latched {b : SocketAddr} {x : Ref} {xc : PcType} (ho : s'.Owns r p pc a)
    (hl : s'.latches = (b, x, xc) :: s.latches) (hm : s.hub.Member r p) :
    (a = b ∧ (p, pc) = (x, xc)) ∨ a ≠ b ∧ (p, pc) ≠ (x, xc) ∧ s.Owns r p pc a := by
  obtain ⟨after, before, heq, hafter⟩ := ho.latest
  rw [hl] at heq
  cases after with
  | nil =>
    cases (List.cons.inj heq).1
    exact .inl ⟨rfl, rfl⟩
  | cons e after =>
    obtain ⟨rfl, hrest⟩ := List.cons.inj heq
    rw [List.forall_mem_cons] at hafter
    exact .inr ⟨hafter.1.1.symm, hafter.1.2.symm, hm, after, before, hrest, hafter.2⟩

theorem releases_of_leaves (ha : ((s.heap p).session pc).address = some a)
    (hl : s.Leaves op r p) : s.Releases op r p pc a := by
  cases op
  case latchByUfrag => cases hl
  all_goals exact ⟨ha, hl⟩

theorem leaves_of_releases {r' : String} {q : Ref} (hl : s.Leaves op r' q)
    (hrel : s.Releases op r p pc a) : s.Leaves op r p := by
  cases op
  case latchByUfrag => cases hl
  all_goals exact hrel.2

theorem complete_new : new.Complete where
  allocated := by simp [new]
  address := fun hp => absurd hp (Nat.not_lt_zero _)
  sound := sound_new
  found := fun ho => by cases ho.mem_latches

theorem Found.without {gone : String → Ref → Prop} {heap : Heap} {hub hub' : RoomHub}
    (h : Found hub r p pc a) (hw : hub.Without heap gone hub') (hm : hub'.Member r p)
    (hkept : ∀ r q, gone r q → ¬ (heap q).HasAddress a) : Found hub' r p pc a := by
  obtain ⟨room', u, hroom', -⟩ := hm
  obtain ⟨room, hroom, hwr⟩ := hw.room hroom'
  obtain ⟨room₁, hroom₁, hbyAddr⟩ := h.byAddr
  cases hroom.symm.trans hroom₁
  exact ⟨hw.addrIndex.mpr ⟨h.addrIndex, hkept⟩, room', hroom', hwr.byAddr.mpr ⟨hbyAddr, hkept r⟩⟩

theorem Found.addParticipant {heap : Heap} {hub hub' : RoomHub} {roomId : String} {q : Ref}
    (h : Found hub r p pc a) (hok : hub.addParticipant heap roomId q = .ok hub') :
    Found hub' r p pc a := by
  obtain ⟨room, room', hroom, hadd, rfl⟩ := RoomHub.addParticipant_eq_ok hok
  obtain ⟨-, rfl⟩ := Room.addParticipant_eq_ok hadd
  obtain ⟨haddr, room₁, hroom₁, hbyAddr⟩ := h
  refine ⟨haddr, ?_⟩
  simp only [DashMap.lookup_insert']
  by_cases hr : r = roomId
  · subst hr
    cases hroom.symm.trans hroom₁
    exact ⟨_, if_pos rfl, hbyAddr⟩
  · exact ⟨room₁, (if_neg hr).trans hroom₁, hbyAddr⟩

/-- A latch enters its address; it drops another only as its session gives it up. -/
theorem Complete.found_latched {u : String} {b : SocketAddr} {heap : Heap} {hub : RoomHub} {x : Ref}
    {xc : PcType} (h : s.Complete) (hown : s.DropsOwn (.latchByUfrag u b))
    (hok : s.hub.latchByUfrag s.heap u b = some (heap, hub, x, xc))
    (hs' : s' = { s with heap := heap, hub := hub, latches := (b, x, xc) :: s.latches })
    (ho : s'.Owns r p pc a) : Found hub r p pc a := by
  obtain ⟨roomId, room, room', hid, hroom, hlatch, rfl⟩ := RoomHub.latchByUfrag_eq_some hok
  obtain ⟨hu, rfl, hroom', hnew, hother⟩ := Room.latch_spec hlatch
  have hparts : room'.participants = room.participants := by rw [hroom']
  have hm : s.hub.Member r p := by
    subst hs'
    exact (RoomHub.member_insert hroom hparts rfl).mp ho.member
  rcases ho.latched (by rw [hs']) hm with ⟨rfl, heq⟩ | ⟨hab, hne, ho⟩
  · cases heq
    have hr : r = roomId :=
      h.sound.home hm ⟨room, _, hroom, ((h.sound.room hroom).2.ufrag hu).1⟩
    subst hr
    exact ⟨AList.lookup_insert _, room', AList.lookup_insert _, hnew⟩
  · obtain ⟨haddr, room₁, hroom₁, hbyAddr⟩ := h.found ho
    refine ⟨(AList.lookup_insert_ne hab).trans haddr, ?_⟩
    by_cases hr : r = roomId
    · subst hr
      cases hroom.symm.trans hroom₁
      refine ⟨room', AList.lookup_insert _, (hother hab).mpr ⟨hbyAddr, fun hold => hne ?_⟩⟩
      -- The session latched was at `a`, in the room of its owner.
      have hfind : s.hub.findByUfrag u = some (x, xc, room) := by
        simp [RoomHub.findByUfrag, hid, hroom, Room.getByUfrag, hu]
      have hrel : s.Releases (.latchByUfrag u b) r x xc a :=
        ⟨hold, Ne.symm hab, room, hfind, (h.sound.room hroom).1⟩
      obtain ⟨-, -, room₂, hfind₂, -⟩ := hown r p pc a ho ⟨r, x, xc, hrel, .inl rfl⟩
      cases hfind.symm.trans hfind₂
      rfl
    · exact ⟨room₁, (AList.lookup_insert_ne hr).trans hroom₁, hbyAddr⟩

theorem complete_step (h : s.Complete) (hown : s.DropsOwn op) (hstep : s.step op = some s') :
    s'.Complete := by
  refine ⟨latched_step h.sound h.toLatched hstep, sound_step h.sound hstep,
    fun {r p pc a} ho => ?_⟩
  cases step_cases h.sound.keyed hstep with
  | failed => exact h.found ho
  | created hid =>
    have hm := (RoomHub.member_create hid).mp ho.member
    obtain ⟨haddr, room, hroom, hbyAddr⟩ := h.found (ho.congr rfl hm)
    exact ⟨haddr, room, (AList.lookup_insert_ne (hm.ne hid)).trans hroom, hbyAddr⟩
  | added hp hok =>
    rcases (RoomHub.member_addParticipant hok).mp ho.member with hm | ⟨-, rfl⟩
    · exact (h.found (ho.congr rfl hm)).addParticipant hok
    · exact absurd (h.allocated _ ho.mem_latches) (Nat.lt_irrefl _)
  | latched hok => exact h.found_latched hown hok rfl ho
  | left hw =>
    obtain ⟨hm, hstays⟩ := hw.member.mp ho.member
    refine (h.found (ho.congr rfl hm)).without hw ho.member fun r' q hq hhas => ?_
    obtain ⟨qc, hqa⟩ := hhas
    have hrel : s.Releases op r' q qc a := releases_of_leaves hqa hq
    have hown' := hown r p pc a (ho.congr rfl hm) ⟨r', q, qc, hrel, .inr hq⟩
    exact hstays (leaves_of_releases hq hown')
  | touched => exact h.found (ho.congr rfl ho.member)

theorem Found.findByAddr {hub : RoomHub} (h : Found hub r p pc a) :
    ∃ room, hub.rooms.lookup r = some room ∧ hub.findByAddr a = some (p, pc, room) := by
  obtain ⟨haddr, room, hroom, hbyAddr⟩ := h
  refine ⟨room, hroom, ?_⟩
  simp [RoomHub.findByAddr, haddr, hroom, Room.getByAddr, hbyAddr]

/-- While addresses are dropped only as their owners give them up, an address is looked
up for its owner. -/
theorem owner_found {ops : List HubOp} (hrun : run step new ops = some s)
    (hown : Along step DropsOwn new ops) (ho : s.Owns r p pc a) :
    ∃ room, s.hub.rooms.lookup r = some room ∧ s.hub.findByAddr a = some (p, pc, room) :=
  ((run_inv (fun _ _ _ h hown hstep => complete_step h hown hstep) complete_new hown hrun).found
    ho).findByAddr

/-- Alice's port is bob's by the time she leaves. -/
theorem owner_lost : ∃ s, run step new (twoJoined ++ [.latchByUfrag "a1" (addr 5000),
      .latchByUfrag "b1" (addr 5000), .removeParticipant "r" "alice"]) = some s ∧
    s.Owns "r" 1 .publish (addr 5000) ∧ s.hub.findByAddr (addr 5000) = none := by
  refine ⟨_, rfl, ⟨⟨_, "bob", rfl, rfl⟩, [], [(addr 5000, 0, .publish)], rfl, by simp⟩, by decide⟩

/-- No two sessions have latched one address. -/
def Apart (s : HubState) : Prop :=
  ∀ e ∈ s.latches, ∀ e' ∈ s.latches, e.1 = e'.1 → e.2 = e'.2

instance (s : HubState) : Decidable s.Apart :=
  inferInstanceAs (Decidable (∀ e ∈ s.latches, ∀ e' ∈ s.latches, e.1 = e'.1 → e.2 = e'.2))

theorem Leaves.member (h : s.Leaves op r p) : s.hub.Member r p := by
  cases op
  case removeParticipant =>
    obtain ⟨rfl, room, hroom, hp⟩ := h
    exact ⟨room, _, hroom, hp⟩
  case reapZombies => exact h.1
  case removeRoom => exact h.2
  all_goals cases h

theorem Releases.member (hs : s.hub.Sound s.heap s.next) (h : s.Releases op r p pc a) :
    s.hub.Member r p := by
  obtain ⟨-, h⟩ := h
  cases op
  case latchByUfrag =>
    obtain ⟨-, room, hfind, rfl⟩ := h
    obtain ⟨hroom, hp, -⟩ := hs.findByUfrag hfind
    exact ⟨room, _, hroom, hp⟩
  all_goals exact Leaves.member h

/-- Where no two sessions share an address, nobody but its owner gives it up. -/
theorem Apart.dropsOwn (hs : s.hub.Sound s.heap s.next) (h : s.Latched) (hapart : s.Apart) :
    s.DropsOwn op := by
  rintro r p pc a ho ⟨r', q, qc, hrel, -⟩
  have hm := hrel.member hs
  have haddr := hrel.1
  rw [h.address (hs.allocated hm)] at haddr
  obtain ⟨⟨a, x⟩, he, rfl⟩ := Option.map_eq_some_iff.mp haddr
  obtain rfl : x = (q, qc) := by simpa using List.find?_some he
  cases hapart _ ho.mem_latches _ (List.mem_of_find?_eq_some he) rfl
  cases hs.home hm ho.member
  exact hrel

/-- Both latch, alice moves to another port and bob leaves. -/
def movedOn : List HubOp :=
  twoJoined ++ [.latchByUfrag "a1" (addr 5000), .latchByUfrag "b1" (addr 6000),
    .latchByUfrag "a1" (addr 5001), .removeParticipant "r" "bob"]

theorem owner_found_joined : ∃ s, run step new movedOn = some s ∧
    (∃ room, s.hub.rooms.lookup "r" = some room ∧
      s.hub.findByAddr (addr 5001) = some (0, .publish, room)) ∧
    s.hub.findByAddr (addr 5000) = none ∧ s.hub.findByAddr (addr 6000) = none := by
  have hown : Along step DropsOwn new movedOn :=
    Along.imp_of_inv (I := fun s : HubState => s.hub.Sound s.heap s.next ∧ s.Latched)
      (fun s op s' h hstep => ⟨sound_step h.1 hstep, latched_step h.1 h.2 hstep⟩)
      (fun s op h hapart => Apart.dropsOwn h.1 h.2 hapart)
      ⟨complete_new.sound, complete_new.toLatched⟩
      (by decide : Along step (fun s _ => s.Apart) new movedOn)
  exact ⟨_, rfl, owner_found rfl hown ⟨⟨_, "alice", rfl, rfl⟩, [], _, rfl, by simp⟩, by decide,
    by decide⟩

/-- Every key of the reverse index is an address of a current participant of the room. -/
def NoLeftovers (s : HubState) : Prop :=
  ∀ a r, s.hub.addrIndex.lookup a = some r →
    ∃ p pc, s.hub.Member r p ∧ ((s.heap p).session pc).address = some a

/-- A session moves on from an address that is entered for a room where it was the
only one at it. -/
def Abandons (s : HubState) : HubOp → Prop
  | .latchByUfrag u b => ∃ p pc room a r, s.hub.findByUfrag u = some (p, pc, room) ∧
    ((s.heap p).session pc).address = some a ∧ a ≠ b ∧ s.hub.addrIndex.lookup a = some r ∧
    ∀ q qc, s.hub.Member r q → ((s.heap q).session qc).address = some a → (q, qc) = (p, pc)
  | _ => False

theorem NoLeftovers.latched {u : String} {b : SocketAddr} {heap : Heap} {hub : RoomHub} {x : Ref}
    {xc : PcType} (hs : s.hub.Sound s.heap s.next) (h : s.NoLeftovers)
    (hkeep : ¬ s.Abandons (.latchByUfrag u b))
    (hok : s.hub.latchByUfrag s.heap u b = some (heap, hub, x, xc))
    (ha : hub.addrIndex.lookup a = some r) :
    ∃ p pc, hub.Member r p ∧ ((heap p).session pc).address = some a := by
  obtain ⟨roomId, room, room', hid, hroom, hlatch, rfl⟩ := RoomHub.latchByUfrag_eq_some hok
  obtain ⟨hu, rfl, hroom', -⟩ := Room.latch_spec hlatch
  have hparts : room'.participants = room.participants := by rw [hroom']
  have hx : s.hub.Member roomId x := ⟨room, _, hroom, ((hs.room hroom).2.ufrag hu).1⟩
  have hother : ∀ {q qc}, (q, qc) ≠ (x, xc) → ((s.heap q).session qc).address = some a →
      ((s.heap.latch x xc b q).session qc).address = some a := by
    intro q qc hne hq
    rw [Heap.latch_address, if_neg fun hc => hne (by rw [hc.1, hc.2])]
    exact hq
  simp only [DashMap.lookup_insert'] at ha
  split at ha
  · cases ha
    exact ⟨x, xc, (RoomHub.member_insert hroom hparts rfl).mpr hx, by simp [Heap.latch_address, *]⟩
  · rename_i hab
    obtain ⟨q, qc, hm, hq⟩ := h a r ha
    by_cases hmoved : (q, qc) = (x, xc)
    · -- Another session is at the address that is left, or it would be abandoned.
      cases hmoved
      have hfind : s.hub.findByUfrag u = some (x, xc, room) := by
        simp [RoomHub.findByUfrag, hid, hroom, Room.getByUfrag, hu]
      by_contra hnone
      refine hkeep ⟨x, xc, room, a, r, hfind, hq, hab, ha, fun q' qc' hm' hq' => ?_⟩
      by_contra hne
      exact hnone ⟨q', qc', (RoomHub.member_insert hroom hparts rfl).mpr hm', hother hne hq'⟩
    · exact ⟨q, qc, (RoomHub.member_insert hroom hparts rfl).mpr hm, hother hmoved hq⟩

theorem noLeftovers_step (hs : s.hub.Sound s.heap s.next) (h : s.NoLeftovers)
    (hkeep : ¬ s.Abandons op) (hstep : s.step op = some s') : s'.NoLeftovers := by
  intro a r ha
  cases step_cases hs.keyed hstep with
  | failed => exact h a r ha
  | created hid =>
    obtain ⟨p, pc, hm, hp⟩ := h a r ha
    exact ⟨p, pc, (RoomHub.member_create hid).mpr hm, hp⟩
  | added hp hok =>
    obtain ⟨room, room', -, -, hub'⟩ := RoomHub.addParticipant_eq_ok hok
    rw [hub'] at ha
    obtain ⟨q, qc, hm, hq⟩ := h a r ha
    refine ⟨q, qc, (RoomHub.member_addParticipant hok).mpr (.inl hm), ?_⟩
    simpa only [Heap.alloc_of_lt (hs.allocated hm)] using hq
  | latched hok => exact h.latched hs hkeep hok ha
  | left hw =>
    obtain ⟨ha, hgone⟩ := hw.addrIndex.mp ha
    obtain ⟨p, pc, hm, hp⟩ := h a r ha
    exact ⟨p, pc, hw.member.mpr ⟨hm, fun hl => hgone r p hl ⟨pc, hp⟩⟩, hp⟩
  | touched p ts =>
    obtain ⟨q, qc, hm, hq⟩ := h a r ha
    refine ⟨q, qc, hm, ?_⟩
    simpa only [sameUsers_touch.session (hs.allocated hm)] using hq

def participantCount (hub : RoomHub) : Nat :=
  (hub.rooms.entries.map fun e => e.2.participants.entries.length).sum

def addresses (p : Participant) : List SocketAddr :=
  p.publish.address.toList ++ p.subscribe.address.toList

theorem mem_addresses {p : Participant} : a ∈ addresses p ↔ p.HasAddress a := by
  simp [addresses, Participant.hasAddress_iff]

theorem length_addresses_le (p : Participant) : (addresses p).length ≤ 2 := by
  cases h : p.publish.address <;> cases h' : p.subscribe.address <;> simp [addresses, h, h']

theorem length_flatMap_le {α β : Type} {f : α → List β} {g : α → Nat} {k : Nat} {l : List α}
    (h : ∀ x ∈ l, (f x).length ≤ k * g x) : (l.flatMap f).length ≤ k * (l.map g).sum := by
  induction l with
  | nil => simp
  | cons x l ih =>
    rw [List.forall_mem_cons] at h
    rw [List.flatMap_cons, List.length_append, List.map_cons, List.sum_cons, Nat.mul_add]
    exact Nat.add_le_add h.1 (ih h.2)

def hubAddresses (s : HubState) : List SocketAddr :=
  s.hub.rooms.entries.flatMap fun e => e.2.participants.entries.flatMap fun x =>
    addresses (s.heap x.2)

theorem NoLeftovers.length_le (h : s.NoLeftovers) :
    s.hub.addrIndex.entries.length ≤ 2 * participantCount s.hub := by
  have hsub : s.hub.addrIndex.keys ⊆ s.hubAddresses := by
    intro a ha
    obtain ⟨r, hr⟩ := DashMap.mem_iff_lookup.mp ha
    obtain ⟨p, pc, ⟨room, u, hroom, hu⟩, hp⟩ := h a r hr
    refine List.mem_flatMap.mpr ⟨⟨r, room⟩, AList.mem_lookup_iff.mp hroom, ?_⟩
    refine List.mem_flatMap.mpr ⟨⟨u, p⟩, AList.mem_lookup_iff.mp hu, ?_⟩
    exact mem_addresses.mpr ⟨pc, hp⟩
  have hroom : ∀ room : Room, (room.participants.entries.flatMap fun x =>
      addresses (s.heap x.2)).length ≤ 2 * room.participants.entries.length := by
    intro room
    have := length_flatMap_le (l := room.participants.entries) (g := fun _ => 1) (k := 2)
      (f := fun x => addresses (s.heap x.2)) fun x _ => length_addresses_le _
    simpa using this
  calc s.hub.addrIndex.entries.length
      = s.hub.addrIndex.keys.length := by simp [AList.keys, List.keys]
    _ ≤ s.hubAddresses.length := (List.subperm_of_subset s.hub.addrIndex.nodupKeys hsub).length_le
    _ ≤ 2 * participantCount s.hub := length_flatMap_le fun e _ => hroom e.2

/-- While no session abandons an address, the reverse index holds nothing else than the
addresses of the participants, of which each has two at most. -/
theorem addrIndex_tight {ops : List HubOp} (hrun : run step new ops = some s)
    (hkeep : Along step (fun s op => ¬ s.Abandons op) new ops) :
    s.NoLeftovers ∧ s.hub.addrIndex.entries.length ≤ 2 * participantCount s.hub := by
  have h := run_inv (P := fun s => s.hub.Sound s.heap s.next ∧ s.NoLeftovers)
    (fun s op s' h hkeep hstep => ⟨sound_step h.1 hstep, noLeftovers_step h.1 h.2 hkeep hstep⟩)
    ⟨sound_new, fun a r ha => by cases ha⟩ hkeep hrun
  exact ⟨h.2, h.2.length_le⟩

/-- Alice's client moves to another port twice. -/
theorem addrIndex_leftovers : ∃ s, run step new (twoJoined ++ [.removeParticipant "r" "bob",
      .latchByUfrag "a1" (addr 5000), .latchByUfrag "a1" (addr 5001),
      .latchByUfrag "a1" (addr 5002)]) = some s ∧
    ¬ s.NoLeftovers ∧ 2 * participantCount s.hub < s.hub.addrIndex.entries.length := by
  refine ⟨_, rfl, fun h => absurd h.length_le (by decide), by decide⟩

/-- Alice and bob are behind one address until alice moves to another; then bob leaves. -/
def sharedPort : List HubOp :=
  twoJoined ++ [.latchByUfrag "a1" (addr 5000), .latchByUfrag "b1" (addr 5000),
    .latchByUfrag "a1" (addr 5001), .removeParticipant "r" "bob"]

theorem addrIndex_tight_joined : ∃ s, run step new sharedPort = some s ∧
    s.hub.addrIndex.lookup (addr 5001) = some "r" ∧ s.NoLeftovers ∧
    s.hub.addrIndex.entries.length ≤ 2 * participantCount s.hub := by
  have hkeep : Along step (fun s op => ¬ s.Abandons op) new sharedPort := by
    refine ⟨id, fun s h => ?_⟩
    cases h
    refine ⟨id, fun s h => ?_⟩
    cases h
    refine ⟨id, fun s h => ?_⟩
    cases h
    refine ⟨?_, fun s h => ?_⟩
    · rintro ⟨p, pc, room, a, r, hfind, ha, -⟩
      cases hfind
      cases ha
    cases h
    refine ⟨?_, fun s h => ?_⟩
    · rintro ⟨p, pc, room, a, r, hfind, ha, -⟩
      cases hfind
      cases ha
    cases h
    refine ⟨?_, fun s h => ?_⟩
    · -- Bob stays where alice was.
      rintro ⟨p, pc, room, a, r, hfind, ha, -, hr, honly⟩
      cases hfind
      cases ha
      cases hr
      cases honly 1 .publish ⟨_, "bob", rfl, rfl⟩ rfl
    cases h
    exact ⟨id, fun _ _ => trivial⟩
  exact ⟨_, rfl, rfl, addrIndex_tight rfl hkeep⟩

end LightLivechat.Room.HubState
