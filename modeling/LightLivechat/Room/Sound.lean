import LightLivechat.Room.Removal

/-! The indices against the participants: what an index names is a participant of the
room, under the key it is found by. -/

set_option linter.dupNamespace false

namespace LightLivechat.Room

open LightLivechat.Config LightLivechat.Lib.Bytes LightLivechat.Lib.Std

/-- `next` is the first reference not yet allocated. -/
structure Room.Sound (heap : Heap) (next : Ref) (room : Room) : Prop extends room.Keyed heap where
  allocated : ∀ {u p}, room.participants.lookup u = some p → p < next
  ufrag : ∀ {u p pc}, room.byUfrag.lookup u = some (p, pc) →
    room.participants.lookup (heap p).userId = some p ∧ ((heap p).session pc).ufrag = u
  addr : ∀ {a p pc}, room.byAddr.lookup a = some (p, pc) →
    room.participants.lookup (heap p).userId = some p ∧ ((heap p).session pc).address = some a

/-- Nobody is in two rooms. -/
structure RoomHub.Sound (heap : Heap) (next : Ref) (hub : RoomHub) : Prop where
  room : ∀ {roomId room}, hub.rooms.lookup roomId = some room →
    room.id = roomId ∧ room.Sound heap next
  home : ∀ {r r' p}, hub.Member r p → hub.Member r' p → r = r'

def Heap.alloc (heap : Heap) (next : Ref) (x : Participant) : Heap := Function.update heap next x

def Heap.latch (heap : Heap) (p : Ref) (pc : PcType) (a : SocketAddr) : Heap :=
  heap.update p fun x => x.updateSession pc fun s => s.latchAddress a

/-- The participants allocated before `next` keep who they are and their sessions. -/
structure Heap.SameUsers (next : Ref) (heap heap' : Heap) : Prop where
  userId : ∀ {p}, p < next → (heap' p).userId = (heap p).userId
  session : ∀ {p}, p < next → (heap' p).session = (heap p).session

section

variable {heap heap' : Heap} {next next' : Ref} {room room' : Room} {p : Ref} {pc : PcType}
variable {u roomId userId : String} {a : SocketAddr}

@[simp] theorem Heap.alloc_same (x : Participant) : heap.alloc next x next = x :=
  Function.update_self ..

theorem Heap.alloc_of_lt {x : Participant} (h : p < next) : heap.alloc next x p = heap p :=
  Function.update_of_ne (Nat.ne_of_lt h) ..

@[simp] theorem Heap.latch_userId (q : Ref) : (heap.latch p pc a q).userId = (heap q).userId :=
  Heap.update_field (fun x => x.userId) (by cases pc <;> rfl) q

@[simp] theorem Heap.latch_ufrag (q : Ref) (pc' : PcType) :
    ((heap.latch p pc a q).session pc').ufrag = ((heap q).session pc').ufrag :=
  Heap.update_field (fun x => (x.session pc').ufrag) (by cases pc <;> cases pc' <;> rfl) q

theorem Heap.latch_address (q : Ref) (pc' : PcType) :
    ((heap.latch p pc a q).session pc').address =
      if q = p ∧ pc' = pc then some a else ((heap q).session pc').address := by
  unfold Heap.latch
  rw [Heap.update_apply]
  by_cases hq : q = p
  · subst hq
    rw [if_pos rfl, Participant.updateSession_session]
    by_cases hpc : pc' = pc
    · simp [hpc, MediaSession.latchAddress]
    · simp [hpc]
  · simp [hq]

theorem Heap.SameUsers.refl : heap.SameUsers next heap := ⟨fun _ => rfl, fun _ => rfl⟩

theorem Heap.SameUsers.trans {heap'' : Heap} (h : heap.SameUsers next heap')
    (h' : heap'.SameUsers next heap'') : heap.SameUsers next heap'' where
  userId := fun hp => (h'.userId hp).trans (h.userId hp)
  session := fun hp => (h'.session hp).trans (h.session hp)

theorem Heap.SameUsers.update {f : Participant → Participant}
    (hid : (f (heap p)).userId = (heap p).userId)
    (hsession : (f (heap p)).session = (heap p).session) :
    heap.SameUsers next (heap.update p f) where
  userId := fun {q} _ => Heap.update_field (fun x => x.userId) hid q
  session := fun {q} _ => Heap.update_field (fun x => x.session) hsession q

theorem Heap.SameUsers.alloc (x : Participant) : heap.SameUsers next (heap.alloc next x) where
  userId := fun hp => by rw [Heap.alloc_of_lt hp]
  session := fun hp => by rw [Heap.alloc_of_lt hp]

namespace Room

theorem Sound.frame (h : room.Sound heap next) (hsame : heap.SameUsers next heap')
    (hnext : next ≤ next') : room.Sound heap' next' where
  userId := fun hu => (hsame.userId (h.allocated hu)).trans (h.userId hu)
  allocated := fun hu => Nat.lt_of_lt_of_le (h.allocated hu) hnext
  ufrag := by
    intro u p pc hu
    obtain ⟨hp, hs⟩ := h.ufrag hu
    rw [hsame.userId (h.allocated hp), hsame.session (h.allocated hp)]
    exact ⟨hp, hs⟩
  addr := by
    intro a p pc ha
    obtain ⟨hp, hs⟩ := h.addr ha
    rw [hsame.userId (h.allocated hp), hsame.session (h.allocated hp)]
    exact ⟨hp, hs⟩

theorem sound_new (id name : String) (capacity : Option Nat) (mode : RoomMode) (createdAt : Nat)
    (audioSsrc videoSsrc : U32) :
    (Room.new id name capacity mode createdAt audioSsrc videoSsrc).Sound heap next where
  userId := fun h => by cases h
  allocated := fun h => by cases h
  ufrag := fun h => by cases h
  addr := fun h => by cases h

theorem addParticipant_eq_ok (hok : room.addParticipant heap p = .ok room') :
    room.participants.lookup (heap p).userId = none ∧ room' = { room with
      byUfrag := (room.byUfrag.insert (heap p).publish.ufrag (p, .publish)).insert
        (heap p).subscribe.ufrag (p, .subscribe)
      participants := room.participants.insert (heap p).userId p } := by
  unfold Room.addParticipant at hok
  split at hok
  · cases hok
  · split at hok
    · cases hok
    · cases hok
      exact ⟨AList.lookup_eq_none.mpr ‹_›, rfl⟩

theorem Sound.addParticipant (h : room.Sound heap next) (hp : p < next)
    (hok : room.addParticipant heap p = .ok room') : room'.Sound heap next := by
  obtain ⟨hnew, rfl⟩ := addParticipant_eq_ok hok
  have hkeep : ∀ {u q}, room.participants.lookup u = some q →
      (room.participants.insert (heap p).userId p).lookup u = some q := by
    intro u q hu
    rw [DashMap.lookup_insert', if_neg (by rintro rfl; simp [hnew] at hu)]
    exact hu
  refine ⟨⟨fun {u q} hu => ?_⟩, fun {u q} hu => ?_, fun {u q pc} hu => ?_, fun {a q pc} ha => ?_⟩
  · rw [DashMap.lookup_insert'] at hu
    split at hu
    · cases hu
      exact ‹u = _›.symm
    · exact h.userId hu
  · rw [DashMap.lookup_insert'] at hu
    split at hu
    · cases hu
      exact hp
    · exact h.allocated hu
  · rw [DashMap.lookup_insert', DashMap.lookup_insert'] at hu
    split at hu
    · cases hu
      exact ⟨AList.lookup_insert _, ‹u = _›.symm⟩
    · split at hu
      · cases hu
        exact ⟨AList.lookup_insert _, ‹u = (heap p).publish.ufrag›.symm⟩
      · exact ⟨hkeep (h.ufrag hu).1, (h.ufrag hu).2⟩
  · exact ⟨hkeep (h.addr ha).1, (h.addr ha).2⟩

theorem Sound.without {gone : Ref → Prop} (h : room.Sound heap next)
    (hw : room.Without heap gone room') : room'.Sound heap next where
  userId := fun hu => h.userId (hw.participants.mp hu).1
  allocated := fun hu => h.allocated (hw.participants.mp hu).1
  ufrag := by
    intro u p pc hu
    obtain ⟨hu, hgone⟩ := hw.byUfrag.mp hu
    obtain ⟨hp, hs⟩ := h.ufrag hu
    exact ⟨hw.participants.mpr ⟨hp, fun hg => hgone p hg ⟨pc, hs⟩⟩, hs⟩
  addr := by
    intro a p pc ha
    obtain ⟨ha, hgone⟩ := hw.byAddr.mp ha
    obtain ⟨hp, hs⟩ := h.addr ha
    exact ⟨hw.participants.mpr ⟨hp, fun hg => hgone p hg ⟨pc, hs⟩⟩, hs⟩

/-- A latch drops the entry at the address its session had, and enters the new one. -/
theorem latch_spec (hok : room.latch heap u a = some (heap', room', p, pc)) :
    room.byUfrag.lookup u = some (p, pc) ∧ heap' = heap.latch p pc a ∧
      room' = { room with byAddr := room'.byAddr } ∧
      room'.byAddr.lookup a = some (p, pc) ∧
      ∀ {b e}, b ≠ a → (room'.byAddr.lookup b = some e ↔
        room.byAddr.lookup b = some e ∧ ((heap p).session pc).address ≠ some b) := by
  unfold Room.latch at hok
  split at hok
  · cases hok
  · cases hok
    refine ⟨‹_›, rfl, rfl, AList.lookup_insert _, fun {b e} hb => ?_⟩
    rw [DashMap.lookup_insert', if_neg hb]
    split
    · rename_i old hold
      rw [hold]
      split
      · rw [DashMap.lookup_erase_eq_some, ne_eq, ne_eq, Option.some.injEq, eq_comm (a := b)]
      · rename_i hsame
        simp [not_not.mp hsame, Ne.symm hb]
    · rename_i hnone
      simp [hnone]

theorem Sound.latch (h : room.Sound heap next)
    (hok : room.latch heap u a = some (heap', room', p, pc)) : room'.Sound heap' next := by
  obtain ⟨hu, rfl, hroom', hnew, hother⟩ := latch_spec hok
  have hparts : room'.participants = room.participants := by rw [hroom']
  refine ⟨⟨fun {v q} hq => ?_⟩, fun {v q} hq => ?_, fun {v q pc'} hq => ?_, fun {b q pc'} hq => ?_⟩
  · rw [Heap.latch_userId]
    exact h.userId (hparts ▸ hq)
  · exact h.allocated (hparts ▸ hq)
  · rw [Heap.latch_userId, Heap.latch_ufrag, hparts]
    rw [hroom'] at hq
    exact h.ufrag hq
  · rw [Heap.latch_userId, Heap.latch_address, hparts]
    by_cases hb : b = a
    · subst hb
      cases hnew.symm.trans hq
      simpa using (h.ufrag hu).1
    · obtain ⟨hq, hmoved⟩ := (hother hb).mp hq
      obtain ⟨hpart, hs⟩ := h.addr hq
      rw [if_neg ?_]
      · exact ⟨hpart, hs⟩
      · rintro ⟨rfl, rfl⟩
        exact hmoved hs

theorem Sound.latch_elsewhere (h : room.Sound heap next)
    (hp : ∀ {v}, room.participants.lookup v ≠ some p) : room.Sound (heap.latch p pc a) next where
  userId := fun hu => (Heap.latch_userId _).trans (h.userId hu)
  allocated := h.allocated
  ufrag := fun hu => by
    rw [Heap.latch_userId, Heap.latch_ufrag]
    exact h.ufrag hu
  addr := by
    intro b q pc' hb
    obtain ⟨hpart, hs⟩ := h.addr hb
    have hq : q ≠ p := by
      rintro rfl
      exact hp hpart
    rw [Heap.latch_userId, Heap.latch_address, if_neg fun hc => hq hc.1]
    exact ⟨hpart, hs⟩

end Room

namespace RoomHub

variable {hub hub' : RoomHub}

theorem Sound.keyed (h : hub.Sound heap next) : hub.Keyed heap :=
  ⟨fun hroom => (h.room hroom).2.toKeyed⟩

theorem Sound.allocated (h : hub.Sound heap next) (hp : hub.Member roomId p) : p < next := by
  obtain ⟨room, u, hroom, hu⟩ := hp
  exact (h.room hroom).2.allocated hu

theorem sound_new : new.Sound heap next where
  room := fun h => by cases h
  home := by
    rintro r r' p ⟨_, _, h, _⟩
    cases h

theorem Sound.frame (h : hub.Sound heap next) (hsame : heap.SameUsers next heap')
    (hnext : next ≤ next') : hub.Sound heap' next' where
  room := fun hroom => ⟨(h.room hroom).1, (h.room hroom).2.frame hsame hnext⟩
  home := h.home

theorem Sound.without {gone : String → Ref → Prop} (h : hub.Sound heap next)
    (hw : hub.Without heap gone hub') : hub'.Sound heap next where
  room := by
    intro r room' hroom'
    obtain ⟨room, hroom, hwr⟩ := hw.room hroom'
    refine ⟨?_, (h.room hroom).2.without hwr⟩
    rw [hwr.frame]
    exact (h.room hroom).1
  home := fun hr hr' => h.home (hw.member.mp hr).1 (hw.member.mp hr').1

theorem Sound.insert (h : hub.Sound heap next) (hid : room'.id = roomId)
    (hroom' : room'.Sound heap next)
    (hmem : ∀ {u q}, room'.participants.lookup u = some q →
      hub.Member roomId q ∨ ∀ r, ¬ hub.Member r q)
    (hrooms : hub'.rooms = hub.rooms.insert roomId room') : hub'.Sound heap next := by
  have hback : ∀ {r q}, hub'.Member r q →
      hub.Member r q ∨ r = roomId ∧ ∀ r, ¬ hub.Member r q := by
    rintro r q ⟨room₁, u, hroom₁, hu⟩
    rw [hrooms, DashMap.lookup_insert'] at hroom₁
    split at hroom₁
    · cases hroom₁
      subst r
      exact (hmem hu).imp_right fun hn => ⟨rfl, hn⟩
    · exact .inl ⟨room₁, u, hroom₁, hu⟩
  refine ⟨fun {r room₁} hroom₁ => ?_, fun {r r' q} hr hr' => ?_⟩
  · rw [hrooms, DashMap.lookup_insert'] at hroom₁
    split at hroom₁
    · cases hroom₁
      exact ⟨‹r = roomId› ▸ hid, hroom'⟩
    · exact h.room hroom₁
  · rcases hback hr, hback hr' with ⟨hr | ⟨rfl, hn⟩, hr' | ⟨rfl, hn'⟩⟩
    · exact h.home hr hr'
    · exact absurd hr (hn' r)
    · exact absurd hr' (hn r')
    · rfl

theorem Sound.create (h : hub.Sound heap next) (id name : String) (capacity : Option Nat)
    (mode : RoomMode) (createdAt : Nat) (audioSsrc videoSsrc : U32) :
    (hub.create id name capacity mode createdAt audioSsrc videoSsrc).Sound heap next :=
  h.insert rfl (Room.sound_new ..) (fun hu => by cases hu) rfl

theorem Sound.addParticipant {x : Participant} (h : hub.Sound heap next)
    (hok : hub.addParticipant (heap.alloc next x) roomId next = .ok hub') :
    hub'.Sound (heap.alloc next x) (next + 1) := by
  obtain ⟨room, room', hroom, hadd, rfl⟩ := addParticipant_eq_ok hok
  have hframe := h.frame (.alloc x) (Nat.le_succ next)
  obtain ⟨hnew, hroom'⟩ := Room.addParticipant_eq_ok hadd
  refine hframe.insert ?_ ?_ (fun {u q} hu => ?_) rfl
  · rw [hroom']
    exact (h.room hroom).1
  · exact (hframe.room hroom).2.addParticipant (Nat.lt_succ_self next) hadd
  · simp only [hroom', DashMap.lookup_insert'] at hu
    split at hu
    · cases hu
      exact .inr fun r hr => Nat.lt_irrefl _ (h.allocated hr)
    · exact .inl ⟨room, u, hroom, hu⟩

theorem Member.ne {r : String} (h : hub.Member r p) (hid : roomId ∉ hub.rooms) : r ≠ roomId := by
  obtain ⟨room, u, hroom, -⟩ := h
  rintro rfl
  exact hid (DashMap.mem_iff_lookup.mpr ⟨_, hroom⟩)

theorem member_create {id name : String} {capacity : Option Nat} {mode : RoomMode}
    {createdAt : Nat} {audioSsrc videoSsrc : U32} (hid : id ∉ hub.rooms) {r : String} :
    (hub.create id name capacity mode createdAt audioSsrc videoSsrc).Member r p ↔
      hub.Member r p := by
  constructor
  · rintro ⟨room, u, hroom, hu⟩
    simp only [RoomHub.create, DashMap.lookup_insert'] at hroom
    split at hroom
    · cases hroom
      cases hu
    · exact ⟨room, u, hroom, hu⟩
  · rintro ⟨room, u, hroom, hu⟩
    have hr : r ≠ id := Member.ne ⟨room, u, hroom, hu⟩ hid
    exact ⟨room, u, (AList.lookup_insert_ne hr).trans hroom, hu⟩

theorem member_addParticipant (hok : hub.addParticipant heap roomId p = .ok hub') {r : String}
    {q : Ref} : hub'.Member r q ↔ hub.Member r q ∨ r = roomId ∧ q = p := by
  obtain ⟨room, room', hroom, hadd, rfl⟩ := addParticipant_eq_ok hok
  obtain ⟨hnew, hroom'⟩ := Room.addParticipant_eq_ok hadd
  have hparts : ∀ u, room'.participants.lookup u =
      if u = (heap p).userId then some p else room.participants.lookup u := by
    intro u
    rw [hroom', DashMap.lookup_insert']
  unfold Member
  simp only [DashMap.lookup_insert']
  by_cases hr : r = roomId
  · subst hr
    simp only [if_true, Option.some.injEq, exists_and_left, exists_eq_left', hroom, true_and, hparts]
    constructor
    · rintro ⟨u, hu⟩
      split at hu
      · exact .inr (Option.some.inj hu).symm
      · exact .inl ⟨u, hu⟩
    · rintro (⟨u, hu⟩ | rfl)
      · refine ⟨u, ?_⟩
        rw [if_neg (by rintro rfl; simp [hnew] at hu)]
        exact hu
      · exact ⟨_, if_pos rfl⟩
  · simp [hr]

theorem member_insert (hroom : hub.rooms.lookup roomId = some room)
    (hparts : room'.participants = room.participants)
    (hrooms : hub'.rooms = hub.rooms.insert roomId room') {r : String} {q : Ref} :
    hub'.Member r q ↔ hub.Member r q := by
  unfold Member
  rw [hrooms]
  simp only [DashMap.lookup_insert']
  by_cases hr : r = roomId
  · subst hr
    simp [hroom, hparts]
  · simp [hr]

theorem Sound.latchByUfrag (h : hub.Sound heap next)
    (hok : hub.latchByUfrag heap u a = some (heap', hub', p, pc)) : hub'.Sound heap' next := by
  obtain ⟨roomId, room, room', -, hroom, hlatch, rfl⟩ := latchByUfrag_eq_some hok
  obtain ⟨hu, rfl, hroom', -, -⟩ := Room.latch_spec hlatch
  have hparts : room'.participants = room.participants := by rw [hroom']
  refine ⟨fun {r room₁} hroom₁ => ?_, fun {r r' q} hr hr' => ?_⟩
  · rw [DashMap.lookup_insert'] at hroom₁
    split at hroom₁
    · cases hroom₁
      subst r
      refine ⟨?_, (h.room hroom).2.latch hlatch⟩
      rw [hroom']
      exact (h.room hroom).1
    · refine ⟨(h.room hroom₁).1, (h.room hroom₁).2.latch_elsewhere fun {v} hv => ?_⟩
      exact ‹r ≠ roomId›
        (h.home ⟨room₁, v, hroom₁, hv⟩ ⟨room, _, hroom, ((h.room hroom).2.ufrag hu).1⟩)
  · exact h.home ((member_insert hroom hparts rfl).mp hr) ((member_insert hroom hparts rfl).mp hr')

theorem findByUfrag_eq_some (hok : hub.findByUfrag u = some (p, pc, room)) :
    ∃ roomId, hub.ufragIndex.lookup u = some roomId ∧ hub.rooms.lookup roomId = some room ∧
      room.byUfrag.lookup u = some (p, pc) := by
  simp only [findByUfrag, bind, Option.bind_eq_some_iff] at hok
  obtain ⟨roomId, hid, room, hroom, ⟨p₁, pc₁⟩, hget, hret⟩ := hok
  cases hret
  exact ⟨roomId, hid, hroom, hget⟩

theorem Sound.findByAddr (h : hub.Sound heap next)
    (hok : hub.findByAddr a = some (p, pc, room)) :
    hub.rooms.lookup room.id = some room ∧
      room.participants.lookup (heap p).userId = some p ∧
      ((heap p).session pc).address = some a := by
  obtain ⟨roomId, -, hroom, hget⟩ := findByAddr_eq_some hok
  rw [(h.room hroom).1]
  exact ⟨hroom, (h.room hroom).2.addr hget⟩

theorem Sound.findByUfrag (h : hub.Sound heap next)
    (hok : hub.findByUfrag u = some (p, pc, room)) :
    hub.rooms.lookup room.id = some room ∧
      room.participants.lookup (heap p).userId = some p ∧
      ((heap p).session pc).ufrag = u := by
  obtain ⟨roomId, -, hroom, hget⟩ := findByUfrag_eq_some hok
  rw [(h.room hroom).1]
  exact ⟨hroom, (h.room hroom).2.ufrag hget⟩

end RoomHub

end

end LightLivechat.Room
