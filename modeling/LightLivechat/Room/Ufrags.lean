import LightLivechat.Room.HubRuns
import LightLivechat.Transport.Ice

/-! Who a ufrag is looked up for.  All rooms draw from one small space of ufrags, and
both levels of the index insert and remove by ufrag without a look at whose it is. -/

set_option linter.dupNamespace false

namespace LightLivechat.Room.HubState

open LightLivechat.Config LightLivechat.Lib.Bytes LightLivechat.Lib.Std LightLivechat.Lib.Runs
open LightLivechat.Transport.Ice

/-- Every session of a current participant is found by its ufrag. -/
def FindsAll (s : HubState) : Prop :=
  ∀ r p, s.hub.Member r p → ∀ pc, ∃ room, s.hub.rooms.lookup r = some room ∧
    s.hub.findByUfrag ((s.heap p).session pc).ufrag = some (p, pc, room)

def Admits (s : HubState) (roomId userId : String) : Prop :=
  ∃ room, s.hub.rooms.lookup roomId = some room ∧
    room.participants.entries.length < room.capacity ∧ userId ∉ room.participants

def UfragInUse (s : HubState) (u : String) : Prop :=
  ∃ r q, s.hub.Member r q ∧ (s.heap q).HasUfrag u

/-- Who joins draws two different ufrags that no current participant has. -/
def DrawsFresh (s : HubState) : HubOp → Prop
  | .addParticipant roomId userId _ pubUfrag _ subUfrag _ _ => s.Admits roomId userId →
    pubUfrag ≠ subUfrag ∧ ¬ s.UfragInUse pubUfrag ∧ ¬ s.UfragInUse subUfrag
  | _ => True

/-- The ufrag is entered for the session in the hub and in the room. -/
structure Entered (hub : RoomHub) (r u : String) (p : Ref) (pc : PcType) : Prop where
  ufragIndex : hub.ufragIndex.lookup u = some r
  byUfrag : ∃ room, hub.rooms.lookup r = some room ∧ room.byUfrag.lookup u = some (p, pc)

variable {s s' : HubState} {op : HubOp} {r roomId userId u : String} {p q : Ref} {pc : PcType}

theorem Entered.found {hub : RoomHub} (h : Entered hub r u p pc) :
    ∃ room, hub.rooms.lookup r = some room ∧ hub.findByUfrag u = some (p, pc, room) := by
  obtain ⟨hindex, room, hroom, hby⟩ := h
  exact ⟨room, hroom, by simp [RoomHub.findByUfrag, hindex, hroom, Room.getByUfrag, hby]⟩

theorem findsAll_iff (hs : s.hub.Sound s.heap s.next) : s.FindsAll ↔
    ∀ r p, s.hub.Member r p → ∀ pc, Entered s.hub r ((s.heap p).session pc).ufrag p pc := by
  constructor
  · intro h r p hp pc
    obtain ⟨room, hroom, hfind⟩ := h r p hp pc
    obtain ⟨r', hindex, hroom', hby⟩ := RoomHub.findByUfrag_eq_some hfind
    have hr : r' = r := by rw [← (hs.room hroom').1, (hs.room hroom).1]
    exact ⟨hr ▸ hindex, room, hroom, hby⟩
  · exact fun h r p hp pc => (h r p hp pc).found

theorem FindsAll.unique (h : s.FindsAll) {r' : String} {pc' : PcType} (hp : s.hub.Member r p)
    (hq : s.hub.Member r' q)
    (heq : ((s.heap p).session pc).ufrag = ((s.heap q).session pc').ufrag) : p = q ∧ pc = pc' := by
  obtain ⟨room, -, hfind⟩ := h r p hp pc
  obtain ⟨room', -, hfind'⟩ := h r' q hq pc'
  rw [heq] at hfind
  cases hfind.symm.trans hfind'
  exact ⟨rfl, rfl⟩

theorem FindsAll.congr (h : s.FindsAll) (hs : s.hub.Sound s.heap s.next)
    (hs' : s'.hub.Sound s'.heap s'.next)
    (hu : ∀ {r p}, s.hub.Member r p → ∀ pc, ((s'.heap p).session pc).ufrag =
      ((s.heap p).session pc).ufrag)
    (hm : ∀ {r p}, s'.hub.Member r p → s.hub.Member r p)
    (he : ∀ {r p pc}, s'.hub.Member r p → Entered s.hub r ((s.heap p).session pc).ufrag p pc →
      Entered s'.hub r ((s.heap p).session pc).ufrag p pc) : s'.FindsAll := by
  refine (findsAll_iff hs').mpr fun r p hp pc => ?_
  rw [hu (hm hp)]
  exact he hp ((findsAll_iff hs).mp h r p (hm hp) pc)

theorem member_of_leaves (h : s.Leaves op r p) : s.hub.Member r p := by
  cases op with
  | removeParticipant roomId userId =>
    obtain ⟨rfl, room, hroom, hp⟩ := h
    exact ⟨room, userId, hroom, hp⟩
  | reapZombies => exact h.1
  | removeRoom =>
    obtain ⟨rfl, hp⟩ := h
    exact hp
  | _ => cases h

theorem FindsAll.left {hub : RoomHub} (h : s.FindsAll) (hs : s.hub.Sound s.heap s.next)
    (hw : s.hub.Without s.heap (s.Leaves op) hub) : FindsAll { s with hub := hub } := by
  refine h.congr hs (hs.without hw) (fun _ _ => rfl) (fun hp => (hw.member.mp hp).1) ?_
  rintro r p pc hp' ⟨hindex, room, hroom, hby⟩
  obtain ⟨hp, hstays⟩ := hw.member.mp hp'
  obtain ⟨room', u', hroom', -⟩ := hp'
  obtain ⟨room₁, hroom₁, hwr⟩ := hw.room hroom'
  cases hroom.symm.trans hroom₁
  have hkept : ∀ r' q, s.Leaves op r' q → ¬ (s.heap q).HasUfrag ((s.heap p).session pc).ufrag := by
    rintro r' q hq ⟨qc, heq⟩
    have hq' := member_of_leaves hq
    obtain ⟨rfl, -⟩ := h.unique hq' hp heq
    exact hstays (hs.home hp hq' ▸ hq)
  exact ⟨hw.ufragIndex.mpr ⟨hindex, hkept⟩, room', hroom', hwr.byUfrag.mpr ⟨hby, hkept r⟩⟩

theorem FindsAll.created {id name : String} {capacity : Option Nat} {mode : RoomMode}
    {createdAt : Nat} {audioSsrc videoSsrc : U32} (h : s.FindsAll)
    (hs : s.hub.Sound s.heap s.next) (hid : id ∉ s.hub.rooms) : FindsAll { s with
      hub := s.hub.create id name capacity mode createdAt audioSsrc videoSsrc } := by
  refine h.congr hs (hs.create ..) (fun _ _ => rfl) (RoomHub.member_create hid).mp ?_
  rintro r p pc hp ⟨hindex, room, hroom, hby⟩
  have hr := ((RoomHub.member_create hid).mp hp).ne hid
  exact ⟨hindex, room, (AList.lookup_insert_ne hr).trans hroom, hby⟩

theorem FindsAll.latched {u : String} {a : SocketAddr} {heap : Heap} {hub : RoomHub} {x : Ref}
    {xc : PcType} (h : s.FindsAll) (hs : s.hub.Sound s.heap s.next)
    (hok : s.hub.latchByUfrag s.heap u a = some (heap, hub, x, xc)) :
    FindsAll { s with heap := heap, hub := hub, latches := (a, x, xc) :: s.latches } := by
  have hs' := hs.latchByUfrag hok
  obtain ⟨roomId, room, room', -, hroom, hlatch, rfl⟩ := RoomHub.latchByUfrag_eq_some hok
  obtain ⟨hu, rfl, hroom', -, -⟩ := Room.latch_spec hlatch
  have hparts : room'.participants = room.participants := by rw [hroom']
  refine h.congr hs hs' (fun {_ q} _ pc => Heap.latch_ufrag q pc)
    (RoomHub.member_insert hroom hparts rfl).mp ?_
  rintro r p pc - ⟨hindex, room₁, hroom₁, hby⟩
  refine ⟨hindex, ?_⟩
  by_cases hr : r = roomId
  · subst hr
    cases hroom.symm.trans hroom₁
    exact ⟨room', AList.lookup_insert _, by rw [hroom']; exact hby⟩
  · exact ⟨room₁, (AList.lookup_insert_ne hr).trans hroom₁, hby⟩

theorem admits_iff {x : Participant} :
    s.Admits roomId x.userId ↔
      ∃ hub, s.hub.addParticipant (s.heap.alloc s.next x) roomId s.next = .ok hub := by
  constructor
  · rintro ⟨room, hroom, hlen, hnew⟩
    simp only [RoomHub.addParticipant, RoomHub.get, hroom, Room.addParticipant, Heap.alloc_same,
      if_neg (Nat.not_le.mpr hlen), if_neg hnew, bind, Except.bind, pure, Except.pure]
    exact ⟨_, rfl⟩
  · rintro ⟨hub, hok⟩
    obtain ⟨room, room', hroom, hadd, -⟩ := RoomHub.addParticipant_eq_ok hok
    unfold Room.addParticipant at hadd
    rw [Heap.alloc_same] at hadd
    split at hadd
    · cases hadd
    · split at hadd
      · cases hadd
      · exact ⟨room, hroom, Nat.not_le.mp ‹_›, ‹_›⟩

/-- After a join all are found just when the two ufrags drawn were nobody's. -/
theorem findsAll_added {x : Participant} {hub : RoomHub} (hs : s.hub.Sound s.heap s.next)
    (h : s.FindsAll)
    (hok : s.hub.addParticipant (s.heap.alloc s.next x) roomId s.next = .ok hub) :
    FindsAll { s with heap := s.heap.alloc s.next x, next := s.next + 1, hub := hub } ↔
      x.publish.ufrag ≠ x.subscribe.ufrag ∧ ¬ s.UfragInUse x.publish.ufrag ∧
        ¬ s.UfragInUse x.subscribe.ufrag := by
  have hs' := hs.addParticipant hok
  have hmem : ∀ {r p}, hub.Member r p ↔ s.hub.Member r p ∨ r = roomId ∧ p = s.next :=
    RoomHub.member_addParticipant hok
  obtain ⟨room, room', hroom, hadd, rfl⟩ := RoomHub.addParticipant_eq_ok hok
  obtain ⟨-, hroom'⟩ := Room.addParticipant_eq_ok hadd
  simp only [Heap.alloc_same] at hmem hroom' hs' ⊢
  have hold : ∀ {r p}, s.hub.Member r p → s.heap.alloc s.next x p = s.heap p :=
    fun hp => Heap.alloc_of_lt (hs.allocated hp)
  have hjoined := hmem.mpr (.inr ⟨rfl, rfl⟩)
  constructor
  · intro hall
    have huse : ∀ pc, ¬ s.UfragInUse (x.session pc).ufrag := by
      rintro pc ⟨r, q, hq, qc, heq⟩
      obtain ⟨hsame, -⟩ : q = s.next ∧ qc = pc := hall.unique (hmem.mpr (.inl hq)) hjoined
        (by simpa only [hold hq, Heap.alloc_same] using heq)
      exact Nat.ne_of_lt (hs.allocated hq) hsame
    refine ⟨fun heq => ?_, huse .publish, huse .subscribe⟩
    obtain ⟨-, hsame⟩ : s.next = s.next ∧ PcType.publish = .subscribe :=
      hall.unique hjoined hjoined (by simpa only [Heap.alloc_same, Participant.session] using heq)
    cases hsame
  · rintro ⟨hne, hpub, hsub⟩
    refine (findsAll_iff hs').mpr fun r p hp pc => ?_
    rcases hmem.mp hp with hp | ⟨rfl, rfl⟩
    · -- Who was found before is found still: the ufrags entered are others.
      obtain ⟨hindex, room₁, hroom₁, hby⟩ := (findsAll_iff hs).mp h r p hp pc
      have h₁ : ((s.heap p).session pc).ufrag ≠ x.publish.ufrag := fun hc => hpub ⟨r, p, hp, pc, hc⟩
      have h₂ : ((s.heap p).session pc).ufrag ≠ x.subscribe.ufrag :=
        fun hc => hsub ⟨r, p, hp, pc, hc⟩
      simp only [hold hp]
      refine ⟨by simp only [DashMap.lookup_insert', if_neg h₁, if_neg h₂, hindex], ?_⟩
      by_cases hr : r = roomId
      · subst hr
        cases hroom.symm.trans hroom₁
        refine ⟨room', AList.lookup_insert _, ?_⟩
        simp only [hroom', DashMap.lookup_insert', if_neg h₁, if_neg h₂, hby]
      · exact ⟨room₁, (AList.lookup_insert_ne hr).trans hroom₁, hby⟩
    · simp only [Heap.alloc_same]
      cases pc with
      | publish =>
        refine ⟨?_, room', AList.lookup_insert _, ?_⟩
        · simp only [DashMap.lookup_insert', Participant.session, if_neg hne, if_pos]
        · simp only [hroom', DashMap.lookup_insert', Participant.session, if_neg hne, if_pos]
      | subscribe =>
        refine ⟨AList.lookup_insert _, room', AList.lookup_insert _, ?_⟩
        rw [hroom']
        exact AList.lookup_insert _

theorem FindsAll.step (h : s.FindsAll) (hs : s.hub.Sound s.heap s.next) (hd : s.DrawsFresh op)
    (hstep : s.step op = some s') : s'.FindsAll := by
  cases step_cases hs.keyed hstep with
  | failed => exact h
  | created hid => exact h.created hs hid
  | added hp hok =>
    subst hp
    exact (findsAll_added hs h hok).mpr (hd (admits_iff.mpr ⟨_, hok⟩))
  | latched hok => exact h.latched hs hok
  | left hw => exact h.left hs hw
  | touched p ts =>
    refine h.congr hs (sound_step hs hstep) (fun hp pc => ?_) id fun _ he => he
    rw [sameUsers_touch.session (hs.allocated hp)]

theorem findsAll_step (hs : s.hub.Sound s.heap s.next) (h : s.FindsAll)
    (hstep : s.step op = some s') : s'.FindsAll ↔ s.DrawsFresh op := by
  refine ⟨fun h' => ?_, fun hd => h.step hs hd hstep⟩
  cases op with
  | addParticipant roomId userId ownRoom pubUfrag pubPwd subUfrag subPwd joinedAt =>
    intro hadmits
    obtain ⟨hub, hok⟩ := (admits_iff
      (x := .new userId ownRoom pubUfrag pubPwd subUfrag subPwd joinedAt)).mp hadmits
    simp only [HubState.step, hok] at hstep
    cases hstep
    exact (findsAll_added hs h hok).mp h'
  | _ => trivial

theorem findsAll_new : new.FindsAll := by
  rintro r p ⟨_, _, hroom, _⟩
  cases hroom

/-- Everybody is found by their ufrags all along a run just when each one who joins draws
two ufrags that nobody present has. -/
theorem findsAll_iff_drawsFresh {ops : List HubOp} (hrun : run step new ops = some s) :
    Always step FindsAll new ops ↔ Along step DrawsFresh new ops :=
  always_iff_along (I := fun s => s.hub.Sound s.heap s.next)
    (fun _ _ _ hs h hstep => ⟨sound_step hs hstep, findsAll_step hs h hstep⟩)
    sound_new findsAll_new hrun

def join (roomId userId : String) (pubIce subIce : IceCredentials) (joinedAt : Nat) : HubOp :=
  .addParticipant roomId userId roomId pubIce.ufrag pubIce.pwd subIce.ufrag subIce.pwd joinedAt

/-- Credentials whose ufrag is drawn as four times the same byte. -/
def drawn (b : U8) : IceCredentials := .new (.replicate 4 b) (.replicate 22 0)

/-- Bob draws a ufrag of alice's: she is not found, and once he has left nobody is. -/
theorem alice_shadowed : ∃ s s' room room',
    run step new [.create "r" "" none .conference 0 0 0, join "r" "alice" (drawn 10) (drawn 11) 1,
      join "r" "bob" (drawn 10) (drawn 12) 1] = some s ∧
    s.step (.removeParticipant "r" "bob") = some s' ∧
    s.hub.rooms.lookup "r" = some room ∧ room.participants.lookup "alice" = some 0 ∧
    s.hub.findByUfrag ((s.heap 0).session .publish).ufrag = some (1, .publish, room) ∧
    s'.hub.rooms.lookup "r" = some room' ∧ room'.participants.lookup "alice" = some 0 ∧
    s'.hub.findByUfrag ((s'.heap 0).session .publish).ufrag = none := by
  refine ⟨_, _, _, _, rfl, rfl, rfl, rfl, rfl, rfl, rfl, rfl⟩

theorem findsAll_joined : Always step FindsAll new
    [.create "r" "" none .conference 0 0 0, join "r" "alice" (drawn 10) (drawn 11) 1] := by
  refine (findsAll_iff_drawsFresh rfl).mpr ⟨trivial, fun s h => ?_⟩
  cases h
  have hnobody : ∀ u, ¬ UfragInUse { new with
      hub := RoomHub.create .new "r" "" none .conference 0 0 0 } u := by
    rintro u ⟨r, q, hq, -⟩
    obtain ⟨_, _, hroom, _⟩ := (RoomHub.member_create (by decide)).mp hq
    cases hroom
  exact ⟨fun _ => ⟨by decide, hnobody _, hnobody _⟩, fun _ _ => trivial⟩

end LightLivechat.Room.HubState
