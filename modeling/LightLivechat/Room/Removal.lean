import LightLivechat.Room.Indices

/-! What is left of a room, and of the hub's reverse indices, when participants leave
or are reaped.  Entries are dropped by key: a key that a participant who goes holds
is gone, whoever the entry names. -/

set_option linter.dupNamespace false

namespace LightLivechat.Room

open LightLivechat.Lib.Bytes LightLivechat.Lib.Std

namespace Participant

def HasUfrag (p : Participant) (u : String) : Prop := ∃ pc, (p.session pc).ufrag = u

def HasAddress (p : Participant) (a : SocketAddr) : Prop := ∃ pc, (p.session pc).address = some a

variable {p : Participant} {u : String} {a : SocketAddr}

theorem hasUfrag_iff : p.HasUfrag u ↔ u = p.publish.ufrag ∨ u = p.subscribe.ufrag := by
  constructor
  · rintro ⟨⟨⟩, rfl⟩
    · exact .inl rfl
    · exact .inr rfl
  · rintro (rfl | rfl)
    · exact ⟨.publish, rfl⟩
    · exact ⟨.subscribe, rfl⟩

theorem hasAddress_iff :
    p.HasAddress a ↔ p.publish.address = some a ∨ p.subscribe.address = some a := by
  constructor
  · rintro ⟨⟨⟩, h⟩
    · exact .inl h
    · exact .inr h
  · rintro (h | h)
    · exact ⟨.publish, h⟩
    · exact ⟨.subscribe, h⟩

end Participant

section

variable {β : Type} {p : Participant}

theorem Room.eraseAddr_eq_some {m : DashMap SocketAddr β} {addr : Option SocketAddr}
    {a : SocketAddr} {b : β} :
    (Room.eraseAddr m addr).lookup a = some b ↔ m.lookup a = some b ∧ addr ≠ some a := by
  cases addr with
  | none => simp [Room.eraseAddr]
  | some addr => simp [Room.eraseAddr, DashMap.lookup_erase_eq_some, eq_comm (a := addr)]

theorem lookup_erase_ufrags {m : DashMap String β} {u : String} {b : β} :
    ((m.erase p.publish.ufrag).erase p.subscribe.ufrag).lookup u = some b ↔
      m.lookup u = some b ∧ ¬ p.HasUfrag u := by
  rw [DashMap.lookup_erase_eq_some, DashMap.lookup_erase_eq_some, Participant.hasUfrag_iff,
    and_assoc, not_or]

theorem lookup_erase_addresses {m : DashMap SocketAddr β} {a : SocketAddr} {b : β} :
    (Room.eraseAddr (Room.eraseAddr m p.publish.address) p.subscribe.address).lookup a = some b ↔
      m.lookup a = some b ∧ ¬ p.HasAddress a := by
  rw [Room.eraseAddr_eq_some, Room.eraseAddr_eq_some, Participant.hasAddress_iff, and_assoc, not_or]

end

/-- Everybody is stored under the own user id. -/
structure Room.Keyed (heap : Heap) (room : Room) : Prop where
  userId : ∀ {u p}, room.participants.lookup u = some p → (heap p).userId = u

/-- `room'` is `room` once the participants in `gone` are taken out. -/
structure Room.Without (heap : Heap) (gone : Ref → Prop) (room room' : Room) : Prop where
  frame : room' = { room with
    participants := room'.participants, byUfrag := room'.byUfrag, byAddr := room'.byAddr }
  participants : ∀ {u p}, room'.participants.lookup u = some p ↔
    room.participants.lookup u = some p ∧ ¬ gone p
  byUfrag : ∀ {u e}, room'.byUfrag.lookup u = some e ↔
    room.byUfrag.lookup u = some e ∧ ∀ p, gone p → ¬ (heap p).HasUfrag u
  byAddr : ∀ {a e}, room'.byAddr.lookup a = some e ↔
    room.byAddr.lookup a = some e ∧ ∀ p, gone p → ¬ (heap p).HasAddress a

/-- `hub'` is `hub` once the participants in `gone`, a set for each room, are taken out.
A room may go with everybody in it. -/
structure RoomHub.Without (heap : Heap) (gone : String → Ref → Prop) (hub hub' : RoomHub) :
    Prop where
  room : ∀ {roomId room'}, hub'.rooms.lookup roomId = some room' →
    ∃ room, hub.rooms.lookup roomId = some room ∧ room.Without heap (gone roomId) room'
  closed : ∀ {roomId room}, hub.rooms.lookup roomId = some room →
    hub'.rooms.lookup roomId = none → ∀ {u p}, room.participants.lookup u = some p → gone roomId p
  ufragIndex : ∀ {u roomId}, hub'.ufragIndex.lookup u = some roomId ↔
    hub.ufragIndex.lookup u = some roomId ∧ ∀ r p, gone r p → ¬ (heap p).HasUfrag u
  addrIndex : ∀ {a roomId}, hub'.addrIndex.lookup a = some roomId ↔
    hub.addrIndex.lookup a = some roomId ∧ ∀ r p, gone r p → ¬ (heap p).HasAddress a

section

variable {heap : Heap} {room room₁ room' : Room} {p : Ref} {userId roomId : String}

namespace Room

variable {gone gone₁ : Ref → Prop}

theorem Without.refl (h : ∀ p, ¬ gone p) : room.Without heap gone room where
  frame := rfl
  participants := by simp [h]
  byUfrag := by simp [h]
  byAddr := by simp [h]

theorem Without.trans (h : room.Without heap gone room₁) (h₁ : room₁.Without heap gone₁ room') :
    room.Without heap (fun p => gone p ∨ gone₁ p) room' where
  frame := by
    rw [h₁.frame, h.frame]
  participants := by
    intro u p
    rw [h₁.participants, h.participants, and_assoc, not_or]
  byUfrag := by
    intro u e
    rw [h₁.byUfrag, h.byUfrag, and_assoc]
    simp [or_imp, forall_and]
  byAddr := by
    intro a e
    rw [h₁.byAddr, h.byAddr, and_assoc]
    simp [or_imp, forall_and]

theorem Without.congr (h : room.Without heap gone room') (hg : ∀ p, gone p ↔ gone₁ p) :
    room.Without heap gone₁ room' := by
  obtain rfl : gone = gone₁ := funext fun p => propext (hg p)
  exact h

theorem Without.keyed (h : room.Without heap gone room') (hk : room.Keyed heap) :
    room'.Keyed heap := ⟨fun hu => hk.userId (h.participants.mp hu).1⟩

theorem removeParticipant_eq_ok (hok : room.removeParticipant heap userId = .ok (room', p)) :
    room.participants.lookup userId = some p := by
  unfold Room.removeParticipant at hok
  split at hok
  · cases hok
  · cases hok
    assumption

theorem Keyed.removeParticipant (hk : room.Keyed heap)
    (hok : room.removeParticipant heap userId = .ok (room', p)) :
    room.Without heap (fun q => q = p) room' := by
  have hp : room.participants.lookup userId = some p := removeParticipant_eq_ok hok
  unfold Room.removeParticipant at hok
  rw [hp] at hok
  cases hok
  refine ⟨rfl, fun {u q} => ?_, fun {u e} => ?_, fun {a e} => ?_⟩
  · rw [DashMap.lookup_erase_eq_some]
    refine and_congr_right fun hu => not_congr ⟨?_, ?_⟩
    · rintro rfl
      exact Option.some.inj (hu.symm.trans hp)
    · rintro rfl
      exact (hk.userId hu).symm.trans (hk.userId hp)
  · rw [lookup_erase_ufrags, forall_eq]
  · rw [lookup_erase_addresses, forall_eq]

end Room

namespace RoomHub

variable {hub hub₁ hub' : RoomHub} {gone gone₁ : String → Ref → Prop}

structure Keyed (heap : Heap) (hub : RoomHub) : Prop where
  room : ∀ {roomId room}, hub.rooms.lookup roomId = some room → room.Keyed heap

def Member (hub : RoomHub) (roomId : String) (p : Ref) : Prop :=
  ∃ room u, hub.rooms.lookup roomId = some room ∧ room.participants.lookup u = some p

theorem Without.refl (h : ∀ r p, ¬ gone r p) : hub.Without heap gone hub where
  room := fun hroom => ⟨_, hroom, .refl (h _)⟩
  closed := fun hroom hnone => by simp [hroom] at hnone
  ufragIndex := by simp [h]
  addrIndex := by simp [h]

theorem Without.trans (h : hub.Without heap gone hub₁) (h₁ : hub₁.Without heap gone₁ hub') :
    hub.Without heap (fun r p => gone r p ∨ gone₁ r p) hub' where
  room := by
    intro roomId room' hroom'
    obtain ⟨room₁, hroom₁, hw₁⟩ := h₁.room hroom'
    obtain ⟨room, hroom, hw⟩ := h.room hroom₁
    exact ⟨room, hroom, hw.trans hw₁⟩
  closed := by
    intro roomId room hroom hnone u p hu
    cases hroom₁ : hub₁.rooms.lookup roomId with
    | none => exact .inl (h.closed hroom hroom₁ hu)
    | some room₁ =>
      obtain ⟨room₀, hroom₀, hw⟩ := h.room hroom₁
      cases hroom.symm.trans hroom₀
      by_cases hp : gone roomId p
      · exact .inl hp
      · exact .inr (h₁.closed hroom₁ hnone (hw.participants.mpr ⟨hu, hp⟩))
  ufragIndex := by
    intro u r
    rw [h₁.ufragIndex, h.ufragIndex, and_assoc]
    simp [or_imp, forall_and]
  addrIndex := by
    intro a r
    rw [h₁.addrIndex, h.addrIndex, and_assoc]
    simp [or_imp, forall_and]

theorem Without.congr (h : hub.Without heap gone hub') (hg : ∀ r p, gone r p ↔ gone₁ r p) :
    hub.Without heap gone₁ hub' := by
  obtain rfl : gone = gone₁ := funext fun r => funext fun p => propext (hg r p)
  exact h

theorem Without.member (h : hub.Without heap gone hub') :
    hub'.Member roomId p ↔ hub.Member roomId p ∧ ¬ gone roomId p := by
  constructor
  · rintro ⟨room', u, hroom', hu⟩
    obtain ⟨room, hroom, hw⟩ := h.room hroom'
    obtain ⟨hu, hp⟩ := hw.participants.mp hu
    exact ⟨⟨room, u, hroom, hu⟩, hp⟩
  · rintro ⟨⟨room, u, hroom, hu⟩, hp⟩
    cases hroom' : hub'.rooms.lookup roomId with
    | none => exact absurd (h.closed hroom hroom' hu) hp
    | some room' =>
      obtain ⟨room₁, hroom₁, hw⟩ := h.room hroom'
      cases hroom.symm.trans hroom₁
      exact ⟨room', u, hroom', hw.participants.mpr ⟨hu, hp⟩⟩

theorem Without.keyed (h : hub.Without heap gone hub') (hk : hub.Keyed heap) :
    hub'.Keyed heap := by
  refine ⟨fun hroom' => ?_⟩
  obtain ⟨room, hroom, hw⟩ := h.room hroom'
  exact hw.keyed (hk.room hroom)

theorem dropIndices_ufragIndex {u r : String} :
    (hub.dropIndices heap p).ufragIndex.lookup u = some r ↔
      hub.ufragIndex.lookup u = some r ∧ ¬ (heap p).HasUfrag u := lookup_erase_ufrags

theorem dropIndices_addrIndex {a : SocketAddr} {r : String} :
    (hub.dropIndices heap p).addrIndex.lookup a = some r ↔
      hub.addrIndex.lookup a = some r ∧ ¬ (heap p).HasAddress a := lookup_erase_addresses

theorem foldl_dropIndices (heap : Heap) (ps : List Ref) (hub : RoomHub) :
    (ps.foldl (dropIndices heap) hub).rooms = hub.rooms ∧
      (∀ u r, (ps.foldl (dropIndices heap) hub).ufragIndex.lookup u = some r ↔
        hub.ufragIndex.lookup u = some r ∧ ∀ p ∈ ps, ¬ (heap p).HasUfrag u) ∧
      ∀ a r, (ps.foldl (dropIndices heap) hub).addrIndex.lookup a = some r ↔
        hub.addrIndex.lookup a = some r ∧ ∀ p ∈ ps, ¬ (heap p).HasAddress a := by
  induction ps generalizing hub with
  | nil => simp
  | cons p ps ih =>
    obtain ⟨hrooms, hufrag, haddr⟩ := ih (hub.dropIndices heap p)
    refine ⟨hrooms, fun u r => ?_, fun a r => ?_⟩
    · rw [List.foldl_cons, hufrag, dropIndices_ufragIndex, and_assoc, List.forall_mem_cons]
    · rw [List.foldl_cons, haddr, dropIndices_addrIndex, and_assoc, List.forall_mem_cons]

theorem Keyed.removeParticipant (hk : hub.Keyed heap)
    (hok : hub.removeParticipant heap roomId userId = .ok (hub', p)) :
    hub.Without heap (fun r q => r = roomId ∧ q = p) hub' := by
  obtain ⟨room, room', hroom, hrem, rfl⟩ := removeParticipant_eq_ok hok
  refine ⟨fun {r room₁} h₁ => ?_, fun {r room₁} h₁ hnone => ?_, ?_, ?_⟩
  · rw [show (RoomHub.dropIndices heap _ p).rooms = hub.rooms.insert roomId room' from rfl,
      DashMap.lookup_insert'] at h₁
    split at h₁
    · cases h₁
      subst r
      exact ⟨room, hroom, ((hk.room hroom).removeParticipant hrem).congr (by simp)⟩
    · exact ⟨room₁, h₁, .refl fun q hq => ‹r ≠ roomId› hq.1⟩
  · rw [show (RoomHub.dropIndices heap _ p).rooms = hub.rooms.insert roomId room' from rfl,
      DashMap.lookup_insert'] at hnone
    split at hnone
    · cases hnone
    · simp [h₁] at hnone
  · simp [dropIndices_ufragIndex]
  · simp [dropIndices_addrIndex]

theorem removeRoom_without (hok : hub.removeRoom heap roomId = .ok hub') :
    hub.Without heap (fun r p => r = roomId ∧ hub.Member r p) hub' := by
  unfold RoomHub.removeRoom at hok
  split at hok
  · cases hok
  · rename_i room hroom
    cases hok
    obtain ⟨hrooms, hufrag, haddr⟩ :=
      foldl_dropIndices heap (DashMap.values room.participants)
        { hub with rooms := hub.rooms.erase roomId }
    have hmem : ∀ {p}, p ∈ DashMap.values room.participants ↔ hub.Member roomId p := by
      refine fun {p} => ⟨fun hp => ?_, ?_⟩
      · obtain ⟨u, hu⟩ := DashMap.exists_lookup_of_mem_values hp
        exact ⟨room, u, hroom, hu⟩
      · rintro ⟨room₁, u, hroom₁, hu⟩
        cases hroom.symm.trans hroom₁
        exact DashMap.mem_values hu
    refine ⟨fun {r room'} h => ?_, fun {r room₁} h hnone u p hu => ?_, fun {u r} => ?_,
      fun {a r} => ?_⟩
    · rw [hrooms, DashMap.lookup_erase_eq_some] at h
      exact ⟨room', h.1, .refl fun p hp => h.2 hp.1⟩
    · rw [hrooms, DashMap.lookup_erase'] at hnone
      split at hnone
      · exact ⟨‹_›, room₁, u, h, hu⟩
      · simp [h] at hnone
    · rw [hufrag]
      refine and_congr_right fun _ => ⟨?_, fun h p hp => h roomId p ⟨rfl, hmem.mp hp⟩⟩
      rintro h _ p ⟨rfl, hp⟩
      exact h p (hmem.mpr hp)
    · rw [haddr]
      refine and_congr_right fun _ => ⟨?_, fun h p hp => h roomId p ⟨rfl, hmem.mp hp⟩⟩
      rintro h _ p ⟨rfl, hp⟩
      exact h p (hmem.mpr hp)

section

variable {acc : RoomHub × List (String × Ref)} {nowMs timeoutMs : Nat} {e : String × Ref}

theorem mem_zombieIds {u : String} : u ∈ zombieIds heap room nowMs timeoutMs ↔
    ∃ p, room.participants.lookup u = some p ∧ isZombie nowMs timeoutMs (heap p) = true := by
  simp only [zombieIds, List.mem_map, List.mem_filter]
  constructor
  · rintro ⟨e, ⟨he, hz⟩, rfl⟩
    exact ⟨e.2, AList.mem_lookup_iff.mpr he, hz⟩
  · rintro ⟨p, hp, hz⟩
    exact ⟨⟨u, p⟩, ⟨AList.mem_lookup_iff.mp hp, hz⟩, rfl⟩

theorem mem_rooms_removeParticipant
    (hok : hub.removeParticipant heap roomId userId = .ok (hub', p)) (r : String) :
    r ∈ hub'.rooms ↔ r ∈ hub.rooms := by
  obtain ⟨room, room', hroom, -, rfl⟩ := removeParticipant_eq_ok hok
  rw [show (RoomHub.dropIndices heap _ p).rooms = hub.rooms.insert roomId room' from rfl,
    AList.mem_insert]
  refine ⟨?_, .inr⟩
  rintro (rfl | h)
  · exact DashMap.mem_iff_lookup.mpr ⟨room, hroom⟩
  · exact h

theorem removeParticipant_of_lookup (heap : Heap) {room : Room} {userId : String}
    (hroom : hub.rooms.lookup roomId = some room)
    (hp : room.participants.lookup userId = some p) :
    ∃ hub', hub.removeParticipant heap roomId userId = .ok (hub', p) := by
  simp [RoomHub.removeParticipant, RoomHub.get, Room.removeParticipant, hroom, hp, bind,
    Except.bind, pure, Except.pure]

/-- The participants reaped so far are out of the hub, and nobody else. -/
structure Reaped (heap : Heap) (hub : RoomHub) (acc : RoomHub × List (String × Ref)) : Prop where
  without : hub.Without heap (fun r p => (r, p) ∈ acc.2) acc.1
  rooms : ∀ r, r ∈ acc.1.rooms ↔ r ∈ hub.rooms

theorem Reaped.lookup (h : Reaped heap hub acc) (hroom : hub.rooms.lookup roomId = some room) :
    ∃ room₁, acc.1.rooms.lookup roomId = some room₁ ∧
      room.Without heap (fun p => (roomId, p) ∈ acc.2) room₁ := by
  have hmem : roomId ∈ hub.rooms := DashMap.mem_iff_lookup.mpr ⟨room, hroom⟩
  obtain ⟨room₁, hroom₁⟩ := DashMap.mem_iff_lookup.mp ((h.rooms roomId).mpr hmem)
  obtain ⟨room₀, hroom₀, hw⟩ := h.without.room hroom₁
  cases hroom.symm.trans hroom₀
  exact ⟨room₁, hroom₁, hw⟩

theorem Reaped.reap (h : Reaped heap hub acc) (hk : hub.Keyed heap) :
    Reaped heap hub (reap heap roomId acc userId) := by
  unfold RoomHub.reap
  split
  · rename_i hub₁ p hok
    refine ⟨?_, fun r => (mem_rooms_removeParticipant hok r).trans (h.rooms r)⟩
    refine (h.without.trans ((h.without.keyed hk).removeParticipant hok)).congr fun r q => ?_
    simp
  · exact h

theorem Reaped.mem_reap (h : Reaped heap hub acc) :
    e ∈ (RoomHub.reap heap roomId acc userId).2 ↔ e ∈ acc.2 ∨ e.1 = roomId ∧
      ∃ room, hub.rooms.lookup roomId = some room ∧ room.participants.lookup userId = some e.2 := by
  constructor
  · intro he
    unfold RoomHub.reap at he
    split at he
    · rename_i hub₁ p hok
      obtain ⟨room₁, room₂, hroom₁, hrem, -⟩ := removeParticipant_eq_ok hok
      rcases List.mem_append.mp he with he | he
      · exact .inl he
      · cases List.mem_singleton.mp he
        obtain ⟨room, hroom, hw⟩ := h.without.room hroom₁
        have hp := (hw.participants.mp (Room.removeParticipant_eq_ok hrem)).1
        exact .inr ⟨rfl, room, hroom, hp⟩
    · exact .inl he
  · intro he
    by_cases hold : e ∈ acc.2
    · unfold RoomHub.reap
      split
      · exact List.mem_append_left _ hold
      · exact hold
    · obtain ⟨rfl, room, hroom, hp⟩ := he.resolve_left hold
      obtain ⟨room₁, hroom₁, hw⟩ := h.lookup hroom
      obtain ⟨hub₁, hok⟩ :=
        removeParticipant_of_lookup heap hroom₁ (hw.participants.mpr ⟨hp, hold⟩)
      simp [RoomHub.reap, hok]

theorem Reaped.foldl_reap (h : Reaped heap hub acc) (hk : hub.Keyed heap) (us : List String) :
    Reaped heap hub (us.foldl (RoomHub.reap heap roomId) acc) ∧
      ∀ e, e ∈ (us.foldl (RoomHub.reap heap roomId) acc).2 ↔ e ∈ acc.2 ∨ e.1 = roomId ∧
        ∃ room, hub.rooms.lookup roomId = some room ∧
          ∃ u ∈ us, room.participants.lookup u = some e.2 := by
  induction us generalizing acc with
  | nil => exact ⟨h, by simp⟩
  | cons u us ih =>
    obtain ⟨hreaped, hmem⟩ := ih (h.reap hk)
    refine ⟨hreaped, fun e => ?_⟩
    rw [List.foldl_cons, hmem, h.mem_reap]
    simp only [List.exists_mem_cons_iff, and_or_left, exists_or, or_assoc]

theorem Reaped.reapRoom (h : Reaped heap hub acc) (hk : hub.Keyed heap) :
    Reaped heap hub (reapRoom heap nowMs timeoutMs acc roomId) ∧
      ∀ e, e ∈ (RoomHub.reapRoom heap nowMs timeoutMs acc roomId).2 ↔ e ∈ acc.2 ∨
        e.1 = roomId ∧ hub.Member roomId e.2 ∧ isZombie nowMs timeoutMs (heap e.2) = true := by
  unfold RoomHub.reapRoom
  split
  · rename_i hnone
    refine ⟨h, fun e => ⟨.inl, ?_⟩⟩
    rintro (he | ⟨-, ⟨room, -, hroom, -⟩, -⟩)
    · exact he
    · obtain ⟨room₁, hroom₁, -⟩ := h.lookup hroom
      simp [hroom₁] at hnone
  · rename_i room₁ hroom₁
    obtain ⟨room, hroom, hw⟩ := h.without.room hroom₁
    obtain ⟨hreaped, hmem⟩ := h.foldl_reap hk (zombieIds heap room₁ nowMs timeoutMs)
    refine ⟨hreaped, fun e => ?_⟩
    rw [hmem]
    constructor
    · rintro (he | ⟨hid, room₀, hroom₀, u, hu, hp⟩)
      · exact .inl he
      · obtain ⟨p, hp₁, hz⟩ := mem_zombieIds.mp hu
        cases hroom.symm.trans hroom₀
        cases hp.symm.trans (hw.participants.mp hp₁).1
        exact .inr ⟨hid, ⟨room, u, hroom, hp⟩, hz⟩
    · rintro (he | ⟨hid, ⟨room₀, u, hroom₀, hp⟩, hz⟩)
      · exact .inl he
      · by_cases hold : e ∈ acc.2
        · exact .inl hold
        · cases hroom.symm.trans hroom₀
          have hp₁ := hw.participants.mpr ⟨hp, hid ▸ hold⟩
          exact .inr ⟨hid, room, hroom, u, mem_zombieIds.mpr ⟨_, hp₁, hz⟩, hp⟩

theorem reaped_reapZombies (hk : hub.Keyed heap) (nowMs timeoutMs : Nat) :
    Reaped heap hub (hub.reapZombies heap nowMs timeoutMs) ∧
      ∀ {r p}, (r, p) ∈ (hub.reapZombies heap nowMs timeoutMs).2 ↔
        hub.Member r p ∧ isZombie nowMs timeoutMs (heap p) = true := by
  have hfold : ∀ (rs : List String) {acc}, Reaped heap hub acc →
      Reaped heap hub (rs.foldl (reapRoom heap nowMs timeoutMs) acc) ∧
        ∀ e, e ∈ (rs.foldl (reapRoom heap nowMs timeoutMs) acc).2 ↔ e ∈ acc.2 ∨
          e.1 ∈ rs ∧ hub.Member e.1 e.2 ∧ isZombie nowMs timeoutMs (heap e.2) = true := by
    intro rs
    induction rs with
    | nil => exact fun h => ⟨h, by simp⟩
    | cons r rs ih =>
      intro acc h
      obtain ⟨hreaped, hmem⟩ := ih (h.reapRoom hk).1
      refine ⟨hreaped, fun e => ?_⟩
      rw [List.foldl_cons, hmem, (h.reapRoom hk).2, List.mem_cons, or_assoc, or_and_right]
      refine or_congr_right (or_congr_left (and_congr_right ?_))
      rintro rfl
      rfl
  have hinit : Reaped heap hub (hub, []) := ⟨.refl (by simp), fun _ => .rfl⟩
  obtain ⟨hreaped, hmem⟩ := hfold (hub.rooms.entries.map fun e => e.1) hinit
  refine ⟨hreaped, fun {r p} => (hmem (r, p)).trans ?_⟩
  simp only [List.not_mem_nil, false_or, and_iff_right_iff_imp]
  rintro ⟨⟨room, -, hroom, -⟩, -⟩
  exact List.mem_map.mpr ⟨⟨r, room⟩, AList.mem_lookup_iff.mp hroom, rfl⟩

end

end RoomHub

end

end LightLivechat.Room
