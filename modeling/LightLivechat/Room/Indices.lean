import LightLivechat.Room.Room

/-! What the entries of a hub's indices satisfy, operation by operation: only a
join adds an entry by ufrag and only a latch one by address. -/

set_option linter.dupNamespace false

namespace LightLivechat.Room

open LightLivechat.Config LightLivechat.Lib.Bytes LightLivechat.Lib.Std

section

variable {β : Type} {m : DashMap SocketAddr β} {addr : Option SocketAddr} {a : SocketAddr} {b : β}

theorem Room.eraseAddr_some (h : (Room.eraseAddr m addr).lookup a = some b) :
    m.lookup a = some b := by
  cases addr with
  | none => exact h
  | some addr => exact DashMap.lookup_erase_some h

end

/-- Every entry of a room's two session indices satisfies its predicate. -/
structure Room.Indexed (P : String → Ref → PcType → Prop) (Q : SocketAddr → Ref → PcType → Prop)
    (room : Room) : Prop where
  ufrag : ∀ {u p pc}, room.byUfrag.lookup u = some (p, pc) → P u p pc
  addr : ∀ {a p pc}, room.byAddr.lookup a = some (p, pc) → Q a p pc

structure RoomHub.Indexed (P : String → Ref → PcType → Prop)
    (Q : SocketAddr → Ref → PcType → Prop) (hub : RoomHub) : Prop where
  room : ∀ {roomId room}, hub.rooms.lookup roomId = some room → room.Indexed P Q

section

variable {P P' : String → Ref → PcType → Prop} {Q Q' : SocketAddr → Ref → PcType → Prop}
variable {heap heap' : Heap} {room room' : Room} {p : Ref} {pc : PcType} {u : String}
variable {a : SocketAddr}

namespace Room

theorem Indexed.mono (h : room.Indexed P Q) (hP : ∀ {u p pc}, P u p pc → P' u p pc)
    (hQ : ∀ {a p pc}, Q a p pc → Q' a p pc) : room.Indexed P' Q' where
  ufrag := fun hu => hP (h.ufrag hu)
  addr := fun ha => hQ (h.addr ha)

theorem Indexed.addParticipant (h : room.Indexed P Q)
    (hpub : P (heap p).publish.ufrag p .publish) (hsub : P (heap p).subscribe.ufrag p .subscribe)
    (hok : room.addParticipant heap p = .ok room') : room'.Indexed P Q := by
  unfold Room.addParticipant at hok
  split at hok
  · cases hok
  · split at hok
    · cases hok
    · cases hok
      refine ⟨fun {u q pc} hu => ?_, h.addr⟩
      simp only [DashMap.lookup_insert'] at hu
      split at hu
      · cases hu
        exact ‹u = _› ▸ hsub
      · split at hu
        · cases hu
          exact ‹u = (heap p).publish.ufrag› ▸ hpub
        · exact h.ufrag hu

theorem Indexed.removeParticipant {userId : String} (h : room.Indexed P Q)
    (hok : room.removeParticipant heap userId = .ok (room', p)) : room'.Indexed P Q := by
  unfold Room.removeParticipant at hok
  split at hok
  · cases hok
  · cases hok
    exact {
      ufrag := fun hu => h.ufrag (DashMap.lookup_erase_some (DashMap.lookup_erase_some hu))
      addr := fun ha => h.addr (eraseAddr_some (eraseAddr_some ha)) }

theorem latch_eq_some (hok : room.latch heap u a = some (heap', room', p, pc)) :
    room.byUfrag.lookup u = some (p, pc) ∧
      heap' = heap.update p (fun x => x.updateSession pc fun s => s.latchAddress a) ∧
      ∀ {P Q}, room.Indexed P Q → Q a p pc → room'.Indexed P Q := by
  unfold Room.latch at hok
  split at hok
  · cases hok
  · cases hok
    refine ⟨‹_›, rfl, fun h hQ => ⟨h.ufrag, fun {b q pc} ha => ?_⟩⟩
    simp only [DashMap.lookup_insert'] at ha
    split at ha
    · cases ha
      exact ‹b = a› ▸ hQ
    · refine h.addr ?_
      split at ha
      · split at ha
        · exact DashMap.lookup_erase_some ha
        · exact ha
      · exact ha

end Room

namespace RoomHub

variable {hub hub' : RoomHub} {roomId userId : String}

theorem indexed_new : new.Indexed P Q := ⟨fun h => by cases h⟩

theorem Indexed.mono (h : hub.Indexed P Q) (hP : ∀ {u p pc}, P u p pc → P' u p pc)
    (hQ : ∀ {a p pc}, Q a p pc → Q' a p pc) : hub.Indexed P' Q' :=
  ⟨fun hroom => (h.room hroom).mono hP hQ⟩

theorem Indexed.insert (h : hub.Indexed P Q) (hr : room.Indexed P Q)
    (hrooms : hub'.rooms = hub.rooms.insert roomId room) : hub'.Indexed P Q := by
  refine ⟨fun hlookup => ?_⟩
  rw [hrooms, DashMap.lookup_insert'] at hlookup
  split at hlookup
  · exact Option.some.inj hlookup ▸ hr
  · exact h.room hlookup

theorem Indexed.create (h : hub.Indexed P Q) (id name : String) (capacity : Option Nat)
    (mode : RoomMode) (createdAt : Nat) (audioSsrc videoSsrc : U32) :
    (hub.create id name capacity mode createdAt audioSsrc videoSsrc).Indexed P Q := by
  refine h.insert ⟨fun hu => ?_, fun ha => ?_⟩ rfl
  · cases hu
  · cases ha

theorem get_eq_ok (h : hub.get roomId = .ok room) : hub.rooms.lookup roomId = some room := by
  unfold RoomHub.get at h
  split at h
  · cases h
    assumption
  · cases h

theorem addParticipant_eq_ok (hok : hub.addParticipant heap roomId p = .ok hub') :
    ∃ room room', hub.rooms.lookup roomId = some room ∧
      room.addParticipant heap p = .ok room' ∧ hub' = { hub with
        rooms := hub.rooms.insert roomId room'
        ufragIndex := (hub.ufragIndex.insert (heap p).publish.ufrag roomId).insert
          (heap p).subscribe.ufrag roomId } := by
  unfold RoomHub.addParticipant at hok
  cases hget : hub.get roomId with
  | error e => simp [hget, bind, Except.bind] at hok
  | ok room =>
    cases hadd : room.addParticipant heap p with
    | error e => simp [hget, hadd, bind, Except.bind] at hok
    | ok room' =>
      simp only [hget, hadd, bind, Except.bind, pure, Except.pure] at hok
      cases hok
      exact ⟨room, room', get_eq_ok hget, hadd, rfl⟩

theorem removeParticipant_eq_ok (hok : hub.removeParticipant heap roomId userId = .ok (hub', p)) :
    ∃ room room', hub.rooms.lookup roomId = some room ∧
      room.removeParticipant heap userId = .ok (room', p) ∧
      hub' = { hub with rooms := hub.rooms.insert roomId room' }.dropIndices heap p := by
  unfold RoomHub.removeParticipant at hok
  cases hget : hub.get roomId with
  | error e => simp [hget, bind, Except.bind] at hok
  | ok room =>
    cases hrem : room.removeParticipant heap userId with
    | error e => simp [hget, hrem, bind, Except.bind] at hok
    | ok r =>
      simp only [hget, hrem, bind, Except.bind, pure, Except.pure] at hok
      cases hok
      exact ⟨room, r.1, get_eq_ok hget, hrem, rfl⟩

theorem latchByUfrag_eq_some (hok : hub.latchByUfrag heap u a = some (heap', hub', p, pc)) :
    ∃ roomId room room', hub.ufragIndex.lookup u = some roomId ∧
      hub.rooms.lookup roomId = some room ∧
      room.latch heap u a = some (heap', room', p, pc) ∧
      hub' = { hub with
        rooms := hub.rooms.insert roomId room'
        addrIndex := hub.addrIndex.insert a roomId } := by
  simp only [latchByUfrag, bind, Option.bind_eq_some_iff] at hok
  obtain ⟨roomId, hid, room, hroom, ⟨heap₁, room', p₁, pc₁⟩, hlatch, hret⟩ := hok
  cases hret
  exact ⟨roomId, room, room', hid, hroom, hlatch, rfl⟩

theorem findByAddr_eq_some (hok : hub.findByAddr a = some (p, pc, room)) :
    ∃ roomId, hub.addrIndex.lookup a = some roomId ∧ hub.rooms.lookup roomId = some room ∧
      room.byAddr.lookup a = some (p, pc) := by
  simp only [findByAddr, bind, Option.bind_eq_some_iff] at hok
  obtain ⟨roomId, hid, room, hroom, ⟨p₁, pc₁⟩, hget, hret⟩ := hok
  cases hret
  exact ⟨roomId, hid, hroom, hget⟩

theorem findByUfrag_of_latch (hok : hub.latchByUfrag heap u a = some (heap', hub', p, pc)) :
    ∃ room, hub.findByUfrag u = some (p, pc, room) := by
  obtain ⟨roomId, room, room', hid, hroom, hlatch, -⟩ := latchByUfrag_eq_some hok
  refine ⟨room, ?_⟩
  simp [findByUfrag, bind, hid, hroom, Room.getByUfrag, (Room.latch_eq_some hlatch).1]

theorem Indexed.addParticipant (h : hub.Indexed P Q)
    (hpub : P (heap p).publish.ufrag p .publish) (hsub : P (heap p).subscribe.ufrag p .subscribe)
    (hok : hub.addParticipant heap roomId p = .ok hub') : hub'.Indexed P Q := by
  obtain ⟨room, room', hroom, hadd, rfl⟩ := addParticipant_eq_ok hok
  exact h.insert ((h.room hroom).addParticipant hpub hsub hadd) rfl

theorem Indexed.removeParticipant (h : hub.Indexed P Q)
    (hok : hub.removeParticipant heap roomId userId = .ok (hub', p)) : hub'.Indexed P Q := by
  obtain ⟨room, room', hroom, hrem, rfl⟩ := removeParticipant_eq_ok hok
  exact h.insert ((h.room hroom).removeParticipant hrem) rfl

theorem Indexed.removeRoom (h : hub.Indexed P Q) (hok : hub.removeRoom heap roomId = .ok hub') :
    hub'.Indexed P Q := by
  have hrooms : hub'.rooms = hub.rooms.erase roomId := by
    unfold RoomHub.removeRoom at hok
    split at hok
    · cases hok
    · cases hok
      exact List.foldlRecOn (motive := fun (x : RoomHub) => x.rooms = hub.rooms.erase roomId) _
        (dropIndices heap) rfl fun _ hx _ _ => hx
  refine ⟨fun hlookup => h.room (DashMap.lookup_erase_some (hrooms ▸ hlookup))⟩

theorem Indexed.reapZombies (h : hub.Indexed P Q) (nowMs timeoutMs : Nat) :
    (hub.reapZombies heap nowMs timeoutMs).1.Indexed P Q := by
  let Kept (acc : RoomHub × List (String × Ref)) : Prop := acc.1.Indexed P Q
  refine List.foldlRecOn (motive := Kept) _ _ h fun acc hacc roomId _ => ?_
  unfold reapRoom
  split
  · exact hacc
  · refine List.foldlRecOn (motive := Kept) _ _ hacc fun acc hacc userId _ => ?_
    unfold reap
    split
    · exact hacc.removeParticipant ‹_›
    · exact hacc

theorem Indexed.latchByUfrag (h : hub.Indexed P Q)
    (hok : hub.latchByUfrag heap u a = some (heap', hub', p, pc)) (hQ : Q a p pc) :
    hub'.Indexed P Q := by
  obtain ⟨roomId, room, room', -, hroom, hlatch, rfl⟩ := latchByUfrag_eq_some hok
  exact h.insert ((Room.latch_eq_some hlatch).2.2 (h.room hroom) hQ) rfl

end RoomHub

end

end LightLivechat.Room
