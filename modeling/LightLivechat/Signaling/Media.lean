import LightLivechat.Signaling.Departures

/-! What signalling leaves alone: the sessions of the participants, their queues and what
is kept of their media. -/

namespace LightLivechat.Signaling

open LightLivechat.Config LightLivechat.Lib.Bytes LightLivechat.Lib.Std
open LightLivechat.Room (Heap Ref Participant PcType Room RoomHub TrackKind)

/-- Tracks and the time of activity change at most. -/
structure SameMedia (x x' : Participant) : Prop where
  frame : x' = { x with
    lastSeen := x'.lastSeen
    tracks := x'.tracks
    rtxSsrcCounter := x'.rtxSsrcCounter }

namespace SameMedia

variable {x x' x'' : Participant}

theorem refl : SameMedia x x := ⟨rfl⟩

theorem trans (h : SameMedia x x') (h' : SameMedia x' x'') : SameMedia x x'' :=
  ⟨by rw [h'.frame, h.frame]⟩

theorem field {β : Type} (h : SameMedia x x') (f : Participant → β)
    (hf : ∀ y lastSeen tracks counter, f { y with
      lastSeen := lastSeen
      tracks := tracks
      rtxSsrcCounter := counter } = f y := by intros; rfl) : f x' = f x := by
  rw [h.frame]
  exact hf ..

end SameMedia

theorem sameMedia_addTrack (x : Participant) (ssrc : U32) (kind : TrackKind) (trackId : String) :
    SameMedia x (x.addTrack ssrc kind trackId) := by
  unfold Participant.addTrack
  split
  · exact .refl
  · cases kind <;> exact ⟨rfl⟩

theorem sameMedia_publish (userId : String) (tracks : List PublishTrackItem) (x : Participant)
    (counter : Nat) (new : List TrackInfo) :
    SameMedia x (tracks.foldl (publishTrack userId) (x, counter, new)).1 := by
  refine List.foldlRecOn (motive := fun acc : Participant × _ => SameMedia x acc.1) tracks _ .refl fun acc hacc t _ => ?_
  refine hacc.trans ?_
  unfold publishTrack
  dsimp only
  split
  · exact .refl
  · exact sameMedia_addTrack ..

theorem sameMedia_mute {x x' : Participant} {ssrc : U32} {mute : Bool} {kind : TrackKind}
    (h : x.setTrackMuted ssrc mute = some (x', kind)) : SameMedia x x' := by
  obtain ⟨⟨tracks, kind'⟩, -, heq⟩ := Option.map_eq_some_iff.mp h
  cases heq
  exact ⟨rfl⟩

/-- The participants there are keep their media; who is new is in its own room, and the
rest of the heap is as it was. -/
structure LeavesMedia (s s' : AppState) : Prop where
  next : s.next ≤ s'.next
  old : ∀ {p}, p < s.next → SameMedia (s.heap p) (s'.heap p)
  fresh : ∀ {p}, s.next ≤ p → p < s'.next → ∃ draws userId roomId,
    s'.heap p = newParticipant draws userId roomId ∧ ∀ r, s'.rooms.Member r p → r = roomId
  free : ∀ {p}, s'.next ≤ p → s'.heap p = s.heap p

section

variable {draws : Draws} {sid : SessionId} {s s' : AppState} {session session' : Session}
variable {userId : String} {r : Request}

theorem LeavesMedia.of_update {p : Ref} {f : Participant → Participant} (hp : p < s.next)
    (hf : SameMedia (s.heap p) (f (s.heap p))) (hnext : s'.next = s.next)
    (hheap : s'.heap = s.heap.update p f) : LeavesMedia s s' where
  next := Nat.le_of_eq hnext.symm
  old := fun {q} _ => by
    rw [hheap, Heap.update_apply]
    split
    · subst_vars
      exact hf
    · exact .refl
  fresh := fun hle hlt => absurd (hnext ▸ hlt) (Nat.not_lt_of_le hle)
  free := fun hq => by
    rw [hheap, Heap.update_of_ne]
    rintro rfl
    exact absurd hp (Nat.not_lt_of_le (hnext ▸ hq))

theorem LeavesMedia.of_same (hnext : s'.next = s.next) (hheap : s'.heap = s.heap) :
    LeavesMedia s s' where
  next := Nat.le_of_eq hnext.symm
  old := fun _ => by
    rw [hheap]
    exact .refl
  fresh := fun hle hlt => absurd (hnext ▸ hlt) (Nat.not_lt_of_le hle)
  free := fun _ => by rw [hheap]

theorem currentParticipant_lt {room : Room} {u : String} {p : Ref} (hs : s.Sound)
    (h : currentParticipant session s = .ok (room, u, p)) : p < s.next := by
  obtain ⟨-, roomId, -, hroom, hp⟩ := currentParticipant_eq_ok h
  exact (hs.room hroom).2.allocated hp

theorem Handled.leavesMedia (h : Handled draws sid s session userId r s' session') (hs : s.Sound) :
    LeavesMedia s s' := by
  cases h with
  | same | identified | created | messaged | floorChanged | left | notLeft | notPublished
  | notMuted => exact .of_same rfl rfl
  | touched _ hroom hp =>
    exact .of_update (f := fun x => x.touch draws.now) ((hs.room hroom).2.allocated hp) ⟨rfl⟩ rfl rfl
  | @published tracks _ _ _ _ hcurrent =>
    exact .of_update (f := fun x => (tracks.foldl (publishTrack userId) (x, x.tracks.length, [])).1)
      (currentParticipant_lt hs hcurrent) (sameMedia_publish ..) rfl rfl
  | @muted _ _ _ _ _ x _ _ hcurrent hset =>
    exact .of_update (f := fun _ => x) (currentParticipant_lt hs hcurrent) (sameMedia_mute hset) rfl
      rfl
  | joined hok =>
    refine ⟨Nat.le_succ _, fun hp => ?_, fun hle hlt => ?_, fun hq => ?_⟩
    · dsimp only
      rw [Room.Heap.alloc_of_lt hp]
      exact .refl
    · obtain rfl := Nat.le_antisymm (Nat.le_of_lt_succ hlt) hle
      refine ⟨_, _, _, Room.Heap.alloc_same _, fun r' hr' => ?_⟩
      rcases (Room.RoomHub.member_addParticipant hok).mp hr' with hm | ⟨rfl, -⟩
      · exact absurd (hs.allocated hm) (Nat.lt_irrefl _)
      · rfl
    · exact Function.update_of_ne (Nat.ne_of_gt hq) _ _

theorem Closed.leavesMedia (h : Closed s session s') : LeavesMedia s s' := by
  cases h <;> exact .of_same rfl rfl

end

namespace Server

variable {s s' : Server} {l : Label}

theorem step_leavesMedia (hs : s.Sound) (h : s.step l = some s')
    (hl : ∀ ufrag addr, l ≠ .latch ufrag addr) (hp : ∀ p now, l = .touch p now → p < s.next) :
    LeavesMedia s.toAppState s'.toAppState := by
  cases l with
  | packet sid packet draws =>
    obtain ⟨session, -, -, ⟨-, rfl⟩ | ⟨r, state, session', -, hhandled, rfl⟩⟩ := step_packet h
    · exact .of_same rfl rfl
    · exact hhandled.leavesMedia hs
  | disconnect sid =>
    obtain ⟨session, -, rfl⟩ := step_disconnect h
    exact closed.leavesMedia
  | floorTimer now =>
    cases h
    obtain ⟨rooms, queued, heq, -⟩ := floorTimer_eq s.toAppState now
    exact .of_same (by simp [heq]) (by simp [heq])
  | zombieReaper now =>
    cases h
    obtain ⟨queued, heq⟩ := zombieReaper_eq s.toAppState now
    exact .of_same (by simp [heq]) (by simp [heq])
  | latch ufrag addr => exact absurd rfl (hl ufrag addr)
  | touch p now =>
    cases h
    exact .of_update (f := fun x => x.touch now) (hp p now rfl) ⟨rfl⟩ rfl rfl

end Server

end LightLivechat.Signaling
