import LightLivechat.Room.Ssrcs
import LightLivechat.Signaling.Departures

/-! What publishing makes of the SSRCs in use in a room. -/

namespace LightLivechat.Signaling

open LightLivechat.Config LightLivechat.Lib.Bytes LightLivechat.Lib.Std LightLivechat.Lib.Runs
open LightLivechat.Room (Heap Ref Participant Room RoomHub Track TrackKind addTrack_of_registered
  addTrack_audio addTrack_video registered_iff setTrackMuted_map)

/-- What a request adds names SSRCs not `taken` in the room, and so do those derived for
retransmission.  The publisher has registered `own`, and `counter` video tracks. -/
def Apart : List U32 → List U32 → U32 → List PublishTrackItem → Prop
  | _, _, _, [] => True
  | taken, own, counter, t :: ts =>
    match trackKind t.kind with
    | none => Apart taken own counter ts
    | some kind =>
      if own.contains t.ssrc then Apart taken own counter ts
      else
        match kind with
        | .audio => t.ssrc ∉ taken ∧ Apart (taken ++ [t.ssrc]) (own ++ [t.ssrc]) counter ts
        | .video =>
          let rtxSsrc := t.ssrc + 1000 + counter
          (t.ssrc ∉ taken ∧ rtxSsrc ∉ taken ∧ t.ssrc ≠ rtxSsrc) ∧
            Apart (taken ++ [t.ssrc, rtxSsrc]) (own ++ [t.ssrc]) (counter + 1) ts

section

variable {taken taken' own : List U32} {counter : U32} {userId : String}

theorem apart_congr {ts : List PublishTrackItem} (h : ∀ x, x ∈ taken ↔ x ∈ taken') :
    Apart taken own counter ts ↔ Apart taken' own counter ts := by
  induction ts generalizing taken taken' own counter with
  | nil => exact Iff.rfl
  | cons t ts ih =>
    have happend : ∀ new x, x ∈ taken ++ new ↔ x ∈ taken' ++ new := fun new x => by
      rw [List.mem_append, List.mem_append, h]
    unfold Apart
    cases trackKind t.kind with
    | none => exact ih h
    | some kind =>
      by_cases hown : own.contains t.ssrc
      · simp only [if_pos hown]
        exact ih h
      simp only [if_neg hown]
      cases kind with
      | audio => exact and_congr (not_congr (h _)) (ih (happend _))
      | video =>
        exact and_congr (and_congr (not_congr (h _)) (and_congr_left' (not_congr (h _))))
          (ih (happend _))

theorem nodup_append_one {l : List U32} {x : U32} : (l ++ [x]).Nodup ↔ l.Nodup ∧ x ∉ l := by
  rw [List.nodup_append_comm, List.singleton_append, List.nodup_cons, and_comm]

theorem nodup_append_two {l : List U32} {x y : U32} :
    (l ++ [x, y]).Nodup ↔ l.Nodup ∧ x ∉ l ∧ y ∉ l ∧ x ≠ y := by
  rw [List.nodup_append_comm]
  simp only [List.cons_append, List.nil_append, List.nodup_cons, List.mem_cons, not_or]
  tauto

theorem nodup_published_iff (rest : List U32) (items : List PublishTrackItem) (x : Participant)
    (n : Nat) (infos : List TrackInfo) :
    (rest ++ (items.foldl (publishTrack userId) (x, n, infos)).1.ssrcs).Nodup ↔
      (rest ++ x.ssrcs).Nodup ∧
      Apart (rest ++ x.ssrcs) (x.tracks.map fun t => t.ssrc) x.rtxSsrcCounter items := by
  induction items generalizing x n infos with
  | nil => exact (and_iff_left trivial).symm
  | cons t items ih =>
    rw [List.foldl_cons]
    unfold Apart
    cases hkind : trackKind t.kind with
    | none =>
      rw [publishTrack_of_none hkind]
      exact ih x n infos
    | some kind =>
      obtain ⟨infos', hpublish⟩ : ∃ infos', publishTrack userId (x, n, infos) t =
          (x.addTrack t.ssrc kind (userId ++ "_" ++ toString n), n + 1, infos') :=
        publishTrack_of_some hkind x n infos
      rw [hpublish, ih]
      cases hreg : x.registered t.ssrc with
      | true =>
        have hown := List.contains_iff_mem.mpr (registered_iff.mp hreg)
        simp only [addTrack_of_registered hreg, if_pos hown]
      | false =>
        have hown : ¬ (x.tracks.map fun t => t.ssrc).contains t.ssrc := fun h => by
          rw [registered_iff.mpr (List.contains_iff_mem.mp h)] at hreg
          cases hreg
        simp only [if_neg hown]
        cases kind with
        | audio =>
          obtain ⟨hssrcs, hcounter, howns⟩ := addTrack_audio hreg (userId ++ "_" ++ toString n)
          rw [hssrcs, hcounter, howns, ← List.append_assoc, nodup_append_one, and_assoc]
        | video =>
          obtain ⟨hssrcs, hcounter, howns⟩ := addTrack_video hreg (userId ++ "_" ++ toString n)
          rw [hssrcs, hcounter, howns, ← List.append_assoc, nodup_append_two, and_assoc]

end

/-- The media and retransmission SSRCs of all tracks of a room are pairwise distinct, in
every room. -/
def AppState.Unambiguous (s : AppState) : Prop :=
  ∀ roomId room, s.rooms.rooms.lookup roomId = some room → (room.ssrcs s.heap).Nodup

/-- Nobody's streams change, and who is new has none. -/
structure SameStreams (s s' : AppState) : Prop where
  old : ∀ {p}, p < s.next → (s'.heap p).ssrcs = (s.heap p).ssrcs
  fresh : ∀ {p}, s.next ≤ p → p < s'.next → (s'.heap p).ssrcs = []

/-- Nobody's tracks change but for their mute flags, and who is new has none. -/
structure SameTracks (s s' : AppState) : Prop where
  old : ∀ {β : Type} (f : Track → β), (∀ t muted, f { t with muted := muted } = f t) →
    ∀ {p}, ¬ (s.next ≤ p ∧ p < s'.next) → (s'.heap p).tracks.map f = (s.heap p).tracks.map f
  fresh : ∀ {p}, s.next ≤ p → p < s'.next → (s'.heap p).tracks = []

section

variable {draws : Draws} {sid : SessionId} {s s' : AppState} {session session' : Session}
variable {userId : String} {r : Request} {by' : SessionId → Prop}

theorem mem_values_iff {roomId : String} {room : Room} {p : Ref}
    (hroom : s.rooms.rooms.lookup roomId = some room) :
    p ∈ DashMap.values room.participants ↔ s.rooms.Member roomId p := by
  constructor
  · intro hp
    obtain ⟨u, hu⟩ := DashMap.exists_lookup_of_mem_values hp
    exact ⟨room, u, hroom, hu⟩
  · rintro ⟨room', u, hroom', hu⟩
    cases hroom.symm.trans hroom'
    exact DashMap.mem_values hu

theorem AppState.Sound.unambiguous_iff (hs : s.Sound) : s.Unambiguous ↔
    (∀ r p, s.rooms.Member r p → (s.heap p).ssrcs.Nodup) ∧
    ∀ r p q, s.rooms.Member r p → s.rooms.Member r q → p ≠ q →
      List.Disjoint (s.heap p).ssrcs (s.heap q).ssrcs := by
  constructor
  · intro h
    refine ⟨fun r p hp => ?_, fun r p q hp hq hne => ?_⟩
    · obtain ⟨room, u, hroom, hu⟩ := hp
      exact ((hs.room hroom).2.nodup_ssrcs_iff.mp (h r room hroom)).1 p (DashMap.mem_values hu)
    · obtain ⟨room, u, hroom, hu⟩ := hp
      exact ((hs.room hroom).2.nodup_ssrcs_iff.mp (h r room hroom)).2 p (DashMap.mem_values hu) q
        ((mem_values_iff hroom).mpr hq) hne
  · rintro ⟨heach, hpair⟩ r room hroom
    refine (hs.room hroom).2.nodup_ssrcs_iff.mpr ⟨fun p hp => ?_, fun p hp q hq hne => ?_⟩
    · exact heach r p ((mem_values_iff hroom).mp hp)
    · exact hpair r p q ((mem_values_iff hroom).mp hp) ((mem_values_iff hroom).mp hq) hne

theorem AppState.Unambiguous.findByTrackSsrc (hu : s.Unambiguous) (hs : s.Sound) {roomId : String}
    {room : Room} {p : Ref} {ssrc : U32} (hroom : s.rooms.rooms.lookup roomId = some room)
    (hp : p ∈ DashMap.values room.participants) (hreg : (s.heap p).registered ssrc = true) :
    room.findByTrackSsrc s.heap ssrc = some p :=
  Room.Room.findByTrackSsrc_owner hp hreg fun _ hq hreg' =>
    (hs.room hroom).2.registered_unique (hu roomId room hroom) hq hp hreg' hreg

theorem SameTracks.of_map (hnext : s'.next = s.next)
    (hheap : ∀ {β : Type} (f : Track → β), (∀ t muted, f { t with muted := muted } = f t) →
      ∀ p, (s'.heap p).tracks.map f = (s.heap p).tracks.map f) : SameTracks s s' where
  old := fun f hf _ _ => hheap f hf _
  fresh := fun hle hlt => absurd (hnext ▸ hlt) (Nat.not_lt_of_le hle)

theorem SameTracks.of_same (hnext : s'.next = s.next)
    (hheap : ∀ p, (s'.heap p).tracks = (s.heap p).tracks) : SameTracks s s' :=
  .of_map hnext fun _ _ p => by rw [hheap]

theorem SameTracks.sameStreams (h : SameTracks s s') : SameStreams s s' where
  old := fun hlt => by
    have hsame := h.old Track.ssrcs (fun _ _ => rfl)
      fun hnew => absurd hlt (Nat.not_lt_of_le hnew.1)
    simp only [Participant.ssrcs, List.flatMap_def, hsame]
  fresh := fun hle hlt => by simp [Participant.ssrcs, h.fresh hle hlt]

theorem SameStreams.unambiguous (h : SameStreams s s') (ha : Admits by' s s') (hs : s.Sound)
    (hs' : s'.Sound) (hu : s.Unambiguous) : s'.Unambiguous := by
  obtain ⟨heach, hpair⟩ := hs.unambiguous_iff.mp hu
  refine hs'.unambiguous_iff.mpr ⟨fun r p hp => ?_, fun r p q hp hq hne => ?_⟩
  · rcases Nat.lt_or_ge p s.next with hlt | hge
    · rw [h.old hlt]
      exact heach r p (ha.member hlt hp)
    · rw [h.fresh hge (hs'.allocated hp)]
      exact List.nodup_nil
  · rcases Nat.lt_or_ge p s.next with hp' | hp'
    · rcases Nat.lt_or_ge q s.next with hq' | hq'
      · rw [h.old hp', h.old hq']
        exact hpair r p q (ha.member hp' hp) (ha.member hq' hq) hne
      · rw [h.fresh hq' (hs'.allocated hq)]
        exact List.disjoint_nil_right _
    · rw [h.fresh hp' (hs'.allocated hp)]
      exact List.disjoint_nil_left _

theorem Handled.sameTracks (h : Handled draws sid s session userId r s' session')
    (hr : ∀ tracks, r ≠ .publishTracks tracks) : SameTracks s s' := by
  cases h with
  | same | identified | created | messaged | floorChanged | left | notLeft | notMuted =>
    exact .of_same rfl fun _ => rfl
  | touched => exact .of_same rfl fun q => Heap.update_field (fun x => x.tracks) rfl q
  | muted _ hset =>
    exact .of_map rfl fun f hf q =>
      Heap.update_field (fun x => x.tracks.map f) (setTrackMuted_map f hf hset) q
  | joined =>
    refine ⟨fun f _ p hold => ?_, fun hle hlt => ?_⟩
    · have hne : p ≠ s.next := fun heq =>
        hold ⟨Nat.le_of_eq heq.symm, Nat.lt_succ_of_le (Nat.le_of_eq heq)⟩
      exact congrArg (fun x : Participant => x.tracks.map f) (Function.update_of_ne hne _ _)
    · rw [Nat.le_antisymm (Nat.le_of_lt_succ hlt) hle]
      exact congrArg (fun x => x.tracks) (Room.Heap.alloc_same _)
  | published | notPublished => exact absurd rfl (hr _)

theorem Closed.sameTracks (h : Closed s session s') : SameTracks s s' := by
  cases h <;> exact .of_same rfl fun _ => rfl

theorem unambiguous_published_iff {roomId : String} {room : Room} {p : Ref}
    {tracks : List PublishTrackItem} (hs : s.Sound) (hu : s.Unambiguous)
    (hroom : s.rooms.rooms.lookup roomId = some room) (hp : p ∈ DashMap.values room.participants)
    (hrooms : s'.rooms = s.rooms) (hheap : s'.heap = s.heap.update p fun x =>
      (tracks.foldl (publishTrack userId) (x, x.tracks.length, [])).1) :
    s'.Unambiguous ↔ Apart (room.ssrcs s.heap) ((s.heap p).tracks.map fun t => t.ssrc)
      (s.heap p).rtxSsrcCounter tracks := by
  have hsame : ∀ q, q ≠ p → s'.heap q = s.heap q := fun q hq => by
    rw [hheap, Heap.update_of_ne hq]
  have hothers : ∀ r room', s.rooms.rooms.lookup r = some room' → r ≠ roomId →
      room'.ssrcs s'.heap = room'.ssrcs s.heap := by
    intro r room' hroom' hne
    refine List.flatMap_congr fun q hq => congrArg _ (hsame q ?_)
    rintro rfl
    exact hne (hs.home ((mem_values_iff hroom').mp hq) ((mem_values_iff hroom).mp hp))
  have hhere : (room.ssrcs s'.heap).Nodup ↔ Apart (room.ssrcs s.heap)
      ((s.heap p).tracks.map fun t => t.ssrc) (s.heap p).rtxSsrcCounter tracks := by
    have hkeyed := (hs.room hroom).2.toKeyed
    have hperm := Room.Room.ssrcs_perm s.heap hp
    have hrest : (((DashMap.values room.participants).erase p).flatMap fun q => (s'.heap q).ssrcs) =
        ((DashMap.values room.participants).erase p).flatMap fun q => (s.heap q).ssrcs :=
      List.flatMap_congr fun q hq =>
        congrArg _ (hsame q (hkeyed.values_nodup.mem_erase_iff.mp hq).1)
    rw [(Room.Room.ssrcs_perm s'.heap hp).nodup_iff, hrest, hheap, Heap.update_same,
      nodup_published_iff, ← hperm.nodup_iff, and_iff_right (hu roomId room hroom)]
    exact apart_congr fun x => hperm.mem_iff.symm
  rw [← hhere]
  constructor
  · intro h
    exact h roomId room (hrooms ▸ hroom)
  · intro h r room' hroom'
    rw [hrooms] at hroom'
    by_cases hr : r = roomId
    · subst hr
      cases hroom.symm.trans hroom'
      exact h
    · rw [hothers r room' hroom' hr]
      exact hu r room' hroom'

end

namespace Server

variable {s s' : Server} {l : Label}

/-- What a request to publish adds is apart from the SSRCs in use in the room. -/
def PublishesApart (s : Server) : Label → Prop
  | .packet sid packet _ => ∀ session tracks, s.sessions sid = some session →
    packet.reaches session = some (.publishTracks tracks) →
    ∀ room userId p, currentParticipant session s.toAppState = .ok (room, userId, p) →
      Apart (room.ssrcs s.heap) ((s.heap p).tracks.map fun t => t.ssrc) (s.heap p).rtxSsrcCounter
        tracks
  | _ => True

theorem step_sameTracks (h : s.step l = some s')
    (hl : ∀ sid packet draws, l ≠ .packet sid packet draws) :
    SameTracks s.toAppState s'.toAppState := by
  cases l with
  | packet sid packet draws => exact absurd rfl (hl sid packet draws)
  | disconnect sid =>
    obtain ⟨session, -, rfl⟩ := step_disconnect h
    exact closed.sameTracks
  | floorTimer now =>
    cases h
    obtain ⟨rooms, queued, heq, -⟩ := floorTimer_eq s.toAppState now
    exact .of_same (by simp [heq]) fun q => by simp [heq]
  | zombieReaper now =>
    cases h
    obtain ⟨queued, heq⟩ := zombieReaper_eq s.toAppState now
    exact .of_same (by simp [heq]) fun q => by simp [heq]
  | latch ufrag addr =>
    obtain rfl | ⟨heap, rooms, p, pc, hlatch, rfl⟩ := step_latch h
    · exact .of_same rfl fun _ => rfl
    · obtain ⟨roomId, room, room', -, -, hl, rfl⟩ := Room.RoomHub.latchByUfrag_eq_some hlatch
      obtain ⟨-, hheap, -⟩ := Room.Room.latch_spec hl
      refine .of_same rfl fun q => ?_
      rw [hheap]
      exact Heap.update_field (fun x => x.tracks) (by cases pc <;> rfl) q
  | touch p now =>
    cases h
    exact .of_same rfl fun q => Heap.update_field (fun x => x.tracks) rfl q

theorem unambiguous_step (hs : s.Sound) (hu : s.Unambiguous) (h : s.step l = some s') :
    s'.Unambiguous ↔ s.PublishesApart l := by
  have hs' := sound_step hs h
  have ha := step_admits hs h
  cases l with
  | packet sid packet draws =>
    obtain ⟨session, hsession, -, ⟨hnot, rfl⟩ | ⟨r, state, session', hreach, hhandled, rfl⟩⟩ :=
      step_packet h
    · refine iff_of_true hu fun session' tracks hsession' hreach => ?_
      cases hsession.symm.trans hsession'
      cases hnot.symm.trans hreach
    by_cases hr : ∀ tracks, r ≠ .publishTracks tracks
    · refine iff_of_true ((hhandled.sameTracks hr).sameStreams.unambiguous ha hs hs' hu) ?_
      intro session₁ tracks hsession₁ hreach₁
      cases hsession.symm.trans hsession₁
      exact absurd (Option.some.inj (hreach.symm.trans hreach₁)) (hr tracks)
    · obtain ⟨tracks, rfl⟩ := not_forall_not.mp hr
      have hcond : s.PublishesApart (.packet sid packet draws) ↔
          ∀ room userId p, currentParticipant session s.toAppState = .ok (room, userId, p) →
            Apart (room.ssrcs s.heap) ((s.heap p).tracks.map fun t => t.ssrc)
              (s.heap p).rtxSsrcCounter tracks := by
        refine ⟨fun h => h session tracks hsession hreach, fun h session' tracks' hs ht => ?_⟩
        cases hsession.symm.trans hs
        cases hreach.symm.trans ht
        exact h
      rw [hcond]
      cases hhandled with
      | same hr => cases hr
      | floorChanged hr => simp at hr
      | notPublished herr =>
        refine iff_of_true hu fun room userId p hok => ?_
        cases herr.symm.trans hok
      | published hok hroomId =>
        obtain ⟨-, roomId, -, hroom, hp⟩ := currentParticipant_eq_ok hok
        refine Iff.trans (unambiguous_published_iff hs hu hroom (DashMap.mem_values hp) rfl rfl) ?_
        constructor
        · intro h room userId p hok'
          cases hok.symm.trans hok'
          exact h
        · intro h
          exact h _ _ _ hok
  | disconnect | floorTimer | zombieReaper | latch | touch =>
    have hsame := (step_sameTracks h (by simp)).sameStreams
    exact iff_of_true (hsame.unambiguous ha hs hs' hu) trivial

/-- The SSRCs in use in a room stay distinct just as long as every request to publish
brings SSRCs apart from them. -/
theorem stays_unambiguous_iff {draws : Fin 3 → Draws} {labels : List Label}
    (hrun : run step (start draws) labels = some s) :
    Always step (fun s => s.Unambiguous) (start draws) labels ↔
      Along step PublishesApart (start draws) labels := by
  have hstart : (start draws).Unambiguous :=
    (sound_start draws).unambiguous_iff.mpr ⟨fun r p hp => absurd ((sound_start draws).allocated hp)
      (Nat.not_lt_zero p), fun r p q hp => absurd ((sound_start draws).allocated hp)
      (Nat.not_lt_zero p)⟩
  exact always_iff_along (I := fun s : Server => s.Sound)
    (fun _ _ _ hs hu h => ⟨sound_step hs h, unambiguous_step hs hu h⟩) (sound_start draws) hstart hrun

/-- The SSRC derived for a video track is the one the client chose for its audio track. -/
theorem derived_collides : ∃ s, run step (start bootDraws)
      [ask 0 "b1" (.identify "" (some "bob")), ask 0 "b2" (.roomJoin "walkie"),
        ask 0 "b3" (.publishTracks [⟨"video", 1⟩, ⟨"audio", 1001⟩])] = some s ∧
    ¬ s.Unambiguous := by
  refine ⟨_, rfl, fun h => ?_⟩
  have hnodup : [(1 : U32), 1001, 1001].Nodup := h "walkie" _ rfl
  exact absurd hnodup (by decide)

theorem unambiguous_published : Always step (fun s => s.Unambiguous) (start bootDraws)
    [ask 0 "b1" (.identify "" (some "bob")), ask 0 "b2" (.roomJoin "walkie"),
      ask 0 "b3" (.publishTracks [⟨"video", 1⟩, ⟨"audio", 2⟩])] := by
  refine (stays_unambiguous_iff rfl).mpr ⟨fun session tracks hs hr => ?_, fun s h => ?_⟩
  · cases hs
    cases hr
  cases h
  refine ⟨fun session tracks hs hr => ?_, fun s h => ?_⟩
  · cases hs
    cases hr
  cases h
  refine ⟨fun session tracks hs hr room userId p hok => ?_, fun _ _ => trivial⟩
  cases hs
  cases hr
  cases hok
  change Apart [] [] 0 [⟨"video", 1⟩, ⟨"audio", 2⟩]
  simp [Apart, trackKind]

end Server

end LightLivechat.Signaling
