import LightLivechat.Signaling.Departures

/-! Whose participants a connection touches.  They are found by room and user id, whoever
has registered them. -/

namespace LightLivechat.Signaling

open LightLivechat.Config LightLivechat.Lib.Bytes LightLivechat.Lib.Std LightLivechat.Lib.Runs
open LightLivechat.Room (Heap Ref Participant Room RoomHub Track TrackKind)

section

variable {p x : Participant} {ssrc : U32} {mute : Bool} {kind : TrackKind}

theorem addTrack_tracks (p : Participant) (ssrc : U32) (kind : TrackKind) (trackId : String) :
    (p.registered ssrc = true ∧ p.addTrack ssrc kind trackId = p) ∨
    (p.registered ssrc = false ∧ ∃ t, (p.addTrack ssrc kind trackId).tracks = p.tracks ++ [t]) := by
  unfold Participant.addTrack
  split
  · exact .inl ⟨‹_›, rfl⟩
  · refine .inr ⟨eq_false_of_ne_true ‹_›, ?_⟩
    cases kind <;> exact ⟨_, rfl⟩

/-- Publishing only adds tracks, and adds none just if what has a kind is registered. -/
theorem foldl_publishTrack_tracks (userId : String) (items : List PublishTrackItem)
    (p : Participant) (n : Nat) (infos : List TrackInfo) : ∃ added,
      (items.foldl (publishTrack userId) (p, n, infos)).1.tracks = p.tracks ++ added ∧
      (added = [] ↔ ∀ t ∈ items, trackKind t.kind ≠ none → p.registered t.ssrc = true) := by
  induction items generalizing p n infos with
  | nil => exact ⟨[], (List.append_nil _).symm, by simp⟩
  | cons t items ih =>
    rw [List.foldl_cons, List.forall_mem_cons]
    cases hkind : trackKind t.kind with
    | none =>
      rw [publishTrack_of_none hkind]
      obtain ⟨added, htracks, hadded⟩ := ih p n infos
      exact ⟨added, htracks, by simp [hadded]⟩
    | some kind =>
      obtain ⟨infos', hpublish⟩ := publishTrack_of_some hkind p n infos
      rw [hpublish]
      obtain ⟨hreg, hsame⟩ | ⟨hreg, t', hnew⟩ :=
        addTrack_tracks p t.ssrc kind (userId ++ "_" ++ toString n)
      · rw [hsame]
        obtain ⟨added, htracks, hadded⟩ := ih p (n + 1) infos'
        exact ⟨added, htracks, by simp [hadded, hreg]⟩
      · obtain ⟨added, htracks, -⟩ := ih (p.addTrack t.ssrc kind (userId ++ "_" ++ toString n))
          (n + 1) infos'
        exact ⟨t' :: added, by rw [htracks, hnew, List.append_assoc]; rfl, by simp [hreg]⟩

theorem muteTrack_eq_self_iff {ts ts' : List Track}
    (h : Participant.muteTrack ssrc mute ts = some (ts', kind)) :
    ts' = ts ↔ ∀ t, ts.find? (fun t => t.ssrc = ssrc) = some t → t.muted = mute := by
  induction ts generalizing ts' with
  | nil => cases h
  | cons t ts ih =>
    unfold Participant.muteTrack at h
    split at h
    · rename_i hssrc
      subst hssrc
      cases h
      simp only [List.find?_cons, decide_true, Option.some.injEq, forall_eq', List.cons.injEq,
        and_true]
      constructor
      · intro h
        rw [← h]
      · rintro rfl
        cases t
        rfl
    · rename_i hssrc
      obtain ⟨⟨ts₁, kind₁⟩, h₁, hts'⟩ := Option.map_eq_some_iff.mp h
      cases hts'
      simp only [List.find?_cons, hssrc, decide_false, List.cons.injEq, true_and]
      exact ih h₁

theorem muteTrack_eq_none {ts : List Track} (h : Participant.muteTrack ssrc mute ts = none) :
    ts.find? (fun t => t.ssrc = ssrc) = none := by
  induction ts with
  | nil => rfl
  | cons t ts ih =>
    unfold Participant.muteTrack at h
    split at h
    · cases h
    · rename_i hssrc
      simp only [List.find?_cons, hssrc, decide_false]
      exact ih (Option.map_eq_none_iff.mp h)

end

/-- Whoever other connections have registered stays, with the tracks as they are. -/
def Spared (sid : SessionId) (s s' : AppState) : Prop :=
  ∀ r p, s.rooms.Member r p → s.wsTx p ≠ sid →
    s'.rooms.Member r p ∧ (s'.heap p).tracks = (s.heap p).tracks

/-- The participant that a request finds is the connection's own, or keeps its tracks. -/
def OnOwn (s : AppState) (sid : SessionId) (session : Session) : Request → Prop
  | .roomLeave roomId => ∀ u p, session.userId = some u → s.At roomId u p → s.wsTx p = sid
  | .publishTracks tracks => ∀ p, AtHome s session p → s.wsTx p ≠ sid →
    ∀ t ∈ tracks, trackKind t.kind ≠ none → (s.heap p).registered t.ssrc = true
  | .muteUpdate ssrc muted => ∀ p, AtHome s session p → s.wsTx p ≠ sid →
    ∀ t, (s.heap p).tracks.find? (fun t => t.ssrc = ssrc) = some t → t.muted = muted
  | _ => True

section

variable {draws : Draws} {sid : SessionId} {s s' : AppState} {session session' : Session}
variable {userId : String} {r : Request} {p : Ref}

theorem Packet.reaches_authenticated {packet : Packet} (h : packet.reaches session = some r)
    (hr : r.onParticipant = true) : session.userId = some (session.userId.getD "") := by
  have hop : r.op ≠ Opcode.heartbeat ∧ r.op ≠ Opcode.identify := by
    cases r <;> first | (simp only [Request.op]; decide) | cases hr
  unfold Packet.reaches at h
  split at h
  · cases h
  · split at h
    · split at h
      · cases h
      · rename_i hauth
        cases h
        cases huser : session.userId with
        | some u => rfl
        | none => exact absurd ⟨hop.1, hop.2, by simp [Session.isAuthenticated, huser]⟩ hauth
    · cases h

theorem currentParticipant_of_atHome (h : AtHome s session p)
    (huser : session.userId = some userId) :
    ∃ room, currentParticipant session s = .ok (room, userId, p) := by
  obtain ⟨r, u, hcurrent, hu, room, hroom, hp⟩ := h
  cases huser.symm.trans hu
  have hget : session.userId.getD "" = userId := by rw [huser, Option.getD_some]
  refine ⟨room, ?_⟩
  unfold currentParticipant
  simp only [hcurrent, get_eq_ok_iff.mpr hroom]
  rw [hget, Room.getParticipant, hp]

theorem atHome_of_currentParticipant {room : Room}
    (h : currentParticipant session s = .ok (room, userId, p))
    (huser : session.userId = some userId) : AtHome s session p := by
  obtain ⟨roomId, hcurrent, hat⟩ := currentParticipant_at h
  exact ⟨roomId, userId, hcurrent, huser, hat⟩

theorem AtHome.unique {q : Ref} (h : AtHome s session p) (h' : AtHome s session q) : p = q := by
  obtain ⟨r, u, hr, hu, hp⟩ := h
  obtain ⟨r', u', hr', hu', hq⟩ := h'
  cases hr.symm.trans hr'
  cases hu.symm.trans hu'
  exact hp.unique hq

theorem AtHome.member (h : AtHome s session p) : ∃ r, s.rooms.Member r p := by
  obtain ⟨r, u, -, -, hp⟩ := h
  exact ⟨r, hp.member⟩

theorem AtHome.forall_iff {P : Ref → Prop} (h : AtHome s session p) :
    (∀ q, AtHome s session q → P q) ↔ P p :=
  ⟨fun hall => hall p h, fun hp _ hq => h.unique hq ▸ hp⟩

theorem Spared.of_kept (hmember : ∀ r p, s.rooms.Member r p → s'.rooms.Member r p)
    (htracks : ∀ r p, s.rooms.Member r p → (s'.heap p).tracks = (s.heap p).tracks) :
    Spared sid s s' := fun r p hm _ => ⟨hmember r p hm, htracks r p hm⟩

theorem spared_iff_of_gone {gone : Ref → Prop}
    (hmember : ∀ r p, s'.rooms.Member r p ↔ s.rooms.Member r p ∧ ¬ gone p)
    (hgone : ∀ p, gone p → ∃ r, s.rooms.Member r p) (hheap : s'.heap = s.heap) :
    Spared sid s s' ↔ ∀ p, gone p → s.wsTx p = sid := by
  constructor
  · intro h p hp
    obtain ⟨r, hm⟩ := hgone p hp
    by_contra hother
    exact ((hmember r p).mp (h r p hm hother).1).2 hp
  · intro h r p hm hother
    exact ⟨(hmember r p).mpr ⟨hm, fun hp => hother (h p hp)⟩, by rw [hheap]⟩

theorem spared_iff_of_update {f : Participant → Participant} (hp : ∃ r, s.rooms.Member r p)
    (hrooms : s'.rooms = s.rooms) (hheap : s'.heap = s.heap.update p f) :
    Spared sid s s' ↔ (s.wsTx p ≠ sid → (f (s.heap p)).tracks = (s.heap p).tracks) := by
  constructor
  · intro h hother
    obtain ⟨r, hm⟩ := hp
    have htracks := (h r p hm hother).2
    rwa [hheap, Heap.update_same] at htracks
  · intro h r q hm hother
    refine ⟨hrooms ▸ hm, ?_⟩
    rw [hheap, Heap.update_apply]
    split
    · subst q
      exact h hother
    · rfl

theorem Handled.spared_iff (h : Handled draws sid s session userId r s' session') (hs : s.Sound)
    (hid : draws.uuid ∉ s.rooms.rooms)
    (huser : r.onParticipant = true → session.userId = some userId) :
    Spared sid s s' ↔ OnOwn s sid session r := by
  cases h with
  | same hr =>
    refine iff_of_true (.of_kept (fun _ _ h => h) fun _ _ _ => rfl) ?_
    cases r <;> trivial
  | identified | messaged => exact iff_of_true (.of_kept (fun _ _ h => h) fun _ _ _ => rfl) trivial
  | touched =>
    refine iff_of_true (.of_kept (fun _ _ h => h) fun _ q _ => ?_) trivial
    exact Heap.update_field (fun x => x.tracks) rfl q
  | created =>
    exact iff_of_true (.of_kept (fun _ _ h => (Room.RoomHub.member_create hid).mpr h)
      fun _ _ _ => rfl) trivial
  | joined hok =>
    refine iff_of_true (.of_kept (fun _ _ h => ?_) fun _ q h => ?_) trivial
    · exact (Room.RoomHub.member_addParticipant hok).mpr (.inl h)
    · dsimp only
      rw [Room.Heap.alloc_of_lt (hs.allocated h)]
  | floorChanged hr hroom hframe =>
    refine iff_of_true (.of_kept (fun _ _ h => ?_) fun _ _ _ => rfl) ?_
    · exact (EachRoom.insert (fun _ => .refl) hroom hframe).member.mpr h
    · cases r <;> trivial
  | notPublished herr =>
    refine iff_of_true (.of_kept (fun _ _ h => h) fun _ _ _ => rfl) fun p hp => ?_
    obtain ⟨room, hok⟩ := currentParticipant_of_atHome hp (huser rfl)
    cases herr.symm.trans hok
  | notMuted hnone =>
    refine iff_of_true (.of_kept (fun _ _ h => h) fun _ _ _ => rfl) fun p hp _ t ht => ?_
    obtain ⟨room, hok⟩ := currentParticipant_of_atHome hp (huser rfl)
    have hmute := Option.map_eq_none_iff.mp (hnone room p hok)
    cases (muteTrack_eq_none hmute).symm.trans ht
  | published hok hroomId =>
    have hhome := atHome_of_currentParticipant hok (huser rfl)
    rename_i tracks _ _ p _ _
    refine Iff.trans (spared_iff_of_update (f := fun x =>
      (tracks.foldl (publishTrack userId) (x, x.tracks.length, [])).1) hhome.member rfl rfl) ?_
    obtain ⟨added, htracks, hadded⟩ :=
      foldl_publishTrack_tracks userId tracks (s.heap p) (s.heap p).tracks.length []
    rw [htracks, List.append_right_eq_self, hadded]
    exact (hhome.forall_iff (P := fun p => s.wsTx p ≠ sid → ∀ t ∈ tracks,
      trackKind t.kind ≠ none → (s.heap p).registered t.ssrc = true)).symm
  | muted hok hset hroomId =>
    have hhome := atHome_of_currentParticipant hok (huser rfl)
    rename_i ssrc mute _ _ p x _ _ _
    refine Iff.trans (spared_iff_of_update (f := fun _ => x) hhome.member rfl rfl) ?_
    obtain ⟨⟨tracks, kind⟩, hmute, hx⟩ := Option.map_eq_some_iff.mp hset
    cases hx
    rw [muteTrack_eq_self_iff hmute]
    exact (hhome.forall_iff (P := fun p => s.wsTx p ≠ sid → ∀ t, (s.heap p).tracks.find?
      (fun t => t.ssrc = ssrc) = some t → t.muted = mute)).symm
  | left hok =>
    rename_i p _ _
    obtain ⟨hat, hmember⟩ := left_spec hs hok
    have hgone : ∀ q, q = p → ∃ r, s.rooms.Member r q := fun q hq => ⟨_, hq ▸ hat.member⟩
    refine Iff.trans (spared_iff_of_gone (fun _ _ => hmember) hgone rfl) ?_
    rw [forall_eq]
    constructor
    · intro h u q hu hq
      cases (huser rfl).symm.trans hu
      exact hq.unique hat ▸ h
    · intro h
      exact h _ _ (huser rfl) hat
  | notLeft herr =>
    refine iff_of_true (.of_kept (fun _ _ h => ?_) fun _ _ _ => rfl) fun u p hu hp => ?_
    · exact ((releaseOnLeave_freed ..).mono fun h => h.toFloorOnly).member.mpr h
    · cases (huser rfl).symm.trans hu
      cases notLeft_spec herr p hp

theorem Closed.spared_iff (h : Closed s session s') (hs : s.Sound) :
    Spared sid s s' ↔ ∀ p, AtHome s session p → s.wsTx p = sid := by
  refine spared_iff_of_gone (fun _ _ => h.member_iff hs) (fun p hp => hp.member) ?_
  cases h <;> rfl

end

def Label.session : Label → Option SessionId
  | .packet sid .. => some sid
  | .disconnect sid => some sid
  | _ => none

namespace Server

variable {s s' : Server} {l : Label}

/-- The step, if it is a connection's, spares the participants of the others. -/
def Spares (s : Server) (l : Label) : Prop :=
  ∀ sid s', l.session = some sid → s.step l = some s' → Spared sid s.toAppState s'.toAppState

/-- A request or closing finds a participant of the connection's own, or none, or leaves its
tracks as they are. -/
def FindsOwn (s : Server) : Label → Prop
  | .packet sid packet _ => ∀ session, s.sessions sid = some session →
    ∀ r, packet.reaches session = some r → OnOwn s.toAppState sid session r
  | .disconnect sid => ∀ session, s.sessions sid = some session →
    ∀ p, AtHome s.toAppState session p → s.wsTx p = sid
  | _ => True

theorem spares_iff (hs : s.Sound) (h : s.step l = some s') : s.Spares l ↔ s.FindsOwn l := by
  have hspares : s.Spares l ↔
      ∀ sid, l.session = some sid → Spared sid s.toAppState s'.toAppState := by
    refine forall_congr' fun sid => ⟨fun hs hsid => hs s' hsid h, fun hs s'' hsid h'' => ?_⟩
    cases h.symm.trans h''
    exact hs hsid
  rw [hspares]
  cases l with
  | packet sid packet draws =>
    obtain ⟨session, hsession, hid, hstep⟩ := step_packet h
    simp only [Label.session, Option.some.injEq, forall_eq', FindsOwn, hsession]
    obtain ⟨hnot, rfl⟩ | ⟨r, state, session', hreach, hhandled, rfl⟩ := hstep
    · refine iff_of_true (.of_kept (fun _ _ h => h) fun _ _ _ => rfl) fun r hr => ?_
      cases hnot.symm.trans hr
    · simp only [hreach, Option.some.injEq, forall_eq']
      exact hhandled.spared_iff hs hid (Packet.reaches_authenticated hreach)
  | disconnect sid =>
    obtain ⟨session, hsession, rfl⟩ := step_disconnect h
    simp only [Label.session, Option.some.injEq, forall_eq', FindsOwn, hsession]
    exact closed.spared_iff hs
  | floorTimer | zombieReaper | latch | touch =>
    exact iff_of_true (fun sid hsid => by cases hsid) trivial

/-- In a run the connections spare one another's participants just when what they find
is their own. -/
theorem others_spared_iff {draws : Fin 3 → Draws} {labels : List Label}
    (hrun : run step (start draws) labels = some s) :
    Along step Spares (start draws) labels ↔ Along step FindsOwn (start draws) labels :=
  along_congr (I := fun s : Server => s.Sound)
    (fun _ _ _ hs h => ⟨sound_step hs h, spares_iff hs h⟩) (sound_start draws) hrun

/-- Bob is reaped and comes back on a second connection; the first one's closing takes him
out again. -/
theorem rejoined_removed : ∃ s s', run step (start bootDraws)
      [ask 0 "b1" (.identify "" (some "bob")), ask 0 "b2" (.roomJoin "walkie"),
        .zombieReaper 1000000, ask 1 "b3" (.identify "" (some "bob")),
        ask 1 "b4" (.roomJoin "walkie")] = some s ∧
    s.step (.disconnect 0) = some s' ∧ s.wsTx 1 = 1 ∧ s.rooms.Member "walkie" 1 ∧
    ¬ s'.rooms.Member "walkie" 1 := by
  refine ⟨_, _, rfl, rfl, rfl, ⟨_, "bob", rfl, rfl⟩, ?_⟩
  rintro ⟨room, u, hroom, hu⟩
  cases hroom
  cases hu

theorem findsOwn_of_reaches {sid : SessionId} {packet : Packet} {draws : Draws} {session : Session}
    {r : Request} (hsession : s.sessions sid = some session)
    (hreach : packet.reaches session = some r) (hown : OnOwn s.toAppState sid session r) :
    s.FindsOwn (.packet sid packet draws) := by
  intro session' hsession' r' hreach'
  cases hsession.symm.trans hsession'
  cases hreach.symm.trans hreach'
  exact hown

/-- Alice has published a track by the time bob hangs up. -/
def bobHangsUp : List Label :=
  [ask 0 "b1" (.identify "" (some "bob")), ask 0 "b2" (.roomJoin "walkie"),
    ask 1 "a1" (.identify "" (some "alice")), ask 1 "a2" (.roomJoin "walkie"),
    ask 1 "a3" (.publishTracks [⟨"audio", 1⟩]), .disconnect 0]

theorem others_spared_iff_bob :
    (∃ s, run step (start bootDraws) bobHangsUp = some s ∧ s.rooms.Member "walkie" 1 ∧
      (s.heap 1).tracks ≠ [] ∧ ¬ s.rooms.Member "walkie" 0) ∧
    Along step Spares (start bootDraws) bobHangsUp := by
  refine ⟨⟨_, rfl, ⟨_, "alice", rfl, rfl⟩, by decide, ?_⟩, (others_spared_iff rfl).mpr ?_⟩
  · rintro ⟨room, u, hroom, hu⟩
    cases hroom
    cases List.mem_singleton.mp (DashMap.mem_values hu)
  refine ⟨findsOwn_of_reaches rfl rfl trivial, fun s h => ?_⟩
  cases h
  refine ⟨findsOwn_of_reaches rfl rfl trivial, fun s h => ?_⟩
  cases h
  refine ⟨findsOwn_of_reaches rfl rfl trivial, fun s h => ?_⟩
  cases h
  refine ⟨findsOwn_of_reaches rfl rfl trivial, fun s h => ?_⟩
  cases h
  refine ⟨findsOwn_of_reaches rfl rfl ?_, fun s h => ?_⟩
  · rintro p ⟨r, u, hr, hu, room, hroom, hp⟩ hother
    cases hr
    cases hu
    cases hroom
    cases hp
    exact absurd rfl hother
  cases h
  refine ⟨fun session hs p hp => ?_, fun _ _ => trivial⟩
  cases hs
  obtain ⟨r, u, hr, hu, room, hroom, hp⟩ := hp
  cases hr
  cases hu
  cases hroom
  cases hp
  rfl

end Server

end LightLivechat.Signaling
