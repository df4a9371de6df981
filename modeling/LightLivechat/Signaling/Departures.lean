import LightLivechat.Signaling.Reachable

/-! What a closed connection leaves behind.  A session remembers one room and one user
id; its participants are found by them when it closes. -/

namespace LightLivechat.Signaling

open LightLivechat.Config LightLivechat.Lib.Bytes LightLivechat.Lib.Std LightLivechat.Lib.Runs
open LightLivechat.Room (Heap Ref Participant Room RoomHub)

/-- A room or one of its indices names the participant. -/
def Present (hub : RoomHub) (p : Ref) : Prop :=
  ∃ r room, hub.rooms.lookup r = some room ∧ ((∃ u, room.participants.lookup u = some p) ∨
    (∃ u pc, room.byUfrag.lookup u = some (p, pc)) ∨ ∃ a pc, room.byAddr.lookup a = some (p, pc))

theorem present_iff {hub : RoomHub} {heap : Heap} {next p : Ref} (hs : hub.Sound heap next) :
    Present hub p ↔ ∃ r, hub.Member r p := by
  constructor
  · rintro ⟨r, room, hroom, ⟨u, hu⟩ | ⟨u, pc, hu⟩ | ⟨a, pc, ha⟩⟩
    · exact ⟨r, room, u, hroom, hu⟩
    · exact ⟨r, room, _, hroom, ((hs.room hroom).2.ufrag hu).1⟩
    · exact ⟨r, room, _, hroom, ((hs.room hroom).2.addr ha).1⟩
  · rintro ⟨r, room, u, hroom, hu⟩
    exact ⟨r, room, hroom, .inl ⟨u, hu⟩⟩

/-- Nobody comes in but participants just allocated, registered by certain connections. -/
structure Admits (by' : SessionId → Prop) (s s' : AppState) : Prop where
  next : s.next ≤ s'.next
  wsTx : ∀ {p}, p < s.next → s'.wsTx p = s.wsTx p
  member : ∀ {r p}, p < s.next → s'.rooms.Member r p → s.rooms.Member r p
  fresh : ∀ {p}, s.next ≤ p → p < s'.next → by' (s'.wsTx p)

section

variable {draws : Draws} {sid : SessionId} {s s' : AppState} {session session' : Session}
variable {userId : String} {r : Request} {by' : SessionId → Prop}

theorem Admits.of_same (hnext : s'.next = s.next) (hwsTx : s'.wsTx = s.wsTx)
    (hmember : ∀ {r p}, s'.rooms.Member r p → s.rooms.Member r p) : Admits by' s s' where
  next := Nat.le_of_eq hnext.symm
  wsTx := fun _ => by rw [hwsTx]
  member := fun _ => hmember
  fresh := fun hle hlt => absurd (hnext ▸ hlt) (Nat.not_lt_of_le hle)

theorem Handled.admits (h : Handled draws sid s session userId r s' session') (hs : s.Sound)
    (hid : draws.uuid ∉ s.rooms.rooms) : Admits (fun x => x = sid) s s' := by
  cases h with
  | same | identified | notPublished | notMuted | messaged | touched | published | muted =>
    exact .of_same rfl rfl id
  | created => exact .of_same rfl rfl (Room.RoomHub.member_create hid).mp
  | joined hok =>
    refine ⟨Nat.le_succ _, fun hp => Function.update_of_ne (Nat.ne_of_lt hp) .., fun hp hm => ?_,
      fun hle hlt => ?_⟩
    · rcases (Room.RoomHub.member_addParticipant hok).mp hm with hm | ⟨-, rfl⟩
      · exact hm
      · exact absurd hp (Nat.lt_irrefl _)
    · rw [Nat.le_antisymm (Nat.le_of_lt_succ hlt) hle]
      exact Function.update_self ..
  | floorChanged _ hroom hframe =>
    exact .of_same rfl rfl (EachRoom.insert (fun _ => .refl) hroom hframe).member.mp
  | left hok => exact .of_same rfl rfl fun hm => ((left_spec hs hok).2.mp hm).1
  | notLeft =>
    exact .of_same rfl rfl ((releaseOnLeave_freed ..).mono fun h => h.toFloorOnly).member.mp

theorem Closed.admits (h : Closed s session s') (hs : s.Sound) : Admits by' s s' := by
  cases h with
  | nowhere => exact .of_same rfl rfl id
  | left _ _ hok => exact .of_same rfl rfl fun hm => ((left_spec hs hok).2.mp hm).1
  | notLeft =>
    exact .of_same rfl rfl ((releaseOnLeave_freed ..).mono fun h => h.toFloorOnly).member.mp

theorem Closed.registry (h : Closed s session s') : s'.next = s.next ∧ s'.wsTx = s.wsTx := by
  cases h <;> exact ⟨rfl, rfl⟩

/-- The participant is the one that the session's room stores under its user id. -/
def AtHome (s : AppState) (session : Session) (p : Ref) : Prop :=
  ∃ r u, session.currentRoom = some r ∧ session.userId = some u ∧ s.At r u p

theorem Closed.member_iff {r : String} {p : Ref} (h : Closed s session s') (hs : s.Sound) :
    s'.rooms.Member r p ↔ s.rooms.Member r p ∧ ¬ AtHome s session p := by
  cases h with
  | nowhere h =>
    refine (and_iff_left ?_).symm
    rintro ⟨r, u, hr, hu, -⟩
    rcases h with h | h
    · simp [h] at hr
    · simp [h] at hu
  | left hcurrent huser hok =>
    obtain ⟨hat, hmember⟩ := left_spec hs hok
    rw [hmember]
    refine and_congr_right fun _ => not_congr ⟨?_, ?_⟩
    · rintro rfl
      exact ⟨_, _, hcurrent, huser, hat⟩
    · rintro ⟨r, u, hr, hu, hp⟩
      cases hcurrent.symm.trans hr
      cases huser.symm.trans hu
      exact hp.unique hat
  | notLeft hcurrent huser herr =>
    rw [((releaseOnLeave_freed ..).mono fun h => h.toFloorOnly).member]
    refine (and_iff_left ?_).symm
    rintro ⟨r, u, hr, hu, hp⟩
    cases hcurrent.symm.trans hr
    cases huser.symm.trans hu
    exact notLeft_spec herr _ hp

end

namespace Server

variable {s s' : Server} {l : Label} {sid : SessionId}

theorem step_admits (hs : s.Sound) (h : s.step l = some s') :
    Admits (fun sid => (s'.sessions sid).isSome) s.toAppState s'.toAppState := by
  cases l with
  | packet sid packet draws =>
    obtain ⟨session, hsession, hid, ⟨-, rfl⟩ | ⟨r, state, session', -, hhandled, rfl⟩⟩ :=
      step_packet h
    · exact .of_same rfl rfl id
    · have ha := hhandled.admits hs hid
      refine ⟨ha.next, ha.wsTx, ha.member, fun hle hlt => ?_⟩
      rw [ha.fresh hle hlt]
      simp
  | disconnect sid =>
    obtain ⟨session, -, rfl⟩ := step_disconnect h
    exact closed.admits hs
  | floorTimer now =>
    cases h
    obtain ⟨rooms, queued, heq, hfreed⟩ := floorTimer_eq s.toAppState now
    refine .of_same ?_ ?_ fun hm => ?_
    · simp [heq]
    · simp [heq]
    · rw [heq] at hm
      exact (hfreed.mono fun h => h.toFloorOnly).member.mp hm
  | zombieReaper now =>
    cases h
    obtain ⟨queued, heq⟩ := zombieReaper_eq s.toAppState now
    refine .of_same ?_ ?_ fun hm => ?_
    · simp [heq]
    · simp [heq]
    · rw [heq] at hm
      exact ((RoomHub.reaped_reapZombies hs.keyed ..).1.without.member.mp hm).1
  | latch ufrag addr =>
    obtain rfl | ⟨heap, rooms, p, pc, hlatch, rfl⟩ := step_latch h
    · exact .of_same rfl rfl id
    · obtain ⟨roomId, room, room', -, hroom, hl, rfl⟩ := Room.RoomHub.latchByUfrag_eq_some hlatch
      obtain ⟨-, -, hroom', -⟩ := Room.Room.latch_spec hl
      exact .of_same rfl rfl (Room.RoomHub.member_insert hroom (by rw [hroom']) rfl).mp
  | touch p now =>
    cases h
    exact .of_same rfl rfl id

/-- The connection has registered the participant, by a join. -/
def Registered (s : Server) (sid : SessionId) (p : Ref) : Prop := p < s.next ∧ s.wsTx p = sid

/-- Of a closed connection nobody is left. -/
def NothingLeft (s : Server) : Prop :=
  ∀ sid p, s.sessions sid = none → s.Registered sid p → ¬ Present s.rooms p

/-- Whoever a connection has registered and is still there is in the session's room, under
its user id, when it closes. -/
def ClosesAtHome (s : Server) : Label → Prop
  | .disconnect sid => ∀ session p, s.sessions sid = some session → s.Registered sid p →
    Present s.rooms p → AtHome s.toAppState session p
  | _ => True

theorem disconnect_iff (hs : s.Sound) (h : s.step (.disconnect sid) = some s') :
    (∀ p, s'.Registered sid p → ¬ Present s'.rooms p) ↔ s.ClosesAtHome (.disconnect sid) := by
  have hsound := sound_step hs h
  obtain ⟨session, hsession, rfl⟩ := step_disconnect h
  have hclosed : Closed s.toAppState session (cleanup session s.toAppState) := closed
  obtain ⟨hnext, hwsTx⟩ := hclosed.registry
  have hregistered : ∀ p, Registered ⟨cleanup session s.toAppState,
      Function.update s.sessions sid none⟩ sid p ↔ s.Registered sid p := fun p => by
    simp only [Registered, hnext, hwsTx]
  have hpresent : ∀ p, Present (cleanup session s.toAppState).rooms p ↔
      Present s.rooms p ∧ ¬ AtHome s.toAppState session p := fun p => by
    rw [present_iff hsound, present_iff hs]
    simp only [hclosed.member_iff hs, exists_and_right]
  constructor
  · intro hgone session' p hsession' hreg hp
    cases hsession.symm.trans hsession'
    by_contra hhome
    exact hgone p ((hregistered p).mpr hreg) ((hpresent p).mpr ⟨hp, hhome⟩)
  · intro hhome p hreg hp
    obtain ⟨hp, hnot⟩ := (hpresent p).mp hp
    exact hnot (hhome session p hsession ((hregistered p).mp hreg) hp)

theorem sessions_none_iff (h : s.step l = some s') (sid : SessionId) :
    s'.sessions sid = none ↔ s.sessions sid = none ∨ l = .disconnect sid := by
  cases l with
  | packet sid' packet draws =>
    obtain ⟨session, hsession, -, ⟨-, rfl⟩ | ⟨r, state, session', -, -, rfl⟩⟩ := step_packet h
    · simp
    · by_cases hsid : sid = sid'
      · simp [hsid, hsession]
      · simp [hsid]
  | disconnect sid' =>
    obtain ⟨session, hsession, rfl⟩ := step_disconnect h
    by_cases hsid : sid = sid'
    · simp [hsid]
    · simp [hsid, Ne.symm hsid]
  | latch ufrag addr =>
    obtain rfl | ⟨heap, rooms, p, pc, -, rfl⟩ := step_latch h <;> simp
  | floorTimer | zombieReaper | touch =>
    cases h
    simp

theorem nothingLeft_step (hs : s.Sound) (hnone : s.NothingLeft) (h : s.step l = some s') :
    s'.NothingLeft ↔ s.ClosesAtHome l := by
  have hadmits := step_admits hs h
  have hothers : ∀ sid p, s.sessions sid = none → s'.sessions sid = none → s'.Registered sid p →
      ¬ Present s'.rooms p := by
    rintro sid p hclosed hclosed' ⟨hp, hreg⟩ hpresent
    rcases Nat.lt_or_ge p s.next with hlt | hge
    · refine hnone sid p hclosed ⟨hlt, (hadmits.wsTx hlt).symm.trans hreg⟩ ?_
      obtain ⟨r, hm⟩ := (present_iff (sound_step hs h)).mp hpresent
      exact (present_iff hs).mpr ⟨r, hadmits.member hlt hm⟩
    · have hopen := hadmits.fresh hge hp
      simp [hreg, hclosed'] at hopen
  constructor
  · intro hnone'
    cases l with
    | disconnect sid =>
      have hclosed' := (sessions_none_iff h sid).mpr (.inr rfl)
      exact (disconnect_iff hs h).mp fun p hreg => hnone' sid p hclosed' hreg
    | _ => trivial
  · intro hhome sid p hclosed' hreg
    rcases (sessions_none_iff h sid).mp hclosed' with hclosed | rfl
    · exact hothers sid p hclosed hclosed' hreg
    · exact (disconnect_iff hs h).mpr hhome p hreg

/-- A server leaves nothing of closed connections behind just when each of them closes at
home. -/
theorem nothing_left_iff {draws : Fin 3 → Draws} {labels : List Label}
    (hrun : run step (start draws) labels = some s) :
    Always step NothingLeft (start draws) labels ↔ Along step ClosesAtHome (start draws) labels := by
  refine always_iff_along (I := fun s : Server => s.Sound)
    (fun _ _ _ hs hnone h => ⟨sound_step hs h, nothingLeft_step hs hnone h⟩) (sound_start draws)
    (fun sid p hnone => by cases hnone) hrun

/-- Bob joins a second room and hangs up: he is still in the first. -/
theorem left_behind : ∃ s, run step (start bootDraws)
      [ask 0 "b1" (.identify "" (some "bob")), ask 0 "b2" (.roomJoin "walkie"),
        ask 0 "b3" (.roomJoin "meeting"), .disconnect 0] = some s ∧
    s.sessions 0 = none ∧ s.Registered 0 0 ∧ Present s.rooms 0 :=
  ⟨_, rfl, rfl, ⟨by decide, rfl⟩, "walkie", _, rfl, .inl ⟨"bob", rfl⟩⟩

theorem nothing_left_iff_bob : Always step NothingLeft (start bootDraws)
    [ask 0 "b1" (.identify "" (some "bob")), ask 0 "b2" (.roomJoin "walkie"), .disconnect 0] := by
  refine (nothing_left_iff rfl).mpr ⟨trivial, fun s h => ?_⟩
  cases h
  refine ⟨trivial, fun s h => ?_⟩
  cases h
  refine ⟨fun session p hsession hreg _ => ?_, fun _ _ => trivial⟩
  cases hsession
  obtain rfl : p = 0 := Nat.lt_one_iff.mp hreg.1
  exact ⟨"walkie", "bob", rfl, rfl, _, rfl, rfl⟩

end Server

end LightLivechat.Signaling
