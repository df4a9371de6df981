import LightLivechat.Signaling.Notices

/-! What the members believe of the floor once everything is delivered.  An answer that grants
it overtakes what the queue of the same connection still holds. -/

namespace LightLivechat.Signaling

open LightLivechat.Config LightLivechat.Lib.Bytes LightLivechat.Lib.Std LightLivechat.Lib.Runs
open LightLivechat.Room (Heap Ref Participant Room RoomHub Track)

namespace Server

variable {s s' : Server} {l : Label} {sid c : SessionId} {session : Session} {roomId : String}

theorem grants_eq_nil (h : ∀ sid session roomId, ¬ s.Handles l sid session (.floorRequest roomId)) :
    s.grants l c = [] := by
  unfold grants
  split
  · rename_i sid' packet draws
    split
    · rename_i session roomId hsession hbody
      cases hreach : packet.reaches session with
      | none =>
        obtain hreply | ⟨op, code, msg, hreply⟩ :=
          @reply_of_not_reaches draws session sid' s.toAppState packet hreach
        · rw [hreply]
          exact ite_self _
        · rw [hreply]
          exact ite_self _
      | some request =>
        cases hbody.symm.trans (body_of_reaches hreach)
        exact absurd ⟨rfl, hsession, hreach⟩ (h sid' session roomId)
    · rfl
  · rfl

theorem handles_unique {sid' : SessionId} {session' : Session} {request request' : Request}
    (h : s.Handles l sid session request) (h' : s.Handles l sid' session' request') :
    sid = sid' ∧ session = session' ∧ request = request' := by
  cases l with
  | packet sid₀ packet draws =>
    obtain ⟨rfl, hsession, hreach⟩ := h
    obtain ⟨rfl, hsession', hreach'⟩ := h'
    cases hsession.symm.trans hsession'
    exact ⟨rfl, rfl, Option.some.inj (hreach.symm.trans hreach')⟩
  | _ => cases h

theorem step_ask (hask : s.Handles l sid session (.floorRequest roomId)) (h : s.step l = some s') :
    (¬ FloorIdle s.toAppState roomId ∧ Silent s.toAppState s'.toAppState ∧ ∀ c, s.grants l c = []) ∨
    ∃ room, s.rooms.rooms.lookup roomId = some room ∧ room.mode = .ptt ∧
      (room.floor.currentSpeaker = none ∨
        room.floor.currentSpeaker = some (session.userId.getD "")) ∧
      s'.scene = { s.scene with
        speaker := Function.update s.scene.speaker roomId (some (session.userId.getD "")) } ∧
      s'.wsTx = s.wsTx ∧
      s'.sent = (s.broadcastToOthers room (session.userId.getD "")
        (.floorTaken room.id (session.userId.getD ""))).sent ∧
      ∀ c, s.grants l c = if c = sid then [.granted roomId (session.userId.getD "")] else [] := by
  cases l with
  | packet sid packet draws =>
    obtain ⟨rfl, hsession, hreach⟩ := hask
    obtain ⟨session', hsession', -, hstate⟩ := step_dispatch h
    cases hsession.symm.trans hsession'
    have hgrants : ∀ c, s.grants (.packet sid packet draws) c =
        if c = sid then
          grant roomId
            (handle draws session sid s.toAppState packet.pid (.floorRequest roomId)).2.2
        else [] := fun c => by
      unfold grants
      simp only [hsession, body_of_reaches hreach]
      rw [dispatch_of_reaches hreach]
    rw [dispatch_of_reaches hreach] at hstate
    cases hfloor : handleFloorRequest draws s.toAppState packet.pid (session.userId.getD "")
      roomId with
    | mk t reply =>
      have hhandle : handle draws session sid s.toAppState packet.pid (.floorRequest roomId) =
          (t, session, some reply) := by
        simp only [handle, hfloor]
      rw [hhandle] at hgrants hstate
      dsimp only at hgrants hstate
      obtain ⟨hidle, hscene, hwsTx, hsent, code, msg, rfl⟩ |
        ⟨room, hroom, hmode, hspeaker, hscene, hwsTx, hsent, rfl⟩ := floorRequest_cases hfloor
      · refine .inl ⟨hidle, ?_, fun c => (hgrants c).trans (ite_self _)⟩
        rw [hstate]
        exact .of_same hsent hwsTx (congrArg Scene.speaker hscene)
      · refine .inr ⟨room, hroom, hmode, hspeaker, ?_, ?_, ?_, hgrants⟩
        · rw [hstate, hscene]
        · rw [hstate, hwsTx]
        · rw [hstate, hsent]
  | _ => cases hask

end Server

namespace World

open Server (ask bootDraws)

variable {w w' : World} {a : Act} {l : Label} {sid c : SessionId} {r roomId userId u : String}
variable {present : Ref → Prop} {room : Room} {q : Ref} {t : AppState}

/-- Those of the room who have been present, and whose connections are open, believe the floor
to be whose it is, once everything has been delivered. -/
def Informed (roomId : String) (present : Ref → Prop) (w : World) : Prop :=
  ∀ q, present q → w.rooms.Member roomId q → (w.sessions (w.wsTx q)).isSome →
    belief roomId (w.heard (w.wsTx q)) = w.scene.speaker roomId

/-- That the user has the floor is the last that a connection hears: it is queued for somebody
else there, or it is the answer and no word of the floor is waiting. -/
def Reaches (w : World) (roomId userId : String) (sid c : SessionId) : Prop :=
  (∃ u q, u ≠ userId ∧ w.At roomId u q ∧ w.wsTx q = c) ∨
    c = sid ∧ ∀ e ∈ w.queue c, Message.floor roomId (.event e) = none

/-- Who is granted the floor hears of it last. -/
def GrantsInOrder (roomId : String) (present : Ref → Prop) (w : World) : Act → Prop
  | .serve l => ∀ sid userId, w.AsksFloor l sid roomId userId →
    ∀ q, present q → w.At roomId userId q → (w.sessions (w.wsTx q)).isSome →
      w.Reaches roomId userId sid (w.wsTx q)
  | .write _ => True

theorem step_serve (h : w.step (.serve l) = some w') : w.toServer.step l = some w'.toServer ∧
    ∀ c, (w'.sessions c).isSome → w'.heard c = w.socket c ++ w.grants l c ++
      ((w.queue c).map .event ++ (w.queuedTo w'.toAppState c).map .event) := by
  obtain ⟨s, hs, rfl⟩ := Option.map_eq_some_iff.mp h
  refine ⟨hs, fun c hopen => ?_⟩
  unfold heard
  dsimp only at hopen ⊢
  rw [if_neg (by simpa [Option.isSome_iff_ne_none] using hopen), List.map_append]

theorem step_write (h : w.step (.write sid) = some w') :
    w'.toServer = w.toServer ∧ w'.heard = w.heard := by
  simp only [step] at h
  split at h
  · rename_i session event events hsession hqueue
    cases h
    refine ⟨rfl, funext fun c => ?_⟩
    unfold heard
    dsimp only
    by_cases hc : c = sid
    · subst hc
      rw [Function.update_self, Function.update_self, hqueue, List.map_cons, List.append_assoc]
      rfl
    · rw [Function.update_of_ne hc, Function.update_of_ne hc]
  · cases h

theorem heard_of_drained (h : w.queue c = []) : w.heard c = w.socket c := by
  unfold heard
  rw [h, List.map_nil, List.append_nil]

/-- What a connection makes of a grant depends on whether it reaches it as the last word. -/
theorem belief_granted (hid : room.id = r) (hroom : w.rooms.rooms.lookup r = some room)
    (hsent : t.sent = (w.broadcastToOthers room userId (.floorTaken room.id userId)).sent)
    (hwsTx : t.wsTx = w.wsTx) (sid c : SessionId) {log : List Message}
    (hlog : log = w.socket c ++ (if c = sid then [.granted r userId] else []) ++
      ((w.queue c).map .event ++ (w.queuedTo t c).map .event)) :
    (w.Reaches r userId sid c → belief r log = some userId) ∧
      (¬ w.Reaches r userId sid c → belief r log = belief r (w.heard c)) := by
  have hqueued : ∀ m, m ∈ (w.queuedTo t c).map Message.event ↔
      (∃ u q, u ≠ userId ∧ w.At r u q ∧ w.wsTx q = c) ∧ m = .event (.floorTaken room.id userId) := by
    intro m
    rw [mem_queuedTo hsent, hwsTx]
    constructor
    · rintro ⟨e, he, hc, rfl⟩
      obtain ⟨⟨u, q⟩, hu, rfl⟩ := List.mem_map.mp he
      obtain ⟨hu, hne⟩ := List.mem_filter.mp hu
      exact ⟨⟨u, q, of_decide_eq_true hne, ⟨room, hroom, AList.mem_lookup_iff.mpr hu⟩, hc⟩, rfl⟩
    · rintro ⟨⟨u, q, hne, ⟨room', hroom', hu⟩, hc⟩, rfl⟩
      cases hroom.symm.trans hroom'
      exact ⟨_, List.mem_map.mpr ⟨⟨u, q⟩, List.mem_filter.mpr
        ⟨AList.mem_lookup_iff.mp hu, decide_eq_true hne⟩, rfl⟩, hc, rfl⟩
  have htaken : Message.floor r (.event (.floorTaken room.id userId)) = some (some userId) :=
    if_pos hid
  by_cases hother : ∃ u q, u ≠ userId ∧ w.At r u q ∧ w.wsTx q = c
  · refine ⟨fun _ => ?_, fun h => absurd (.inl hother) h⟩
    have hlast : lastSaid r ((w.queuedTo t c).map .event) = some (some userId) := by
      refine lastSaid_of_mem (fun m hm x hx => ?_) ((hqueued _).mpr ⟨hother, rfl⟩) htaken
      rw [((hqueued m).mp hm).2, htaken] at hx
      exact (Option.some.inj hx).symm
    rw [hlog, ← List.append_assoc]
    exact belief_append_said hlast
  · have hsilent : lastSaid r ((w.queuedTo t c).map .event) = none :=
      lastSaid_eq_none_iff.mpr fun m hm => absurd ((hqueued m).mp hm).1 hother
    have hsame : belief r log = belief r (w.socket c ++
        (if c = sid then [.granted r userId] else []) ++ (w.queue c).map .event) := by
      rw [hlog, ← List.append_assoc, belief_append_silent hsilent]
    have hmute : lastSaid r ((w.queue c).map Message.event) = none ↔
        ∀ e ∈ w.queue c, Message.floor r (.event e) = none := by
      rw [lastSaid_eq_none_iff, List.forall_mem_map]
    rw [hsame]
    constructor
    · rintro (h | ⟨hc, hqueue⟩)
      · exact absurd h hother
      · rw [belief_append_silent (hmute.mpr hqueue), if_pos hc]
        exact belief_append_said (if_pos rfl)
    · intro h
      by_cases hc : c = sid
      · exact belief_overtaken (fun hnone => h (.inr ⟨hc, hmute.mp hnone⟩)) _
      · rw [if_neg hc, List.append_nil]
        rfl

theorem isSome_before (h : w.toServer.step l = some w'.toServer) (hopen : (w'.sessions c).isSome) :
    (w.sessions c).isSome := by
  rw [Option.isSome_iff_ne_none] at hopen ⊢
  exact fun hnone => hopen ((Server.sessions_none_iff h c).mpr (.inl hnone))

theorem isSome_after {session : Session} {request : Request}
    (hhandles : w.Handles l sid session request) (h : w.toServer.step l = some w'.toServer)
    (hopen : (w.sessions c).isSome) : (w'.sessions c).isSome := by
  rw [Option.isSome_iff_ne_none] at hopen ⊢
  intro hnone
  obtain hnone | rfl := (Server.sessions_none_iff h c).mp hnone
  · exact hopen hnone
  · cases hhandles

theorem informed_of_keeps (hs : w.Sound) (hold : ∀ q, present q → q < w.next)
    (hinformed : w.Informed r present) (h : w.step (.serve l) = some w')
    (hkeeps : Keeps r w.toAppState w'.toAppState) (hgrants : ∀ c, lastSaid r (w.grants l c) = none) :
    w'.Informed r present := by
  obtain ⟨hstep, hheard⟩ := step_serve h
  intro q hq hmember' hopen
  have hmember := (Server.step_admits hs hstep).member (hold q hq) hmember'
  rw [hheard _ hopen, ← List.append_assoc]
  refine hkeeps.belief hmember hmember' _ ?_
  rw [belief_insert_silent (hgrants _), hkeeps.wsTx hmember]
  exact hinformed q hq hmember (hkeeps.wsTx hmember ▸ isSome_before hstep hopen)

theorem taken_keeps (hid : room.id = roomId) (hr : roomId ≠ r)
    (hscene : t.scene = { w.scene with
      speaker := Function.update w.scene.speaker roomId (some userId) })
    (hsent : t.sent = (w.broadcastToOthers room userId (.floorTaken room.id userId)).sent)
    (hwsTx : t.wsTx = w.wsTx) : Keeps r w.toAppState t := by
  refine ⟨⟨_, hsent⟩, fun _ => by rw [hwsTx], fun _ _ log hlog => ?_⟩
  rw [hscene]
  dsimp only
  rw [Function.update_of_ne (Ne.symm hr), belief_append_silent, hlog]
  rw [lastSaid_eq_none_iff]
  intro m hm
  obtain ⟨e, he, -, rfl⟩ := (mem_queuedTo hsent).mp hm
  obtain ⟨x, -, rfl⟩ := List.mem_map.mp he
  exact if_neg (hid ▸ hr)

theorem informed_granted {session : Session} (hs : w.Sound) (hinformed : w.Informed r present)
    (h : w.step (.serve l) = some w')
    (hhandles : w.Handles l sid session (.floorRequest r))
    (hroom : w.rooms.rooms.lookup r = some room) (hmode : room.mode = .ptt)
    (hspeaker : room.floor.currentSpeaker = none ∨ room.floor.currentSpeaker = some userId)
    (huser : session.userId.getD "" = userId)
    (hscene : w'.scene = { w.scene with
      speaker := Function.update w.scene.speaker r (some userId) })
    (hsent : w'.sent = (w.broadcastToOthers room userId (.floorTaken room.id userId)).sent)
    (hwsTx : w'.wsTx = w.wsTx)
    (hgrants : ∀ c, w.grants l c = if c = sid then [.granted r userId] else []) :
    w'.Informed r present ↔ w.GrantsInOrder r present (.serve l) := by
  obtain ⟨hstep, hheard⟩ := step_serve h
  have hat : ∀ {u q}, w'.At r u q ↔ w.At r u q := by
    intro u q
    rw [← occupant_iff, ← occupant_iff, hscene]
  have hbelief := fun c hopen => belief_granted (hs.room hroom).1 hroom hsent hwsTx sid c
    ((hheard c hopen).trans (by rw [hgrants]))
  have hnow : w'.scene.speaker r = some userId := by
    rw [hscene]
    exact Function.update_self ..
  constructor
  · rintro hinformed' sid' userId' ⟨session', hhandles', huser', room', hroom', -, hidle⟩ q hq hqat hopen
    obtain ⟨rfl, rfl, -⟩ := Server.handles_unique hhandles hhandles'
    obtain rfl : userId = userId' := huser.symm.trans huser'
    cases hroom.symm.trans hroom'
    have hopen' := isSome_after hhandles hstep hopen
    by_contra hnot
    have hright := hinformed' q hq (hat.mpr hqat).member (hwsTx ▸ hopen')
    rw [hwsTx, hnow, (hbelief _ hopen').2 hnot, hinformed q hq hqat.member hopen, speaker_eq hroom,
      hidle] at hright
    cases hright
  · intro hgood q hq hmember' hopen'
    rw [hwsTx] at hopen' ⊢
    rw [hnow]
    obtain ⟨room', u, hroom', hu⟩ := hmember'
    have hqat : w.At r u q := hat.mp ⟨room', hroom', hu⟩
    have hopen := isSome_before hstep hopen'
    by_cases hreaches : w.Reaches r userId sid (w.wsTx q)
    · exact (hbelief _ hopen').1 hreaches
    · rw [(hbelief _ hopen').2 hreaches, hinformed q hq hqat.member hopen, speaker_eq hroom]
      refine hspeaker.resolve_left fun hidle => hreaches ?_
      by_cases hu : u = userId
      · subst hu
        exact hgood sid u ⟨session, hhandles, huser, room, hroom, hmode, hidle⟩ q hq hqat hopen
      · exact .inl ⟨u, q, hu, hqat, rfl⟩

theorem informed_step (hs : w.Sound) (hold : ∀ q, present q → q < w.next)
    (hinformed : w.Informed r present) (h : w.step a = some w') :
    w'.Informed r present ↔ w.GrantsInOrder r present a := by
  cases a with
  | write sid =>
    obtain ⟨hserver, hheard⟩ := step_write h
    refine iff_of_true ?_ trivial
    unfold Informed
    rw [hheard, hserver]
    exact hinformed
  | serve l =>
    obtain ⟨hstep, -⟩ := step_serve h
    by_cases hask : ∃ sid session roomId, w.Handles l sid session (.floorRequest roomId)
    · obtain ⟨sid, session, roomId, hhandles⟩ := hask
      have hother : (roomId = r → ¬ FloorIdle w.toAppState r) →
          w.GrantsInOrder r present (.serve l) := by
        rintro hnot sid' userId' ⟨session', hhandles', -, hidle⟩
        cases (Server.handles_unique hhandles hhandles').2.2
        exact absurd hidle (hnot rfl)
      obtain ⟨hbusy, hsilent, hgrants⟩ |
        ⟨room, hroom, hmode, hspeaker, hscene, hwsTx, hsent, hgrants⟩ :=
          Server.step_ask hhandles hstep
      · refine iff_of_true (informed_of_keeps hs hold hinformed h (hsilent.keeps hs) fun c => ?_)
          (hother fun hr => hr ▸ hbusy)
        rw [hgrants]
        rfl
      · by_cases hr : roomId = r
        · subst hr
          exact informed_granted hs hinformed h hhandles hroom hmode hspeaker rfl hscene hsent
            hwsTx hgrants
        · refine iff_of_true (informed_of_keeps hs hold hinformed h
            (taken_keeps (hs.room hroom).1 hr hscene hsent hwsTx) fun c => ?_)
            (hother fun heq => absurd heq hr)
          rw [hgrants, lastSaid_eq_none_iff]
          intro m hm
          split at hm
          · cases List.mem_singleton.mp hm
            exact if_neg hr
          · cases hm
    · have hnone : ∀ sid session roomId, ¬ w.Handles l sid session (.floorRequest roomId) :=
        fun sid session roomId h => hask ⟨sid, session, roomId, h⟩
      refine iff_of_true (informed_of_keeps hs hold hinformed h (Server.step_keeps hs hstep hnone)
        fun c => ?_) ?_
      · rw [Server.grants_eq_nil hnone]
        rfl
      · rintro sid userId ⟨session, hhandles, -⟩
        exact absurd hhandles (hnone sid session r)

theorem sound_run {draws : Fin 3 → Draws} {acts : List Act} (h : run step (start draws) acts = some w) :
    w.Sound := by
  refine run_inv (P := fun w : World => w.Sound) (G := fun _ _ => True) (fun w a w' hs _ h => ?_)
    (Server.sound_start draws) (.of_forall (fun _ _ => trivial) _ _) h
  cases a with
  | serve l => exact Server.sound_step hs (step_serve h).1
  | write sid =>
    rw [(step_write h).1]
    exact hs

/-- From wherever they are informed, the members who have been present believe the right thing
of the floor just as long as who is granted it hears of it last. -/
theorem beliefs_right_iff {draws : Fin 3 → Draws} {before acts : List Act} {t : World}
    (hreach : run step (start draws) before = some w)
    (hmembers : ∀ q, present q → w.rooms.Member roomId q) (hinformed : w.Informed roomId present)
    (hrun : run step w acts = some t) :
    Always step (Informed roomId present) w acts ↔
      Along step (GrantsInOrder roomId present) w acts := by
  have hs := sound_run hreach
  refine always_iff_along (I := fun w : World => w.Sound ∧ ∀ q, present q → q < w.next)
    (fun w a w' hI hinformed h => ⟨?_, informed_step hI.1 hI.2 hinformed h⟩)
    ⟨hs, fun q hq => hs.allocated (hmembers q hq)⟩ hinformed hrun
  cases a with
  | serve l =>
    have hstep := (step_serve h).1
    exact ⟨Server.sound_step hI.1 hstep,
      fun q hq => Nat.lt_of_lt_of_le (hI.2 q hq) (Server.step_admits hI.1 hstep).next⟩
  | write sid =>
    rw [(step_write h).1]
    exact hI

def aliceAndBob : List Act :=
  [.serve (ask 0 "a1" (.identify "" (some "alice"))), .serve (ask 0 "a2" (.roomJoin "walkie")),
    .serve (ask 1 "b1" (.identify "" (some "bob"))), .serve (ask 1 "b2" (.roomJoin "walkie")), .write 0]

theorem informed_aliceAndBob (h : run step (start bootDraws) aliceAndBob = some w) :
    w.Informed "walkie" present := by
  cases h
  rintro q - ⟨room, u, hroom, hu⟩ -
  cases hroom
  have hq : q ∈ [1, 0] := DashMap.mem_values hu
  simp only [List.mem_cons, List.not_mem_nil, or_false] at hq
  obtain rfl | rfl := hq
  · rfl
  · rfl

/-- Alice gives the floor up, and bob is granted it before he is written that it is idle: in the
end he takes the floor that he has to be idle. -/
theorem grant_overtakes : ∃ w t, run step (start bootDraws) aliceAndBob = some w ∧
    w.Informed "walkie" (w.rooms.Member "walkie") ∧
    run step w [.serve (ask 0 "a3" (.floorRequest "walkie")), .write 1,
      .serve (ask 0 "a4" (.floorRelease "walkie")), .serve (ask 1 "b3" (.floorRequest "walkie")),
      .write 1, .write 0, .write 0] = some t ∧
    t.At "walkie" "bob" 1 ∧ t.wsTx 1 = 1 ∧ t.queue 0 = [] ∧ t.queue 1 = [] ∧
    t.socket 1 = [.event (.floorTaken "walkie" "alice"), .granted "walkie" "bob",
      .event (.floorIdle "walkie" "alice" none)] ∧
    belief "walkie" (t.socket 1) = none ∧ t.scene.speaker "walkie" = some "bob" ∧
    ¬ t.Informed "walkie" (w.rooms.Member "walkie") := by
  refine ⟨_, _, rfl, informed_aliceAndBob rfl, rfl, ⟨_, rfl, rfl⟩, rfl, rfl, rfl, rfl, rfl, rfl,
    fun h => ?_⟩
  have hbob := h 1 ⟨_, "bob", rfl, rfl⟩ ⟨_, "bob", rfl, rfl⟩ rfl
  exact absurd hbob (by decide)

theorem beliefs_right_alice : ∃ w, run step (start bootDraws) aliceAndBob = some w ∧
    Always step (Informed "walkie" (w.rooms.Member "walkie")) w
      [.serve (ask 0 "a3" (.floorRequest "walkie")), .write 1] := by
  obtain ⟨w, t, session, hw, ht, hat, hwsTx, hqueue, hsession, huser⟩ : ∃ w t session,
      run step (start bootDraws) aliceAndBob = some w ∧
      run step w [.serve (ask 0 "a3" (.floorRequest "walkie")), .write 1] = some t ∧
      w.At "walkie" "alice" 0 ∧ w.wsTx 0 = 0 ∧ w.queue 0 = [] ∧ w.sessions 0 = some session ∧
      session.userId = some "alice" :=
    ⟨_, _, _, rfl, rfl, ⟨_, rfl, rfl⟩, rfl, rfl, rfl, rfl⟩
  refine ⟨w, hw, (beliefs_right_iff hw (fun _ h => h) (informed_aliceAndBob hw) ht).mpr
    ⟨?_, fun w' _ => ⟨trivial, fun _ _ => trivial⟩⟩⟩
  rintro sid userId ⟨session', ⟨rfl, hsession', -⟩, rfl, -⟩ q - hq -
  cases hsession.symm.trans hsession'
  rw [huser] at hq
  obtain rfl : q = 0 := hq.unique hat
  refine .inr ⟨hwsTx, fun e he => ?_⟩
  rw [hwsTx, hqueue] at he
  cases he

end World

end LightLivechat.Signaling
