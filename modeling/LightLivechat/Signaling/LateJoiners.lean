import LightLivechat.Signaling.Agreement

/-! What somebody who joins late sees of a room, against what those see who were there before.
The answer to a join carries the tracks, and neither their mute flags nor the speaker. -/

namespace LightLivechat.Signaling

open LightLivechat.Config LightLivechat.Lib.Bytes LightLivechat.Lib.Std LightLivechat.Lib.Runs
open LightLivechat.Room (Ref Participant Room RoomHub Track)

namespace Audience

open Server (ask bootDraws)

variable {s s' : Audience} {l : Label}

/-- Any two members of a room see the same speaker, and the same of the tracks of all others. -/
def ViewsAgree (s : Audience) : Prop :=
  ∀ r u q u' q', s.At r u q → s.At r u' q' →
    (View.of (s.heard q)).speaker = (View.of (s.heard q')).speaker ∧
    ∀ i muted, i.userId ≠ u → i.userId ≠ u' →
      ((i, muted) ∈ (View.of (s.heard q)).tracks ↔ (i, muted) ∈ (View.of (s.heard q')).tracks)

/-- Nobody joins while a track of the room is muted or its floor is held, who publishes brings
new SSRCs, and who gets the floor asks for it over the connection it has joined by. -/
structure NothingUntold (s : Audience) (l : Label) : Prop where
  joins : ∀ {roomId userId}, s.Joins l roomId userId → s.scene.speaker roomId = none ∧
    ∀ u p, s.At roomId u p → ∀ t ∈ (s.heap p).tracks, t.muted = false
  publishes : ∀ {tracks roomId userId p}, s.Publishes l tracks roomId userId p →
    Fresh ((s.heap p).tracks.map fun t => t.ssrc) tracks
  asks : ∀ {sid roomId userId}, s.AsksFloor l sid roomId userId →
    ∀ q, s.At roomId userId q → s.wsTx q = sid

/-- What the members see is what the room is. -/
structure Right (s : Audience) : Prop where
  sound : s.Sound
  proper : s.scene.Proper
  tracks : s.scene.TracksSeen s.heard
  flags : s.scene.FlagsSeen s.heard
  speaker : s.scene.SpeakerSeen s.heard

theorem Right.viewsAgree (h : s.Right) : s.ViewsAgree := by
  intro r u q u' q' hq hq'
  replace hq := occupant_iff.mpr hq
  replace hq' := occupant_iff.mpr hq'
  have hseen : ∀ {r u q i muted}, s.scene.occupant r u = some q → i.userId ≠ u →
      ((i, muted) ∈ (View.of (s.heard q)).tracks ↔ ∃ p t, s.scene.occupant r i.userId = some p ∧
        t ∈ s.scene.tracks p ∧ i = trackInfo i.userId t ∧ muted = t.muted) := by
    intro r u q i muted hq hne
    constructor
    · intro hm
      obtain ⟨u'', p, hne', hp, hi⟩ := (h.tracks hq).mp ⟨muted, hm⟩
      obtain ⟨t, ht, rfl⟩ := List.mem_map.mp hi
      exact ⟨p, t, hp, ht, rfl, h.flags hq hne' hp ht hm⟩
    · rintro ⟨p, t, hp, ht, hi, rfl⟩
      obtain ⟨muted, hm⟩ := (h.tracks hq).mpr
        ⟨i.userId, p, hne, hp, List.mem_map.mpr ⟨t, ht, hi.symm⟩⟩
      have hflag : muted = t.muted := h.flags hq hne hp ht (by rw [← hi]; exact hm)
      exact hflag ▸ hm
  refine ⟨(h.speaker hq).trans (h.speaker hq').symm, fun i muted hne hne' => ?_⟩
  rw [hseen hq hne, hseen hq' hne']

theorem right_step (hright : s.Right) (hgood : s.NothingUntold l) (h : s.step l = some s') :
    s'.Right := by
  obtain ⟨hstep, hheard⟩ := step_eq h
  obtain ⟨hs, hd, htracks, hflags, hspeaker⟩ := hright
  have hviews : s'.scene.TracksSeen s'.heard ∧ s'.scene.FlagsSeen s'.heard ∧
      s'.scene.SpeakerSeen s'.heard := by
    rw [hheard]
    cases Server.step_turn hs hd hstep with
    | story h => exact ⟨h.tracksSeen hd htracks, h.flagsSeen hd hflags, h.speakerSeen hspeaker⟩
    | joined hl h =>
      obtain ⟨hidle, hunmuted⟩ := hgood.joins hl
      refine ⟨h.tracksSeen htracks, h.flagsSeen hflags fun hq ht => ?_,
        h.speakerSeen hspeaker hidle⟩
      exact hunmuted _ _ (occupant_iff.mp hq) _ ht
    | published hl hpub h =>
      have hnew := hpub.fresh (hgood.publishes hl)
      refine ⟨(h.tracksSeen_iff hd htracks).mpr (.inr fun i hi => ?_),
        h.flagsSeen hd htracks hflags hnew, h.speakerSeen hspeaker⟩
      rw [List.map_append]
      exact List.mem_append_right _ (hnew i hi)
    | taken hl h =>
      rw [h.scene]
      refine ⟨h.said.tracksSeen htracks, h.said.flagsSeen hflags,
        h.said.speakerSeen hspeaker fun {u q} hq => .inl (h.heard (occupant_iff.mp hq) ?_)⟩
      refine or_iff_not_imp_left.mpr fun hu => ?_
      obtain rfl := not_not.mp hu
      exact hgood.asks hl q (occupant_iff.mp hq)
  exact ⟨Server.sound_step hs hstep, Server.proper_step hs hd hstep, hviews.1, hviews.2.1,
    hviews.2.2⟩

theorem right_start (draws : Fin 3 → Draws) : (start draws).Right := by
  have hnobody : ∀ {r u q}, (start draws).scene.occupant r u ≠ some q := fun h =>
    Nat.not_lt_zero _ ((Server.sound_start draws).allocated (occupant_iff.mp h).member)
  exact ⟨Server.sound_start draws, Server.proper_start draws, fun h => absurd h hnobody,
    fun h => absurd h hnobody, fun h => absurd h hnobody⟩

/-- As long as nothing stays untold, late joiners see the room as those do who were there
before. -/
theorem views_agree {draws : Fin 3 → Draws} {labels : List Label}
    (hgood : Along step NothingUntold (start draws) labels) :
    Always step ViewsAgree (start draws) labels :=
  .imp (fun _ h => h.viewsAgree)
    (hgood.always (fun _ _ _ hright hgood h => right_step hright hgood h) (right_start draws))

/-- Alice is muted and has the floor when bob joins: carol knows, and bob does not. -/
theorem late_joiner_untold : ∃ s, run step (start bootDraws)
      [ask 0 "c1" (.identify "" (some "carol")), ask 0 "c2" (.roomJoin "walkie"),
        ask 1 "a1" (.identify "" (some "alice")), ask 1 "a2" (.roomJoin "walkie"),
        ask 1 "a3" (.publishTracks [⟨"audio", 1⟩]), ask 1 "a4" (.muteUpdate 1 true),
        ask 1 "a5" (.floorRequest "walkie"), ask 2 "b1" (.identify "" (some "bob")),
        ask 2 "b2" (.roomJoin "walkie")] = some s ∧
    s.At "walkie" "carol" 0 ∧ s.At "walkie" "bob" 2 ∧
    View.of (s.heard 0) = ⟨[(⟨"alice", .audio, 1, "alice_0", none⟩, true)], some "alice"⟩ ∧
    View.of (s.heard 2) = ⟨[(⟨"alice", .audio, 1, "alice_0", none⟩, false)], none⟩ ∧
    ¬ s.ViewsAgree := by
  refine ⟨_, rfl, ⟨_, rfl, rfl⟩, ⟨_, rfl, rfl⟩, by decide, by decide, fun h => ?_⟩
  have hspeaker := (h "walkie" "carol" 0 "bob" 2 ⟨_, rfl, rfl⟩ ⟨_, rfl, rfl⟩).1
  exact absurd hspeaker (by decide)

theorem nothingUntold_of_reaches {sid : SessionId} {session : Session} {packet : Packet}
    {draws : Draws} {request : Request} (hsession : s.sessions sid = some session)
    (hreach : packet.reaches session = some request)
    (hjoin : ∀ roomId, request = .roomJoin roomId → s.scene.speaker roomId = none ∧
      ∀ u p, s.At roomId u p → ∀ t ∈ (s.heap p).tracks, t.muted = false)
    (hpublish : ∀ tracks, request = .publishTracks tracks → ∀ room userId p,
      currentParticipant session s.toAppState = .ok (room, userId, p) →
      Fresh ((s.heap p).tracks.map fun t => t.ssrc) tracks)
    (hask : ∀ roomId, request = .floorRequest roomId →
      ∀ q, s.At roomId (session.userId.getD "") q → s.wsTx q = sid) :
    s.NothingUntold (.packet sid packet draws) := by
  refine ⟨?_, ?_, ?_⟩
  · rintro roomId userId ⟨_, _, ⟨rfl, hs, hr⟩, -, -⟩
    cases hsession.symm.trans hs
    cases hreach.symm.trans hr
    exact hjoin roomId rfl
  · rintro tracks roomId userId p ⟨_, _, room, ⟨rfl, hs, hr⟩, -, hc⟩
    cases hsession.symm.trans hs
    cases hreach.symm.trans hr
    exact hpublish tracks rfl room userId p hc
  · rintro sid' roomId userId ⟨_, ⟨rfl, hs, hr⟩, rfl, -⟩
    cases hsession.symm.trans hs
    cases hreach.symm.trans hr
    exact hask roomId rfl

/-- Carol is there before alice, and bob joins before alice gets the floor and is muted. -/
def bobInTime : List Label :=
  [ask 0 "c1" (.identify "" (some "carol")), ask 0 "c2" (.roomJoin "walkie"),
    ask 1 "a1" (.identify "" (some "alice")), ask 1 "a2" (.roomJoin "walkie"),
    ask 2 "b1" (.identify "" (some "bob")), ask 2 "b2" (.roomJoin "walkie"),
    ask 1 "a3" (.floorRequest "walkie"), ask 1 "a4" (.publishTracks [⟨"audio", 1⟩]),
    ask 1 "a5" (.muteUpdate 1 true)]

theorem bobInTime_nothingUntold : Along step NothingUntold (start bootDraws) bobInTime := by
  refine ⟨nothingUntold_of_reaches rfl rfl (by simp) (by simp) (by simp), fun s h => ?_⟩
  cases h
  refine ⟨nothingUntold_of_reaches rfl rfl ?_ (by simp) (by simp), fun s h => ?_⟩
  · rintro roomId h
    cases h
    refine ⟨rfl, ?_⟩
    rintro u p ⟨room, hroom, hu⟩
    cases hroom
    cases hu
  cases h
  refine ⟨nothingUntold_of_reaches rfl rfl (by simp) (by simp) (by simp), fun s h => ?_⟩
  cases h
  refine ⟨nothingUntold_of_reaches rfl rfl ?_ (by simp) (by simp), fun s h => ?_⟩
  · rintro roomId h
    cases h
    refine ⟨rfl, ?_⟩
    rintro u p ⟨room, hroom, hu⟩
    cases hroom
    obtain rfl : p = 0 := List.mem_singleton.mp (DashMap.mem_values hu)
    decide
  cases h
  refine ⟨nothingUntold_of_reaches rfl rfl (by simp) (by simp) (by simp), fun s h => ?_⟩
  cases h
  refine ⟨nothingUntold_of_reaches rfl rfl ?_ (by simp) (by simp), fun s h => ?_⟩
  · rintro roomId h
    cases h
    refine ⟨rfl, ?_⟩
    rintro u p ⟨room, hroom, hu⟩
    cases hroom
    have hmem : p ∈ [1, 0] := DashMap.mem_values hu
    rcases List.mem_pair.mp hmem with rfl | rfl
    · decide
    · decide
  cases h
  refine ⟨nothingUntold_of_reaches rfl rfl (by simp) (by simp) ?_, fun s h => ?_⟩
  · rintro roomId h q ⟨room, hroom, hq⟩
    cases h
    cases hroom
    cases hq
    rfl
  cases h
  refine ⟨nothingUntold_of_reaches rfl rfl (by simp) ?_ (by simp), fun s h => ?_⟩
  · rintro tracks h room userId p hc
    cases h
    cases hc
    change Fresh [] [⟨"audio", 1⟩]
    simp [Fresh, trackKind]
  cases h
  exact ⟨nothingUntold_of_reaches rfl rfl (by simp) (by simp) (by simp), fun _ _ => trivial⟩

theorem views_agree_bob : (∃ s, run step (start bootDraws) bobInTime = some s ∧
      View.of (s.heard 0) = ⟨[(⟨"alice", .audio, 1, "alice_0", none⟩, true)], some "alice"⟩ ∧
      View.of (s.heard 2) = ⟨[(⟨"alice", .audio, 1, "alice_0", none⟩, true)], some "alice"⟩) ∧
    Always step ViewsAgree (start bootDraws) bobInTime :=
  ⟨⟨_, rfl, by decide, by decide⟩, views_agree bobInTime_nothingUntold⟩

end Audience

end LightLivechat.Signaling
