import LightLivechat.Signaling.Turns

/-! Members and server agree about the published tracks, as long as what is announced is
what is registered. -/

namespace LightLivechat.Signaling

open LightLivechat.Config LightLivechat.Lib.Bytes LightLivechat.Lib.Std LightLivechat.Lib.Runs
open LightLivechat.Room (Ref Participant Room RoomHub Track)

namespace Server

variable {s s' : Server} {l : Label} {tracks tracks' : List PublishTrackItem}
variable {roomId roomId' userId userId' : String} {p p' : Ref}

theorem Publishes.unique (h : s.Publishes l tracks roomId userId p)
    (h' : s.Publishes l tracks' roomId' userId' p') :
    tracks = tracks' ∧ roomId = roomId' ∧ userId = userId' ∧ p = p' := by
  cases l with
  | packet sid packet draws =>
    obtain ⟨sid₁, session₁, room₁, ⟨rfl, hs₁, hr₁⟩, hc₁, hp₁⟩ := h
    obtain ⟨sid₂, session₂, room₂, ⟨rfl, hs₂, hr₂⟩, hc₂, hp₂⟩ := h'
    cases hs₁.symm.trans hs₂
    cases hr₁.symm.trans hr₂
    cases hc₁.symm.trans hc₂
    cases hp₁.symm.trans hp₂
    exact ⟨rfl, rfl, rfl, rfl⟩
  | _ =>
    obtain ⟨_, _, _, h, -⟩ := h
    cases h

theorem publishes_turn (hs : s.Sound) (hd : s.scene.Proper) (hl : s.Publishes l tracks roomId userId p)
    (h : s.step l = some s') : ∃ x' added new,
      Publishing userId (s.heap p) (s.heap p).tracks.length tracks x' added new ∧
      s.scene.Published (s.tells l s'.toAppState) s'.scene roomId userId p added new := by
  cases l with
  | packet sid packet draws =>
    obtain ⟨sid', session, room, ⟨rfl, hsession, hreach⟩, hcurrent, hc⟩ := hl
    obtain ⟨session', hsession', -, hstate⟩ := step_dispatch h
    cases hsession.symm.trans hsession'
    obtain ⟨roomId', x', added, new, hcurrent', hpub, hpublished⟩ :=
      publishTracks_published packet.pid tracks hs (hd.distinct p) hc
    cases hcurrent.symm.trans hcurrent'
    have htells : s.tells (.packet sid packet draws) s'.toAppState = s.news s'.toAppState := by
      funext q
      rw [tells, answered_of_reaches hsession hreach, answered_eq_nil (by simp) (by simp)]
      rfl
    rw [htells, hstate, dispatch_of_reaches hreach]
    exact ⟨x', added, new, hpub, hpublished⟩
  | _ =>
    obtain ⟨_, _, _, h, -⟩ := hl
    cases h

theorem proper_step (hs : s.Sound) (hd : s.scene.Proper) (h : s.step l = some s') :
    s'.scene.Proper := by
  cases step_turn hs hd h with
  | story h => exact h.proper hd
  | joined _ h => exact h.proper hd
  | published _ _ h => exact h.proper hd
  | taken _ h =>
    rw [h.scene]
    exact ⟨hd.home, hd.distinct⟩

theorem proper_start (draws : Fin 3 → Draws) : (start draws).scene.Proper where
  home := fun h => absurd ((sound_start draws).allocated (occupant_iff.mp h).member)
    (Nat.not_lt_zero _)
  distinct := fun _ => List.nodup_nil

end Server

namespace Audience

open Server (ask bootDraws)

variable {s s' : Audience} {l : Label}

theorem step_eq (h : s.step l = some s') : s.toServer.step l = some s'.toServer ∧
    s'.heard = fun p => s.heard p ++ s.tells l s'.toAppState p := by
  obtain ⟨t, ht, rfl⟩ := Option.map_eq_some_iff.mp h
  exact ⟨ht, rfl⟩

/-- In every room, what a member has been told makes the tracks that the others have
registered. -/
def TracksAgree (s : Audience) : Prop :=
  ∀ r u q, s.At r u q → ∀ i, i ∈ (View.of (s.heard q)).tracks.map (fun e => e.1) ↔
    ∃ u' p, u' ≠ u ∧ s.At r u' p ∧ i ∈ (s.heap p).tracks.map (trackInfo u')

/-- Who publishes announces what it registers, or is alone in the room. -/
def AnnouncesFaithfully (s : Audience) (l : Label) : Prop :=
  ∀ tracks roomId userId p, s.Publishes l tracks roomId userId p →
    (∀ u q, s.At roomId u q → u = userId) ∨
      Faithful userId ((s.heap p).tracks.map ownEntry) (s.heap p).tracks.length tracks

theorem tracksAgree_iff : s.TracksAgree ↔ s.scene.TracksSeen s.heard := by
  unfold TracksAgree Scene.TracksSeen Scene.Others
  simp only [← occupant_iff, List.mem_map, Prod.exists, exists_and_right, exists_eq_right]
  exact ⟨fun h {r u q} hq {i} => h r u q hq i, fun h r u q hq i => h hq⟩

theorem tracksAgree_step (hs : s.Sound) (hd : s.scene.Proper) (hagree : s.TracksAgree)
    (h : s.step l = some s') : s'.TracksAgree ↔ s.AnnouncesFaithfully l := by
  obtain ⟨hstep, hheard⟩ := step_eq h
  rw [tracksAgree_iff] at hagree ⊢
  rw [hheard]
  by_cases hl : ∃ tracks roomId userId p, s.Publishes l tracks roomId userId p
  · obtain ⟨tracks, roomId, userId, p, hl⟩ := hl
    obtain ⟨x', added, new, hpub, hpublished⟩ := Server.publishes_turn hs hd hl hstep
    have hfaithful := hpub.faithful (hd.distinct p)
    rw [hpub.tracks] at hfaithful
    rw [hpublished.tracksSeen_iff hd hagree]
    constructor
    · intro hcond tracks' roomId' userId' p' hl'
      obtain ⟨rfl, rfl, rfl, rfl⟩ := hl.unique hl'
      exact hcond.imp (fun halone u q hq => halone (occupant_iff.mpr hq)) hfaithful.mp
    · intro hcond
      exact (hcond tracks roomId userId p hl).imp
        (fun halone _ _ hq => halone _ _ (occupant_iff.mp hq)) hfaithful.mpr
  · refine iff_of_true ?_ fun tracks roomId userId p hl' => absurd ⟨_, _, _, _, hl'⟩ hl
    cases Server.step_turn hs hd hstep with
    | story h => exact h.tracksSeen hd hagree
    | joined _ h => exact h.tracksSeen hagree
    | published hl' => exact absurd ⟨_, _, _, _, hl'⟩ hl
    | taken _ h =>
      rw [h.scene]
      exact h.said.tracksSeen hagree

theorem tracksAgree_start (draws : Fin 3 → Draws) : (start draws).TracksAgree := fun _ _ _ h =>
  absurd ((Server.sound_start draws).allocated h.member) (Nat.not_lt_zero _)

/-- Members and server agree about the tracks just as long as every request to publish
announces what it registers. -/
theorem tracks_agree_iff {draws : Fin 3 → Draws} {labels : List Label}
    (hrun : run step (start draws) labels = some s) :
    Always step TracksAgree (start draws) labels ↔
      Along step AnnouncesFaithfully (start draws) labels := by
  refine always_iff_along (I := fun s : Audience => s.Sound ∧ s.scene.Proper)
    (fun s l s' hI hagree h => ⟨?_, tracksAgree_step hI.1 hI.2 hagree h⟩)
    ⟨Server.sound_start draws, Server.proper_start draws⟩ (tracksAgree_start draws) hrun
  have hstep := (step_eq h).1
  exact ⟨Server.sound_step hI.1 hstep, Server.proper_step hI.1 hI.2 hstep⟩

/-- Bob publishes one SSRC as audio and then as video: alice hears of two tracks, and only one
is registered. -/
theorem announced_unregistered : ∃ s, run step (start bootDraws)
      [ask 0 "a1" (.identify "" (some "alice")), ask 0 "a2" (.roomJoin "walkie"),
        ask 1 "b1" (.identify "" (some "bob")), ask 1 "b2" (.roomJoin "walkie"),
        ask 1 "b3" (.publishTracks [⟨"audio", 1⟩]), ask 1 "b4" (.publishTracks [⟨"video", 1⟩])] =
        some s ∧ ¬ s.TracksAgree := by
  refine ⟨_, rfl, fun h => ?_⟩
  obtain ⟨u, p, -, hp, hi⟩ := (h "walkie" "alice" 0 ⟨_, rfl, rfl⟩
    ⟨"bob", .video, 1, "bob_1", none⟩).mp (by decide)
  obtain ⟨t, -, ht⟩ := List.mem_map.mp hi
  obtain rfl : u = "bob" := congrArg TrackInfo.userId ht
  obtain rfl : p = 1 := hp.unique ⟨_, rfl, rfl⟩
  exact absurd hi (by decide)

def bobPublishes : List Label :=
  [ask 0 "a1" (.identify "" (some "alice")), ask 0 "a2" (.roomJoin "walkie"),
    ask 1 "b1" (.identify "" (some "bob")), ask 1 "b2" (.roomJoin "walkie"),
    ask 1 "b3" (.publishTracks [⟨"audio", 1⟩])]

theorem tracks_agree_bob : Always step TracksAgree (start bootDraws) bobPublishes := by
  refine (tracks_agree_iff rfl).mpr ⟨?_, fun s h => ?_⟩
  · rintro tracks roomId userId p ⟨_, _, _, ⟨rfl, hs, hr⟩, -⟩
    cases hs
    cases hr
  cases h
  refine ⟨?_, fun s h => ?_⟩
  · rintro tracks roomId userId p ⟨_, _, _, ⟨rfl, hs, hr⟩, -⟩
    cases hs
    cases hr
  cases h
  refine ⟨?_, fun s h => ?_⟩
  · rintro tracks roomId userId p ⟨_, _, _, ⟨rfl, hs, hr⟩, -⟩
    cases hs
    cases hr
  cases h
  refine ⟨?_, fun s h => ?_⟩
  · rintro tracks roomId userId p ⟨_, _, _, ⟨rfl, hs, hr⟩, -⟩
    cases hs
    cases hr
  cases h
  refine ⟨?_, fun _ _ => trivial⟩
  rintro tracks roomId userId p ⟨_, _, _, ⟨rfl, hs, hr⟩, -, hc⟩
  cases hs
  cases hr
  cases hc
  right
  change Faithful "bob" [] 0 [⟨"audio", 1⟩]
  simp [Faithful, trackKind]

end Audience

end LightLivechat.Signaling
