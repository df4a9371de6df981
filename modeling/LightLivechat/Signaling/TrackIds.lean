import LightLivechat.Signaling.Ssrcs

/-! The ids of a participant's tracks: the user id and a number that every request to
publish counts from the number of tracks there are. -/

namespace LightLivechat.Signaling

open LightLivechat.Config LightLivechat.Lib.Bytes LightLivechat.Lib.Std LightLivechat.Lib.Runs
open LightLivechat.Room (Heap Ref Participant Room TrackKind addTrack_of_registered not_any_of_new
  registered_iff)

def trackIdOf (userId : String) (n : Nat) : String := userId ++ "_" ++ toString n

/-- The numbers of the entries that are registered.  Every entry whose kind is known takes
a number, from `n` on, also where its SSRC is registered already. -/
def newNumbers : List U32 → Nat → List PublishTrackItem → List Nat
  | _, _, [] => []
  | own, n, t :: ts =>
    match trackKind t.kind with
    | none => newNumbers own n ts
    | some _ =>
      if own.contains t.ssrc then newNumbers own (n + 1) ts
      else n :: newNumbers (own ++ [t.ssrc]) (n + 1) ts

def trackIds (p : Participant) : List String := p.tracks.map fun t => t.trackId

section

variable {own : List U32} {n : Nat} {userId : String}

theorem toString_injective {m n : Nat} (h : toString m = toString n) : m = n := by
  have hdigits : Nat.toDigits 10 m = Nat.toDigits 10 n := by
    simpa using congrArg String.toList h
  have hvalue := congrArg (fun cs => Nat.ofDigitChars 10 cs 0) hdigits
  simpa using hvalue

theorem trackIdOf_injective (userId : String) : Function.Injective (trackIdOf userId) :=
  fun _ _ h => toString_injective ((String.append_right_inj _).mp h)

theorem newNumbers_bounded {items : List PublishTrackItem} :
    ∀ k ∈ newNumbers own n items, n ≤ k := by
  induction items generalizing own n with
  | nil => simp [newNumbers]
  | cons t items ih =>
    unfold newNumbers
    cases trackKind t.kind with
    | none => exact ih
    | some kind =>
      dsimp only
      split
      · exact fun k hk => Nat.le_of_succ_le (ih k hk)
      · exact List.forall_mem_cons.mpr ⟨Nat.le_refl n, fun k hk => Nat.le_of_succ_le (ih k hk)⟩

theorem newNumbers_nodup (items : List PublishTrackItem) : (newNumbers own n items).Nodup := by
  induction items generalizing own n with
  | nil => exact List.nodup_nil
  | cons t items ih =>
    unfold newNumbers
    cases trackKind t.kind with
    | none => exact ih
    | some kind =>
      dsimp only
      split
      · exact ih
      · exact List.nodup_cons.mpr ⟨fun h => Nat.not_succ_le_self n (newNumbers_bounded n h), ih⟩

theorem addTrack_ids {p : Participant} {ssrc : U32} (h : p.registered ssrc = false)
    (kind : TrackKind) (id : String) :
    trackIds (p.addTrack ssrc kind id) = trackIds p ++ [id] ∧
      ((p.addTrack ssrc kind id).tracks.map fun t => t.ssrc) =
        (p.tracks.map fun t => t.ssrc) ++ [ssrc] := by
  simp only [Participant.addTrack, if_neg (not_any_of_new h)]
  cases kind <;> simp [trackIds]

theorem foldl_publishTrack_trackIds (items : List PublishTrackItem) (p : Participant)
    (infos : List TrackInfo) : trackIds (items.foldl (publishTrack userId) (p, n, infos)).1 =
      trackIds p ++ (newNumbers (p.tracks.map fun t => t.ssrc) n items).map (trackIdOf userId) := by
  induction items generalizing p n infos with
  | nil => exact (List.append_nil _).symm
  | cons t items ih =>
    rw [List.foldl_cons]
    unfold newNumbers
    cases hkind : trackKind t.kind with
    | none =>
      rw [publishTrack_of_none hkind]
      exact ih p infos
    | some kind =>
      obtain ⟨infos', hpublish⟩ : ∃ infos', publishTrack userId (p, n, infos) t =
          (p.addTrack t.ssrc kind (trackIdOf userId n), n + 1, infos') :=
        publishTrack_of_some hkind p n infos
      rw [hpublish, ih]
      cases hreg : p.registered t.ssrc with
      | true =>
        have hown := List.contains_iff_mem.mpr (registered_iff.mp hreg)
        simp only [addTrack_of_registered hreg, if_pos hown]
      | false =>
        have hown : ¬ (p.tracks.map fun t => t.ssrc).contains t.ssrc := fun h => by
          rw [registered_iff.mpr (List.contains_iff_mem.mp h)] at hreg
          cases hreg
        obtain ⟨hids, hssrcs⟩ := addTrack_ids hreg kind (trackIdOf userId n)
        simp only [if_neg hown, hids, hssrcs, List.map_cons, List.append_assoc, List.cons_append,
          List.nil_append]

theorem nodup_append_map_iff {ids : List String} {numbers : List Nat} (hn : numbers.Nodup) :
    (ids ++ numbers.map (trackIdOf userId)).Nodup ↔
      ids.Nodup ∧ ∀ k ∈ numbers, trackIdOf userId k ∉ ids := by
  rw [List.nodup_append, and_iff_right (hn.map (trackIdOf_injective userId))]
  refine and_congr_right fun _ => ?_
  simp only [List.forall_mem_map]
  exact ⟨fun h k hk hmem => h _ hmem k hk rfl, fun h a ha k hk heq => h k hk (heq ▸ ha)⟩

end

/-- No track that a request adds to the participant gets the id of one it has. -/
def FreeNumbers (s : AppState) (session : Session) (p : Ref) : Request → Prop
  | .publishTracks tracks => ∀ room userId, currentParticipant session s = .ok (room, userId, p) →
    ∀ k ∈ newNumbers ((s.heap p).tracks.map fun t => t.ssrc) (s.heap p).tracks.length tracks,
      trackIdOf userId k ∉ trackIds (s.heap p)
  | _ => True

section

variable {draws : Draws} {sid : SessionId} {s s' : AppState} {session session' : Session}
variable {userId : String} {r : Request}

theorem freeNumbers_of_ne {p : Ref} (hr : ∀ tracks, r ≠ .publishTracks tracks) :
    FreeNumbers s session p r := by
  cases r <;> first | trivial | exact absurd rfl (hr _)

theorem SameTracks.nodup_trackIds (h : SameTracks s s') {p : Ref}
    (hd : (trackIds (s.heap p)).Nodup) : (trackIds (s'.heap p)).Nodup := by
  by_cases hnew : s.next ≤ p ∧ p < s'.next
  · rw [trackIds, h.fresh hnew.1 hnew.2]
    exact List.nodup_nil
  · rwa [trackIds, h.old (fun t => t.trackId) (fun _ _ => rfl) hnew]

theorem Handled.nodup_trackIds_iff (h : Handled draws sid s session userId r s' session') {p : Ref}
    (hd : (trackIds (s.heap p)).Nodup) :
    (trackIds (s'.heap p)).Nodup ↔ FreeNumbers s session p r := by
  by_cases hr : ∀ tracks, r ≠ .publishTracks tracks
  · exact iff_of_true ((h.sameTracks hr).nodup_trackIds hd) (freeNumbers_of_ne hr)
  · obtain ⟨tracks, rfl⟩ := not_forall_not.mp hr
    cases h with
    | same hr => cases hr
    | floorChanged hr => simp at hr
    | notPublished herr =>
      refine iff_of_true hd fun room userId hok => ?_
      cases herr.symm.trans hok
    | @published _ _ _ q _ hok =>
      dsimp only
      by_cases hp : p = q
      · subst hp
        rw [Heap.update_same, foldl_publishTrack_trackIds,
          nodup_append_map_iff (newNumbers_nodup tracks), and_iff_right hd]
        constructor
        · intro h room userId hok'
          cases hok.symm.trans hok'
          exact h
        · exact fun h => h _ _ hok
      · rw [Heap.update_of_ne hp]
        refine iff_of_true hd fun room userId hok' => ?_
        cases hok.symm.trans hok'
        exact absurd rfl hp

end

namespace Server

variable {s s' : Server} {l : Label} {p : Ref}

/-- A packet that publishes adds no track with an id the participant has. -/
def CountsFree (p : Ref) (s : Server) : Label → Prop
  | .packet sid packet _ => ∀ session r, s.sessions sid = some session →
    packet.reaches session = some r → FreeNumbers s.toAppState session p r
  | _ => True

theorem nodup_trackIds_step (hd : (trackIds (s.heap p)).Nodup) (h : s.step l = some s') :
    (trackIds (s'.heap p)).Nodup ↔ s.CountsFree p l := by
  cases l with
  | packet sid packet draws =>
    obtain ⟨session, hsession, -, ⟨hnot, rfl⟩ | ⟨r, state, session', hreach, hhandled, rfl⟩⟩ :=
      step_packet h
    · refine iff_of_true hd fun session' r hsession' hreach => ?_
      cases hsession.symm.trans hsession'
      cases hnot.symm.trans hreach
    · refine Iff.trans (hhandled.nodup_trackIds_iff hd) ⟨fun h session₁ r₁ hs hr => ?_, fun h => ?_⟩
      · cases hsession.symm.trans hs
        cases hreach.symm.trans hr
        exact h
      · exact h session r hsession hreach
  | disconnect | floorTimer | zombieReaper | latch | touch =>
    exact iff_of_true ((step_sameTracks h (by simp)).nodup_trackIds hd) trivial

/-- The ids of a participant's tracks stay distinct just as long as every request counts
numbers that are free. -/
theorem trackIds_stay_distinct_iff {draws : Fin 3 → Draws} {labels : List Label}
    (hrun : run step (start draws) labels = some s) (p : Ref) :
    Always step (fun s => (trackIds (s.heap p)).Nodup) (start draws) labels ↔
      Along step (CountsFree p) (start draws) labels :=
  always_iff_along (I := fun _ => True)
    (fun _ _ _ _ hd h => ⟨trivial, nodup_trackIds_step hd h⟩) trivial List.nodup_nil hrun

/-- Two entries with one SSRC leave a gap, and the numbers after it are free. -/
theorem trackIds_stay_distinct_iff_gap : Always step (fun s => (trackIds (s.heap 0)).Nodup)
    (start bootDraws) [ask 0 "b1" (.identify "" (some "bob")), ask 0 "b2" (.roomJoin "walkie"),
      ask 0 "b3" (.publishTracks [⟨"audio", 1⟩, ⟨"audio", 1⟩, ⟨"audio", 2⟩])] := by
  refine (trackIds_stay_distinct_iff rfl 0).mpr ⟨fun session r hs hr => ?_, fun s h => ?_⟩
  · cases hs
    cases hr
    trivial
  cases h
  refine ⟨fun session r hs hr => ?_, fun s h => ?_⟩
  · cases hs
    cases hr
    trivial
  cases h
  refine ⟨fun session r hs hr => ?_, fun _ _ => trivial⟩
  cases hs
  cases hr
  exact fun room userId _ k _ => List.not_mem_nil

/-- An SSRC sent again takes a number too; the next request starts below it. -/
theorem ignored_entry_takes_number :
    ¬ ∀ draws labels s p, run step (start draws) labels = some s →
      (trackIds (s.heap p)).Nodup := by
  intro h
  obtain ⟨s, hrun, hids⟩ : ∃ s, run step (start bootDraws)
      [ask 0 "b1" (.identify "" (some "bob")), ask 0 "b2" (.roomJoin "walkie"),
        ask 0 "b3" (.publishTracks [⟨"audio", 1⟩]),
        ask 0 "b4" (.publishTracks [⟨"audio", 1⟩, ⟨"audio", 2⟩]),
        ask 0 "b5" (.publishTracks [⟨"audio", 3⟩])] = some s ∧
      trackIds (s.heap 0) = ["bob_0", "bob_2", "bob_2"] := ⟨_, rfl, by decide⟩
  have hnodup := h _ _ s 0 hrun
  rw [hids] at hnodup
  exact absurd hnodup (by decide)

end Server

end LightLivechat.Signaling
