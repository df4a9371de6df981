import LightLivechat.Signaling.Scene

/-! When what the members see of a room stays what the room is. -/

namespace LightLivechat.Signaling

open LightLivechat.Config LightLivechat.Lib.Bytes
open LightLivechat.Room (Ref Participant Track TrackKind muteTrack_eq_map)

namespace View

variable {view : View} {news : List Message} {i : TrackInfo} {muted b : Bool} {userId : String}
variable {ssrc : U32} {infos : List TrackInfo}

theorem foldl_see_tracks (h : ∀ m ∈ news, m.speaker.isSome) :
    (news.foldl see view).tracks = view.tracks := by
  induction news generalizing view with
  | nil => rfl
  | cons m news ih =>
    obtain ⟨speaker, hm⟩ := Option.isSome_iff_exists.mp (h m List.mem_cons_self)
    rw [List.foldl_cons, see_of_speaker hm, ih fun m hm => h m (List.mem_cons_of_mem _ hm)]

theorem mem_see_trackState (kind : TrackKind) :
    (i, muted) ∈ (view.see (.event (.trackState userId ssrc kind b))).tracks ↔
      if i.userId = userId ∧ i.ssrc = ssrc then muted = b ∧ ∃ m, (i, m) ∈ view.tracks
      else (i, muted) ∈ view.tracks := by
  simp only [see, List.mem_map, Prod.mk.injEq, Prod.exists]
  constructor
  · rintro ⟨i', m, hm, rfl, rfl⟩
    split
    · exact ⟨rfl, m, hm⟩
    · exact hm
  · split
    · rintro ⟨rfl, m, hm⟩
      exact ⟨i, m, hm, rfl, if_pos ‹_›⟩
    · intro hm
      exact ⟨i, muted, hm, rfl, if_neg ‹_›⟩

theorem exists_see_trackState (kind : TrackKind) :
    (∃ muted, (i, muted) ∈ (view.see (.event (.trackState userId ssrc kind b))).tracks) ↔
      ∃ muted, (i, muted) ∈ view.tracks := by
  simp only [mem_see_trackState kind]
  by_cases h : i.userId = userId ∧ i.ssrc = ssrc
  · simp [h]
  · simp [h]

theorem foldl_see_add (infos : List TrackInfo) (view : View) :
    (if infos = [] then [] else [.event (.tracksUpdate .add infos)]).foldl see view =
      { view with tracks := view.tracks ++ infos.map fun t => (t, false) } := by
  by_cases h : infos = []
  · simp [h]
  · simp [h, see]

end View

namespace Scene

variable {S S' : Scene} {told news : Ref → List Message} {r u roomId : String} {p q : Ref}
variable {i : TrackInfo} {messages : List Message} {infos : List TrackInfo} {new : List Track}
variable {info : JoinInfo}

theorem others_congr (hoccupant : S'.occupant = S.occupant)
    (htracks : ∀ u p, (S'.tracks p).map (trackInfo u) = (S.tracks p).map (trackInfo u)) :
    S'.Others r u i ↔ S.Others r u i := by
  simp only [Others, hoccupant, htracks]

theorem others_update {tracks : List Track}
    (h : ∀ u, tracks.map (trackInfo u) = (S.tracks p).map (trackInfo u)) :
    Others { S with tracks := Function.update S.tracks p tracks } r u i ↔ S.Others r u i := by
  refine others_congr rfl fun u q => ?_
  dsimp only
  rw [Function.update_apply]
  split
  · subst_vars
    exact h u
  · rfl

theorem idle_or_removes {gone : Ref → Prop} {m : Message}
    (h : m.IsIdle ∨ ∃ u' p, S.occupant r u' = some p ∧ gone p ∧
      m = .event (.tracksUpdate .remove ((S.tracks p).map (trackInfo u')))) :
    m.IsIdle ∨ ∃ tracks, m = .event (.tracksUpdate .remove tracks) := by
  obtain h | ⟨u', p, -, -, h⟩ := h
  · exact .inl h
  · exact .inr ⟨_, h⟩

theorem Others.mem (h : S.Others r u i) (hp : S.occupant r i.userId = some p) :
    i ∈ (S.tracks p).map (trackInfo i.userId) := by
  obtain ⟨u', p', -, hp', hi⟩ := h
  obtain ⟨t, ht, rfl⟩ := List.mem_map.mp hi
  cases hp'.symm.trans hp
  exact hi

theorem Proper.update {tracks : List Track} (hS : S.Proper)
    (h : (tracks.map fun t => t.ssrc).Nodup) :
    Proper { S with tracks := Function.update S.tracks p tracks } where
  home := hS.home
  distinct := fun q => by
    dsimp only
    rw [Function.update_apply]
    split
    · exact h
    · exact hS.distinct q

theorem map_muteTrack {tracks tracks' : List Track} {ssrc : U32} {muted : Bool} {kind : TrackKind}
    (h : Participant.muteTrack ssrc muted tracks = some (tracks', kind))
    (hd : (tracks.map fun t => t.ssrc).Nodup) {β : Type} (f : Track → β)
    (hf : ∀ t, f { t with muted := muted } = f t) : tracks'.map f = tracks.map f := by
  rw [muteTrack_eq_map h hd, List.map_map]
  refine List.map_congr_left fun t _ => ?_
  rw [Function.comp_apply]
  split
  · exact hf t
  · rfl

namespace Said

variable {speaker : Option String}

theorem view_tracks (h : S.Said news r speaker) (told : Ref → List Message) {r' u : String} {q : Ref}
    (hq : S.occupant r' u = some q) :
    (View.of (told q ++ news q)).tracks = (View.of (told q)).tracks := by
  rw [View.of_append]
  refine View.foldl_see_tracks fun m hm => ?_
  by_cases hr : r' = r
  · subst hr
    rw [h.here hq m hm]
    rfl
  · rw [h.other hr hq] at hm
    cases hm

theorem tracksSeen (h : S.Said news r speaker) (hseen : S.TracksSeen told) :
    TracksSeen { S with speaker := Function.update S.speaker r speaker }
      fun q => told q ++ news q := by
  intro r' u q hq i
  rw [h.view_tracks told hq]
  exact hseen hq

theorem flagsSeen (h : S.Said news r speaker) (hseen : S.FlagsSeen told) :
    FlagsSeen { S with speaker := Function.update S.speaker r speaker }
      fun q => told q ++ news q := by
  intro r' u q u' p t muted hq hne hp ht hm
  rw [h.view_tracks told hq] at hm
  exact hseen hq hne hp ht hm

theorem speakerSeen (h : S.Said news r speaker) (hseen : S.SpeakerSeen told)
    (hheard : ∀ {u q}, S.occupant r u = some q → news q ≠ [] ∨ S.speaker r = speaker) :
    SpeakerSeen { S with speaker := Function.update S.speaker r speaker }
      fun q => told q ++ news q := by
  intro r' u q hq
  rw [View.of_append]
  by_cases hr : r' = r
  · subst hr
    rw [View.foldl_see_speaker (h.here hq) ((hheard hq).imp_right (hseen hq).trans)]
    exact (Function.update_self r' speaker S.speaker).symm
  · rw [h.other hr hq]
    exact (hseen hq).trans (Function.update_of_ne hr speaker S.speaker).symm

end Said

namespace Routine

theorem proper (h : S.Routine news S') (hS : S.Proper) : S'.Proper := by
  cases h with
  | idle => exact hS
  | muted hp hmute =>
    refine hS.update ?_
    rw [map_muteTrack hmute (hS.distinct _) (fun t => t.ssrc) fun _ => rfl]
    exact hS.distinct _
  | said => exact ⟨hS.home, hS.distinct⟩
  | departed htracks _ hoccupant =>
    exact ⟨fun h h' => hS.home (hoccupant.mp h).1 (hoccupant.mp h').1, htracks ▸ hS.distinct⟩

theorem tracksSeen (h : S.Routine news S') (hS : S.Proper) (hseen : S.TracksSeen told) :
    S'.TracksSeen fun q => told q ++ news q := by
  intro r u q hq i
  cases h with
  | idle hnews =>
    rw [View.of_append, View.foldl_see_idle (hnews hq)]
    exact hseen hq
  | @muted r₀ u₀ p₀ ssrc b tracks kind hp hmute hnews =>
    rw [View.of_append,
      others_update fun u => map_muteTrack hmute (hS.distinct _) (trackInfo u) fun _ => rfl,
      ← hseen hq, hnews hq]
    split
    · exact View.exists_see_trackState kind
    · rfl
  | said h => exact h.tracksSeen hseen hq
  | departed htracks hspeaker hoccupant hnews hall =>
    obtain ⟨-, hkept⟩ := View.foldl_see_remove (View.of (told q)) fun m hm =>
      idle_or_removes (hnews hq m hm)
    simp only [View.of_append, hkept, exists_and_right, hseen (hoccupant.mp hq).1]
    constructor
    · rintro ⟨⟨u', p, hne, hp, hi⟩, hleft⟩
      refine ⟨u', p, hne, hoccupant.mpr ⟨hp, fun hgone => ?_⟩, htracks ▸ hi⟩
      exact hleft _ (hall hq hp hgone fun h => by simp [h] at hi) hi
    · rintro ⟨u', p, hne, hp', hi⟩
      obtain ⟨hp, hstays⟩ := hoccupant.mp hp'
      rw [htracks] at hi
      refine ⟨⟨u', p, hne, hp, hi⟩, fun ts hts hits => ?_⟩
      obtain hidle | ⟨u'', p'', hp'', hgone, hm⟩ := hnews hq _ hts
      · exact hidle
      · cases hm
        obtain ⟨t, -, rfl⟩ := List.mem_map.mp hi
        obtain ⟨t', -, ht'⟩ := List.mem_map.mp hits
        obtain rfl : u'' = u' := congrArg TrackInfo.userId ht'
        cases hp.symm.trans hp''
        exact hstays hgone

theorem flagsSeen (h : S.Routine news S') (hS : S.Proper) (hseen : S.FlagsSeen told) :
    S'.FlagsSeen fun q => told q ++ news q := by
  intro r u q u' p t muted hq hne hp ht hm
  cases h with
  | idle hnews =>
    rw [View.of_append, View.foldl_see_idle (hnews hq)] at hm
    exact hseen hq hne hp ht hm
  | @muted r₀ u₀ p₀ ssrc b tracks kind hp₀ hmute hnews =>
    rw [View.of_append, hnews hq] at hm
    dsimp only at hp ht
    by_cases hpp : p = p₀
    · subst hpp
      obtain ⟨rfl, rfl⟩ := hS.home hp hp₀
      rw [Function.update_self, muteTrack_eq_map hmute (hS.distinct _)] at ht
      obtain ⟨t, ht₀, rfl⟩ := List.mem_map.mp ht
      rw [if_pos ⟨rfl, fun h => hne (Option.some.inj h)⟩] at hm
      replace hm := (View.mem_see_trackState kind).mp hm
      by_cases hssrc : t.ssrc = ssrc
      · simp only [if_pos hssrc] at hm ⊢
        rw [if_pos ⟨rfl, hssrc⟩] at hm
        exact hm.1
      · simp only [if_neg hssrc] at hm ⊢
        rw [if_neg fun h => hssrc h.2] at hm
        exact hseen hq hne hp ht₀ hm
    · rw [Function.update_of_ne hpp] at ht
      split at hm
      · rename_i hhere
        replace hm := (View.mem_see_trackState kind).mp hm
        rw [if_neg] at hm
        · exact hseen hq hne hp ht hm
        · rintro ⟨rfl, -⟩
          obtain ⟨rfl, -⟩ := hhere
          exact hpp (Option.some.inj (hp.symm.trans hp₀))
      · exact hseen hq hne hp ht hm
  | said h => exact h.flagsSeen hseen hq hne hp ht hm
  | departed htracks hspeaker hoccupant hnews hall =>
    obtain ⟨-, hkept⟩ := View.foldl_see_remove (View.of (told q)) fun m hm =>
      idle_or_removes (hnews hq m hm)
    rw [htracks] at ht
    rw [View.of_append] at hm
    exact hseen (hoccupant.mp hq).1 hne (hoccupant.mp hp).1 ht ((hkept _).mp hm).1

theorem speakerSeen (h : S.Routine news S') (hseen : S.SpeakerSeen told) :
    S'.SpeakerSeen fun q => told q ++ news q := by
  intro r u q hq
  cases h with
  | idle hnews =>
    rw [View.of_append, View.foldl_see_idle (hnews hq)]
    exact hseen hq
  | muted hp hmute hnews =>
    rw [View.of_append, hnews hq]
    split
    · exact hseen hq
    · exact hseen hq
  | said h hheard => exact h.speakerSeen hseen hheard hq
  | departed htracks hspeaker hoccupant hnews hall =>
    obtain ⟨hkept, -⟩ := View.foldl_see_remove (View.of (told q)) fun m hm =>
      idle_or_removes (hnews hq m hm)
    rw [View.of_append, hkept, hspeaker]
    exact hseen (hoccupant.mp hq).1

end Routine

theorem Story.keeps {P : Scene → (Ref → List Message) → Prop}
    (hstep : ∀ {S news S' told}, Routine S news S' → P S told → P S' fun q => told q ++ news q)
    (h : Story S news S') (hP : P S told) : P S' fun q => told q ++ news q := by
  induction h generalizing told with
  | nil => simpa only [List.append_nil] using hP
  | cons h _ ih => simpa only [List.append_assoc] using ih (hstep h hP)

theorem Story.of (h : S.Routine news S') : S.Story news S' := by
  have hstory : S.Story (fun q => news q ++ []) S' := .cons h .nil
  simpa only [List.append_nil] using hstory

theorem Story.append {S₁ : Scene} {news' : Ref → List Message} (h : S.Story news S₁)
    (h' : S₁.Story news' S') : S.Story (fun q => news q ++ news' q) S' := by
  induction h with
  | nil => exact h'
  | cons h _ ih => simpa only [List.append_assoc] using Story.cons h (ih h')

theorem Story.proper (h : S.Story news S') (hS : S.Proper) : S'.Proper := by
  induction h with
  | nil => exact hS
  | cons h _ ih => exact ih (h.proper hS)

theorem Story.tracksSeen (h : S.Story news S') (hS : S.Proper) (hseen : S.TracksSeen told) :
    S'.TracksSeen fun q => told q ++ news q :=
  (h.keeps (P := fun S told => S.Proper ∧ S.TracksSeen told)
    (fun h hP => ⟨h.proper hP.1, h.tracksSeen hP.1 hP.2⟩) ⟨hS, hseen⟩).2

theorem Story.flagsSeen (h : S.Story news S') (hS : S.Proper) (hseen : S.FlagsSeen told) :
    S'.FlagsSeen fun q => told q ++ news q :=
  (h.keeps (P := fun S told => S.Proper ∧ S.FlagsSeen told)
    (fun h hP => ⟨h.proper hP.1, h.flagsSeen hP.1 hP.2⟩) ⟨hS, hseen⟩).2

theorem Story.speakerSeen (h : S.Story news S') (hseen : S.SpeakerSeen told) :
    S'.SpeakerSeen fun q => told q ++ news q :=
  h.keeps (P := fun S told => S.SpeakerSeen told) (fun h hP => h.speakerSeen hP) hseen

namespace Joined

theorem occupant_iff (h : S.Joined news S' r u p info) {r' u' : String} {q : Ref} :
    S'.occupant r' u' = some q ↔ r' = r ∧ u' = u ∧ q = p ∨ S.occupant r' u' = some q := by
  simp only [h.scene]
  split
  · rename_i hhere
    obtain ⟨rfl, rfl⟩ := hhere
    simp [h.free, eq_comm]
  · rename_i hhere
    rw [← and_assoc, or_iff_right fun hh => hhere hh.1]

theorem tracks_of_occupant (h : S.Joined news S' r u p info) {r' u' : String} {q : Ref}
    (hq : S.occupant r' u' = some q) : S'.tracks q = S.tracks q := by
  have hne : q ≠ p := by
    rintro rfl
    exact h.new hq
  rw [h.scene]
  exact Function.update_of_ne hne _ _

theorem others_iff (h : S.Joined news S' r u p info) {r' u' : String} :
    S'.Others r' u' i ↔ S.Others r' u' i := by
  constructor
  · rintro ⟨u'', q, hne, hq, hi⟩
    obtain ⟨rfl, rfl, rfl⟩ | hq := h.occupant_iff.mp hq
    · simp [h.scene] at hi
    · rw [h.tracks_of_occupant hq] at hi
      exact ⟨u'', q, hne, hq, hi⟩
  · rintro ⟨u'', q, hne, hq, hi⟩
    refine ⟨u'', q, hne, h.occupant_iff.mpr (.inr hq), ?_⟩
    rw [h.tracks_of_occupant hq]
    exact hi

theorem view_own (h : S.Joined news S' r u p info) (told : Ref → List Message) :
    View.of (told p ++ news p) = ⟨info.tracks.map fun t => (t, false), none⟩ := by
  rw [View.of_append, h.own]
  rfl

theorem view_others (h : S.Joined news S' r u p info) (told : Ref → List Message) {r' u' : String}
    {q : Ref} (hq : S.occupant r' u' = some q) :
    View.of (told q ++ news q) = View.of (told q) := by
  rw [View.of_append, View.foldl_see_idle (h.others hq)]

theorem proper (h : S.Joined news S' r u p info) (hS : S.Proper) : S'.Proper := by
  refine ⟨fun {r₁ u₁ r₂ u₂ q} h₁ h₂ => ?_, fun q => ?_⟩
  · obtain ⟨rfl, rfl, rfl⟩ | h₁ := h.occupant_iff.mp h₁
    · obtain ⟨rfl, rfl, -⟩ | h₂ := h.occupant_iff.mp h₂
      · exact ⟨rfl, rfl⟩
      · exact absurd h₂ h.new
    · obtain ⟨rfl, rfl, rfl⟩ | h₂ := h.occupant_iff.mp h₂
      · exact absurd h₁ h.new
      · exact hS.home h₁ h₂
  · rw [h.scene]
    dsimp only
    rw [Function.update_apply]
    split
    · exact List.nodup_nil
    · exact hS.distinct q

theorem tracksSeen (h : S.Joined news S' r u p info) (hseen : S.TracksSeen told) :
    S'.TracksSeen fun q => told q ++ news q := by
  intro r' u' q hq i
  rw [h.others_iff]
  obtain ⟨rfl, rfl, rfl⟩ | hq := h.occupant_iff.mp hq
  · rw [h.view_own, ← h.tracks]
    simp
  · rw [h.view_others told hq]
    exact hseen hq

/-- The answer to a join has to be right about what it does not say. -/
theorem flagsSeen (h : S.Joined news S' r u p info) (hseen : S.FlagsSeen told)
    (hmuted : ∀ {u q t}, S.occupant r u = some q → t ∈ S.tracks q → t.muted = false) :
    S'.FlagsSeen fun q => told q ++ news q := by
  intro r' u' q u'' p' t muted hq hne hp ht hm
  obtain ⟨rfl, rfl, rfl⟩ | hp := h.occupant_iff.mp hp
  · simp [h.scene] at ht
  · rw [h.tracks_of_occupant hp] at ht
    obtain ⟨rfl, rfl, rfl⟩ | hq := h.occupant_iff.mp hq
    · rw [h.view_own] at hm
      obtain ⟨i, -, hi⟩ := List.mem_map.mp hm
      cases hi
      exact (hmuted hp ht).symm
    · rw [h.view_others told hq] at hm
      exact hseen hq hne hp ht hm

theorem speakerSeen (h : S.Joined news S' r u p info) (hseen : S.SpeakerSeen told)
    (hidle : S.speaker r = none) : S'.SpeakerSeen fun q => told q ++ news q := by
  intro r' u' q hq
  have hspeaker : S'.speaker = S.speaker := by rw [h.scene]
  rw [hspeaker]
  obtain ⟨rfl, rfl, rfl⟩ | hq := h.occupant_iff.mp hq
  · rw [h.view_own, hidle]
  · rw [h.view_others told hq]
    exact hseen hq

end Joined

namespace Published

theorem occupant_eq (h : S.Published news S' r u p infos new) : S'.occupant = S.occupant := by
  rw [h.scene]

theorem tracks_self (h : S.Published news S' r u p infos new) : S'.tracks p = S.tracks p ++ new := by
  rw [h.scene]
  exact Function.update_self ..

theorem tracks_of_ne (h : S.Published news S' r u p infos new) (hq : q ≠ p) :
    S'.tracks q = S.tracks q := by
  rw [h.scene]
  exact Function.update_of_ne hq _ _

theorem proper (h : S.Published news S' r u p infos new) (hS : S.Proper) : S'.Proper := by
  rw [h.scene]
  exact hS.update h.distinct

theorem ssrc_ne (h : S.Published news S' r u p infos new) {t t' : Track} (ht : t ∈ S.tracks p)
    (ht' : t' ∈ new) : t.ssrc ≠ t'.ssrc := by
  have hd := h.distinct
  rw [List.map_append] at hd
  exact fun he => List.disjoint_of_nodup_append hd (List.mem_map_of_mem ht)
    (he ▸ List.mem_map_of_mem ht')

theorem others_iff (h : S.Published news S' r u p infos new) (hS : S.Proper) {r' u' : String} :
    S'.Others r' u' i ↔ S.Others r' u' i ∨ r' = r ∧ u' ≠ u ∧ i ∈ new.map (trackInfo u) := by
  simp only [Others, h.occupant_eq]
  constructor
  · rintro ⟨u'', q, hne, hq, hi⟩
    by_cases hqp : q = p
    · subst hqp
      obtain ⟨rfl, rfl⟩ := hS.home hq h.occupant
      rw [h.tracks_self, List.map_append, List.mem_append] at hi
      exact hi.imp (fun hi => ⟨u'', q, hne, hq, hi⟩) fun hi => ⟨rfl, hne.symm, hi⟩
    · rw [h.tracks_of_ne hqp] at hi
      exact .inl ⟨u'', q, hne, hq, hi⟩
  · rintro (⟨u'', q, hne, hq, hi⟩ | ⟨rfl, hne, hi⟩)
    · refine ⟨u'', q, hne, hq, ?_⟩
      by_cases hqp : q = p
      · subst hqp
        rw [h.tracks_self, List.map_append]
        exact List.mem_append_left _ hi
      · rw [h.tracks_of_ne hqp]
        exact hi
    · refine ⟨u, p, hne.symm, h.occupant, ?_⟩
      rw [h.tracks_self, List.map_append]
      exact List.mem_append_right _ hi

theorem view_eq (h : S.Published news S' r u p infos new) (told : Ref → List Message)
    {r' u' : String} (hq : S.occupant r' u' = some q) : View.of (told q ++ news q) =
      if r' = r ∧ u' ≠ u then
        { View.of (told q) with
          tracks := (View.of (told q)).tracks ++ infos.map fun t => (t, false) }
      else View.of (told q) := by
  rw [View.of_append, h.told hq]
  by_cases hhere : r' = r ∧ u' ≠ u
  · rw [if_pos hhere, if_pos ⟨hhere.1, fun he => hhere.2 (Option.some.inj he).symm⟩]
    exact View.foldl_see_add infos _
  · rw [if_neg hhere, if_neg fun hh => hhere ⟨hh.1, fun he => hh.2 (congrArg some he.symm)⟩]
    rfl

theorem exists_view_iff (h : S.Published news S' r u p infos new) (hseen : S.TracksSeen told)
    {r' u' : String} (hq : S.occupant r' u' = some q) :
    (∃ muted, (i, muted) ∈ (View.of (told q ++ news q)).tracks) ↔
      S.Others r' u' i ∨ r' = r ∧ u' ≠ u ∧ i ∈ infos := by
  rw [h.view_eq told hq, ← hseen hq]
  by_cases hhere : r' = r ∧ u' ≠ u
  · simp [hhere, exists_or]
  · simp only [if_neg hhere]
    rw [← and_assoc]
    exact (or_iff_left fun hh => hhere hh.1).symm

/-- What is announced has to be what is registered, unless there is nobody to hear of it. -/
theorem tracksSeen_iff (h : S.Published news S' r u p infos new) (hS : S.Proper)
    (hseen : S.TracksSeen told) : (S'.TracksSeen fun q => told q ++ news q) ↔
      (∀ {u' q}, S.occupant r u' = some q → u' = u) ∨
      ∀ i ∈ infos, i ∈ (S.tracks p ++ new).map (trackInfo u) := by
  constructor
  · intro hseen'
    by_contra! hnot
    obtain ⟨⟨u', q, hq, hne⟩, i, hi, hstray⟩ := hnot
    have hview := (h.exists_view_iff hseen hq).mpr (.inr ⟨rfl, hne, hi⟩)
    have hothers := (hseen' (h.occupant_eq ▸ hq)).mp hview
    rw [List.map_append, List.mem_append, not_or] at hstray
    obtain hold | ⟨-, -, hnew⟩ := (h.others_iff hS).mp hothers
    · have howner := h.owned i hi
      subst howner
      exact hstray.1 (hold.mem h.occupant)
    · exact hstray.2 hnew
  · intro hcond r' u' q hq i
    rw [h.occupant_eq] at hq
    rw [h.exists_view_iff hseen hq, h.others_iff hS]
    constructor
    · rintro (hold | ⟨rfl, hne, hi⟩)
      · exact .inl hold
      · obtain halone | htrue := hcond
        · exact absurd (halone hq) hne
        · have hmem := htrue i hi
          rw [List.map_append, List.mem_append] at hmem
          exact hmem.imp (fun hmem => ⟨u, p, hne.symm, h.occupant, hmem⟩) fun hmem => ⟨rfl, hne, hmem⟩
    · refine Or.imp_right fun ⟨hr, hne, hi⟩ => ⟨hr, hne, ?_⟩
      obtain ⟨t, ht, rfl⟩ := List.mem_map.mp hi
      exact h.announced t ht

theorem flagsSeen (h : S.Published news S' r u p infos new) (hS : S.Proper)
    (hseen : S.TracksSeen told) (hflags : S.FlagsSeen told)
    (hnew : ∀ i ∈ infos, i ∈ new.map (trackInfo u)) :
    S'.FlagsSeen fun q => told q ++ news q := by
  intro r' u' q u'' p' t muted hq hne hp ht hm
  rw [h.occupant_eq] at hq hp
  -- A new track has not been announced before, and one registered before is not announced again.
  by_cases hpp : p' = p
  · subst hpp
    obtain ⟨rfl, rfl⟩ := hS.home hp h.occupant
    rw [h.tracks_self, List.mem_append] at ht
    rw [h.view_eq told hq, if_pos ⟨rfl, hne.symm⟩, List.mem_append] at hm
    obtain ht | ht := ht
    · obtain hm | hm := hm
      · exact hflags hq hne hp ht hm
      · obtain ⟨i, hi, hi'⟩ := List.mem_map.mp hm
        cases hi'
        obtain ⟨t', ht', he⟩ := List.mem_map.mp (hnew _ hi)
        exact absurd (congrArg TrackInfo.ssrc he).symm (h.ssrc_ne ht ht')
    · obtain hm | hm := hm
      · have hold := ((hseen hq).mp ⟨muted, hm⟩).mem h.occupant
        obtain ⟨t', ht', he⟩ := List.mem_map.mp hold
        exact absurd (congrArg TrackInfo.ssrc he) (h.ssrc_ne ht' ht)
      · obtain ⟨i, -, hi⟩ := List.mem_map.mp hm
        cases hi
        exact (h.unmuted t ht).symm
  · rw [h.tracks_of_ne hpp] at ht
    rw [h.view_eq told hq] at hm
    split at hm
    · rename_i hhere
      obtain hm | hm := List.mem_append.mp hm
      · exact hflags hq hne hp ht hm
      · obtain ⟨i, hi, hi'⟩ := List.mem_map.mp hm
        cases hi'
        have howner := h.owned _ hi
        obtain ⟨rfl, -⟩ := hhere
        cases howner
        exact absurd (Option.some.inj (hp.symm.trans h.occupant)) hpp
    · exact hflags hq hne hp ht hm

theorem speakerSeen (h : S.Published news S' r u p infos new) (hseen : S.SpeakerSeen told) :
    S'.SpeakerSeen fun q => told q ++ news q := by
  intro r' u' q hq
  have hspeaker : S'.speaker = S.speaker := by rw [h.scene]
  rw [h.occupant_eq] at hq
  rw [hspeaker, h.view_eq told hq, ← hseen hq]
  split
  · rfl
  · rfl

end Published

end Scene

end LightLivechat.Signaling
