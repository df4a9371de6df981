import LightLivechat.Room.Ssrcs
import LightLivechat.Signaling.Reachable

/-! What a request to publish announces to the others against what it registers. -/

namespace LightLivechat.Signaling

open LightLivechat.Config LightLivechat.Lib.Bytes
open LightLivechat.Room (Participant Track TrackKind addTrack_of_registered registered_iff)

/-- What is announced is what is registered: who publishes a track again announces it as it is.
The publisher has registered `own`, and its next track gets the number `n`. -/
def Faithful (userId : String) : List (U32 × TrackKind × String) → Nat → List PublishTrackItem → Prop
  | _, _, [] => True
  | own, n, t :: ts =>
    match trackKind t.kind with
    | none => Faithful userId own n ts
    | some kind =>
      let entry := (t.ssrc, kind, userId ++ "_" ++ toString n)
      if t.ssrc ∈ own.map fun e => e.1 then entry ∈ own ∧ Faithful userId own (n + 1) ts
      else Faithful userId (own ++ [entry]) (n + 1) ts

/-- Every track to be published has an SSRC that the publisher has not registered. -/
def Fresh : List U32 → List PublishTrackItem → Prop
  | _, [] => True
  | own, t :: ts =>
    match trackKind t.kind with
    | none => Fresh own ts
    | some _ => t.ssrc ∉ own ∧ Fresh (own ++ [t.ssrc]) ts

/-- What decides whether a track announced again is announced as it is. -/
def ownEntry (t : Track) : U32 × TrackKind × String := (t.ssrc, t.kind, t.trackId)

/-- The tracks `new` are registered and `added` is announced, as `items` ask. -/
structure Publishing (userId : String) (x : Participant) (n : Nat) (items : List PublishTrackItem)
    (x' : Participant) (added : List TrackInfo) (new : List Track) : Prop where
  tracks : x'.tracks = x.tracks ++ new
  announced : ∀ t ∈ new, trackInfo userId t ∈ added
  owned : ∀ i ∈ added, i.userId = userId
  unmuted : ∀ t ∈ new, t.muted = false
  distinct : (x.tracks.map fun t => t.ssrc).Nodup → (x'.tracks.map fun t => t.ssrc).Nodup
  faithful : (x.tracks.map fun t => t.ssrc).Nodup →
    ((∀ i ∈ added, i ∈ x'.tracks.map (trackInfo userId)) ↔
      Faithful userId (x.tracks.map ownEntry) n items)
  fresh : Fresh (x.tracks.map fun t => t.ssrc) items → ∀ i ∈ added, i ∈ new.map (trackInfo userId)

section

variable {userId : String} {x : Participant} {n : Nat} {item : PublishTrackItem}
variable {items : List PublishTrackItem} {x' : Participant} {added : List TrackInfo}
variable {new : List Track} {kind : TrackKind}

theorem publishTrack_cases (userId : String) (hkind : trackKind item.kind = some kind) (x : Participant) (n : Nat)
    (infos : List TrackInfo) :
    (∃ t ∈ x.tracks, t.ssrc = item.ssrc ∧ publishTrack userId (x, n, infos) item =
      (x, n + 1, infos ++
        [⟨userId, kind, item.ssrc, userId ++ "_" ++ toString n, t.rtxSsrc⟩])) ∨
    (item.ssrc ∉ x.tracks.map fun t => t.ssrc) ∧ ∃ x' t,
      ownEntry t = (item.ssrc, kind, userId ++ "_" ++ toString n) ∧ t.muted = false ∧
      x'.tracks = x.tracks ++ [t] ∧
      publishTrack userId (x, n, infos) item = (x', n + 1, infos ++ [trackInfo userId t]) := by
  unfold publishTrack
  simp only [hkind]
  cases hreg : x.registered item.ssrc with
  | true =>
    rw [addTrack_of_registered hreg]
    obtain ⟨t, ht⟩ : ∃ t, x.tracks.find? (fun t => t.ssrc = item.ssrc) = some t :=
      Option.isSome_iff_exists.mp (List.find?_isSome.mpr (List.any_eq_true.mp hreg))
    refine .inl ⟨t, List.mem_of_find?_eq_some ht, by simpa using List.find?_some ht, ?_⟩
    rw [ht, Option.bind_some]
  | false =>
    have hnew : item.ssrc ∉ x.tracks.map fun t => t.ssrc := fun h => by
      rw [registered_iff.mpr h] at hreg
      cases hreg
    have hnone : x.tracks.find? (fun t => t.ssrc = item.ssrc) = none := by
      rw [List.find?_eq_none]
      intro t ht he
      exact hnew (List.mem_map.mpr ⟨t, ht, of_decide_eq_true he⟩)
    have hadd : ∃ t, ownEntry t = (item.ssrc, kind, userId ++ "_" ++ toString n) ∧
        t.muted = false ∧
        (x.addTrack item.ssrc kind (userId ++ "_" ++ toString n)).tracks = x.tracks ++ [t] := by
      have hany : ¬ (x.tracks.any fun t => t.ssrc = item.ssrc) = true := by
        simpa [Participant.registered] using hreg
      unfold Participant.addTrack
      rw [if_neg hany]
      cases kind with
      | audio => exact ⟨_, rfl, rfl, rfl⟩
      | video => exact ⟨_, rfl, rfl, rfl⟩
    obtain ⟨t, hentry, hmuted, htracks⟩ := hadd
    refine .inr ⟨hnew, _, t, hentry, hmuted, htracks, ?_⟩
    have hssrc : t.ssrc = item.ssrc := congrArg Prod.fst hentry
    have hkind' : t.kind = kind := congrArg (fun e => e.2.1) hentry
    have hid : t.trackId = userId ++ "_" ++ toString n := congrArg (fun e => e.2.2) hentry
    rw [htracks, List.find?_append, hnone, Option.none_or, List.find?_singleton,
      if_pos (decide_eq_true hssrc), Option.bind_some]
    unfold trackInfo
    rw [hssrc, hkind', hid]

/-- What names a track registered before is registered as it is announced just if it is
announced as it was registered. -/
theorem mem_infos_iff {tracks : List Track} {t : Track} {ssrc : U32} {id : String}
    (hd : (tracks.map fun t => t.ssrc).Nodup) (ht : t ∈ tracks) (hssrc : t.ssrc = ssrc) :
    (⟨userId, kind, ssrc, id, t.rtxSsrc⟩ : TrackInfo) ∈ tracks.map (trackInfo userId) ↔
      ownEntry t = (ssrc, kind, id) := by
  constructor
  · intro h
    obtain ⟨t', ht', he⟩ := List.mem_map.mp h
    have hsame : t' = t := List.inj_on_of_nodup_map hd ht' ht
      ((congrArg TrackInfo.ssrc he).trans hssrc.symm)
    subst hsame
    cases he
    rfl
  · intro h
    cases h
    exact List.mem_map_of_mem ht

theorem Publishing.nil : Publishing userId x n [] x [] [] where
  tracks := (List.append_nil _).symm
  announced := fun _ h => absurd h List.not_mem_nil
  owned := fun _ h => absurd h List.not_mem_nil
  unmuted := fun _ h => absurd h List.not_mem_nil
  distinct := id
  faithful := fun _ => iff_of_true (fun _ h => absurd h List.not_mem_nil) trivial
  fresh := fun _ _ h => absurd h List.not_mem_nil

theorem Publishing.unknown (h : Publishing userId x n items x' added new)
    (hkind : trackKind item.kind = none) : Publishing userId x n (item :: items) x' added new where
  __ := h
  faithful := fun hd => by
    rw [h.faithful hd]
    conv_rhs => unfold Faithful
    rw [hkind]
  fresh := fun hf => h.fresh (by
    unfold Fresh at hf
    rw [hkind] at hf
    exact hf)

theorem Publishing.again (h : Publishing userId x (n + 1) items x' added new)
    (hkind : trackKind item.kind = some kind) {t : Track} (ht : t ∈ x.tracks)
    (hssrc : t.ssrc = item.ssrc) : Publishing userId x n (item :: items) x'
      (⟨userId, kind, item.ssrc, userId ++ "_" ++ toString n, t.rtxSsrc⟩ :: added) new where
  tracks := h.tracks
  announced := fun t ht => List.mem_cons_of_mem _ (h.announced t ht)
  owned := List.forall_mem_cons.mpr ⟨rfl, h.owned⟩
  unmuted := h.unmuted
  distinct := h.distinct
  faithful := fun hd => by
    have hown : item.ssrc ∈ (x.tracks.map ownEntry).map fun e => e.1 :=
      List.mem_map.mpr ⟨_, List.mem_map_of_mem ht, hssrc⟩
    have hentry : ownEntry t = (item.ssrc, kind, userId ++ "_" ++ toString n) ↔
        (item.ssrc, kind, userId ++ "_" ++ toString n) ∈ x.tracks.map ownEntry := by
      constructor
      · intro he
        exact he ▸ List.mem_map_of_mem ht
      · intro he
        obtain ⟨t', ht', he'⟩ := List.mem_map.mp he
        have hsame : t' = t := List.inj_on_of_nodup_map hd ht' ht
          ((congrArg Prod.fst he').trans hssrc.symm)
        exact hsame ▸ he'
    have ht' : t ∈ x'.tracks := h.tracks ▸ List.mem_append_left _ ht
    rw [List.forall_mem_cons, mem_infos_iff (h.distinct hd) ht' hssrc, hentry, h.faithful hd]
    conv_rhs => unfold Faithful
    rw [hkind]
    simp only [if_pos hown]
  fresh := fun hf => by
    unfold Fresh at hf
    rw [hkind] at hf
    exact absurd (List.mem_map.mpr ⟨t, ht, hssrc⟩) hf.1

theorem nodup_ssrcs_append {tracks : List Track} {t : Track} :
    ((tracks ++ [t]).map fun t => t.ssrc).Nodup ↔
      (tracks.map fun t => t.ssrc).Nodup ∧ t.ssrc ∉ tracks.map fun t => t.ssrc := by
  rw [List.map_append, List.map_singleton, List.nodup_append_comm, List.singleton_append,
    List.nodup_cons, and_comm]

theorem Publishing.first {x₁ : Participant} {t : Track}
    (h : Publishing userId x₁ (n + 1) items x' added new)
    (hkind : trackKind item.kind = some kind) (hnew : item.ssrc ∉ x.tracks.map fun t => t.ssrc)
    (hentry : ownEntry t = (item.ssrc, kind, userId ++ "_" ++ toString n)) (hmuted : t.muted = false)
    (htracks : x₁.tracks = x.tracks ++ [t]) :
    Publishing userId x n (item :: items) x' (trackInfo userId t :: added) (t :: new) := by
  have hssrc : t.ssrc = item.ssrc := congrArg Prod.fst hentry
  have hall : x'.tracks = x.tracks ++ t :: new := by
    rw [h.tracks, htracks, List.append_assoc, List.singleton_append]
  have hdistinct : (x.tracks.map fun t => t.ssrc).Nodup → (x₁.tracks.map fun t => t.ssrc).Nodup := by
    intro hd
    rw [htracks, nodup_ssrcs_append, hssrc]
    exact ⟨hd, hnew⟩
  refine ⟨hall, ?_, ?_, ?_, fun hd => h.distinct (hdistinct hd), fun hd => ?_, fun hf => ?_⟩
  · exact List.forall_mem_cons.mpr
      ⟨List.mem_cons_self, fun t ht => List.mem_cons_of_mem _ (h.announced t ht)⟩
  · exact List.forall_mem_cons.mpr ⟨rfl, h.owned⟩
  · exact List.forall_mem_cons.mpr ⟨hmuted, h.unmuted⟩
  · have hown : item.ssrc ∉ (x.tracks.map ownEntry).map fun e => e.1 := by
      rw [List.map_map]
      exact hnew
    have hmem : trackInfo userId t ∈ x'.tracks.map (trackInfo userId) :=
      List.mem_map_of_mem (hall ▸ List.mem_append_right _ List.mem_cons_self)
    rw [List.forall_mem_cons, and_iff_right hmem, h.faithful (hdistinct hd), htracks, List.map_append,
      List.map_singleton, hentry]
    conv_rhs => unfold Faithful
    rw [hkind]
    simp only [if_neg hown]
  · unfold Fresh at hf
    rw [hkind] at hf
    have hrest := h.fresh (by rw [htracks, List.map_append, List.map_singleton, hssrc]; exact hf.2)
    exact List.forall_mem_cons.mpr
      ⟨List.mem_cons_self, fun i hi => List.mem_cons_of_mem _ (hrest i hi)⟩

theorem publishing (userId : String) (items : List PublishTrackItem) (x : Participant) (n : Nat)
    (infos : List TrackInfo) : ∃ x' n' added new,
      items.foldl (publishTrack userId) (x, n, infos) = (x', n', infos ++ added) ∧
      Publishing userId x n items x' added new := by
  induction items generalizing x n infos with
  | nil => exact ⟨x, n, [], [], by rw [List.append_nil]; rfl, .nil⟩
  | cons item items ih =>
    rw [List.foldl_cons]
    cases hkind : trackKind item.kind with
    | none =>
      rw [publishTrack_of_none hkind]
      obtain ⟨x', n', added, new, hfold, h⟩ := ih x n infos
      exact ⟨x', n', added, new, hfold, h.unknown hkind⟩
    | some kind =>
      obtain ⟨t, ht, hssrc, hpublish⟩ | ⟨hnew, x₁, t, hentry, hmuted, htracks, hpublish⟩ :=
        publishTrack_cases userId hkind x n infos
      · rw [hpublish]
        obtain ⟨x', n', added, new, hfold, h⟩ := ih x (n + 1) _
        rw [List.append_assoc] at hfold
        exact ⟨x', n', _, new, hfold, h.again hkind ht hssrc⟩
      · rw [hpublish]
        obtain ⟨x', n', added, new, hfold, h⟩ := ih x₁ (n + 1) _
        rw [List.append_assoc] at hfold
        exact ⟨x', n', _, _, hfold, h.first hkind hnew hentry hmuted htracks⟩

end

end LightLivechat.Signaling
