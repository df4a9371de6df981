import LightLivechat.Room.Removal

/-! The SSRCs in use in a room: those the clients choose and those the server derives
from them for retransmission. -/

set_option linter.dupNamespace false

namespace LightLivechat.Room

open LightLivechat.Lib.Bytes LightLivechat.Lib.Std

def Track.ssrcs (t : Track) : List U32 := t.ssrc :: t.rtxSsrc.toList

def Participant.ssrcs (p : Participant) : List U32 := p.tracks.flatMap fun t => t.ssrcs

def Room.ssrcs (heap : Heap) (room : Room) : List U32 :=
  (DashMap.values room.participants).flatMap fun p => (heap p).ssrcs

section

variable {p : Participant} {ssrc : U32}

theorem registered_iff : p.registered ssrc = true ↔ ssrc ∈ p.tracks.map fun t => t.ssrc := by
  simp [Participant.registered]

theorem mem_ssrcs_of_registered (h : p.registered ssrc = true) : ssrc ∈ p.ssrcs := by
  obtain ⟨t, ht, rfl⟩ := List.mem_map.mp (registered_iff.mp h)
  exact List.mem_flatMap.mpr ⟨t, ht, List.mem_cons_self⟩

theorem addTrack_of_registered (h : p.registered ssrc = true) (kind : TrackKind) (id : String) :
    p.addTrack ssrc kind id = p := if_pos h

theorem not_any_of_new (h : p.registered ssrc = false) :
    ¬ (p.tracks.any fun t => t.ssrc = ssrc) = true := by
  simpa [Participant.registered] using h

theorem addTrack_audio (h : p.registered ssrc = false) (id : String) :
    (p.addTrack ssrc .audio id).ssrcs = p.ssrcs ++ [ssrc] ∧
      (p.addTrack ssrc .audio id).rtxSsrcCounter = p.rtxSsrcCounter ∧
      ((p.addTrack ssrc .audio id).tracks.map fun t => t.ssrc) =
        (p.tracks.map fun t => t.ssrc) ++ [ssrc] := by
  simp only [Participant.addTrack, if_neg (not_any_of_new h)]
  simp [Participant.ssrcs, Track.ssrcs]

theorem addTrack_video (h : p.registered ssrc = false) (id : String) :
    (p.addTrack ssrc .video id).ssrcs = p.ssrcs ++ [ssrc, ssrc + 1000 + p.rtxSsrcCounter] ∧
      (p.addTrack ssrc .video id).rtxSsrcCounter = p.rtxSsrcCounter + 1 ∧
      ((p.addTrack ssrc .video id).tracks.map fun t => t.ssrc) =
        (p.tracks.map fun t => t.ssrc) ++ [ssrc] := by
  simp only [Participant.addTrack, if_neg (not_any_of_new h)]
  simp [Participant.ssrcs, Track.ssrcs]

theorem muteTrack_map {β : Type} (f : Track → β) (hf : ∀ t muted, f { t with muted := muted } = f t)
    {muted : Bool} {kind : TrackKind} {ts ts' : List Track}
    (h : Participant.muteTrack ssrc muted ts = some (ts', kind)) : ts'.map f = ts.map f := by
  induction ts generalizing ts' with
  | nil => cases h
  | cons t ts ih =>
    unfold Participant.muteTrack at h
    split at h
    · cases h
      rw [List.map_cons, List.map_cons, hf]
    · obtain ⟨⟨ts₁, kind₁⟩, h₁, hts'⟩ := Option.map_eq_some_iff.mp h
      cases hts'
      rw [List.map_cons, List.map_cons, ih h₁]

/-- Where no two tracks have one SSRC, it is the track of the SSRC that is muted. -/
theorem muteTrack_eq_map {muted : Bool} {kind : TrackKind} {ts ts' : List Track}
    (h : Participant.muteTrack ssrc muted ts = some (ts', kind))
    (hd : (ts.map fun t => t.ssrc).Nodup) :
    ts' = ts.map fun t => if t.ssrc = ssrc then { t with muted := muted } else t := by
  induction ts generalizing ts' with
  | nil => cases h
  | cons t ts ih =>
    rw [List.map_cons, List.nodup_cons] at hd
    unfold Participant.muteTrack at h
    rw [List.map_cons]
    split at h
    · cases h
      have hrest : ∀ t' ∈ ts, (if t'.ssrc = ssrc then { t' with muted := muted } else t') = t' :=
        fun t' ht' => if_neg fun h => hd.1 (List.mem_map.mpr ⟨t', ht', by rw [h, ‹t.ssrc = ssrc›]⟩)
      rw [if_pos ‹_›, List.map_congr_left hrest, List.map_id']
    · obtain ⟨⟨ts₁, kind₁⟩, h₁, hts'⟩ := Option.map_eq_some_iff.mp h
      cases hts'
      rw [if_neg ‹_›, ← ih h₁ hd.2]

theorem setTrackMuted_map {β : Type} (f : Track → β)
    (hf : ∀ t muted, f { t with muted := muted } = f t) {x : Participant} {muted : Bool}
    {kind : TrackKind} (h : p.setTrackMuted ssrc muted = some (x, kind)) :
    x.tracks.map f = p.tracks.map f := by
  obtain ⟨⟨ts, kind'⟩, hts, hx⟩ := Option.map_eq_some_iff.mp h
  cases hx
  exact muteTrack_map f hf hts

end

section

variable {heap : Heap} {room : Room} {p q : Ref}

theorem Room.Keyed.values_nodup (hk : room.Keyed heap) :
    (DashMap.values room.participants).Nodup := by
  have hkeys : (DashMap.values room.participants).map (fun p => (heap p).userId) =
      room.participants.entries.keys := by
    rw [DashMap.values, List.map_map]
    refine List.map_congr_left fun e he => ?_
    exact hk.userId (AList.mem_lookup_iff.mpr he)
  have hnodup : room.participants.entries.keys.Nodup := room.participants.nodupKeys
  exact .of_map _ (hkeys ▸ hnodup)

theorem Room.Keyed.nodup_ssrcs_iff (hk : room.Keyed heap) : (room.ssrcs heap).Nodup ↔
    (∀ p ∈ DashMap.values room.participants, (heap p).ssrcs.Nodup) ∧
    ∀ p ∈ DashMap.values room.participants, ∀ q ∈ DashMap.values room.participants, p ≠ q →
      List.Disjoint (heap p).ssrcs (heap q).ssrcs := by
  rw [Room.ssrcs, List.nodup_flatMap]
  have hsymm : Std.Symm (Function.onFun List.Disjoint fun p => (heap p).ssrcs) :=
    ⟨fun _ _ h => List.disjoint_symm h⟩
  refine and_congr_right fun _ => ⟨fun h p hp q hq hne => ?_, fun h => ?_⟩
  · exact h.forall hp hq hne
  · exact hk.values_nodup.pairwise_of_forall_ne h

theorem Room.Keyed.registered_unique (hk : room.Keyed heap) (h : (room.ssrcs heap).Nodup)
    (hp : p ∈ DashMap.values room.participants) (hq : q ∈ DashMap.values room.participants)
    {ssrc : U32} (hreg : (heap p).registered ssrc = true) (hreg' : (heap q).registered ssrc = true) :
    p = q := by
  by_contra hne
  exact (hk.nodup_ssrcs_iff.mp h).2 p hp q hq hne (mem_ssrcs_of_registered hreg)
    (mem_ssrcs_of_registered hreg')

theorem Room.ssrcs_perm (heap : Heap) (hp : p ∈ DashMap.values room.participants) :
    (room.ssrcs heap).Perm
      ((((DashMap.values room.participants).erase p).flatMap fun q => (heap q).ssrcs) ++
        (heap p).ssrcs) := by
  refine ((List.perm_cons_erase hp).flatMap_right _).trans ?_
  rw [List.flatMap_cons]
  exact List.perm_append_comm

end

end LightLivechat.Room
