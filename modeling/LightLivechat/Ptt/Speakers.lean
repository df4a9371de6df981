import LightLivechat.Ptt.System

/-! Who speaks: the floor and the two rewriters each remember a speaker.  A handler
changes them one after the other, so they agree only once the handlers are through,
and only if the calls of different handlers did not cross. -/

namespace LightLivechat.Ptt

open LightLivechat.Lib.Runs LightLivechat.Lib.Bytes LightLivechat.Lib.Std LightLivechat.Config
open LightLivechat.Room (Ref Participant TrackKind FloorController Room)
open LightLivechat.Transport.Udp (rewriteRtp)

def speakerOf (room : Room) : TrackKind → Option String
  | .audio => room.audioRewriter.state.speaker
  | .video => room.videoRewriter.state.speaker

def HandlerStep.call? : HandlerStep → Option SpeakerCall
  | .call c => some c
  | .remove _ => none

def Task.calls : Task → List SpeakerCall
  | .handler steps => steps.filterMap HandlerStep.call?
  | _ => []

@[simp] theorem calls_call (c : SpeakerCall) (steps : List HandlerStep) :
    (Task.handler (.call c :: steps)).calls = c :: (Task.handler steps).calls := rfl

/-- No handler is between two of its calls. -/
def Quiet (s : System) : Prop := ∀ t ∈ s.tasks, t.calls = []

/-- Floor and rewriters agree on the speaker. -/
def SpeakersAgree (s : System) : Prop :=
  ∀ kind, speakerOf s.room kind = s.room.floor.currentSpeaker

/-- A call is in time if it sets the rewriter to the floor's speaker, or if another
handler has still to do so. -/
def inTime (s : System) : Label → Bool
  | .advance i =>
    match s.tasks[i]? with
    | some (.handler (.call c :: _)) =>
      c.speaker = s.room.floor.currentSpeaker ∨
        (s.tasks.eraseIdx i).any fun t => ⟨c.kind, s.room.floor.currentSpeaker⟩ ∈ t.calls
    | _ => true
  | _ => true

/-- A rewriter that does not follow the floor will be made to. -/
def Synced (s : System) : Prop :=
  ∀ kind, speakerOf s.room kind = s.room.floor.currentSpeaker ∨
    ∃ t ∈ s.tasks, ⟨kind, s.room.floor.currentSpeaker⟩ ∈ t.calls

/-- The floor's speaker and the rewriters' are left alone. -/
structure SameSpeakers (room room' : Room) : Prop where
  floor : room'.floor.currentSpeaker = room.floor.currentSpeaker
  speakers : ∀ kind, speakerOf room' kind = speakerOf room kind

section

variable {room room' : Room}

theorem speakerOf_apply (c : SpeakerCall) (room : Room) (kind : TrackKind) :
    speakerOf (c.apply room) kind = if kind = c.kind then c.speaker else speakerOf room kind := by
  obtain ⟨k, u⟩ := c
  cases k <;> cases u <;> cases kind <;> rfl

@[simp] theorem apply_floor (c : SpeakerCall) (room : Room) :
    (c.apply room).floor = room.floor := by
  obtain ⟨k, u⟩ := c
  cases k <;> cases u <;> rfl

theorem SameMedia.sameSpeakers (h : SameMedia room room') : SameSpeakers room room' where
  floor := h.speaker
  speakers := fun kind => by
    cases kind with
    | audio => rw [speakerOf, h.audio]; rfl
    | video => rw [speakerOf, h.video]; rfl

theorem rewriteRtp_sameSpeakers (room : Room) (userId : String) (plaintext : Bytes) :
    SameSpeakers room (rewriteRtp room userId plaintext).1 := by
  simp only [rewriteRtp]
  split
  · refine ⟨rfl, fun kind => ?_⟩
    cases kind with
    | audio => exact (room.audioRewriter.rewrite_frame plaintext userId false).1
    | video => rfl
  · split
    · refine ⟨rfl, fun kind => ?_⟩
      cases kind with
      | audio => rfl
      | video => exact (room.videoRewriter.rewrite_frame plaintext userId _).1
    · exact ⟨rfl, fun _ => rfl⟩

end

section

variable {tasks : List Task} {i : Nat} {t t' : Task} {c : SpeakerCall}

theorem mem_set_self (ht : tasks[i]? = some t) : t' ∈ tasks.set i t' := by
  obtain ⟨hi, -⟩ := List.getElem?_eq_some_iff.mp ht
  exact List.mem_set hi t'

theorem pending_set (ht : tasks[i]? = some t) (hcalls : c ∈ t.calls → c ∈ t'.calls)
    (h : ∃ t ∈ tasks, c ∈ t.calls) : ∃ t ∈ tasks.set i t', c ∈ t.calls := by
  obtain ⟨u, hu, hc⟩ := h
  obtain ⟨j, hj⟩ := List.mem_iff_getElem?.mp hu
  by_cases hij : i = j
  · subst hij
    obtain rfl : t = u := Option.some.inj (ht.symm.trans hj)
    exact ⟨t', mem_set_self ht, hcalls hc⟩
  · exact ⟨u, List.mem_iff_getElem?.mpr ⟨j, by rw [List.getElem?_set_ne hij, hj]⟩, hc⟩

end

section

variable {s s' : System}

theorem Synced.frame (h : Synced s) (hsame : SameSpeakers s.room s'.room)
    (htasks : ∀ kind, (∃ t ∈ s.tasks, ⟨kind, s.room.floor.currentSpeaker⟩ ∈ t.calls) →
      ∃ t ∈ s'.tasks, ⟨kind, s.room.floor.currentSpeaker⟩ ∈ t.calls) : Synced s' := by
  intro kind
  rw [hsame.speakers, hsame.floor]
  exact (h kind).imp_right (htasks kind)

theorem setSpeaker_calls (u : Option String) (steps : List HandlerStep) (kind : TrackKind) :
    ⟨kind, u⟩ ∈ (Task.handler (setSpeaker u ++ steps)).calls := by
  cases kind <;> simp [Task.calls, setSpeaker, HandlerStep.call?]

/-- A floor call that leaves the floor alone starts a handler; one that does not
starts a handler that makes the rewriters follow. -/
theorem Synced.floorCall (h : Synced s) {floor : FloorController} {steps : List HandlerStep}
    (hfollow : floor.currentSpeaker = s.room.floor.currentSpeaker ∨
      ∃ rest, steps = setSpeaker floor.currentSpeaker ++ rest) :
    Synced (spawn { s with room := { s.room with floor := floor } } (.handler steps)) := by
  rcases hfollow with hsame | ⟨rest, rfl⟩
  · refine h.frame ⟨hsame, fun kind => by cases kind <;> rfl⟩ fun kind => ?_
    rintro ⟨t, ht, hc⟩
    exact ⟨t, List.mem_append_left _ ht, hc⟩
  · intro kind
    exact .inr ⟨_, List.mem_append_right _ (List.mem_singleton_self _), setSpeaker_calls _ _ kind⟩

/-- Making a call in time keeps rewriters and floor together. -/
theorem Synced.call (h : Synced s) {i : Nat} {c : SpeakerCall} {steps : List HandlerStep}
    (ht : s.tasks[i]? = some (.handler (.call c :: steps)))
    (htime : inTime s (.advance i)) :
    Synced { s with room := c.apply s.room, tasks := s.tasks.set i (.handler steps) } := by
  intro kind
  simp only [speakerOf_apply, apply_floor]
  by_cases hkind : kind = c.kind
  · subst hkind
    rw [if_pos rfl]
    simp only [inTime, ht, decide_eq_true_eq, List.any_eq_true] at htime
    refine htime.imp_right ?_
    rintro ⟨t, hmem, hc⟩
    obtain ⟨j, hj, htj⟩ := List.mem_eraseIdx_iff_getElem?.mp hmem
    exact ⟨t, List.mem_iff_getElem?.mpr ⟨j, by rw [List.getElem?_set_ne hj.symm, htj]⟩, hc⟩
  · rw [if_neg hkind]
    refine (h kind).imp_right (pending_set ht fun hc => ?_)
    rw [calls_call] at hc
    rcases List.mem_cons.mp hc with rfl | hc
    · exact absurd rfl hkind
    · exact hc

theorem Synced.step (h : Synced s) {l : Label} (htime : inTime s l) (hmoved : Moved s l s') :
    Synced s' := by
  cases hmoved with
  | roster hsame => exact h.frame hsame.sameSpeakers fun _ ht => ht
  | floor hfollow => exact h.floorCall hfollow
  | arrive sender plaintext now =>
    refine h.frame ⟨rfl, fun _ => rfl⟩ fun kind => ?_
    rintro ⟨t, ht, hc⟩
    exact ⟨t, List.mem_append_left _ ht, hc⟩
  | task ht hstep =>
    cases hstep with
    | call c steps => exact h.call ht htime
    | remove steps hsame => exact h.frame hsame.sameSpeakers fun _ => pending_set ht fun hc => hc
    | allow => exact h.frame ⟨rfl, fun _ => rfl⟩ fun _ => pending_set ht fun hc => nomatch hc
    | drop => exact h.frame ⟨rfl, fun _ => rfl⟩ fun _ => pending_set ht fun hc => nomatch hc
    | hold =>
      exact h.frame (rewriteRtp_sameSpeakers _ _ _) fun _ => pending_set ht fun hc => nomatch hc
    | pass =>
      exact h.frame (rewriteRtp_sameSpeakers _ _ _) fun _ => pending_set ht fun hc => nomatch hc
    | fanOut => exact h.frame ⟨rfl, fun _ => rfl⟩ fun _ => pending_set ht fun hc => nomatch hc

theorem Fresh.synced (h : Fresh s) : Synced s := by
  intro kind
  refine .inl ?_
  rw [h.floor]
  cases kind with
  | audio => rw [speakerOf, h.audio]; rfl
  | video => rw [speakerOf, h.video]; rfl

theorem Synced.agree (h : Synced s) (hquiet : Quiet s) : SpeakersAgree s := by
  intro kind
  rcases h kind with hsame | ⟨t, ht, hc⟩
  · exact hsame
  · rw [hquiet t ht] at hc
    cases hc

end

/-- While all calls are in time, floor and rewriters agree whenever the handlers are
through. -/
theorem speakers_agree {s t : System} {labels : List Label} (hfresh : Fresh s)
    (htime : Along step (fun s l => inTime s l) s labels) (hrun : run step s labels = some t)
    (hquiet : Quiet t) : SpeakersAgree t := by
  have hsynced : Synced t :=
    run_inv (fun _ _ _ h htime hs => h.step htime (moved hs)) hfresh.synced htime hrun
  exact hsynced.agree hquiet

def newRoom : System where
  heap := fun q => Participant.new (if q = 0 then "a" else "b") "r" "pu" "pp" "su" "sp" 1
  room := { Room.new "r" "room" none .ptt 1 7 8 with
    participants := (AList.insert "a" 0 ∅ : DashMap String Ref).insert "b" 1 }
  tasks := []
  forwarded := []

theorem newRoom_fresh : Fresh newRoom :=
  ⟨rfl, rfl, rfl, rfl, rfl, rfl, fun _ => rfl, fun _ => rfl⟩

theorem speakers_agree_granted :
    ∃ t, run step newRoom [.floorRequest "a" 0, .advance 0, .advance 0] = some t ∧
      SpeakersAgree t := by
  have htime : Along step (fun s l => inTime s l) newRoom
      [.floorRequest "a" 0, .advance 0, .advance 0] := by decide
  exact ⟨_, rfl, speakers_agree newRoom_fresh htime rfl (by unfold Quiet; decide)⟩

/-- One holder releases, the next is granted, and only then does the release get to
the rewriters. -/
def crossing : List Label :=
  [.floorRequest "a" 0, .advance 0, .advance 0, .floorRelease "a", .floorRequest "b" 1, .advance 2,
    .advance 2, .advance 1, .advance 1]

theorem late_clear :
    ¬ ∀ s t labels, Fresh s → run step s labels = some t → Quiet t → SpeakersAgree t := by
  intro h
  have hagree := h newRoom _ crossing newRoom_fresh rfl (by unfold Quiet; decide) .audio
  exact absurd hagree (by decide)

end LightLivechat.Ptt
