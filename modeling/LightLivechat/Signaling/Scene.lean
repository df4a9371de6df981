import Mathlib.Logic.Function.Basic
import LightLivechat.Room.Ssrcs
import LightLivechat.Signaling.Message

/-! What a room shows its members: who is in it, what they have published and who has the
floor.  A client learns of it from the answer to its join and from what it is sent after. -/

namespace LightLivechat.Signaling

open LightLivechat.Config LightLivechat.Lib.Bytes
open LightLivechat.Room (Ref Participant Track TrackKind)

/-- What reaches the client of a participant. -/
inductive Message where
  | joined (info : JoinInfo)
  | granted (roomId speaker : String)
  | event (event : Event)
  deriving DecidableEq

namespace Message

/-- The speaker a message names; nobody, where it says that the floor is free. -/
def speaker : Message → Option (Option String)
  | .granted _ speaker => some (some speaker)
  | .event (.floorTaken _ speaker) => some (some speaker)
  | .event (.floorIdle ..) => some none
  | .event (.floorRevoke ..) => some none
  | _ => none

/-- Of tracks and of the floor it says nothing. -/
def IsIdle : Message → Prop
  | .event (.roomEvent ..) => True
  | .event (.messageEvent ..) => True
  | _ => False

end Message

structure View where
  /-- The tracks of the others, each with whether it is muted. -/
  tracks : List (TrackInfo × Bool)
  speaker : Option String
  deriving DecidableEq

namespace View

def empty : View := ⟨[], none⟩

/-- The answer to a join says nothing of muted tracks and nothing of the floor. -/
def see (view : View) (message : Message) : View :=
  match message with
  | .joined info => ⟨info.tracks.map fun t => (t, false), none⟩
  | .event (.tracksUpdate .add tracks) =>
    { view with tracks := view.tracks ++ tracks.map fun t => (t, false) }
  | .event (.tracksUpdate .remove tracks) =>
    { view with tracks := view.tracks.filter fun e => e.1 ∉ tracks }
  | .event (.trackState userId ssrc _ muted) =>
    { view with tracks := view.tracks.map fun e =>
        (e.1, if e.1.userId = userId ∧ e.1.ssrc = ssrc then muted else e.2) }
  | message => { view with speaker := message.speaker.getD view.speaker }

def of (told : List Message) : View := told.foldl see empty

variable {view : View} {told news : List Message} {i : TrackInfo} {muted : Bool}

theorem of_append (told news : List Message) : of (told ++ news) = news.foldl see (of told) :=
  List.foldl_append

theorem foldl_see_idle (h : ∀ m ∈ news, m.IsIdle) : news.foldl see view = view := by
  induction news generalizing view with
  | nil => rfl
  | cons m news ih =>
    have hm : view.see m = view := by
      have hidle := h m List.mem_cons_self
      unfold Message.IsIdle at hidle
      split at hidle
      · rfl
      · rfl
      · exact hidle.elim
    rw [List.foldl_cons, hm]
    exact ih fun m hm => h m (List.mem_cons_of_mem _ hm)

theorem see_of_speaker {m : Message} {speaker : Option String} (h : m.speaker = some speaker) :
    view.see m = { view with speaker := speaker } := by
  unfold Message.speaker at h
  split at h <;> cases h <;> rfl

theorem foldl_see_speaker {speaker : Option String}
    (h : ∀ m ∈ news, m.speaker = some speaker) (hnews : news ≠ [] ∨ view.speaker = speaker) :
    news.foldl see view = { view with speaker := speaker } := by
  induction news generalizing view with
  | nil =>
    obtain h | rfl := hnews
    · exact absurd rfl h
    · rfl
  | cons m news ih =>
    rw [List.foldl_cons, see_of_speaker (h m List.mem_cons_self),
      ih (fun m hm => h m (List.mem_cons_of_mem _ hm)) (.inr rfl)]

theorem foldl_see_remove (view : View)
    (h : ∀ m ∈ news, m.IsIdle ∨ ∃ ts, m = .event (.tracksUpdate .remove ts)) :
    (news.foldl see view).speaker = view.speaker ∧
      ∀ e, e ∈ (news.foldl see view).tracks ↔
        e ∈ view.tracks ∧ ∀ ts, .event (.tracksUpdate .remove ts) ∈ news → e.1 ∉ ts := by
  induction news generalizing view with
  | nil => simp
  | cons m news ih =>
    obtain ⟨hspeaker, htracks⟩ := ih (view.see m) fun m hm => h m (List.mem_cons_of_mem _ hm)
    rw [List.foldl_cons, hspeaker]
    simp only [htracks]
    obtain hidle | ⟨ts, rfl⟩ := h m List.mem_cons_self
    · have hidle' : ∀ m' ∈ [m], m'.IsIdle := by simpa using hidle
      have hsee : view.see m = view := foldl_see_idle hidle'
      have hne : ∀ ts, m ≠ .event (.tracksUpdate .remove ts) := by
        rintro ts rfl
        exact hidle
      rw [hsee]
      refine ⟨rfl, fun e => and_congr_right fun _ => forall_congr' fun ts => ?_⟩
      rw [List.mem_cons, or_iff_right (Ne.symm (hne ts))]
    · refine ⟨rfl, fun e => ?_⟩
      simp only [see, List.mem_filter, decide_eq_true_eq, List.mem_cons, Message.event.injEq,
        Event.tracksUpdate.injEq, true_and, or_imp, forall_and, forall_eq, and_assoc]

end View

/-- Who is in the rooms, what they have published and who is speaking. -/
@[ext]
structure Scene where
  occupant : String → String → Option Ref
  tracks : Ref → List Track
  speaker : String → Option String

namespace Scene

/-- A track of another user than this one is registered in the room. -/
def Others (S : Scene) (r u : String) (i : TrackInfo) : Prop :=
  ∃ u' p, u' ≠ u ∧ S.occupant r u' = some p ∧ i ∈ (S.tracks p).map (trackInfo u')

/-- Nobody is in two places, and nobody has two tracks of one SSRC. -/
structure Proper (S : Scene) : Prop where
  home : ∀ {r u r' u' p}, S.occupant r u = some p → S.occupant r' u' = some p → r = r' ∧ u = u'
  distinct : ∀ p, ((S.tracks p).map fun t => t.ssrc).Nodup

/-- The members of one room are told something, except for one user where there is one. -/
def Broadcast (S : Scene) (news : Ref → List Message) (roomId : String) (exclude : Option String)
    (messages : List Message) : Prop :=
  ∀ {r u q}, S.occupant r u = some q →
    news q = if r = roomId ∧ exclude ≠ some u then messages else []

/-- The members of one room hear of no speaker but this one, and of nothing else. -/
structure Said (S : Scene) (news : Ref → List Message) (r : String) (speaker : Option String) :
    Prop where
  here : ∀ {u q}, S.occupant r u = some q → ∀ m ∈ news q, m.speaker = some speaker
  other : ∀ {r' u q}, r' ≠ r → S.occupant r' u = some q → news q = []

/-- What can happen at any time, and what the members are told of it. -/
inductive Routine (S : Scene) (news : Ref → List Message) : Scene → Prop
  | idle (hnews : ∀ {r u q}, S.occupant r u = some q → ∀ m ∈ news q, m.IsIdle) : Routine S news S
  | muted {r u : String} {p : Ref} {ssrc : U32} {muted : Bool} {tracks : List Track}
    {kind : TrackKind} (hp : S.occupant r u = some p)
    (hmute : Participant.muteTrack ssrc muted (S.tracks p) = some (tracks, kind))
    (hnews : S.Broadcast news r (some u) [.event (.trackState u ssrc kind muted)]) :
    Routine S news { S with tracks := Function.update S.tracks p tracks }
  | said {r : String} {speaker : Option String} (h : S.Said news r speaker)
    (hheard : ∀ {u q}, S.occupant r u = some q → news q ≠ [] ∨ S.speaker r = speaker) :
    Routine S news { S with speaker := Function.update S.speaker r speaker }
  | departed {S' : Scene} {gone : Ref → Prop} (htracks : S'.tracks = S.tracks)
    (hspeaker : S'.speaker = S.speaker)
    (hoccupant : ∀ {r u p}, S'.occupant r u = some p ↔ S.occupant r u = some p ∧ ¬ gone p)
    (hnews : ∀ {r u q}, S'.occupant r u = some q → ∀ m ∈ news q, m.IsIdle ∨ ∃ u' p,
      S.occupant r u' = some p ∧ gone p ∧
        m = .event (.tracksUpdate .remove ((S.tracks p).map (trackInfo u'))))
    (hall : ∀ {r u q u' p}, S'.occupant r u = some q → S.occupant r u' = some p → gone p →
      S.tracks p ≠ [] → .event (.tracksUpdate .remove ((S.tracks p).map (trackInfo u'))) ∈ news q) :
    Routine S news S'

/-- What a step does to the scene, as a sequence of routine changes: the news of each follows
on that of the ones before it. -/
inductive Story : Scene → (Ref → List Message) → Scene → Prop
  | nil {S : Scene} : Story S (fun _ => []) S
  | cons {S S₁ S₂ : Scene} {news news' : Ref → List Message} (h : S.Routine news S₁)
    (h' : Story S₁ news' S₂) : Story S (fun q => news q ++ news' q) S₂

/-- Somebody new joins a room and is told of the tracks of the others. -/
structure Joined (S : Scene) (news : Ref → List Message) (S' : Scene) (r u : String) (p : Ref)
    (info : JoinInfo) : Prop where
  free : S.occupant r u = none
  new : ∀ {r u}, S.occupant r u ≠ some p
  scene : S' = { S with
    occupant := fun r' u' => if r' = r ∧ u' = u then some p else S.occupant r' u'
    tracks := Function.update S.tracks p [] }
  tracks : ∀ {i}, i ∈ info.tracks ↔ S.Others r u i
  own : news p = [.joined info]
  others : ∀ {r u q}, S.occupant r u = some q → ∀ m ∈ news q, m.IsIdle

/-- Somebody has published `new` and announced `infos`. -/
structure Published (S : Scene) (news : Ref → List Message) (S' : Scene) (r u : String) (p : Ref)
    (infos : List TrackInfo) (new : List Track) : Prop where
  occupant : S.occupant r u = some p
  scene : S' = { S with tracks := Function.update S.tracks p (S.tracks p ++ new) }
  announced : ∀ t ∈ new, trackInfo u t ∈ infos
  owned : ∀ i ∈ infos, i.userId = u
  unmuted : ∀ t ∈ new, t.muted = false
  distinct : ((S.tracks p ++ new).map fun t => t.ssrc).Nodup
  told : S.Broadcast news r (some u) (if infos = [] then [] else [.event (.tracksUpdate .add infos)])

/-- The members see the tracks registered by the others. -/
def TracksSeen (S : Scene) (told : Ref → List Message) : Prop :=
  ∀ {r u q}, S.occupant r u = some q →
    ∀ {i}, (∃ muted, (i, muted) ∈ (View.of (told q)).tracks) ↔ S.Others r u i

/-- Of a track they see they know whether it is muted. -/
def FlagsSeen (S : Scene) (told : Ref → List Message) : Prop :=
  ∀ {r u q u' p t muted}, S.occupant r u = some q → u' ≠ u → S.occupant r u' = some p →
    t ∈ S.tracks p → (trackInfo u' t, muted) ∈ (View.of (told q)).tracks → muted = t.muted

def SpeakerSeen (S : Scene) (told : Ref → List Message) : Prop :=
  ∀ {r u q}, S.occupant r u = some q → (View.of (told q)).speaker = S.speaker r

end Scene

end LightLivechat.Signaling
