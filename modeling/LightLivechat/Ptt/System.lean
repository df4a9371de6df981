import LightLivechat.Lib.Runs
import LightLivechat.Transport.Udp.Ingress

/-! A push-to-talk room with everything that runs in it at once: the handlers of the
signalling connections, the floor timer and the packets under way.  The floor and the
two rewriters have a lock each, and what a handler does with them it does one call at
a time. -/

namespace LightLivechat.Ptt

open LightLivechat.Lib.Runs LightLivechat.Lib.Bytes LightLivechat.Lib.Std LightLivechat.Config
open LightLivechat.Room (Heap Ref Participant TrackKind EgressPacket FloorAction FloorController
  Room)
open LightLivechat.Transport.Udp (Instant isRtcp takeIn allowed rewriteRtp fanoutPayload fanOut
  handleSrtp)

/-- `switch_speaker` for some speaker, `clear_speaker` for none. -/
structure SpeakerCall where
  kind : TrackKind
  speaker : Option String
  deriving DecidableEq

def SpeakerCall.apply (c : SpeakerCall) (room : Room) : Room :=
  match c.kind, c.speaker with
  | .audio, some u => { room with audioRewriter := room.audioRewriter.switchSpeaker u }
  | .audio, none => { room with audioRewriter := room.audioRewriter.clearSpeaker }
  | .video, some u => { room with videoRewriter := room.videoRewriter.switchSpeaker u }
  | .video, none => { room with videoRewriter := room.videoRewriter.clearSpeaker }

/-- What a handler has still to do after its floor call. -/
inductive HandlerStep where
  | call (c : SpeakerCall)
  | remove (userId : String)

def HandlerStep.apply (heap : Heap) (room : Room) : HandlerStep → Room
  | .call c => c.apply room
  | .remove userId =>
    match room.removeParticipant heap userId with
    | .ok (room, _) => room
    | .error _ => room

def setSpeaker (speaker : Option String) : List HandlerStep :=
  [.call ⟨.audio, speaker⟩, .call ⟨.video, speaker⟩]

/-- A handler between two of its steps, or a packet on its way through `handle_srtp`. -/
inductive Task where
  | handler (steps : List HandlerStep)
  | gate (sender : Ref) (plaintext : Bytes)
  | rewrite (sender : Ref) (plaintext : Bytes)
  | fanOut (sender : Ref) (payload : Bytes)

structure System where
  heap : Heap
  room : Room
  tasks : List Task
  /-- Everything fanned out so far; nothing reads it. -/
  forwarded : List Bytes

inductive Label where
  | join (p : Ref)
  | floorRequest (userId : String) (now : Nat)
  | floorRelease (userId : String)
  | floorPing (userId : String) (now : Nat)
  /-- `ROOM_LEAVE`, and what a lost connection does. -/
  | leave (userId : String)
  | floorTimer (now : Nat)
  | reap (userId : String)
  | srtp (sender : Ref) (plaintext : Bytes) (now : Instant)
  /-- A task makes its next step. -/
  | advance (i : Nat)

/-- What a handler does to the rewriters, by the controller's answer. -/
def afterFloor : FloorAction → List HandlerStep
  | .granted speaker => setSpeaker (some speaker)
  | .released _ => setSpeaker none
  | .revoked _ _ => setSpeaker none
  | _ => []

def spawn (s : System) (t : Task) : System := { s with tasks := s.tasks ++ [t] }

def advanceTask (s : System) : Task → Option (System × Task)
  | .handler [] => none
  | .handler (h :: steps) => some ({ s with room := h.apply s.heap s.room }, .handler steps)
  | .gate sender plaintext =>
    if allowed s.room (s.heap sender).userId then some (s, .rewrite sender plaintext)
    else some (s, .handler [])
  | .rewrite sender plaintext =>
    let (room, rewritten, result) := rewriteRtp s.room (s.heap sender).userId plaintext
    match fanoutPayload plaintext rewritten result with
    | none => some ({ s with room := room }, .handler [])
    | some payload => some ({ s with room := room }, .fanOut sender payload)
  | .fanOut sender payload =>
    some ({ s with
      heap := Transport.Udp.fanOut s.heap s.room (s.heap sender).userId (.rtp payload)
      forwarded := s.forwarded ++ [payload] }, .handler [])

def step (s : System) : Label → Option System
  | .join p =>
    match s.room.addParticipant s.heap p with
    | .ok room => some { s with room := room }
    | .error _ => none
  | .floorRequest userId now =>
    let (floor, action) := s.room.floor.request userId now
    some (spawn { s with room := { s.room with floor := floor } } (.handler (afterFloor action)))
  | .floorRelease userId =>
    let (floor, action) := s.room.floor.release userId
    some (spawn { s with room := { s.room with floor := floor } } (.handler (afterFloor action)))
  | .floorPing userId now =>
    some { s with room := { s.room with floor := (s.room.floor.ping userId now).1 } }
  | .leave userId =>
    let (floor, action) := s.room.floor.onParticipantLeave userId
    some (spawn { s with room := { s.room with floor := floor } }
      (.handler (action.elim [] afterFloor ++ [.remove userId])))
  | .floorTimer now =>
    let (floor, action) := s.room.floor.checkTimers now
    some (spawn { s with room := { s.room with floor := floor } }
      (.handler (action.elim [] afterFloor)))
  | .reap userId => some { s with room := (HandlerStep.remove userId).apply s.heap s.room }
  | .srtp sender plaintext now =>
    if isRtcp plaintext then none
    else some (spawn { s with heap := s.heap.update sender fun p => takeIn p plaintext now }
      (.gate sender plaintext))
  | .advance i =>
    s.tasks[i]?.bind fun t =>
      (advanceTask s t).map fun (s, t) => { s with tasks := s.tasks.set i t }

/-- A new room, with nothing sent yet. -/
structure Fresh (s : System) : Prop where
  mode : s.room.mode = .ptt
  floor : s.room.floor = .new
  audio : s.room.audioRewriter = .newAudio s.room.audioRewriter.virtualSsrc
  video : s.room.videoRewriter = .newVideo s.room.videoRewriter.virtualSsrc
  tasks : s.tasks = []
  forwarded : s.forwarded = []
  egress : ∀ p, (s.heap p).egress = []
  caches : ∀ p, (s.heap p).rtpCache = .new

/-- Only the roster changes: who speaks and what is rewritten how stays. -/
structure SameMedia (room room' : Room) : Prop where
  mode : room'.mode = room.mode
  speaker : room'.floor.currentSpeaker = room.floor.currentSpeaker
  audio : room'.audioRewriter = room.audioRewriter
  video : room'.videoRewriter = room.videoRewriter

inductive TaskStep (s : System) : Task → System → Task → Prop
  | call (c : SpeakerCall) (steps : List HandlerStep) :
    TaskStep s (.handler (.call c :: steps)) { s with room := c.apply s.room } (.handler steps)
  | remove {userId : String} {room : Room} (steps : List HandlerStep) (h : SameMedia s.room room) :
    TaskStep s (.handler (.remove userId :: steps)) { s with room := room } (.handler steps)
  | allow {sender : Ref} (plaintext : Bytes) (h : allowed s.room (s.heap sender).userId) :
    TaskStep s (.gate sender plaintext) s (.rewrite sender plaintext)
  | drop {sender : Ref} (plaintext : Bytes) (h : ¬ allowed s.room (s.heap sender).userId) :
    TaskStep s (.gate sender plaintext) s (.handler [])
  | hold {sender : Ref} {plaintext : Bytes}
    (h : fanoutPayload plaintext (rewriteRtp s.room (s.heap sender).userId plaintext).2.1
      (rewriteRtp s.room (s.heap sender).userId plaintext).2.2 = none) :
    TaskStep s (.rewrite sender plaintext)
      { s with room := (rewriteRtp s.room (s.heap sender).userId plaintext).1 } (.handler [])
  | pass {sender : Ref} {plaintext payload : Bytes}
    (h : fanoutPayload plaintext (rewriteRtp s.room (s.heap sender).userId plaintext).2.1
      (rewriteRtp s.room (s.heap sender).userId plaintext).2.2 = some payload) :
    TaskStep s (.rewrite sender plaintext)
      { s with room := (rewriteRtp s.room (s.heap sender).userId plaintext).1 }
      (.fanOut sender payload)
  | fanOut (sender : Ref) (payload : Bytes) :
    TaskStep s (.fanOut sender payload)
      { s with
        heap := Transport.Udp.fanOut s.heap s.room (s.heap sender).userId (.rtp payload)
        forwarded := s.forwarded ++ [payload] } (.handler [])

inductive Moved (s : System) : Label → System → Prop
  | roster {l : Label} {room : Room} (h : SameMedia s.room room) : Moved s l { s with room := room }
  | floor {l : Label} {floor : FloorController} {steps : List HandlerStep}
    (h : floor.currentSpeaker = s.room.floor.currentSpeaker ∨
      ∃ rest, steps = setSpeaker floor.currentSpeaker ++ rest) :
    Moved s l (spawn { s with room := { s.room with floor := floor } } (.handler steps))
  | arrive (sender : Ref) (plaintext : Bytes) (now : Instant) :
    Moved s (.srtp sender plaintext now)
      (spawn { s with heap := s.heap.update sender fun p => takeIn p plaintext now }
        (.gate sender plaintext))
  | task {i : Nat} {t t' : Task} {s' : System} (ht : s.tasks[i]? = some t)
    (h : TaskStep s t s' t') : Moved s (.advance i) { s' with tasks := s.tasks.set i t' }

theorem addParticipant_sameMedia {heap : Heap} {room room' : Room} {p : Ref}
    (h : room.addParticipant heap p = .ok room') : SameMedia room room' := by
  simp only [Room.addParticipant] at h
  split at h
  · cases h
  · split at h
    · cases h
    · cases h
      exact ⟨rfl, rfl, rfl, rfl⟩

theorem remove_sameMedia (heap : Heap) (room : Room) (userId : String) :
    SameMedia room ((HandlerStep.remove userId).apply heap room) := by
  simp only [HandlerStep.apply, Room.removeParticipant]
  cases room.participants.lookup userId with
  | none => exact ⟨rfl, rfl, rfl, rfl⟩
  | some p => exact ⟨rfl, rfl, rfl, rfl⟩

section

variable {s s' : System}

theorem taskStep {t t' : Task} (h : advanceTask s t = some (s', t')) : TaskStep s t s' t' := by
  cases t with
  | handler steps =>
    cases steps with
    | nil => cases h
    | cons first steps =>
      simp only [advanceTask, Option.some.injEq, Prod.mk.injEq] at h
      obtain ⟨rfl, rfl⟩ := h
      cases first with
      | call c => exact .call c steps
      | remove userId => exact .remove steps (remove_sameMedia _ _ _)
  | gate sender plaintext =>
    simp only [advanceTask] at h
    split at h <;> simp only [Option.some.injEq, Prod.mk.injEq] at h <;> obtain ⟨rfl, rfl⟩ := h
    · exact .allow plaintext ‹_›
    · exact .drop plaintext ‹_›
  | rewrite sender plaintext =>
    simp only [advanceTask] at h
    split at h <;> simp only [Option.some.injEq, Prod.mk.injEq] at h <;> obtain ⟨rfl, rfl⟩ := h
    · exact .hold ‹_›
    · exact .pass ‹_›
  | fanOut sender payload =>
    simp only [advanceTask, Option.some.injEq, Prod.mk.injEq] at h
    obtain ⟨rfl, rfl⟩ := h
    exact .fanOut sender payload

theorem TaskStep.tasks {t t' : Task} (h : TaskStep s t s' t') : s'.tasks = s.tasks := by
  cases h <;> rfl

theorem moved {l : Label} (h : step s l = some s') : Moved s l s' := by
  cases l with
  | join p =>
    simp only [step] at h
    split at h
    · rename_i room hadd
      cases h
      exact .roster (addParticipant_sameMedia hadd)
    · cases h
  | floorRequest userId now =>
    simp only [step] at h
    rcases s.room.floor.request_cases userId now with ⟨floor, hr, hspk⟩ | ⟨reason, cur, hr⟩ <;>
      rw [hr] at h <;> cases h
    · exact .floor (.inr ⟨[], by rw [hspk]; rfl⟩)
    · exact .floor (.inl rfl)
  | floorRelease userId =>
    simp only [step] at h
    rcases s.room.floor.release_cases userId with ⟨floor, hr, hspk⟩ | hr <;>
      rw [hr] at h <;> cases h
    · exact .floor (.inr ⟨[], by rw [hspk]; rfl⟩)
    · exact .floor (.inl rfl)
  | floorPing userId now =>
    cases h
    exact .roster ⟨rfl, FloorController.ping_currentSpeaker _ _ _, rfl, rfl⟩
  | leave userId =>
    simp only [step] at h
    rcases s.room.floor.onParticipantLeave_cases userId with ⟨floor, hr, hspk⟩ | hr <;>
      rw [hr] at h <;> cases h
    · exact .floor (.inr ⟨[.remove userId], by rw [hspk]; rfl⟩)
    · exact .floor (.inl rfl)
  | floorTimer now =>
    simp only [step] at h
    rcases s.room.floor.checkTimers_cases now with ⟨floor, prev, cause, hr, hspk⟩ | hr <;>
      rw [hr] at h <;> cases h
    · exact .floor (.inr ⟨[], by rw [hspk]; rfl⟩)
    · exact .floor (.inl rfl)
  | reap userId =>
    cases h
    exact .roster (remove_sameMedia _ _ _)
  | srtp sender plaintext now =>
    simp only [step] at h
    split at h
    · cases h
    · cases h
      exact .arrive sender plaintext now
  | advance i =>
    obtain ⟨t, ht, hmap⟩ := Option.bind_eq_some_iff.mp h
    obtain ⟨⟨s₁, t₁⟩, hadvance, rfl⟩ := Option.map_eq_some_iff.mp hmap
    have htask := taskStep hadvance
    simpa [htask.tasks] using Moved.task ht htask

theorem step_advance_last {tasks : List Task} {t : Task} (htasks : s.tasks = tasks ++ [t]) :
    step s (.advance tasks.length) =
      (advanceTask s t).map fun x => { x.1 with tasks := tasks ++ [x.2] } := by
  cases h : advanceTask s t with
  | none => simp [step, htasks, h]
  | some x => simp [step, htasks, h, (taskStep h).tasks]

/-- Uninterrupted, a packet's way through the room is `handle_srtp`. -/
theorem run_srtp (s : System) (hptt : s.room.mode = .ptt) (sender : Ref) {plaintext : Bytes}
    (hrtp : isRtcp plaintext = false) (now : Instant) :
    ∃ n s', run step s (.srtp sender plaintext now :: List.replicate n (.advance s.tasks.length)) =
        some s' ∧ s'.tasks = s.tasks ++ [.handler []] ∧
      (s'.heap, s'.room) = handleSrtp s.heap s.room sender plaintext now := by
  obtain ⟨s₁, hs₁⟩ : ∃ s₁, s₁ = spawn { s with
    heap := s.heap.update sender fun p => takeIn p plaintext now } (.gate sender plaintext) :=
    ⟨_, rfl⟩
  have harrive : step s (.srtp sender plaintext now) = some s₁ := by simp [step, hrtp, hs₁]
  have hheap : s₁.heap = s.heap.update sender fun p => takeIn p plaintext now := by rw [hs₁]; rfl
  have hroom : s₁.room = s.room := by rw [hs₁]; rfl
  have hgate := step_advance_last (s := s₁) (t := .gate sender plaintext) (by rw [hs₁]; rfl)
  simp only [handleSrtp, ← hheap, ← hroom]
  rw [← hroom] at hptt
  by_cases hallowed : allowed s₁.room (s₁.heap sender).userId
  · simp only [advanceTask, hallowed, if_true, Option.map_some] at hgate
    have hrewrite := step_advance_last
      (s := { s₁ with tasks := s.tasks ++ [.rewrite sender plaintext] }) rfl
    cases hpayload : fanoutPayload plaintext
        (rewriteRtp s₁.room (s₁.heap sender).userId plaintext).2.1
        (rewriteRtp s₁.room (s₁.heap sender).userId plaintext).2.2 with
    | none =>
      simp only [advanceTask, hpayload, Option.map_some] at hrewrite
      exact ⟨2, _, (run_step harrive _).trans ((run_step hgate _).trans (run_step hrewrite [])),
        rfl, by simp [hptt, hallowed]⟩
    | some payload =>
      simp only [advanceTask, hpayload, Option.map_some] at hrewrite
      have hfanOut := step_advance_last (s := { s₁ with
        room := (rewriteRtp s₁.room (s₁.heap sender).userId plaintext).1
        tasks := s.tasks ++ [.fanOut sender payload] }) rfl
      simp only [advanceTask, Option.map_some] at hfanOut
      exact ⟨3, _, (run_step harrive _).trans ((run_step hgate _).trans
        ((run_step hrewrite _).trans (run_step hfanOut []))), rfl, by simp [hptt, hallowed]⟩
  · have hdrop : advanceTask s₁ (.gate sender plaintext) = some (s₁, .handler []) := by
      simp [advanceTask, hallowed]
    simp only [hdrop, Option.map_some] at hgate
    exact ⟨1, _, (run_step harrive _).trans (run_step hgate []), rfl, by simp [hptt, hallowed]⟩

end

end LightLivechat.Ptt
