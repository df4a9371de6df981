import LightLivechat.Config

/-! Floor control: who may talk in a push-to-talk room.  Times are milliseconds
and a difference saturates at zero, as on the source's `u64`. -/

namespace LightLivechat.Room

open LightLivechat.Config

inductive FloorState where
  | idle
  | taken (speaker : String) (burstStart lastPing : Nat)
  deriving DecidableEq

inductive FloorAction where
  | granted (speaker : String)
  | denied (reason currentSpeaker : String)
  | released (prevSpeaker : String)
  | revoked (prevSpeaker cause : String)
  | pingOk
  | pingDenied
  | notPttRoom
  deriving DecidableEq

structure FloorController where
  state : FloorState
  deriving DecidableEq

namespace FloorController

def new : FloorController := ⟨.idle⟩

def currentSpeaker (c : FloorController) : Option String :=
  match c.state with
  | .taken speaker _ _ => some speaker
  | .idle => none

def request (c : FloorController) (userId : String) (nowMs : Nat) :
    FloorController × FloorAction :=
  match c.state with
  | .idle => (⟨.taken userId nowMs nowMs⟩, .granted userId)
  | .taken speaker _ _ =>
    if speaker = userId then (c, .granted userId) else (c, .denied "channel busy" speaker)

def release (c : FloorController) (userId : String) : FloorController × FloorAction :=
  match c.state with
  | .taken speaker _ _ =>
    if speaker = userId then (⟨.idle⟩, .released userId) else (c, .pingDenied)
  | .idle => (c, .released userId)

def ping (c : FloorController) (userId : String) (nowMs : Nat) : FloorController × FloorAction :=
  match c.state with
  | .taken speaker burstStart _ =>
    if speaker = userId then (⟨.taken speaker burstStart nowMs⟩, .pingOk) else (c, .pingDenied)
  | .idle => (c, .pingDenied)

def checkTimers (c : FloorController) (nowMs : Nat) : FloorController × Option FloorAction :=
  match c.state with
  | .taken speaker burstStart lastPing =>
    if nowMs - burstStart > floorMaxBurstMs then
      (⟨.idle⟩, some (.revoked speaker "max burst exceeded"))
    else if nowMs - lastPing > floorPingTimeoutMs then
      (⟨.idle⟩, some (.revoked speaker "participant lost"))
    else (c, none)
  | .idle => (c, none)

def onParticipantLeave (c : FloorController) (userId : String) :
    FloorController × Option FloorAction :=
  match c.state with
  | .taken speaker _ _ =>
    if speaker = userId then (⟨.idle⟩, some (.released userId)) else (c, none)
  | .idle => (c, none)

theorem request_cases (c : FloorController) (u : String) (now : Nat) :
    (∃ c', c.request u now = (c', .granted u) ∧ c'.currentSpeaker = some u) ∨
      ∃ reason cur, c.request u now = (c, .denied reason cur) := by
  obtain ⟨state⟩ := c
  cases state with
  | idle => exact .inl ⟨_, rfl, rfl⟩
  | taken speaker b l =>
    by_cases h : speaker = u
    · exact .inl ⟨⟨.taken speaker b l⟩, by simp [request, h], by simp [currentSpeaker, h]⟩
    · exact .inr ⟨"channel busy", speaker, by simp [request, h]⟩

theorem release_cases (c : FloorController) (u : String) :
    (∃ c', c.release u = (c', .released u) ∧ c'.currentSpeaker = none) ∨
      c.release u = (c, .pingDenied) := by
  obtain ⟨state⟩ := c
  cases state with
  | idle => exact .inl ⟨_, rfl, rfl⟩
  | taken speaker b l =>
    by_cases h : speaker = u
    · exact .inl ⟨⟨.idle⟩, by simp [release, h], rfl⟩
    · exact .inr (by simp [release, h])

theorem checkTimers_cases (c : FloorController) (now : Nat) :
    (∃ c' prev cause, c.checkTimers now = (c', some (.revoked prev cause)) ∧
        c'.currentSpeaker = none) ∨
      c.checkTimers now = (c, none) := by
  obtain ⟨state⟩ := c
  cases state with
  | idle => exact .inr rfl
  | taken speaker b l =>
    simp only [checkTimers]
    split
    · exact .inl ⟨_, _, _, rfl, rfl⟩
    · split
      · exact .inl ⟨_, _, _, rfl, rfl⟩
      · exact .inr rfl

theorem onParticipantLeave_cases (c : FloorController) (u : String) :
    (∃ c', c.onParticipantLeave u = (c', some (.released u)) ∧ c'.currentSpeaker = none) ∨
      c.onParticipantLeave u = (c, none) := by
  obtain ⟨state⟩ := c
  cases state with
  | idle => exact .inr rfl
  | taken speaker b l =>
    by_cases h : speaker = u
    · exact .inl ⟨⟨.idle⟩, by simp [onParticipantLeave, h], rfl⟩
    · exact .inr (by simp [onParticipantLeave, h])

theorem ping_cases (c : FloorController) (u : String) (now : Nat) :
    (∃ c', c.ping u now = (c', .pingOk)) ∨ c.ping u now = (c, .pingDenied) := by
  obtain ⟨state⟩ := c
  cases state with
  | idle => exact .inr rfl
  | taken speaker b l =>
    by_cases h : speaker = u
    · exact .inl ⟨_, by simp only [ping, if_pos h]; rfl⟩
    · exact .inr (by simp [ping, h])

@[simp] theorem ping_currentSpeaker (c : FloorController) (u : String) (now : Nat) :
    (c.ping u now).1.currentSpeaker = c.currentSpeaker := by
  obtain ⟨state⟩ := c
  cases state with
  | idle => rfl
  | taken speaker b l => by_cases h : speaker = u <;> simp [ping, currentSpeaker, h]

end FloorController

end LightLivechat.Room
