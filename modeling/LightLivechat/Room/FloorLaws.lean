import LightLivechat.Lib.Histories
import LightLivechat.Room.Floor
import Mathlib.Data.List.Induction

/-! Floor control by its history of calls and answers: who holds the floor, since when,
and when it is revoked. -/

namespace LightLivechat.Room.FloorController

open LightLivechat.Config LightLivechat.Lib.Histories

inductive Call where
  | request (userId : String) (nowMs : Nat)
  | release (userId : String)
  | ping (userId : String) (nowMs : Nat)
  | checkTimers (nowMs : Nat)
  | onParticipantLeave (userId : String)
  deriving DecidableEq

def apply (c : FloorController) : Call → FloorController × Option FloorAction
  | .request userId nowMs => (c.request userId nowMs).map id some
  | .release userId => (c.release userId).map id some
  | .ping userId nowMs => (c.ping userId nowMs).map id some
  | .checkTimers nowMs => c.checkTimers nowMs
  | .onParticipantLeave userId => c.onParticipantLeave userId

structure Entry where
  call : Call
  answer : Option FloorAction
  deriving DecidableEq

def log (acc : FloorController × List Entry) (call : Call) : FloorController × List Entry :=
  ((acc.1.apply call).1, acc.2 ++ [⟨call, (acc.1.apply call).2⟩])

def historyOf (calls : List Call) : FloorController × List Entry := calls.foldl log (new, [])

def Grants (u : String) (e : Entry) : Prop := e.answer = some (.granted u)

def Ends (u : String) (e : Entry) : Prop :=
  e.answer = some (.released u) ∨ ∃ cause, e.answer = some (.revoked u cause)

/-- The floor was granted to the user, whose hold has not been ended since. -/
def Held (hist : List Entry) (u : String) : Prop := Since (Grants u) (Ends u) hist

/-- While a user holds the floor it is granted to nobody else. -/
def Exclusive (hist : List Entry) : Prop :=
  Each (fun before e => ∀ u v, Held before u → Grants v e → v = u) hist

/-- The user holds the floor by a request at time `t`, when nobody held it; `since` is
what came after. -/
def TakenAt (hist : List Entry) (u : String) (t : Nat) (since : List Entry) : Prop :=
  ∃ a, hist = a ++ ⟨.request u t, some (.granted u)⟩ :: since ∧ (∀ v, ¬ Held a v) ∧
    ∀ e ∈ since, ¬ Ends u e

def pingTime (u : String) (e : Entry) : Option Nat :=
  match e.call with
  | .ping v nowMs => if v = u then some nowMs else none
  | _ => none

/-- The time of the user's latest ping, or of the request that took the floor. -/
def lastPing (u : String) (t : Nat) (since : List Entry) : Nat :=
  (since.filterMap (pingTime u)).getLastD t

section

variable {hist since since' : List Entry} {u v : String} {t t' : Nat} {e : Entry}

theorem held_snoc : Held (hist ++ [e]) u ↔ Grants u e ∨ Held hist u ∧ ¬ Ends u e := since_snoc

theorem TakenAt.snoc (h : TakenAt hist u t since) (he : ¬ Ends u e) :
    TakenAt (hist ++ [e]) u t (since ++ [e]) := by
  obtain ⟨a, rfl, ha, hs⟩ := h
  exact ⟨a, by simp, ha, List.forall_mem_append.mpr ⟨hs, by simpa using he⟩⟩

theorem TakenAt.held (h : TakenAt hist u t since) : Held hist u := by
  obtain ⟨a, rfl, -, hs⟩ := h
  exact ⟨a, _, since, rfl, rfl, hs⟩

theorem TakenAt.unique (h : TakenAt hist u t since) (h' : TakenAt hist u t' since') :
    t = t' ∧ since = since' := by
  obtain ⟨a, heq, ha, hs⟩ := h
  obtain ⟨a', heq', ha', hs'⟩ := h'
  rcases List.append_eq_append_iff.mp (heq.symm.trans heq') with ⟨m, rfl, hm⟩ | ⟨m, rfl, hm⟩
  · cases m with
    | nil =>
      cases hm
      exact ⟨rfl, rfl⟩
    | cons x m =>
      -- The first hold lasts until the second begins.
      cases hm
      exact absurd ⟨a, _, m, rfl, rfl, fun e he => hs e (by simp [he])⟩ (ha' u)
  · cases m with
    | nil =>
      cases hm
      exact ⟨rfl, rfl⟩
    | cons x m =>
      cases hm
      exact absurd ⟨a', _, m, rfl, rfl, fun e he => hs' e (by simp [he])⟩ (ha u)

theorem lastPing_snoc : lastPing u t (since ++ [e]) = (pingTime u e).getD (lastPing u t since) := by
  unfold lastPing
  rw [List.filterMap_append]
  cases hp : pingTime u e with
  | none => simp [hp]
  | some now => simp [hp]

end

/-- The state says what the history says. -/
def Says (state : FloorState) (hist : List Entry) : Prop :=
  match state with
  | .idle => ∀ u, ¬ Held hist u
  | .taken speaker burstStart ping =>
    (∃ since, TakenAt hist speaker burstStart since ∧ ping = lastPing speaker burstStart since) ∧
      ∀ u, Held hist u → u = speaker

section

variable {hist since : List Entry} {speaker : String} {burstStart ping : Nat} {e : Entry}

theorem Says.keep {ping' : Nat} (h : Says (.taken speaker burstStart ping) hist)
    (hends : ¬ Ends speaker e) (hgrants : ∀ u, Grants u e → u = speaker)
    (hping : (pingTime speaker e).getD ping = ping') :
    Says (.taken speaker burstStart ping') (hist ++ [e]) := by
  obtain ⟨⟨since, htaken, rfl⟩, honly⟩ := h
  refine ⟨⟨since ++ [e], htaken.snoc hends, by rw [lastPing_snoc, hping]⟩, fun u hu => ?_⟩
  rcases held_snoc.mp hu with hu | hu
  · exact hgrants u hu
  · exact honly u hu.1

theorem Says.end_ (h : Says (.taken speaker burstStart ping) hist) (hends : Ends speaker e)
    (hgrants : ∀ u, ¬ Grants u e) : Says .idle (hist ++ [e]) := by
  intro u hu
  rcases held_snoc.mp hu with hu | hu
  · exact hgrants u hu
  · obtain rfl := h.2 u hu.1
    exact hu.2 hends

theorem Says.stay (h : Says .idle hist) (hgrants : ∀ u, ¬ Grants u e) :
    Says .idle (hist ++ [e]) := by
  intro u hu
  rcases held_snoc.mp hu with hu | hu
  · exact hgrants u hu
  · exact h u hu.1

end

theorem says_apply {state : FloorState} {hist : List Entry} (h : Says state hist) (call : Call) :
    Says (apply ⟨state⟩ call).1.state (hist ++ [⟨call, (apply ⟨state⟩ call).2⟩]) := by
  cases state with
  | idle =>
    cases call with
    | request u now =>
      refine ⟨⟨[], ⟨hist, rfl, h, by simp⟩, rfl⟩, fun v hv => ?_⟩
      rcases held_snoc.mp hv with hv | hv
      · cases hv
        rfl
      · exact absurd hv.1 (h v)
    | release u => exact h.stay (by rintro v ⟨⟩)
    | ping u now => exact h.stay (by rintro v ⟨⟩)
    | checkTimers now => exact h.stay (by rintro v ⟨⟩)
    | onParticipantLeave u => exact h.stay (by rintro v ⟨⟩)
  | taken speaker burstStart ping =>
    cases call with
    | request u now =>
      by_cases hu : speaker = u
      · simp only [apply, request, if_pos hu, Prod.map]
        refine h.keep (by simp [Ends]) ?_ rfl
        rintro v ⟨⟩
        exact hu.symm
      · simp only [apply, request, if_neg hu, Prod.map]
        exact h.keep (by simp [Ends]) (by rintro v ⟨⟩) rfl
    | release u =>
      by_cases hu : speaker = u
      · simp only [apply, release, if_pos hu, Prod.map]
        exact h.end_ (.inl (by rw [hu])) (by rintro v ⟨⟩)
      · simp only [apply, release, if_neg hu, Prod.map]
        exact h.keep (by simp [Ends]) (by rintro v ⟨⟩) rfl
    | ping u now =>
      by_cases hu : speaker = u
      · simp only [apply, FloorController.ping, if_pos hu, Prod.map]
        exact h.keep (by simp [Ends]) (by rintro v ⟨⟩) (by simp [pingTime, hu])
      · simp only [apply, FloorController.ping, if_neg hu, Prod.map]
        exact h.keep (by simp [Ends]) (by rintro v ⟨⟩) (by simp [pingTime, Ne.symm hu])
    | checkTimers now =>
      simp only [apply, checkTimers]
      split
      · exact h.end_ (.inr ⟨_, rfl⟩) (by rintro v ⟨⟩)
      · split
        · exact h.end_ (.inr ⟨_, rfl⟩) (by rintro v ⟨⟩)
        · exact h.keep (by simp [Ends]) (by rintro v ⟨⟩) rfl
    | onParticipantLeave u =>
      by_cases hu : speaker = u
      · simp only [apply, onParticipantLeave, if_pos hu]
        exact h.end_ (.inl (by rw [hu])) (by rintro v ⟨⟩)
      · simp only [apply, onParticipantLeave, if_neg hu]
        exact h.keep (by simp [Ends]) (by rintro v ⟨⟩) rfl

theorem historyOf_snoc (calls : List Call) (call : Call) :
    historyOf (calls ++ [call]) = log (historyOf calls) call := by
  rw [historyOf, List.foldl_append]
  rfl

theorem says_historyOf (calls : List Call) :
    Says (historyOf calls).1.state (historyOf calls).2 := by
  induction calls using List.reverseRecOn with
  | nil => exact fun _ => not_since_nil
  | append_singleton calls call ih =>
    rw [historyOf_snoc]
    exact says_apply ih call

theorem Says.speaker {state : FloorState} {hist : List Entry} {u : String} (h : Says state hist)
    (hu : Held hist u) : ∃ b l, state = .taken u b l := by
  cases state with
  | idle => exact absurd hu (h u)
  | taken speaker b l => exact ⟨b, l, by rw [h.2 u hu]⟩

/-- Whoever the controller has as the speaker holds the floor. -/
theorem speaker_iff_held (calls : List Call) (u : String) :
    (historyOf calls).1.currentSpeaker = some u ↔ Held (historyOf calls).2 u := by
  have hsays := says_historyOf calls
  refine ⟨fun h => ?_, fun h => ?_⟩
  · unfold Says at hsays
    split at hsays
    · simp [currentSpeaker, *] at h
    · obtain ⟨⟨since, htaken, -⟩, -⟩ := hsays
      simp only [currentSpeaker, *, Option.some.injEq] at h
      exact h ▸ htaken.held
  · obtain ⟨burst, ping, hstate⟩ := hsays.speaker h
    rw [currentSpeaker, hstate]

theorem apply_grants {c : FloorController} {call : Call} {u v : String} {b l : Nat}
    (hc : c.state = .taken u b l) (h : (c.apply call).2 = some (.granted v)) : v = u := by
  obtain ⟨state⟩ := c
  cases hc
  cases call with
  | request w now =>
    by_cases hu : u = w <;> simp [apply, request, hu] at h
    exact h.symm.trans hu.symm
  | release w => by_cases hu : u = w <;> simp [apply, release, hu] at h
  | ping w now => by_cases hu : u = w <;> simp [apply, FloorController.ping, hu] at h
  | checkTimers now =>
    simp only [apply, checkTimers] at h
    split at h
    · cases h
    · split at h <;> cases h
  | onParticipantLeave w => by_cases hu : u = w <;> simp [apply, onParticipantLeave, hu] at h

theorem exclusive_historyOf (calls : List Call) : Exclusive (historyOf calls).2 := by
  induction calls using List.reverseRecOn with
  | nil => exact each_nil
  | append_singleton calls call ih =>
    rw [historyOf_snoc]
    refine each_snoc.mpr ⟨ih, fun u v hu hv => ?_⟩
    obtain ⟨b, l, hstate⟩ := (says_historyOf calls).speaker hu
    exact apply_grants hstate hv

/-- The controller revokes the floor just when the history says that it is overdue. -/
theorem Says.revoked_iff {c : FloorController} {hist : List Entry} (h : Says c.state hist)
    (u : String) (now : Nat) : (∃ cause, (c.checkTimers now).2 = some (.revoked u cause)) ↔
      ∃ t since, TakenAt hist u t since ∧
        (now - t > floorMaxBurstMs ∨ now - lastPing u t since > floorPingTimeoutMs) := by
  obtain ⟨state⟩ := c
  constructor
  · rintro ⟨cause, hrevoked⟩
    cases state with
    | idle => cases hrevoked
    | taken speaker b l =>
      obtain ⟨⟨since, htaken, rfl⟩, -⟩ := h
      simp only [checkTimers] at hrevoked
      split at hrevoked
      · cases hrevoked
        exact ⟨b, since, htaken, .inl ‹_›⟩
      · split at hrevoked
        · cases hrevoked
          exact ⟨b, since, htaken, .inr ‹_›⟩
        · cases hrevoked
  · rintro ⟨t, since, htaken, hdue⟩
    obtain ⟨b, l, rfl⟩ := h.speaker htaken.held
    obtain ⟨⟨since', htaken', rfl⟩, -⟩ := h
    obtain ⟨rfl, rfl⟩ := htaken.unique htaken'
    simp only [checkTimers]
    split
    · exact ⟨_, rfl⟩
    · rw [if_pos (hdue.resolve_left ‹_›)]
      exact ⟨_, rfl⟩

theorem overdue_ends (calls : List Call) : Each (fun before e => ∀ u t since now,
    TakenAt before u t since → e.call = .checkTimers now → now - t > floorMaxBurstMs → Ends u e)
    (historyOf calls).2 := by
  induction calls using List.reverseRecOn with
  | nil => exact each_nil
  | append_singleton calls call ih =>
    rw [historyOf_snoc]
    refine each_snoc.mpr ⟨ih, ?_⟩
    rintro u t since now htaken rfl hdue
    exact .inr (((says_historyOf calls).revoked_iff u now).mpr ⟨t, since, htaken, .inl hdue⟩)

/-- However often it is asked for or pinged, a hold outlives no check past the limit. -/
theorem TakenAt.bounded {calls : List Call} {u : String} {t now : Nat} {since : List Entry}
    {e : Entry} (h : TakenAt (historyOf calls).2 u t since) (he : e ∈ since)
    (hcall : e.call = .checkTimers now) : now - t ≤ floorMaxBurstMs := by
  obtain ⟨a, heq, ha, hs⟩ := h
  obtain ⟨s₁, s₂, rfl⟩ := List.append_of_mem he
  by_contra hdue
  have htaken : TakenAt (a ++ ⟨.request u t, some (.granted u)⟩ :: s₁) u t s₁ :=
    ⟨a, rfl, ha, fun x hx => hs x (by simp [hx])⟩
  exact hs e he (overdue_ends calls _ e s₂ (by simp [heq]) u t s₁ now htaken hcall
    (Nat.not_le.mp hdue))

/-- Over any history the floor is one user's at a time, is revoked just when the request
that took it or the holder's latest ping since is too old, and is kept by nothing beyond
the first of the two limits. -/
theorem exclusive_and_bounded (calls : List Call) :
    Exclusive (historyOf calls).2 ∧
    (∀ u now, (∃ cause, ((historyOf calls).1.checkTimers now).2 = some (.revoked u cause)) ↔
      ∃ t since, TakenAt (historyOf calls).2 u t since ∧
        (now - t > floorMaxBurstMs ∨ now - lastPing u t since > floorPingTimeoutMs)) ∧
    ∀ u t since, TakenAt (historyOf calls).2 u t since →
      ∀ e ∈ since, ∀ now, e.call = .checkTimers now → now - t ≤ floorMaxBurstMs :=
  ⟨exclusive_historyOf calls, fun u now => (says_historyOf calls).revoked_iff u now,
    fun _ _ _ h _ he _ hcall => h.bounded he hcall⟩

/-- Asking again and pinging do not help alice past thirty seconds. -/
example : ((historyOf [.request "alice" 1000, .request "alice" 20000, .ping "alice" 30000,
    .release "bob"]).1.checkTimers 31001).2 = some (.revoked "alice" "max burst exceeded") := by
  decide

end LightLivechat.Room.FloorController
