import LightLivechat.Sfu.Isolation
import LightLivechat.Signaling.Talk

/-! Push-to-talk in the whole server.  Whatever else goes on, the floor of a room and its
rewriters run by the calls on the floor and by the packets that are decrypted for it. -/

namespace LightLivechat.Sfu

open LightLivechat.Config LightLivechat.Lib.Bytes LightLivechat.Lib.Histories LightLivechat.Lib.Runs
open LightLivechat.Lib.Std
open LightLivechat.Ptt (Talk TalkOp kindOf gapOf)
open LightLivechat.Room (Heap Ref Room RoomHub TrackKind FloorController PttRewriter)
open LightLivechat.Room.PttRewriter (Emission Emitted)
open LightLivechat.Room.FloorController (historyOf Exclusive Held TakenAt)
open LightLivechat.Signaling (talkOf talkIn)
open LightLivechat.Transport

section

variable {room : Room} {userId : String} {plaintext : Bytes}

theorem passGate_talk (hmode : room.mode = .ptt) (userId : String) (plaintext : Bytes) :
    Talk.of (passGate room userId plaintext).1 =
        (Talk.of room).apply (.packet userId plaintext) ∧
      (passGate room userId plaintext).2 = (Talk.of room).payload userId plaintext := by
  have hallowed : Udp.allowed room userId = true ↔ room.floor.currentSpeaker = some userId :=
    decide_eq_true_iff
  unfold passGate Talk.apply Talk.payload Talk.calls
  rw [if_pos hmode]
  by_cases hspeaker : room.floor.currentSpeaker = some userId
  · have hspeaker' : (Talk.of room).floor.currentSpeaker = some userId := hspeaker
    rw [if_neg (not_not.mpr (hallowed.mpr hspeaker)), if_pos hspeaker']
    simp only [hspeaker', true_and, Udp.rewriteRtp, kindOf]
    by_cases haudio : (Udp.parseRtpHeader plaintext).pt = 111
    · refine ⟨?_, by simp only [haudio, if_true]; rfl⟩
      simp only [haudio, if_true, Talk.of, Talk.floorCalls, List.foldl_nil]
      congr 1
      funext kind
      cases kind <;> rfl
    · by_cases hvideo : (Udp.parseRtpHeader plaintext).pt = 96
      · refine ⟨?_, by simp only [hvideo, if_true]; rfl⟩
        simp only [hvideo, if_true, Talk.of, Talk.floorCalls, List.foldl_nil]
        congr 1
        funext kind
        cases kind <;> rfl
      · simp only [haudio, hvideo, if_false]
        exact ⟨rfl, rfl⟩
  · have hspeaker' : ¬ (Talk.of room).floor.currentSpeaker = some userId := hspeaker
    rw [if_pos (fun h => hspeaker (hallowed.mp h)), if_neg hspeaker']
    simp only [hspeaker', false_and, if_false]
    exact ⟨rfl, trivial⟩

end

namespace State

variable {P : Platform}

def floorCalls (r : String) (s : State P) (l : Label) : List FloorController.Call :=
  if (talkIn s.rooms r).isSome then l.signals.elim [] (s.toServer.floorCalls r) else []

def talkPackets (r : String) (s : State P) (l : Label) : List (String × Bytes) :=
  match s.heard l with
  | some (.rtp sender room plaintext _) =>
    if room.id = r ∧ room.mode = .ptt then [((s.heap sender).userId, plaintext)] else []
  | _ => []

def talkOps (r : String) (s : State P) (l : Label) : List TalkOp :=
  (s.floorCalls r l).map .floor ++ (s.talkPackets r l).map fun x => .packet x.1 x.2

def voices (r : String) (kind : TrackKind) (s : State P) (l : Label) : List (Bytes × Bytes) :=
  match s.heard l with
  | some (.rtp sender room plaintext _) =>
    if room.id = r ∧ room.mode = .ptt ∧ kindOf plaintext = some kind then
      (passGate room (s.heap sender).userId plaintext).2.toList.map fun out => (plaintext, out)
    else []
  | _ => []

section

variable {s s' : State P} {l : Label} {r : String} {room : Room} {t : Talk} {kind : TrackKind}

theorem talkPackets_eq_nil
    (h : ∀ sender room plaintext arrival, s.heard l ≠ some (.rtp sender room plaintext arrival)) :
    s.talkPackets r l = [] := by
  unfold talkPackets
  split
  · exact absurd ‹_› (h _ _ _ _)
  · rfl

theorem floorCalls_eq_nil (h : l.signals = none) : s.floorCalls r l = [] := by
  unfold floorCalls
  rw [h]
  exact ite_self _

/-- A step works on the push-to-talk of a room as said, or the room is new. -/
theorem step_talk (hinv : s.Inv) (h : s.step l = some s') (r : String) :
    talkIn s.rooms r = none ∧ (∃ ssrc, talkIn s'.rooms r = some (.fresh ssrc)) ∨
      talkIn s'.rooms r = (talkIn s.rooms r).map fun t => (s.talkOps r l).foldl Talk.apply t := by
  cases hl : l.signals with
  | some l' =>
    obtain ⟨server, hstep, -, -, hrooms⟩ := step_signalled h hl
    rw [hrooms]
    refine (Signaling.Server.step_talk hstep r).imp_right fun htalk => htalk.trans ?_
    cases htalkIn : talkIn s.rooms r with
    | none => rfl
    | some t =>
      have hpackets : s.talkPackets r l = [] :=
        talkPackets_eq_nil (by simp [heard_of_signals hl])
      simp only [talkOps, hpackets, floorCalls, htalkIn, hl, Option.isSome_some, if_true,
        List.map_nil, List.append_nil, Option.elim_some]
  | none =>
    have hother : (∀ sender room plaintext arrival,
        s.heard l ≠ some (.rtp sender room plaintext arrival)) →
        talkIn s'.rooms r = talkIn s.rooms r → talkIn s'.rooms r =
          (talkIn s.rooms r).map fun t => (s.talkOps r l).foldl Talk.apply t := by
      intro hheard hsame
      rw [hsame, talkOps, talkPackets_eq_nil hheard, floorCalls_eq_nil hl]
      exact Option.map_id'.symm
    refine .inr ?_
    have hstepped := step_stepped h
    generalize s'.heap = heap, s'.next = next, s'.rooms = rooms at hstepped hother ⊢
    cases hstepped with
    | same hheard => exact hother (by simp [hheard]) rfl
    | signalled hsignals => cases hl.symm.trans hsignals
    | latched hheard hlatch =>
      exact hother (by simp [hheard]) (Signaling.talkIn_latchByUfrag hlatch r)
    | touched hheard | answered hheard | relayed hheard => exact hother (by simp [hheard]) rfl
    | installed | taken | readOut => exact hother (by simp [heard]) rfl
    | @forwarded worker now data remote arrival sender room plaintext hheard =>
      have huser : ((s.heap.update sender fun x => x.touch now) sender).userId =
          (s.heap sender).userId := by
        rw [Heap.update_same]
        rfl
      have hroom := (hinv.member hheard).1
      dsimp only [Media.source] at hroom
      rw [Signaling.talkIn_insert, handleSrtp_eq]
      dsimp only
      rw [huser]
      have hmode' := (passGate_floorOnly room (s.heap sender).userId plaintext).mode
      by_cases hr : r = room.id
      · subst hr
        rw [if_pos rfl, talkIn, hroom, talkOf, hmode', Option.bind_some, talkOf]
        by_cases hmode : room.mode = .ptt
        · simp only [talkOps, floorCalls_eq_nil hl, talkPackets, hheard, hmode, and_self, if_true]
          rw [(passGate_talk hmode _ _).1]
          rfl
        · simp only [hmode, if_false, Option.map_none]
      · rw [if_neg hr, talkOps, floorCalls_eq_nil hl, talkPackets, hheard]
        simp only [Ne.symm hr, false_and, if_false]
        exact Option.map_id'.symm

theorem Inv.talkIn_heard (hinv : s.Inv) {sender : Ref} {plaintext : Bytes} {arrival : Udp.Instant}
    (hheard : s.heard l = some (.rtp sender room plaintext arrival)) :
    talkIn s.rooms room.id = talkOf room ∧ l.signals = none := by
  cases l with
  | datagram =>
    have hroom : s.rooms.rooms.lookup room.id = some room := (hinv.member hheard).1
    rw [talkIn, hroom]
    exact ⟨rfl, rfl⟩
  | _ => cases hheard

theorem Inv.talkOps_eq_nil (hinv : s.Inv) (h : talkIn s.rooms r = none) : s.talkOps r l = [] := by
  have hcalls : s.floorCalls r l = [] := by
    unfold floorCalls
    rw [h]
    rfl
  have hpackets : s.talkPackets r l = [] := by
    unfold talkPackets
    split
    · refine if_neg ?_
      rintro ⟨rfl, hmode⟩
      rw [(hinv.talkIn_heard ‹_›).1] at h
      cases (if_pos hmode).symm.trans h
    · rfl
  rw [talkOps, hcalls, hpackets]
  rfl

theorem Inv.voices_eq_nil (hinv : s.Inv) (h : talkIn s.rooms r = none) (kind : TrackKind) :
    s.voices r kind l = [] := by
  unfold voices
  split
  · refine if_neg ?_
    rintro ⟨rfl, hmode, -⟩
    rw [(hinv.talkIn_heard ‹_›).1] at h
    cases (if_pos hmode).symm.trans h
  · rfl

theorem Inv.voices_eq (hinv : s.Inv) (ht : talkIn s.rooms r = some t) (kind : TrackKind) :
    s.voices r kind l = outputs Talk.step (Talk.passed kind) t (s.talkOps r l) := by
  unfold talkOps
  rw [outputs_append (Talk.run_foldl _ _), Talk.outputs_floor, List.nil_append]
  unfold voices talkPackets
  split
  · rename_i sender room plaintext arrival hheard
    by_cases hr : room.id = r ∧ room.mode = .ptt
    · obtain ⟨rfl, hmode⟩ := hr
      obtain ⟨htalk, hsignals⟩ := hinv.talkIn_heard hheard
      cases (htalk.trans (if_pos hmode)).symm.trans ht
      rw [floorCalls_eq_nil hsignals]
      simp only [hmode, and_self, true_and, if_true, List.map_nil, List.foldl_nil, List.map_cons,
        outputs, Talk.step, List.append_nil]
      rw [(passGate_talk hmode _ _).2]
      rfl
    · rw [if_neg hr, if_neg fun h => hr ⟨h.1, h.2.1⟩]
      rfl
  · rfl

end

/-- The push-to-talk of the room is the result of running the operations from a fresh one, and
what it has let through is what that run lets through; a room without one has neither. -/
def Told (r : String) (s : State P) (ops : List TalkOp) (voice : TrackKind → List (Bytes × Bytes)) :
    Prop :=
  match talkIn s.rooms r with
  | none => ops = [] ∧ ∀ kind, voice kind = []
  | some t => ∃ ssrc, run Talk.step (.fresh ssrc) ops = some t ∧
      ∀ kind, voice kind = outputs Talk.step (Talk.passed kind) (.fresh ssrc) ops

section

variable {draws : Fin 3 → Signaling.Draws} {labels : List Label} {s : State P} {r : String}
variable {room : Room}

theorem talkIn_start (P : Platform) (draws : Fin 3 → Signaling.Draws) (r : String) :
    talkIn (start P draws).rooms r = none ∨
      ∃ ssrc, talkIn (start P draws).rooms r = some (.fresh ssrc) := by
  have hcreate : ∀ (hub : RoomHub) (id name : String) (capacity : Option Nat) (mode : RoomMode)
      (now : Nat) (audioSsrc videoSsrc : U32),
      (talkIn hub r = none ∨ ∃ ssrc, talkIn hub r = some (.fresh ssrc)) →
      let hub' := hub.create id name capacity mode now audioSsrc videoSsrc
      talkIn hub' r = none ∨ ∃ ssrc, talkIn hub' r = some (.fresh ssrc) := by
    intro hub id name capacity mode now audioSsrc videoSsrc h
    dsimp only
    rw [Signaling.talkIn_create]
    split
    · split
      · exact .inr ⟨_, rfl⟩
      · exact .inl rfl
    · exact h
  exact hcreate _ _ _ _ _ _ _ _ (hcreate _ _ _ _ _ _ _ _ (hcreate _ _ _ _ _ _ _ _ (.inl rfl)))

theorem told_run (h : run step (start P draws) labels = some s) (r : String) :
    Told r s (outputs step (talkOps r) (start P draws) labels)
      fun kind => outputs step (voices r kind) (start P draws) labels := by
  refine (run_induction (P := fun labels t => t.Inv ∧
    Told r t (outputs step (talkOps r) (start P draws) labels)
      fun kind => outputs step (voices r kind) (start P draws) labels)
    ⟨inv_start P draws, ?_⟩ (fun labels t l t' hrun hP hstep => ?_) h).2
  · unfold Told
    obtain hnone | ⟨ssrc, hfresh⟩ := talkIn_start P draws r
    · rw [hnone]
      exact ⟨rfl, fun _ => rfl⟩
    · rw [hfresh]
      exact ⟨ssrc, rfl, fun _ => rfl⟩
  · obtain ⟨hinv, htold⟩ := hP
    refine ⟨inv_step hinv hstep, ?_⟩
    simp only [outputs_snoc hrun]
    unfold Told at htold ⊢
    cases htalk : talkIn t.rooms r with
    | none =>
      rw [htalk] at htold
      obtain ⟨hops, hvoice⟩ := htold
      rw [hops, hinv.talkOps_eq_nil htalk]
      simp only [hvoice, hinv.voices_eq_nil htalk]
      obtain ⟨-, ssrc, hnew⟩ | hsame := step_talk hinv hstep r
      · rw [hnew]
        exact ⟨ssrc, rfl, fun _ => rfl⟩
      · rw [hsame, htalk]
        exact ⟨rfl, fun _ => rfl⟩
    | some x =>
      rw [htalk] at htold
      obtain ⟨ssrc, hops, hvoice⟩ := htold
      obtain ⟨hnone, -⟩ | hsome := step_talk hinv hstep r
      · cases hnone.symm.trans htalk
      · rw [hsome, htalk]
        refine ⟨ssrc, ?_, fun kind => ?_⟩
        · rw [run_append hops]
          exact Talk.run_foldl ..
        · dsimp only at hvoice ⊢
          rw [hvoice, outputs_append hops, hinv.voices_eq htalk]

def virtualSsrcs (room : Room) (kind : TrackKind) : U32 :=
  ((Talk.of room).rewriter kind).virtualSsrc

/-- Along every run, what a push-to-talk room lets through of one kind is one stream under one
SSRC: through every change of speaker each packet is numbered on from the ones before it.
The steps are whole handlers: between the calls of one, in `Ptt.step`, a packet can pass as
it is. -/
theorem one_voice (h : run step (start P draws) labels = some s)
    (hroom : s.rooms.rooms.lookup r = some room) (hmode : room.mode = .ptt) (kind : TrackKind) :
    let log := Talk.log kind (virtualSsrcs room) (outputs step (talkOps r) (start P draws) labels)
    log.map (fun e => (e.original, e.emitted)) =
        outputs step (voices r kind) (start P draws) labels ∧
      Each (Emitted (virtualSsrcs room kind) (gapOf kind)) log := by
  have htold := told_run h r
  have htalk : talkIn s.rooms r = some (.of room) := by
    rw [talkIn, hroom]
    exact if_pos hmode
  unfold Told at htold
  rw [htalk] at htold
  obtain ⟨ssrc, hops, hvoice⟩ := htold
  dsimp only at hvoice
  have hssrc : virtualSsrcs room = ssrc := funext (Talk.run_ssrc hops)
  rw [hvoice, hssrc]
  exact Talk.stream hops kind

theorem one_voice_talked : ∃ s room, run step Call.start Call.talked = some s ∧
    s.rooms.rooms.lookup "walkie" = some room ∧ room.mode = .ptt ∧
    (outputs step (voices "walkie" .audio) Call.start Call.talked).map (fun x => x.1) =
      [Call.opus] ∧
    let log := Talk.log .audio (virtualSsrcs room)
      (outputs step (talkOps "walkie") Call.start Call.talked)
    log.map (fun e => (e.original, e.emitted)) =
        outputs step (voices "walkie" .audio) Call.start Call.talked ∧
      Each (Emitted (virtualSsrcs room .audio) (gapOf .audio)) log := by
  obtain ⟨s, h, hs⟩ := Option.map_eq_some_iff.mp
    (show (run step Call.start Call.talked).map (fun s =>
      (s.rooms.rooms.lookup "walkie").map fun room => room.mode) = some (some .ptt) by
      decide +kernel)
  obtain ⟨room, hroom, hmode⟩ := Option.map_eq_some_iff.mp hs
  exact ⟨s, room, h, hroom, hmode, by decide +kernel, one_voice h hroom hmode .audio⟩

theorem talkOps_floorCalls (s : State P) (r : String) (l : Label) :
    (s.talkOps r l).flatMap Talk.floorCalls = s.floorCalls r l := by
  simp [talkOps, List.flatMap_append, List.flatMap_map, Talk.floorCalls]

/-- Along every run the floor of a push-to-talk room is the history of the calls on it, by
members and others: one user has it at a time, who asked for it when nobody had it, and
nothing keeps it through a tick past the limit. -/
theorem one_floor (h : run step (start P draws) labels = some s)
    (hroom : s.rooms.rooms.lookup r = some room) (hmode : room.mode = .ptt) :
    let calls := outputs step (floorCalls r) (start P draws) labels
    room.floor = (historyOf calls).1 ∧ Exclusive (historyOf calls).2 ∧
      (∀ u, room.floor.currentSpeaker = some u ↔ Held (historyOf calls).2 u) ∧
      ∀ u t since, TakenAt (historyOf calls).2 u t since →
        ∀ e ∈ since, ∀ now, e.call = .checkTimers now → now - t ≤ floorMaxBurstMs := by
  intro calls
  have hfloor : room.floor = (historyOf calls).1 := by
    have htold := told_run h r
    have htalk : talkIn s.rooms r = some (.of room) := by
      rw [talkIn, hroom]
      exact if_pos hmode
    unfold Told at htold
    rw [htalk] at htold
    obtain ⟨ssrc, hops, -⟩ := htold
    refine (Talk.floor_history hops).trans ?_
    rw [outputs_flatMap]
    simp only [talkOps_floorCalls]
    rfl
  exact ⟨hfloor, FloorController.exclusive_historyOf calls,
    fun u => hfloor ▸ FloorController.speaker_iff_held calls u,
    fun _ _ _ htaken _ he _ hcall => htaken.bounded he hcall⟩

theorem one_floor_talked : ∃ s room, run step Call.start Call.talked = some s ∧
    s.rooms.rooms.lookup "walkie" = some room ∧ room.floor.currentSpeaker = some "alice" ∧
    Held (historyOf (outputs step (floorCalls "walkie") Call.start Call.talked)).2 "alice" := by
  obtain ⟨s, h, hs⟩ := Option.map_eq_some_iff.mp
    (show (run step Call.start Call.talked).map (fun s =>
      (s.rooms.rooms.lookup "walkie").map fun room => (room.mode, room.floor.currentSpeaker)) =
      some (some (.ptt, some "alice")) by decide +kernel)
  obtain ⟨room, hroom, hboth⟩ := Option.map_eq_some_iff.mp hs
  obtain ⟨hmode, hspeaker⟩ := Prod.mk.inj hboth
  exact ⟨s, room, h, hroom, hspeaker, ((one_floor h hroom hmode).2.2.1 "alice").mp hspeaker⟩

end

end State

end LightLivechat.Sfu
