import LightLivechat.Lib.Channel
import LightLivechat.Sfu.Invariants

/-! The egress channel of a participant, from what is fanned out to what its task sends. -/

namespace LightLivechat.Sfu

open LightLivechat.Config LightLivechat.Lib LightLivechat.Lib.Bytes LightLivechat.Lib.Std
open LightLivechat.Lib.Runs
open LightLivechat.Room (Heap Ref Participant PcType Room RoomHub EgressPacket)
open LightLivechat.Transport LightLivechat.Transport.Srtp
open LightLivechat.Transport.Udp (Instant)

namespace State

variable {P : Platform}

/-- What a datagram offers to the queue of a participant: what is fanned out in its room, and
the retransmissions it has asked for. -/
def offers (p : Ref) (s : State P) : Label → List EgressPacket
  | .datagram worker data remote now arrival =>
    match s.heard (.datagram worker data remote now arrival) with
    | some (.rtp sender room plaintext _) =>
      if Hears s.heap room (s.heap sender).userId p then
        ((passGate room (s.heap sender).userId plaintext).2.map .rtp).toList
      else []
    | some (.rtcp sender room plaintext) =>
      if room.mode = .ptt ∧ ¬ Udp.allowed room (s.heap sender).userId then []
      else if Hears s.heap room (s.heap sender).userId p then [.rtcp plaintext]
      else []
    | some (.feedback subscriber room plaintext) =>
      if p = subscriber then
        (answerNacks (s.touch p now).heap room p plaintext).2.map fun x => .rtp x.packet
      else []
    | none => []
  | _ => []

def egressOps (p : Ref) (s : State P) (l : Label) : List (Channel.Op EgressPacket) :=
  match l with
  | .egress q => if q = p then [.take] else []
  | l => (s.offers p l).map .offer

def handed (p : Ref) (s : State P) : Label → List EgressPacket
  | .egress q => if q = p then (s.heap p).egress.head?.toList else []
  | _ => []

section

variable {s s' : State P} {l : Label} {heap : Heap} {next : Ref} {rooms : RoomHub} {p q : Ref}

theorem offers_eq_nil (h : s.heard l = none) : s.offers p l = [] := by
  cases l with
  | datagram => simp only [offers, h]
  | _ => rfl

theorem egressOps_eq_nil (h : s.heard l = none) (htakes : ∀ p, l ≠ .egress p) :
    s.egressOps p l = [] := by
  cases l with
  | egress q => exact absurd rfl (htakes q)
  | _ => simp only [egressOps, offers_eq_nil h, List.map_nil]

theorem heard_of_signals {l' : Signaling.Label} (h : l.signals = some l') : s.heard l = none := by
  cases l with
  | datagram => cases h
  | _ => rfl

theorem trySend_egress (x : Participant) (packet : EgressPacket) : (x.trySend packet).egress =
    Channel.apply egressQueueSize x.egress (.offer packet) := by
  unfold Participant.trySend Channel.apply
  dsimp only
  split <;> rfl

theorem Inv.keyed (hinv : s.Inv) {r : String} {room : Room}
    (hroom : s.rooms.rooms.lookup r = some room) : room.Keyed s.heap :=
  (hinv.sound.room hroom).2.toKeyed

theorem mediaOnly_touch (s : State P) (p : Ref) (now : Nat) (q : Ref) :
    MediaOnly (s.heap q) ((s.touch p now).heap q) :=
  MediaOnly.update (f := fun x => x.touch now) ⟨rfl⟩ q

theorem hears_congr {heap' : Heap} (h : ∀ q, MediaOnly (heap q) (heap' q)) (room : Room)
    (userId : String) (p : Ref) : Hears heap' room userId p ↔ Hears heap room userId p := by
  have hready : (heap' p).isSubscribeReady = (heap p).isSubscribeReady :=
    congrArg (fun f => (f .subscribe).mediaReady) (h p).session
  rw [Hears, Hears, (h p).userId, hready]

theorem Inv.fanOut_egress (hinv : s.Inv) {r : String} {room : Room}
    (hroom : s.rooms.rooms.lookup r = some room) (hheap : ∀ q, MediaOnly (s.heap q) (heap q))
    (hsame : (heap p).egress = (s.heap p).egress) (userId : String) (packet : EgressPacket) :
    (Udp.fanOut heap room userId packet p).egress =
      Channel.waiting egressQueueSize (s.heap p).egress
        ((if Hears s.heap room userId p then [packet] else []).map .offer) := by
  have hkeyed : room.Keyed heap := ⟨fun {u q} hu => by
    rw [(hheap q).userId]
    exact (hinv.keyed hroom).userId hu⟩
  rw [fanOut_apply hkeyed]
  simp only [hears_congr hheap]
  split
  · rw [trySend_egress, hsame]
    rfl
  · exact hsame

theorem Stepped.egress (h : Stepped s l heap next rooms) (hinv : s.Inv) (p : Ref) :
    (heap p).egress = Channel.waiting egressQueueSize (s.heap p).egress (s.egressOps p l) := by
  have hupdate : ∀ (heap : Heap) {q : Ref} {f : Participant → Participant},
      (f (heap q)).egress = (heap q).egress →
      ((heap.update q f) p).egress = (heap p).egress :=
    fun heap _ _ hf => Heap.update_field (fun y => y.egress) hf p
  have htouch : ∀ q now, ((s.touch q now).heap p).egress = (s.heap p).egress :=
    fun q now => hupdate s.heap rfl
  have hmedia : ∀ q now q', MediaOnly (s.heap q') ((s.touch q now).heap q') :=
    fun q now => s.mediaOnly_touch q now
  cases h with
  | same hheard htakes _ =>
    rw [egressOps_eq_nil hheard htakes]
    rfl
  | signalled hl h =>
    rw [egressOps_eq_nil (heard_of_signals hl) (by rintro q rfl; cases hl)]
    exact hinv.signalled_field hl h (fun y => y.egress) (fun _ _ _ _ => rfl) (fun _ _ _ => rfl) p
  | @latched _ now _ _ _ _ latched _ q pc hheard h =>
    obtain ⟨roomId, room, room', -, -, hlatch, -⟩ := Room.RoomHub.latchByUfrag_eq_some h
    obtain ⟨-, rfl, -⟩ := Room.Room.latch_spec hlatch
    rw [egressOps_eq_nil hheard (by simp), hupdate _ rfl, Room.Heap.latch,
      hupdate _ (by cases pc <;> rfl)]
    rfl
  | touched hheard =>
    rw [egressOps_eq_nil hheard (by simp), hupdate _ rfl]
    rfl
  | @answered _ now _ _ _ subscriber room plaintext h =>
    rw [handleSubscribeRtcp_heap]
    simp only [egressOps, offers, h]
    obtain ⟨hsent, -⟩ := @answerNacks_sent (s.touch subscriber now).heap room subscriber plaintext
    by_cases hp : p = subscriber
    · subst hp
      rw [if_pos rfl, Channel.waiting_offers, ← htouch p now]
      exact hsent.queued
    · rw [if_neg hp]
      exact (hsent.others p hp).trans (htouch subscriber now)
  | @relayed _ now _ _ _ sender room plaintext h =>
    simp only [egressOps, offers, h]
    unfold Udp.relayPublishRtcp
    split
    · exact htouch sender now
    · exact hinv.fanOut_egress (hinv.member h).1 (hmedia sender now) (htouch sender now) _ _
  | @forwarded _ now _ _ arrival sender room plaintext h =>
    have htake : ∀ q, MediaOnly (s.heap q) (((s.touch sender now).heap.update
        sender fun y => Udp.takeIn y plaintext arrival) q) :=
      fun q => (hmedia sender now q).trans
        (.update (f := fun y => Udp.takeIn y plaintext arrival) (.takeIn ..) q)
    have hold : (((s.touch sender now).heap.update
        sender fun y => Udp.takeIn y plaintext arrival) p).egress = (s.heap p).egress :=
      (hupdate _ (Udp.takeIn_egress ..)).trans (htouch sender now)
    have huser : ((s.touch sender now).heap sender).userId = (s.heap sender).userId :=
      (hmedia sender now sender).userId
    have heq := handleSrtp_eq (s.touch sender now).heap room sender plaintext arrival
    rw [huser] at heq
    simp only [egressOps, offers, h]
    rw [show Udp.handleSrtp (s.heap.update sender fun x => x.touch now) room sender plaintext
      arrival = _ from heq]
    dsimp only
    cases hpayload : (passGate room (s.heap sender).userId plaintext).2 with
    | none =>
      simp only [Option.map_none, Option.toList_none, ite_self]
      exact hold
    | some payload =>
      exact hinv.fanOut_egress (hinv.member h).1 htake hold _ _
  | @installed _ _ y h hi =>
    rw [egressOps_eq_nil rfl (by simp), hupdate _ (by cases y.pcType <;> rfl)]
    rfl
  | @taken q _ rest h hq =>
    rw [Heap.update_apply]
    simp only [egressOps]
    by_cases hp : p = q
    · subst hp
      rw [if_pos rfl, if_pos rfl, h]
      rfl
    · rw [if_neg hp, if_neg fun heq => hp heq.symm]
      rfl
  | readOut h =>
    obtain ⟨recorder, hq⟩ := h p
    rw [egressOps_eq_nil rfl (by simp), hq]
    rfl

theorem Stepped.mem_egress (h : Stepped s l heap next rooms) (hinv : s.Inv) {x : EgressPacket}
    (hx : x ∈ (heap p).egress) : x ∈ (s.heap p).egress ∨ x ∈ s.offers p l := by
  rw [h.egress hinv] at hx
  refine (Channel.mem_waiting hx).imp_right fun hoffered => ?_
  cases l with
  | egress q =>
    simp only [egressOps] at hoffered
    split at hoffered <;> cases hoffered
  | _ => simpa only [egressOps, Channel.offered_offers] using hoffered

theorem taken_egressOps (p : Ref) (s : State P) (l : Label) :
    Channel.taken egressQueueSize (s.heap p).egress (s.egressOps p l) = s.handed p l := by
  cases l with
  | egress q =>
    simp only [egressOps, handed]
    split
    · simp [Channel.taken]
    · rfl
  | _ => exact Channel.taken_offers ..

end

section

variable {draws : Fin 3 → Signaling.Draws} {labels : List Label} {s : State P}

/-- The queue of a participant is what the operations of the run leave in its channel, and the
task has been handed what they take out. -/
theorem egress_channel (h : run step (start P draws) labels = some s) (p : Ref) :
    let ops := outputs step (egressOps p) (start P draws) labels
    (s.heap p).egress = Channel.waiting egressQueueSize [] ops ∧
      outputs step (handed p) (start P draws) labels = Channel.taken egressQueueSize [] ops := by
  have hP := run_induction (P := fun labels t => t.Inv ∧
    (t.heap p).egress = Channel.waiting egressQueueSize []
      (outputs step (egressOps p) (start P draws) labels) ∧
    outputs step (handed p) (start P draws) labels = Channel.taken egressQueueSize []
      (outputs step (egressOps p) (start P draws) labels))
    ⟨inv_start P draws, rfl, rfl⟩ (fun as t l t' hrun hP hstep => ?_) h
  · exact hP.2
  · obtain ⟨hinv, hqueue, htaken⟩ := hP
    refine ⟨inv_step hinv hstep, ?_, ?_⟩
    · rw [(step_stepped hstep).egress hinv p, outputs_snoc hrun, Channel.waiting_append, ← hqueue]
    · rw [outputs_snoc hrun, outputs_snoc hrun, Channel.taken_append, ← hqueue, taken_egressOps,
        htaken]

/-- What the egress task of a participant has been handed, and after it what still waits, is
what the channel took of what it was offered, in that order and each once.  It never holds
more than its bound, and takes everything while it is below. -/
theorem egress_fifo (h : run step (start P draws) labels = some s) (p : Ref) :
    let ops := outputs step (egressOps p) (start P draws) labels
    outputs step (handed p) (start P draws) labels ++ (s.heap p).egress =
        Channel.accepted egressQueueSize [] ops ∧
      (Channel.accepted egressQueueSize [] ops).Sublist (Channel.offered ops) ∧
      (s.heap p).egress.length ≤ egressQueueSize ∧
      (Channel.Roomy egressQueueSize [] ops →
        outputs step (handed p) (start P draws) labels ++ (s.heap p).egress =
          Channel.offered ops) := by
  intro ops
  obtain ⟨hqueue, htaken⟩ := egress_channel h p
  have hall : outputs step (handed p) (start P draws) labels ++ (s.heap p).egress =
      Channel.accepted egressQueueSize [] ops := by
    rw [hqueue, htaken, Channel.taken_append_waiting, List.nil_append]
  refine ⟨hall, Channel.accepted_sublist .., ?_, fun hroomy => ?_⟩
  · rw [hqueue]
    exact Channel.length_waiting (Nat.zero_le _) _
  · rw [hall, Channel.accepted_of_roomy hroomy]

/-- Bob's task has been handed the frame, and two retransmissions of it wait. -/
theorem egress_fifo_watched : ∃ s, run step Call.start Call.watched = some s ∧
    (s.heap 1).egress.length = 2 ∧
    outputs step (handed 1) Call.start Call.watched = [.rtp Call.video] ∧
    outputs step (handed 1) Call.start Call.watched ++ (s.heap 1).egress =
      Channel.accepted egressQueueSize [] (outputs step (egressOps 1) Call.start Call.watched) := by
  obtain ⟨s, h, hlen⟩ := Option.map_eq_some_iff.mp
    (show (run step Call.start Call.watched).map (fun s => (s.heap 1).egress.length) = some 2 by
      decide +kernel)
  exact ⟨s, h, hlen, by decide +kernel, (egress_fifo h 1).1⟩

end

end State

end LightLivechat.Sfu
