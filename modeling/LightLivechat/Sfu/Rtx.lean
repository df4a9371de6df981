import LightLivechat.Lib.Serial
import LightLivechat.Sfu.Caches

/-! The numbers of retransmissions.  A publisher counts what is retransmitted of its packets,
whoever asked for it. -/

namespace LightLivechat.Sfu

open LightLivechat.Config LightLivechat.Lib LightLivechat.Lib.Bytes LightLivechat.Lib.Std
open LightLivechat.Lib.Runs LightLivechat.Lib.Serial
open LightLivechat.Room (Heap Ref Participant PcType MediaSession Room RoomHub EgressPacket RtpCache)
open LightLivechat.Transport
open LightLivechat.Transport.Udp (Instant RtxPacket NackItem)

/-- Whose packets a NACK is answered with. -/
def nackPublisher (heap : Heap) (room : Room) (nack : NackItem) : Option Ref :=
  room.findByTrackSsrc heap (Udp.lookupOf heap room nack).1

/-- Retransmissions, each with the publisher it counts for. -/
abbrev Ledger := List (Ref × RtxPacket)

def ledgerItem (room : Room) (subscriber : Ref) (acc : Heap × Ledger) (nack : NackItem) :
    Heap × Ledger :=
  let (heap, rtx) := Udp.handleNackItem acc.1 room subscriber nack
  (heap, acc.2 ++ (nackPublisher acc.1 room nack).toList.flatMap fun p => rtx.map fun x => (p, x))

/-- The NACKs of a compound are answered, and it is written down for whom. -/
def ledgerOf (heap : Heap) (room : Room) (subscriber : Ref) (plaintext : Bytes) : Heap × Ledger :=
  (Udp.splitCompoundRtcp plaintext).nackBlocks.foldl (fun acc nackBlock =>
    (Udp.parseRtcpNack nackBlock).foldl (ledgerItem room subscriber) acc) (heap, [])

def seqsOf (p : Ref) (ledger : Ledger) : List U16 :=
  (ledger.filter fun e => e.1 = p).map fun e => e.2.rtxSeq

/-- Each publisher has counted on by what was retransmitted for it. -/
def Counted (heap heap' : Heap) (ledger : Ledger) : Prop :=
  ∀ p, seqsOf p ledger = countFrom (heap p).rtxSeq (seqsOf p ledger).length ∧
    (heap' p).rtxSeq = (heap p).rtxSeq + BitVec.ofNat 16 (seqsOf p ledger).length

theorem seqsOf_append (p : Ref) (xs ys : Ledger) :
    seqsOf p (xs ++ ys) = seqsOf p xs ++ seqsOf p ys := by
  rw [seqsOf, List.filter_append, List.map_append]
  rfl

section

variable {heap heap' heap'' : Heap} {room : Room} {subscriber : Ref} {xs ys : Ledger}

theorem Counted.refl (heap : Heap) : Counted heap heap [] := fun p => by simp [seqsOf, countFrom]

theorem Counted.trans (h : Counted heap heap' xs) (h' : Counted heap' heap'' ys) :
    Counted heap heap'' (xs ++ ys) := fun p => by
  obtain ⟨hseqs, hnext⟩ := h p
  obtain ⟨hseqs', hnext'⟩ := h' p
  rw [seqsOf_append, List.length_append, countFrom_add, ← hseqs, ← hnext, ← hseqs', hnext', hnext,
    BitVec.ofNat_add, BitVec.add_assoc]
  exact ⟨rfl, rfl⟩

theorem rtxPackets_counted (cache : RtpCache) (rtxSsrc : U32) (rtxSeq : U16) (seqs : List U16) :
    (Udp.rtxPackets cache rtxSsrc rtxSeq seqs).2.map (fun x => x.rtxSeq) =
        countFrom rtxSeq (Udp.rtxPackets cache rtxSsrc rtxSeq seqs).2.length ∧
      (Udp.rtxPackets cache rtxSsrc rtxSeq seqs).1 =
        rtxSeq + BitVec.ofNat 16 (Udp.rtxPackets cache rtxSsrc rtxSeq seqs).2.length := by
  induction seqs generalizing rtxSeq with
  | nil => simp [Udp.rtxPackets, countFrom]
  | cons n seqs ih =>
    unfold Udp.rtxPackets
    split
    · exact ih rtxSeq
    · obtain ⟨hseqs, hnext⟩ := ih (rtxSeq + 1)
      dsimp only
      rw [List.map_cons, List.length_cons, Nat.add_comm, countFrom_add, BitVec.ofNat_add, hnext,
        hseqs, BitVec.add_assoc]
      exact ⟨by simp [countFrom], rfl⟩

theorem seqsOf_publisher (p q : Ref) (rtx : List RtxPacket) :
    seqsOf p (rtx.map fun x => (q, x)) = if q = p then rtx.map (fun x => x.rtxSeq) else [] := by
  unfold seqsOf
  split <;> simp [List.filter_map, Function.comp_def, *]

theorem handleNackItem_counted (heap : Heap) (room : Room) (subscriber : Ref) (nack : NackItem) :
    Counted heap (Udp.handleNackItem heap room subscriber nack).1
      ((nackPublisher heap room nack).toList.flatMap fun p =>
        (Udp.handleNackItem heap room subscriber nack).2.map fun x => (p, x)) := by
  unfold Udp.handleNackItem nackPublisher
  dsimp only
  cases room.findByTrackSsrc heap (Udp.lookupOf heap room nack).1 with
  | none => exact .refl heap
  | some publisher =>
    rw [Option.toList_some, List.flatMap_singleton]
    dsimp only
    split
    · exact .refl heap
    · rename_i rtxSsrc _
      obtain ⟨hseqs, hnext⟩ := rtxPackets_counted (heap publisher).rtpCache rtxSsrc
        (heap publisher).rtxSeq (Udp.lookupOf heap room nack).2
      generalize Udp.rtxPackets (heap publisher).rtpCache rtxSsrc (heap publisher).rtxSeq
        (Udp.lookupOf heap room nack).2 = sent at *
      intro p
      have hqueue : ∀ h : Heap, (sent.2.foldl (fun heap x =>
          Heap.update heap subscriber fun p => p.trySend (.rtp x.packet)) h p).rtxSeq =
            (h p).rtxSeq := by
        intro h
        refine List.foldlRecOn (motive := fun h' : Heap => (h' p).rtxSeq = (h p).rtxSeq) _ _ rfl
          fun h' hh x _ => ?_
        exact (Heap.update_field (f := fun y => y.trySend (.rtp x.packet)) (fun y => y.rtxSeq)
          (by unfold Participant.trySend; split <;> rfl) p).trans hh
      rw [hqueue, seqsOf_publisher, Heap.update_apply]
      by_cases hp : publisher = p
      · subst hp
        rw [if_pos rfl, if_pos rfl, List.length_map]
        exact ⟨hseqs, hnext⟩
      · rw [if_neg hp, if_neg (Ne.symm hp)]
        simp [countFrom]

theorem ledgerOf_counted (heap : Heap) (room : Room) (subscriber : Ref) (plaintext : Bytes) :
    Counted heap (ledgerOf heap room subscriber plaintext).1
      (ledgerOf heap room subscriber plaintext).2 := by
  refine List.foldlRecOn (motive := fun acc : Heap × Ledger => Counted heap acc.1 acc.2) _ _
    (.refl heap) fun acc hacc nackBlock _ => ?_
  refine List.foldlRecOn (motive := fun acc : Heap × Ledger => Counted heap acc.1 acc.2) _ _
    hacc fun acc hacc nack _ => ?_
  exact hacc.trans (handleNackItem_counted acc.1 room subscriber nack)

theorem ledger_rtx (heap : Heap) (room : Room) (subscriber : Ref) (nack : NackItem) :
    ((nackPublisher heap room nack).toList.flatMap fun p =>
      (Udp.handleNackItem heap room subscriber nack).2.map fun x => (p, x)).map (fun e => e.2) =
      (Udp.handleNackItem heap room subscriber nack).2 := by
  unfold Udp.handleNackItem nackPublisher
  dsimp only
  cases room.findByTrackSsrc heap (Udp.lookupOf heap room nack).1 with
  | none => rfl
  | some publisher =>
    rw [Option.toList_some, List.flatMap_singleton, List.map_map]
    exact List.map_id _

theorem foldl_ledgerItem (nacks : List NackItem) (acc : Heap × Ledger) :
    (nacks.foldl (ledgerItem room subscriber) acc).1 =
        (nacks.foldl (Udp.answerNack room subscriber) (acc.1, [])).1 ∧
      (nacks.foldl (ledgerItem room subscriber) acc).2.map (fun e => e.2) =
        acc.2.map (fun e => e.2) ++
          (nacks.foldl (Udp.answerNack room subscriber) (acc.1, [])).2 := by
  induction nacks using List.reverseRecOn with
  | nil => simp
  | append_singleton nacks nack ih =>
    obtain ⟨hheap, hledger⟩ := ih
    simp only [List.foldl_append, List.foldl_cons, List.foldl_nil]
    generalize nacks.foldl (ledgerItem room subscriber) acc = x at *
    generalize nacks.foldl (Udp.answerNack room subscriber) (acc.1, []) = y at *
    unfold ledgerItem Udp.answerNack
    dsimp only
    rw [List.map_append, ledger_rtx, hheap, hledger, List.append_assoc]
    exact ⟨rfl, rfl⟩

theorem ledgerOf_answerNacks (heap : Heap) (room : Room) (subscriber : Ref) (plaintext : Bytes) :
    (ledgerOf heap room subscriber plaintext).1 = (answerNacks heap room subscriber plaintext).1 ∧
      (ledgerOf heap room subscriber plaintext).2.map (fun e => e.2) =
        (answerNacks heap room subscriber plaintext).2 := by
  unfold ledgerOf answerNacks
  induction (Udp.splitCompoundRtcp plaintext).nackBlocks using List.reverseRecOn with
  | nil => exact ⟨rfl, rfl⟩
  | append_singleton blocks block ih =>
    obtain ⟨hheap, hledger⟩ := ih
    simp only [List.foldl_append, List.foldl_cons, List.foldl_nil]
    obtain ⟨hheap', hledger'⟩ := @foldl_ledgerItem room subscriber
      (Udp.parseRtcpNack block) (blocks.foldl (fun acc nackBlock =>
        (Udp.parseRtcpNack nackBlock).foldl (ledgerItem room subscriber) acc) (heap, []))
    rw [hheap', hledger', hheap, hledger]
    exact ⟨rfl, rfl⟩

end

namespace State

variable {P : Platform}

def retransmitted (s : State P) : Label → Ledger
  | .datagram worker data remote now arrival =>
    match s.heard (.datagram worker data remote now arrival) with
    | some (.feedback subscriber room plaintext) =>
      (ledgerOf (s.touch subscriber now).heap room subscriber plaintext).2
    | _ => []
  | _ => []

section

variable {s s' : State P} {l : Label}

theorem fromPackets_rtxSeq : FromPackets fun y => y.rtxSeq where
  signalled := fun _ _ _ _ => rfl
  fresh := fun _ _ _ => rfl
  session := fun _ pc _ => by cases pc <;> rfl
  queue := fun _ _ => rfl

theorem foldl_takeIn_rtxSeq (y : Participant) (xs : List (Bytes × Instant)) :
    (xs.foldl (fun y x => Udp.takeIn y x.1 x.2) y).rtxSeq = y.rtxSeq := by
  refine List.foldlRecOn (motive := fun y' : Participant => y'.rtxSeq = y.rtxSeq) _ _ rfl
    fun y' hy x _ => ?_
  unfold Udp.takeIn
  dsimp only
  split <;> split <;> exact hy

theorem Stepped.answered_of_heard {heap : Heap} {next : Ref} {rooms : RoomHub}
    {subscriber : Ref} {room : Room} {plaintext : Bytes} (h : Stepped s l heap next rooms)
    (hheard : s.heard l = some (.feedback subscriber room plaintext)) :
    ∃ worker data remote now arrival, l = .datagram worker data remote now arrival ∧
      heap = (answerNacks (s.touch subscriber now).heap room subscriber plaintext).1 := by
  cases h with
  | same hnone | latched hnone | touched hnone => cases hheard.symm.trans hnone
  | signalled hl => cases hheard.symm.trans (heard_of_signals hl)
  | @answered _ now _ _ _ p room' plaintext' h =>
    cases hheard.symm.trans h
    exact ⟨_, _, _, now, _, rfl, handleSubscribeRtcp_heap _⟩
  | relayed h | forwarded h => cases hheard.symm.trans h
  | installed | taken | readOut => cases hheard

theorem step_counted (hinv : s.Inv) (h : s.step l = some s') :
    Counted s.heap s'.heap (s.retransmitted l) := by
  have hstepped := step_stepped h
  generalize s'.heap = heap, s'.next = next, s'.rooms = rooms at hstepped
  have hother : (∀ subscriber room plaintext,
      s.heard l ≠ some (.feedback subscriber room plaintext)) →
      (∀ p, (heap p).rtxSeq = (s.heap p).rtxSeq) → Counted s.heap heap (s.retransmitted l) := by
    intro hheard hsame p
    have hnil : s.retransmitted l = [] := by
      unfold retransmitted
      split
      · split
        · exact absurd ‹_› (hheard _ _ _)
        · rfl
      · rfl
    rw [hnil, hsame]
    simp [seqsOf, countFrom]
  by_cases hfeedback : ∃ subscriber room plaintext,
      s.heard l = some (.feedback subscriber room plaintext)
  · obtain ⟨subscriber, room, plaintext, hheard⟩ := hfeedback
    obtain ⟨worker, data, remote, now, arrival, rfl, rfl⟩ := hstepped.answered_of_heard hheard
    have hledger : s.retransmitted (.datagram worker data remote now arrival) =
        (ledgerOf (s.touch subscriber now).heap room subscriber plaintext).2 := by
      simp only [retransmitted, hheard]
    rw [hledger, ← (ledgerOf_answerNacks ..).1]
    intro p
    have htouch : ((s.touch subscriber now).heap p).rtxSeq = (s.heap p).rtxSeq :=
      Heap.update_field (fun y => y.rtxSeq) rfl p
    rw [← htouch]
    exact ledgerOf_counted _ _ _ _ p
  · have hheard : ∀ subscriber room plaintext,
        s.heard l ≠ some (.feedback subscriber room plaintext) :=
      fun _ _ _ heq => hfeedback ⟨_, _, _, heq⟩
    refine hother hheard fun p => ?_
    by_cases htimer : l = .bweTimer
    · subst htimer
      cases hstepped with
      | same => rfl
      | signalled hl => cases hl
      | readOut h =>
        obtain ⟨recorder, hq⟩ := h p
        rw [hq]
    · rw [hstepped.fromPackets hinv fromPackets_rtxSeq htimer
        (fun _ _ _ heq => absurd heq (hheard _ _ _)) p]
      exact foldl_takeIn_rtxSeq ..

end

section

variable {draws : Fin 3 → Signaling.Draws} {labels : List Label} {s : State P}

theorem counted_run (h : run step (start P draws) labels = some s) :
    Counted (start P draws).heap s.heap (outputs step retransmitted (start P draws) labels) :=
  (run_induction (P := fun labels t => t.Inv ∧
      Counted (start P draws).heap t.heap (outputs step retransmitted (start P draws) labels))
    ⟨inv_start P draws, .refl _⟩ (fun _ _ _ _ hrun hP hstep => ⟨inv_step hP.1 hstep, by
      rw [outputs_snoc hrun]
      exact hP.2.trans (step_counted hP.1 hstep)⟩) h).2

/-- The retransmissions of a publisher's packets, to whomever they go and for whichever of
its tracks, are numbered one after the other along the whole run, so among 2^16 in a row no
number comes twice. -/
theorem rtx_numbers (h : run step (start P draws) labels = some s) (p : Ref) :
    let sent := seqsOf p (outputs step retransmitted (start P draws) labels)
    sent = countFrom 0 sent.length ∧ (s.heap p).rtxSeq = BitVec.ofNat 16 sent.length ∧
      ∀ i, ((sent.drop i).take (2 ^ 16)).Nodup := by
  intro sent
  obtain ⟨hseqs, hnext⟩ := counted_run h p
  have hzero : ((start P draws).heap p).rtxSeq = 0 := rfl
  rw [hzero] at hseqs hnext
  refine ⟨hseqs, hnext.trans (BitVec.zero_add _), fun i => ?_⟩
  rcases Nat.le_total sent.length i with hi | hi
  · rw [List.drop_eq_nil_of_le hi]
    exact List.nodup_nil
  · have hsplit : sent = countFrom 0 i ++ countFrom (0 + BitVec.ofNat 16 i) (sent.length - i) := by
      rw [← countFrom_add, Nat.add_sub_cancel' hi]
      exact hseqs
    have hdrop : sent.drop i = countFrom (0 + BitVec.ofNat 16 i) (sent.length - i) := by
      conv_lhs => rw [hsplit]
      rw [List.drop_left' (length_countFrom _ _)]
    rw [hdrop]
    rcases Nat.le_total (2 ^ 16) (sent.length - i) with hlong | hshort
    · rw [← Nat.add_sub_cancel' hlong, countFrom_add, List.take_left' (length_countFrom _ _)]
      exact countFrom_nodup _ (Nat.le_refl _)
    · rw [List.take_of_length_le (by rwa [length_countFrom])]
      exact countFrom_nodup _ hshort

theorem rtx_numbers_watched : ∃ s, run step Call.start Call.watched = some s ∧
    seqsOf 0 (outputs step retransmitted Call.start Call.watched) = [0, 1] ∧
    (s.heap 0).rtxSeq = 2 := by
  obtain ⟨s, h⟩ := Option.isSome_iff_exists.mp
    (show (run step Call.start Call.watched).isSome by decide +kernel)
  have hseqs : seqsOf 0 (outputs step retransmitted Call.start Call.watched) = [0, 1] := by
    decide +kernel
  exact ⟨s, h, hseqs, (rtx_numbers h 0).2.1.trans (by rw [hseqs]; rfl)⟩

end

end State

end LightLivechat.Sfu
