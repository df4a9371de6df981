import LightLivechat.Sfu.Egress

/-! Which sessions have their keys, and who sends for whom.  Keys come from the handshakes
that have finished, and the first of them for a subscriber spawns its egress task. -/

namespace LightLivechat.Sfu

open LightLivechat.Config LightLivechat.Lib LightLivechat.Lib.Bytes LightLivechat.Lib.Std
open LightLivechat.Lib.Runs
open LightLivechat.Room (Heap Ref Participant PcType Room RoomHub EgressPacket)
open LightLivechat.Transport LightLivechat.Transport.Srtp
open LightLivechat.Transport.Udp (Handshake Instant)

namespace State

variable {P : Platform}

def Finished (s : State P) (p : Ref) (pc : PcType) : Prop :=
  ∃ i ∈ s.finished, ∃ remote, s.handshakes[i]? = some ⟨remote, p, pc⟩

def installs (s : State P) : Label → Option (Ref × PcType)
  | .handshakeDone i _ => s.handshakes[i]?.map fun x => (x.participant, x.pcType)
  | _ => none

/-- The flags, the contexts and the tasks agree on the handshakes that have finished. -/
structure Agreed (s : State P) : Prop where
  inbound : ∀ p pc, (s.srtp p pc).inbound.isReady = true ↔ s.Finished p pc
  outbound : ∀ p pc, (s.srtp p pc).outbound.isReady = true ↔ s.Finished p pc
  mediaReady : ∀ p pc, ((s.heap p).session pc).mediaReady = true ↔ s.Finished p pc
  finished : s.finished.Nodup ∧ ∀ i ∈ s.finished, i < s.handshakes.length
  tasks : s.egressTasks.Nodup
  spawned : ∀ p, p ∈ s.egressTasks ↔ s.Finished p .subscribe
  taken : ∀ p, s.egressRx p = false ↔ p ∈ s.egressTasks

section

variable {s s' : State P} {l : Label} {heap : Heap} {next : Ref} {rooms : RoomHub}
variable {p : Ref} {pc : PcType} {i : Nat}

theorem Stepped.mediaReady (h : Stepped s l heap next rooms) (hinv : s.Inv) (p : Ref)
    (pc : PcType) : ((heap p).session pc).mediaReady = true ↔
      s.installs l = some (p, pc) ∨ ((s.heap p).session pc).mediaReady = true := by
  have hupdate : ∀ (heap : Heap) {q : Ref} {f : Participant → Participant},
      ((f (heap q)).session pc).mediaReady = ((heap q).session pc).mediaReady →
      (((heap.update q f) p).session pc).mediaReady = ((heap p).session pc).mediaReady :=
    fun heap _ _ hf => Heap.update_field (fun y => (y.session pc).mediaReady) hf p
  have hsame : s.installs l = none →
      ((heap p).session pc).mediaReady = ((s.heap p).session pc).mediaReady →
      (((heap p).session pc).mediaReady = true ↔
        s.installs l = some (p, pc) ∨ ((s.heap p).session pc).mediaReady = true) := by
    intro hl heq
    rw [hl, heq]
    simp
  have hmedia : s.installs l = none → MediaOnly (s.heap p) (heap p) →
      (((heap p).session pc).mediaReady = true ↔
        s.installs l = some (p, pc) ∨ ((s.heap p).session pc).mediaReady = true) :=
    fun hl hm => hsame hl (by rw [hm.session])
  cases h with
  | same _ _ hinstalls =>
    cases l with
    | handshakeDone i material => exact absurd rfl (hinstalls i material)
    | _ => exact hsame rfl rfl
  | signalled hl h =>
    refine hsame ?_ (hinv.signalled_field hl h (fun y => (y.session pc).mediaReady)
      (fun _ _ _ _ => by cases pc <;> rfl) (fun _ _ _ => by cases pc <;> rfl) p)
    cases l <;> first | rfl | cases hl
  | @latched _ now _ _ _ _ latched _ q pc' hheard h =>
    obtain ⟨roomId, room, room', -, -, hlatch, -⟩ := Room.RoomHub.latchByUfrag_eq_some h
    obtain ⟨-, rfl, -⟩ := Room.Room.latch_spec hlatch
    refine hsame rfl ?_
    rw [hupdate _ (by simp), Room.Heap.latch, hupdate _ (by cases pc <;> cases pc' <;> rfl)]
  | touched => exact hmedia rfl (s.mediaOnly_touch ..)
  | answered =>
    exact hmedia rfl ((s.mediaOnly_touch ..).trans (mediaOnly_handleSubscribeRtcp ..))
  | relayed => exact hmedia rfl ((s.mediaOnly_touch ..).trans (mediaOnly_relayPublishRtcp ..))
  | forwarded => exact hmedia rfl ((s.mediaOnly_touch ..).trans (mediaOnly_handleSrtp ..))
  | @installed i _ x h hi =>
    simp only [installs, h, Option.map_some, Option.some.injEq, Prod.mk.injEq]
    rw [Heap.update_apply]
    split
    · subst_vars
      rw [Participant.updateSession_session]
      split
      · subst_vars
        simp [Room.MediaSession.installSrtpKeys]
      · rename_i hpc
        exact (or_iff_right fun heq => hpc heq.2.symm).symm
    · rename_i hp
      exact (or_iff_right fun heq => hp heq.1.symm).symm
  | @taken q _ rest h hq => exact hmedia rfl (MediaOnly.update ⟨rfl⟩ p)
  | readOut h =>
    obtain ⟨recorder, hq⟩ := h p
    exact hmedia rfl (by rw [hq]; exact ⟨rfl⟩)

/-- No handshake finishes in the step, though one may start. -/
structure Idle (s s' : State P) (l : Label) : Prop where
  installs : s.installs l = none
  handshakes : ∃ more, s'.handshakes = s.handshakes ++ more
  finished : s'.finished = s.finished
  egressRx : s'.egressRx = s.egressRx
  egressTasks : s'.egressTasks = s.egressTasks
  inbound : ∀ p pc, (s'.srtp p pc).inbound.isReady = (s.srtp p pc).inbound.isReady
  outbound : ∀ p pc, (s'.srtp p pc).outbound.isReady = (s.srtp p pc).outbound.isReady

/-- A handshake finishes in the step. -/
structure Done (s s' : State P) (l : Label) (i : Nat) (x : Handshake) : Prop where
  installs : s.installs l = some (x.participant, x.pcType)
  handshake : s.handshakes[i]? = some x
  fresh : i ∉ s.finished
  handshakes : s'.handshakes = s.handshakes
  finished : s'.finished = s.finished ++ [i]
  inbound : ∀ p pc, (s'.srtp p pc).inbound.isReady = true ↔
    (x.participant, x.pcType) = (p, pc) ∨ (s.srtp p pc).inbound.isReady = true
  outbound : ∀ p pc, (s'.srtp p pc).outbound.isReady = true ↔
    (x.participant, x.pcType) = (p, pc) ∨ (s.srtp p pc).outbound.isReady = true
  tasks : if x.pcType = .subscribe ∧ s.egressRx x.participant = true then
      s'.egressRx = Function.update s.egressRx x.participant false ∧
        s'.egressTasks = s.egressTasks ++ [x.participant]
    else s'.egressRx = s.egressRx ∧ s'.egressTasks = s.egressTasks

theorem installSrtpKeys_srtp (s : State P) (q : Ref) (pc' : PcType)
    (material : Vector U8 srtpKeyMaterialLen) :
    (((s.installSrtpKeys q pc' (exportSrtpKeys material)).srtp p pc).inbound.isReady = true ↔
      (q, pc') = (p, pc) ∨ (s.srtp p pc).inbound.isReady = true) ∧
    (((s.installSrtpKeys q pc' (exportSrtpKeys material)).srtp p pc).outbound.isReady = true ↔
      (q, pc') = (p, pc) ∨ (s.srtp p pc).outbound.isReady = true) := by
  obtain ⟨⟨hclientKey, hserverKey, hclientSalt, hserverSalt⟩, -⟩ := exportSrtpKeys_parts material
  have hsrtp : (s.installSrtpKeys q pc' (exportSrtpKeys material)).srtp p pc = if p = q ∧ pc = pc'
      then _ else s.srtp p pc := s.setSrtp_srtp q p pc' pc _
  rw [hsrtp]
  split
  · obtain ⟨rfl, rfl⟩ := ‹p = q ∧ pc = pc'›
    simp [SrtpContext.isReady_installKey _ hclientKey hclientSalt,
      SrtpContext.isReady_installKey _ hserverKey hserverSalt]
  · rename_i hne
    have hne' : ¬ (q, pc') = (p, pc) := by
      rintro ⟨⟩
      exact hne ⟨rfl, rfl⟩
    exact ⟨(or_iff_right hne').symm, (or_iff_right hne').symm⟩

theorem Tasked.idle_or_done (h : Tasked s s' l) : Idle s s' l ∨ ∃ i x, Done s s' l i x := by
  cases h with
  | same h _ hinstalls =>
    refine .inl ⟨?_, ⟨[], ?_⟩, h.finished, h.egressRx, h.egressTasks, h.inbound, h.outbound⟩
    · cases l with
      | handshakeDone i material => exact absurd rfl (hinstalls i material)
      | _ => rfl
    · rw [h.handshakes, List.append_nil]
  | @started _ x hx h =>
    refine .inl ⟨?_, ⟨[x], h.handshakes⟩, h.finished, h.egressRx, h.egressTasks, h.inbound,
      h.outbound⟩
    cases l with
    | datagram => rfl
    | _ => exact hx.elim
  | @finished i material x hx hi h hpc =>
    refine .inr ⟨i, x, by simp [installs, hx], hx, hi, h.handshakes, h.finished, fun p pc => ?_,
      fun p pc => ?_, ?_⟩
    · rw [h.inbound]
      exact (installSrtpKeys_srtp _ _ _ _).1
    · rw [h.outbound]
      exact (installSrtpKeys_srtp _ _ _ _).2
    · rw [if_neg (by simp [hpc])]
      exact ⟨h.egressRx, h.egressTasks⟩
  | @spawned i material x hx hi h hpc =>
    have hspawn := fun t : State P => t.spawnEgressTask_tasks x.participant
    refine .inr ⟨i, x, by simp [installs, hx], hx, hi, ?_, ?_, fun p pc => ?_, fun p pc => ?_, ?_⟩
    · rw [h.handshakes, (hspawn _).1]
      rfl
    · rw [h.finished, (hspawn _).2.1]
      rfl
    · rw [h.inbound, (hspawn _).2.2]
      exact (installSrtpKeys_srtp _ _ _ _).1
    · rw [h.outbound, (hspawn _).2.2]
      exact (installSrtpKeys_srtp _ _ _ _).2
    · rw [h.egressRx, h.egressTasks]
      simp only [hpc, true_and]
      exact spawnEgressTask_egress (({ s with finished := s.finished ++ [i] } : State P).installSrtpKeys
        x.participant .subscribe (exportSrtpKeys material)) x.participant
  | @taken p packet rest hqueue hp h =>
    obtain ⟨hframe, hin, hout⟩ := s.passed_runEgress p packet rest
    rw [← h] at hframe hin hout
    refine .inl ⟨rfl, ⟨[], ?_⟩, ?_, ?_, ?_, hin, hout⟩
    · rw [hframe, List.append_nil]
    · rw [hframe]
    · rw [hframe]
    · rw [hframe]

theorem Idle.finished_iff (h : Idle s s' l) (hlt : ∀ i ∈ s.finished, i < s.handshakes.length) :
    s'.Finished p pc ↔ s.Finished p pc := by
  obtain ⟨more, hmore⟩ := h.handshakes
  unfold Finished
  rw [h.finished, hmore]
  refine exists_congr fun i => and_congr_right fun hi => ?_
  rw [List.getElem?_append_left (hlt i hi)]

theorem Done.finished_iff {x : Handshake} (h : Done s s' l i x) :
    s'.Finished p pc ↔ (x.participant, x.pcType) = (p, pc) ∨ s.Finished p pc := by
  unfold Finished
  simp only [h.finished, h.handshakes, List.mem_append, List.mem_singleton, or_and_right,
    exists_or, exists_eq_left, h.handshake]
  rw [or_comm]
  refine or_congr_left ⟨?_, ?_⟩
  · rintro ⟨remote, ⟨⟩⟩
    rfl
  · rintro ⟨⟩
    exact ⟨x.remote, rfl⟩

/-- The task of a subscriber is spawned when its first handshake finishes. -/
theorem Done.tasks_agreed {x : Handshake} (h : Done s s' l i x) (ha : s.Agreed) :
    s'.egressTasks.Nodup ∧ (∀ p, p ∈ s'.egressTasks ↔
        (x.participant, x.pcType) = (p, .subscribe) ∨ s.Finished p .subscribe) ∧
      ∀ p, s'.egressRx p = false ↔ p ∈ s'.egressTasks := by
  have htasks := h.tasks
  split at htasks
  · rename_i hspawns
    obtain ⟨hpc, hrx⟩ := hspawns
    obtain ⟨hrx', htasks⟩ := htasks
    have hnot : x.participant ∉ s.egressTasks := by
      rw [← ha.taken, hrx]
      simp
    refine ⟨?_, fun p => ?_, fun p => ?_⟩
    · rw [htasks]
      exact ha.tasks.append (List.nodup_singleton _) (List.disjoint_singleton.mpr hnot)
    · rw [htasks, List.mem_append, List.mem_singleton, ha.spawned, or_comm, hpc]
      simp [eq_comm]
    · rw [htasks, hrx', List.mem_append, List.mem_singleton, Function.update_apply]
      split
      · simp [*]
      · rw [ha.taken, or_iff_left ‹_›]
  · rename_i hnot
    obtain ⟨hrx', htasks⟩ := htasks
    rw [hrx', htasks]
    refine ⟨ha.tasks, fun p => ?_, ha.taken⟩
    rw [← ha.spawned]
    refine (or_iff_right_of_imp ?_).symm
    intro heq
    obtain ⟨rfl, hpc⟩ := Prod.mk.inj heq
    rw [← ha.taken]
    exact Bool.eq_false_iff.mpr fun hrx => hnot ⟨hpc, hrx⟩

theorem agreed_step (hinv : s.Inv) (ha : s.Agreed) (h : s.step l = some s') : s'.Agreed := by
  have hmedia := fun p pc => (step_stepped h).mediaReady hinv p pc
  obtain ⟨hnd, hlt⟩ := ha.finished
  rcases (step_tasked h).idle_or_done with hidle | ⟨i, x, hdone⟩
  · have hiff : ∀ p pc, s'.Finished p pc ↔ s.Finished p pc := fun p pc => hidle.finished_iff hlt
    refine ⟨fun p pc => ?_, fun p pc => ?_, fun p pc => ?_, ⟨?_, fun i hi => ?_⟩, ?_, fun p => ?_,
      fun p => ?_⟩
    · rw [hidle.inbound, hiff, ha.inbound]
    · rw [hidle.outbound, hiff, ha.outbound]
    · rw [hmedia, hidle.installs, hiff, ha.mediaReady]
      simp
    · rwa [hidle.finished]
    · obtain ⟨more, hmore⟩ := hidle.handshakes
      rw [hidle.finished] at hi
      rw [hmore, List.length_append]
      exact Nat.lt_add_right _ (hlt i hi)
    · rw [hidle.egressTasks]
      exact ha.tasks
    · rw [hidle.egressTasks, hiff, ha.spawned]
    · rw [hidle.egressRx, hidle.egressTasks, ha.taken]
  · have hiff : ∀ p pc, s'.Finished p pc ↔
        (x.participant, x.pcType) = (p, pc) ∨ s.Finished p pc := fun p pc => hdone.finished_iff
    obtain ⟨hnodup, hspawned, htaken⟩ := hdone.tasks_agreed ha
    refine ⟨fun p pc => ?_, fun p pc => ?_, fun p pc => ?_, ⟨?_, fun j hj => ?_⟩, hnodup,
      fun p => (hspawned p).trans (hiff p .subscribe).symm, htaken⟩
    · rw [hdone.inbound, hiff, ha.inbound]
    · rw [hdone.outbound, hiff, ha.outbound]
    · rw [hmedia, hdone.installs, hiff, ha.mediaReady, Option.some.injEq]
    · rw [hdone.finished]
      exact hnd.append (List.nodup_singleton i)
        (List.disjoint_singleton.mpr hdone.fresh)
    · rw [hdone.finished] at hj
      rw [hdone.handshakes]
      rcases List.mem_append.mp hj with hj | hj
      · exact hlt j hj
      · rw [List.mem_singleton.mp hj]
        exact (List.getElem?_eq_some_iff.mp hdone.handshake).1

theorem agreed_start (P : Platform) (draws : Fin 3 → Signaling.Draws) :
    (start P draws).Agreed where
  inbound := fun p pc => by simp [Finished, start, SrtpContext.new, SrtpContext.isReady]
  outbound := fun p pc => by simp [Finished, start, SrtpContext.new, SrtpContext.isReady]
  mediaReady := fun p pc => by cases pc <;> simp [Finished, start] <;> rfl
  finished := by simp [start]
  tasks := by simp [start]
  spawned := fun p => by simp [Finished, start]
  taken := fun p => by simp [start]

theorem Tasked.handshakes_started (h : Tasked s s' l) {x : Handshake} (hx : x ∈ s'.handshakes) :
    x ∈ s.handshakes ∨ Starts x s l := by
  cases h with
  | same h _ _ =>
    rw [h.handshakes] at hx
    exact .inl hx
  | started hstarts h =>
    rw [h.handshakes] at hx
    refine (List.mem_append.mp hx).imp_right fun hx => ?_
    rwa [List.mem_singleton.mp hx]
  | finished _ _ h =>
    rw [h.handshakes] at hx
    exact .inl hx
  | spawned _ _ h =>
    rw [h.handshakes, (spawnEgressTask_tasks _ _).1] at hx
    exact .inl hx
  | @taken p packet rest _ _ h =>
    rw [h, (s.passed_runEgress p packet rest).frame] at hx
    exact .inl hx

end

section

variable {draws : Fin 3 → Signaling.Draws} {labels : List Label} {s : State P}

theorem Reachable.agreed (h : s.Reachable) : s.Agreed := by
  obtain ⟨draws, labels, hrun⟩ := h
  exact (run_inv (G := fun _ _ => True) (fun _ _ _ (hs : State.Inv _ ∧ Agreed _) _ h =>
    ⟨inv_step hs.1 h, agreed_step hs.1 hs.2 h⟩) ⟨inv_start P draws, agreed_start P draws⟩
    (.of_forall (fun _ _ => trivial) ..) hrun).2

/-- In every reachable state the flags of the sessions, their contexts and the egress tasks
agree: keys are there for the sessions with a finished handshake, and each subscriber of
these has one task, which has the end of its channel. -/
theorem agreed_run (h : run step (start P draws) labels = some s) : s.Agreed :=
  Reachable.agreed ⟨draws, labels, h⟩

theorem agreed_run_watched : ∃ s, run step Call.start Call.watched = some s ∧
    s.finished = [0, 1] ∧ s.Agreed := by
  obtain ⟨s, h, hfinished⟩ := Option.map_eq_some_iff.mp
    (show (run step Call.start Call.watched).map (fun s => s.finished) = some [0, 1] by
      decide +kernel)
  exact ⟨s, h, hfinished, agreed_run h⟩

theorem handshakes_started (h : run step (start P draws) labels = some s) :
    ∀ x ∈ s.handshakes, Happened step (Starts x) (start P draws) labels :=
  run_induction (P := fun labels t =>
      ∀ x ∈ t.handshakes, Happened step (Starts x) (start P draws) labels)
    (fun _ hx => absurd hx List.not_mem_nil) (fun _ _ l _ hrun hP hstep x hx =>
      ((step_tasked hstep).handshakes_started hx).elim (fun hx => (hP x hx).append [l])
        fun hx => .here hrun hx) h

/-- Nothing is decrypted for a session before one of its handshakes has finished; and that was
started by a request that verified under the password of the session, or from where the
session was latched. -/
theorem heard_finished (h : run step (start P draws) labels = some s) {l : Label} {m : Media}
    (hm : s.heard l = some m) : ∃ i ∈ s.finished, ∃ remote,
      s.handshakes[i]? = some ⟨remote, m.source.1, m.source.2.1⟩ ∧
        Happened step (Starts ⟨remote, m.source.1, m.source.2.1⟩) (start P draws) labels := by
  cases l with
  | datagram =>
    have hagreed := Reachable.agreed ⟨draws, labels, h⟩
    obtain ⟨i, hi, remote, hx⟩ := (hagreed.inbound _ _).mp (heard_source hm).2
    exact ⟨i, hi, remote, hx, handshakes_started h _ (List.mem_of_getElem? hx)⟩
  | _ => cases hm

theorem heard_finished_filmed : ∃ s m,
    run step Call.start (Call.setup ++ [Call.bobReady]) = some s ∧
    s.heard Call.filmed = some m ∧ ∃ i ∈ s.finished, ∃ remote,
      s.handshakes[i]? = some ⟨remote, m.source.1, m.source.2.1⟩ ∧
        Happened step (Starts ⟨remote, m.source.1, m.source.2.1⟩) Call.start
          (Call.setup ++ [Call.bobReady]) := by
  obtain ⟨s, h, hheard⟩ := Option.map_eq_some_iff.mp
    (show (run step Call.start (Call.setup ++ [Call.bobReady])).map
      (fun s => (s.heard Call.filmed).isSome) = some true by decide +kernel)
  obtain ⟨m, hm⟩ := Option.isSome_iff_exists.mp hheard
  exact ⟨s, m, h, hm, heard_finished h hm⟩

end

/-- What happens to an outbound context: it gets keys, or a packet passes it. -/
inductive ContextOp where
  | install (key salt : Bytes)
  | encrypt (packet : EgressPacket)

namespace ContextOp

def encryptPacket (ctx : SrtpContext P.srtp) :
    EgressPacket → SrtpContext P.srtp × Except SrtpError Bytes
  | .rtp plaintext => ctx.encryptRtp plaintext
  | .rtcp plaintext => ctx.encryptRtcp plaintext

def apply (ctx : SrtpContext P.srtp) : ContextOp → SrtpContext P.srtp
  | .install key salt => ctx.installKey key salt
  | .encrypt packet => (encryptPacket ctx packet).1

end ContextOp

/-- What a step does to the outbound context of a subscriber: keys are installed by its
handshakes, and its task encrypts what it takes once it knows where to. -/
def subscriberOps (p : Ref) (s : State P) : Label → List ContextOp
  | .handshakeDone i material =>
    if s.installs (.handshakeDone i material) = some (p, .subscribe) then
      [.install (exportSrtpKeys material).serverKey (exportSrtpKeys material).serverSalt]
    else []
  | .egress q =>
    if q = p ∧ (s.heap p).subscribe.address.isSome then
      (s.heap p).egress.head?.toList.map .encrypt
    else []
  | _ => []

section

variable {draws : Fin 3 → Signaling.Draws} {labels : List Label} {s s' : State P} {l : Label}
variable {p : Ref}

theorem runEgress_subscribe (s : State P) (q : Ref) (packet : EgressPacket)
    (rest : List EgressPacket) (p : Ref) :
    ((s.runEgress q packet rest).srtp p .subscribe).outbound =
      if q = p ∧ (s.heap p).subscribe.address.isSome then
        ContextOp.apply (s.srtp p .subscribe).outbound (.encrypt packet)
      else (s.srtp p .subscribe).outbound := by
  have haddr : ((s.heap.update q fun x => { x with egress := rest }) q).subscribe.address =
      (s.heap q).subscribe.address := by rw [Heap.update_same]
  unfold runEgress
  dsimp only
  split
  · rename_i hnone
    rw [haddr] at hnone
    rw [if_neg]
    rintro ⟨rfl, hsome⟩
    rw [hnone] at hsome
    cases hsome
  · rename_i addr hsome
    rw [haddr] at hsome
    cases packet with
    | rtp plaintext | rtcp plaintext =>
      dsimp only
      rw [sendEncrypted_srtp]
      by_cases hp : p = q
      · subst hp
        rw [if_pos ⟨rfl, rfl⟩, if_pos ⟨rfl, by rw [hsome]; rfl⟩]
        rfl
      · rw [if_neg fun h => hp h.1, if_neg fun h => hp h.1.symm]

theorem Tasked.subscriber (h : Tasked s s' l) (p : Ref) : (s'.srtp p .subscribe).outbound =
    (s.subscriberOps p l).foldl ContextOp.apply (s.srtp p .subscribe).outbound := by
  cases h with
  | same h htakes hinstalls =>
    rw [h.subscribe]
    cases l with
    | handshakeDone i material => exact absurd rfl (hinstalls i material)
    | egress q => exact absurd rfl (htakes q)
    | _ => rfl
  | started hx h =>
    rw [h.subscribe]
    cases l with
    | datagram => rfl
    | _ => exact hx.elim
  | @finished i material x hx hi h hpc =>
    rw [h.subscribe]
    simp only [subscriberOps, installs, hx, Option.map_some, Option.some.injEq, Prod.mk.injEq, hpc,
      reduceCtorEq, and_false, if_false, List.foldl_nil]
    have hsrtp := ({ s with finished := s.finished ++ [i] } : State P).setSrtp_srtp x.participant p
      .publish .subscribe
    exact congrArg SrtpSession.outbound ((hsrtp _).trans (if_neg (by simp)))
  | @spawned i material x hx hi h hpc =>
    rw [h.subscribe, (spawnEgressTask_tasks _ _).2.2]
    simp only [subscriberOps, installs, hx, Option.map_some, Option.some.injEq, Prod.mk.injEq, hpc,
      and_true]
    have hsrtp := ({ s with finished := s.finished ++ [i] } : State P).setSrtp_srtp x.participant p
      .subscribe .subscribe
    refine (congrArg SrtpSession.outbound (hsrtp _)).trans ?_
    by_cases hp : p = x.participant
    · subst hp
      rw [if_pos ⟨rfl, rfl⟩, if_pos rfl]
      rfl
    · rw [if_neg fun h => hp h.1, if_neg fun h => hp h.symm]
      rfl
  | @taken q packet rest hqueue hq h =>
    rw [h, runEgress_subscribe]
    simp only [subscriberOps]
    split
    · obtain ⟨rfl, -⟩ := ‹q = p ∧ _›
      rw [hqueue]
      rfl
    · rfl

/-- The outbound context of a subscriber is its egress task's alone: along every run it is
given the keys of the handshakes and then exactly what the task takes, in order. -/
theorem subscriber_context (h : run step (start P draws) labels = some s) (p : Ref) :
    (s.srtp p .subscribe).outbound =
      (outputs step (subscriberOps p) (start P draws) labels).foldl ContextOp.apply .new :=
  component (I := fun _ => True) (g := fun t => (t.srtp p .subscribe).outbound)
    (fun _ _ _ _ hstep => ⟨trivial, (step_tasked hstep).subscriber p⟩) trivial h

theorem subscriber_context_watched : ∃ s, run step Call.start Call.watched = some s ∧
    (outputs step (subscriberOps 1) Call.start Call.watched).length = 2 ∧
    (s.srtp 1 .subscribe).outbound =
      (outputs step (subscriberOps 1) Call.start Call.watched).foldl ContextOp.apply .new := by
  obtain ⟨s, h⟩ := Option.isSome_iff_exists.mp
    (show (run step Call.start Call.watched).isSome by decide +kernel)
  exact ⟨s, h, by decide +kernel, subscriber_context h 1⟩

end

end State

end LightLivechat.Sfu
