import LightLivechat.Lib.Receivers
import LightLivechat.Sfu.Egress
import LightLivechat.Sfu.Handshakes

/-! What reaches a subscriber.  Its egress task knows where to send, and a client that holds
the other end of the session gets out of the datagrams what the task took. -/

namespace LightLivechat.Sfu

open LightLivechat.Config LightLivechat.Lib.Bytes LightLivechat.Lib.Std LightLivechat.Lib.Runs
open LightLivechat.Room (Heap Ref Participant PcType Room RoomHub EgressPacket)
open LightLivechat.Transport LightLivechat.Transport.Srtp
open LightLivechat.Transport.Udp (Handshake Instant)

namespace Call

theorem follows {packets : List (Bytes × Bytes × Bytes)} (h : ∀ e ∈ packets, ∀ e' ∈ packets,
    e.1 = e'.1 → e.2.2 = e'.2.2 → e = e') :
    Follows (c := srtp) Eq (encrypt packets) (decrypt packets) where
  turned := by
    rintro key _ key' packet encrypted rfl hencrypt
    unfold encrypt at hencrypt
    split at hencrypt
    · rename_i e hfind
      cases hencrypt
      have he := List.mem_of_find?_eq_some hfind
      obtain ⟨hkey, hpacket⟩ : e.1 = key ∧ e.2.1 = packet := by
        simpa using List.find?_some hfind
      refine ⟨key, ?_, rfl⟩
      unfold decrypt
      split
      · rename_i e' hfind'
        obtain ⟨hkey', hwire⟩ : e'.1 = key ∧ e'.2.2 = e.2.2 := by
          simpa using List.find?_some hfind'
        rw [h e' (List.mem_of_find?_eq_some hfind') e he (hkey'.trans hkey.symm) hwire, hpacket]
        rfl
      · rename_i hnone
        exact absurd hkey (by simpa using List.find?_eq_none.mp hnone e he)
    · cases hencrypt
  refused := by
    rintro key _ key' packet m rfl hencrypt
    unfold encrypt at hencrypt
    split at hencrypt <;> cases hencrypt
    rfl

theorem matched : Matched srtp Eq where
  new := fun _ => rfl
  rtp := follows (by decide)
  rtcp := follows (by decide)

end Call

/-- What a subscriber's client gets: the keys of a handshake, or an encrypted packet. -/
inductive Wire where
  | keys (key salt : Bytes)
  | packet (encrypted : EgressPacket)
  deriving DecidableEq

namespace Wire

variable {c : Primitives}

/-- The client at the other end of a session, which has the keys that the server sends with. -/
def receive (ctx : SrtpContext c) : Wire → SrtpContext c × List EgressPacket
  | .keys key salt => (ctx.installKey key salt, [])
  | .packet (.rtp encrypted) =>
    let (ctx, result) := ctx.decryptRtp encrypted
    (ctx, (result.toOption.map .rtp).toList)
  | .packet (.rtcp encrypted) =>
    let (ctx, result) := ctx.decryptRtcp encrypted
    (ctx, (result.toOption.map .rtcp).toList)

def ofKind (packet : EgressPacket) (encrypted : Bytes) : EgressPacket :=
  match packet with
  | .rtp _ => .rtp encrypted
  | .rtcp _ => .rtcp encrypted

theorem receive_packet {P : Platform} {R : P.srtp.Context → P.srtp.Context → Prop}
    (hsrtp : Matched P.srtp R) {tx rx tx' : SrtpContext P.srtp} (h : InStep R tx rx)
    {packet : EgressPacket} {encrypted : Bytes}
    (hpass : State.ContextOp.encryptPacket tx packet = (tx', .ok encrypted)) :
    InStep R tx' (receive rx (.packet (ofKind packet encrypted))).1 ∧
      (receive rx (.packet (ofKind packet encrypted))).2 = [packet] := by
  cases packet with
  | rtp plaintext =>
    obtain ⟨rx', hdecrypt, hstep⟩ := h.turned hsrtp.rtp hpass
    have heq : rx.decryptRtp encrypted = (rx', .ok plaintext) := hdecrypt
    simp only [receive, ofKind, heq]
    exact ⟨hstep, rfl⟩
  | rtcp plaintext =>
    obtain ⟨rx', hdecrypt, hstep⟩ := h.turned hsrtp.rtcp hpass
    have heq : rx.decryptRtcp encrypted = (rx', .ok plaintext) := hdecrypt
    simp only [receive, ofKind, heq]
    exact ⟨hstep, rfl⟩

theorem inStep_refused {P : Platform} {R : P.srtp.Context → P.srtp.Context → Prop}
    (hsrtp : Matched P.srtp R) {tx rx tx' : SrtpContext P.srtp} (h : InStep R tx rx)
    {packet : EgressPacket} {e : SrtpError}
    (hpass : State.ContextOp.encryptPacket tx packet = (tx', .error e)) : InStep R tx' rx := by
  cases packet with
  | rtp => exact h.refused hsrtp.rtp hpass
  | rtcp => exact h.refused hsrtp.rtcp hpass

end Wire

namespace State

variable {P : Platform}

def sends (s : State P) (l : Label) : List (SocketAddr × Bytes) :=
  match s.step l with
  | some s' => s'.udpSent.drop s.udpSent.length
  | none => []

/-- What a step sends to the client of a subscriber: its handshakes give it keys, and its
egress task sends it what it takes. -/
def wire (p : Ref) (s : State P) : Label → List Wire
  | .handshakeDone i material =>
    if s.installs (.handshakeDone i material) = some (p, .subscribe) then
      [.keys (exportSrtpKeys material).serverKey (exportSrtpKeys material).serverSalt]
    else []
  | .egress q => (s.handed p (.egress q)).flatMap fun packet =>
      (s.sends (.egress q)).map fun datagram => .packet (Wire.ofKind packet datagram.2)
  | _ => []

/-- What a client makes of all it gets, from before its first handshake. -/
def clientHears (P : Platform) (ws : List Wire) : List EgressPacket :=
  (hear (Wire.receive (c := P.srtp)) .new ws).2

def delivered (p : Ref) (s : State P) (l : Label) : List EgressPacket :=
  (s.handed p l).filter fun _ => s.sends l ≠ []

section

variable {s s' : State P} {l : Label} {heap : Heap} {next : Ref} {rooms : RoomHub} {p q : Ref}
variable {pc : PcType}

theorem Stepped.latched_mono (h : Stepped s l heap next rooms) (hinv : s.Inv)
    (hlatched : ((s.heap p).session pc).address.isSome) :
    ((heap p).session pc).address.isSome := by
  have hupdate : ∀ (heap : Heap) {q : Ref} {f : Participant → Participant},
      ((heap p).session pc).address.isSome →
      (((f (heap q)).session pc).address = ((heap q).session pc).address) →
      (((heap.update q f) p).session pc).address.isSome := by
    intro heap q f hsome hf
    rwa [Heap.update_field (fun y => (y.session pc).address) hf p]
  have htouch : ∀ q now, (((s.touch q now).heap p).session pc).address.isSome := by
    intro q now
    rwa [(s.mediaOnly_touch q now p).session]
  cases h with
  | same => exact hlatched
  | signalled hl h =>
    rw [hinv.signalled_field hl h (fun y => (y.session pc).address) (by cases pc <;> intros <;> rfl)
      (by cases pc <;> intros <;> rfl) p]
    exact hlatched
  | @latched _ now _ remote _ _ heap' rooms' q pc' _ h =>
    obtain ⟨roomId, room, room', -, -, hlatch, -⟩ := RoomHub.latchByUfrag_eq_some h
    obtain ⟨-, rfl, -⟩ := Room.Room.latch_spec hlatch
    refine hupdate _ ?_ (by cases pc <;> rfl)
    rw [Heap.latch_address]
    split
    · rfl
    · exact hlatched
  | touched => exact htouch ..
  | answered =>
    rw [(mediaOnly_handleSubscribeRtcp ..).session]
    exact htouch ..
  | relayed =>
    rw [(mediaOnly_relayPublishRtcp ..).session]
    exact htouch ..
  | forwarded =>
    rw [(mediaOnly_handleSrtp ..).session]
    exact htouch ..
  | @installed _ _ x => exact hupdate _ hlatched (by cases x.pcType <;> cases pc <;> rfl)
  | taken => exact hupdate _ hlatched (by cases pc <;> rfl)
  | readOut h =>
    obtain ⟨recorder, hread⟩ := h p
    rw [hread]
    cases pc <;> exact hlatched

theorem Stepped.session_of_heard (h : Stepped s l heap next rooms) {m : Media}
    (hheard : s.heard l = some m) (p : Ref) : (heap p).session = (s.heap p).session := by
  have hmedia : MediaOnly (s.heap p) (heap p) := by
    cases h with
    | same h | latched h | touched h => cases h.symm.trans hheard
    | signalled hl => cases (heard_of_signals hl).symm.trans hheard
    | answered => exact (s.mediaOnly_touch ..).trans (mediaOnly_handleSubscribeRtcp ..)
    | relayed => exact (s.mediaOnly_touch ..).trans (mediaOnly_relayPublishRtcp ..)
    | forwarded => exact (s.mediaOnly_touch ..).trans (mediaOnly_handleSrtp ..)
    | installed | taken | readOut => cases hheard
  exact hmedia.session

theorem receive_addressed (hinv : s.Inv) (worker : Nat) (data : Bytes) (remote : SocketAddr)
    (now : Nat) (arrival : Instant) {x : Handshake}
    (hx : x ∈ (s.receive worker data remote now arrival).handshakes) :
    x ∈ s.handshakes ∨ (((s.receive worker data remote now arrival).heap
      x.participant).session x.pcType).address.isSome := by
  unfold receive at hx ⊢
  rw [(countPacket_sameTasks ..).handshakes] at hx
  rw [countPacket_toServer]
  unfold handleDatagram at hx ⊢
  split at hx
  · obtain ⟨hsame, -⟩ | ⟨msg, ufrag, heap, hub, p, pc, -, hlatch, hheap, -, -, hnew⟩ :=
      Udp.Server.handleStun_cases (c := P.stun) s.udp worker data remote now
    · rw [hsame] at hx
      exact .inl hx
    · dsimp only [withUdp] at hx ⊢
      obtain hnew | ⟨-, hnew⟩ := hnew
      · rw [hnew] at hx
        exact .inl hx
      · rw [hnew] at hx
        refine (List.mem_append.mp hx).imp_right fun hx => ?_
        obtain rfl := List.mem_singleton.mp hx
        obtain ⟨_, _, _, -, -, hlatched, -⟩ := RoomHub.latchByUfrag_eq_some hlatch
        obtain ⟨-, rfl, -⟩ := Room.Room.latch_spec hlatched
        rw [hheap, Heap.update_field (fun y => (y.session pc).address) (by cases pc <;> rfl),
          Heap.latch_address, if_pos ⟨rfl, rfl⟩]
        rfl
  · obtain ⟨hheap, -, -, hnew⟩ := Udp.Server.handleDtls_cases s.udp worker data remote
    dsimp only [withUdp] at hx ⊢
    obtain hnew | ⟨p, pc, room, hfind, hnew⟩ := hnew
    · rw [hnew] at hx
      exact .inl hx
    · rw [hnew] at hx
      refine (List.mem_append.mp hx).imp_right fun hx => ?_
      obtain rfl := List.mem_singleton.mp hx
      rw [hheap]
      exact Option.isSome_of_eq_some (hinv.sound.findByAddr hfind).2.2
  · rw [(handleSrtp_sameTasks ..).handshakes] at hx
    exact .inl hx
  · exact .inl hx

/-- Whoever has a handshake has been latched. -/
def Addressed (s : State P) : Prop :=
  ∀ x ∈ s.handshakes, ((s.heap x.participant).session x.pcType).address.isSome

theorem addressed_step (hinv : s.Inv) (haddr : s.Addressed) (h : s.step l = some s') :
    s'.Addressed := by
  intro x hx
  have hold : x ∈ s.handshakes → ((s'.heap x.participant).session x.pcType).address.isSome :=
    fun hx => (step_stepped h).latched_mono hinv (haddr x hx)
  cases l with
  | datagram worker data remote now arrival =>
    cases h
    exact (receive_addressed hinv worker data remote now arrival hx).elim hold id
  | _ => exact ((step_tasked h).handshakes_started hx).elim hold False.elim

end

section

variable {draws : Fin 3 → Signaling.Draws} {labels : List Label} {s s' : State P} {l : Label}
variable {p : Ref} {pc : PcType}

theorem addressed_run (h : run step (start P draws) labels = some s) : s.Addressed :=
  (run_inv (G := fun _ _ => True) (fun _ _ _ (hs : State.Inv _ ∧ Addressed _) _ h =>
    ⟨inv_step hs.1 h, addressed_step hs.1 hs.2 h⟩)
    ⟨inv_start P draws, fun _ hx => absurd hx List.not_mem_nil⟩
    (.of_forall (fun _ _ => trivial) ..) h).2

theorem Agreed.task_addressed (hagreed : s.Agreed) (haddr : s.Addressed) (hp : p ∈ s.egressTasks) :
    (s.heap p).subscribe.address.isSome := by
  obtain ⟨i, -, remote, hx⟩ := (hagreed.spawned p).mp hp
  exact haddr _ (List.mem_of_getElem? hx)

theorem runEgress_sent (s : State P) (p : Ref) (packet : EgressPacket) (rest : List EgressPacket)
    {addr : SocketAddr} (haddr : (s.heap p).subscribe.address = some addr) :
    (s.runEgress p packet rest).udpSent = s.udpSent ++
      ((ContextOp.encryptPacket (s.srtp p .subscribe).outbound packet).2.toOption.map
        fun encrypted => (addr, encrypted)).toList := by
  have haddr' : ((s.heap.update p fun x => { x with egress := rest }) p).subscribe.address =
      some addr := by
    rw [Heap.update_same]
    exact haddr
  unfold runEgress
  dsimp only
  rw [haddr']
  cases packet with
  | rtp plaintext | rtcp plaintext =>
    simp only [sendEncrypted, ContextOp.encryptPacket]
    split
    · rename_i encrypted heq
      rw [heq]
      rfl
    · rename_i e heq
      rw [heq]
      exact (List.append_nil _).symm

theorem sends_egress (h : s.step (.egress p) = some s') {packet : EgressPacket}
    {rest : List EgressPacket} (hqueue : (s.heap p).egress = packet :: rest) {addr : SocketAddr}
    (haddr : (s.heap p).subscribe.address = some addr) : s.sends (.egress p) =
      ((ContextOp.encryptPacket (s.srtp p .subscribe).outbound packet).2.toOption.map
        fun encrypted => (addr, encrypted)).toList := by
  obtain ⟨packet', rest', hqueue', -, rfl⟩ := step_egress h
  obtain ⟨rfl, rfl⟩ := List.cons.inj (hqueue.symm.trans hqueue')
  rw [sends, h]
  dsimp only
  rw [runEgress_sent s p packet rest haddr, List.drop_left]

variable {R : P.srtp.Context → P.srtp.Context → Prop} {rx : SrtpContext P.srtp}

structure Following (R : P.srtp.Context → P.srtp.Context → Prop) (p : Ref) (s : State P)
    (rx : SrtpContext P.srtp) : Prop where
  inv : s.Inv
  agreed : s.Agreed
  addressed : s.Addressed
  inStep : InStep R (s.srtp p .subscribe).outbound rx

theorem hear_step (hsrtp : Matched P.srtp R) (hf : Following R p s rx) (h : s.step l = some s') :
    Following R p s' (hear Wire.receive rx (s.wire p l)).1 ∧
      (hear Wire.receive rx (s.wire p l)).2 = s.delivered p l := by
  obtain ⟨hinv, hagreed, haddr, hin⟩ := hf
  refine (and_congr_left' ⟨fun hf => hf.inStep, fun hin => ⟨inv_step hinv h,
    agreed_step hinv hagreed h, addressed_step hinv haddr h, hin⟩⟩).mpr ?_
  rw [(step_tasked h).subscriber p]
  cases l with
  | handshakeDone i material =>
    simp only [wire, subscriberOps, delivered, handed]
    split
    · rw [hear_singleton]
      exact ⟨hin.installKey hsrtp.new _ _, rfl⟩
    · exact ⟨hin, rfl⟩
  | egress q =>
    by_cases hq : q = p
    · subst hq
      obtain ⟨packet, rest, hqueue, htask, -⟩ := step_egress h
      obtain ⟨addr, hlatched⟩ := Option.isSome_iff_exists.mp (hagreed.task_addressed haddr htask)
      have hsends := sends_egress h hqueue hlatched
      simp only [wire, delivered, handed, subscriberOps, hqueue, hlatched, hsends, true_and,
        Option.isSome_some, if_true, List.head?_cons, Option.toList_some, List.map_cons, List.map_nil,
        List.foldl_cons, List.foldl_nil, List.flatMap_cons, List.flatMap_nil, List.append_nil,
        ContextOp.apply]
      cases hpass : ContextOp.encryptPacket (s.srtp q .subscribe).outbound packet with
      | mk tx result =>
        cases result with
        | ok encrypted =>
          obtain ⟨hstep, hmade⟩ := Wire.receive_packet hsrtp hin hpass
          simp only [Except.toOption, Option.map_some, Option.toList_some, List.map_cons,
            List.map_nil, hear_singleton]
          exact ⟨hstep, hmade⟩
        | error e => exact ⟨Wire.inStep_refused hsrtp hin hpass, rfl⟩
    · simp only [wire, delivered, handed, subscriberOps, hq, false_and, if_false, List.flatMap_nil]
      exact ⟨hin, rfl⟩
  | _ => exact ⟨hin, rfl⟩

/-- A client at the other end of a subscriber's session, which follows the handshakes and
decrypts all that the egress task sends it, gets exactly the packets that the task took and
sent, in that order. -/
theorem subscriber_hears (hsrtp : Matched P.srtp R) (h : run step (start P draws) labels = some s)
    (p : Ref) :
    clientHears P (outputs step (wire p) (start P draws) labels) =
        outputs step (delivered p) (start P draws) labels ∧
      (outputs step (delivered p) (start P draws) labels).Sublist
        (outputs step (handed p) (start P draws) labels) := by
  have hstart : Following R p (start P draws) .new :=
    ⟨inv_start P draws, agreed_start P draws, fun _ hx => absurd hx List.not_mem_nil, trivial⟩
  exact ⟨(hear_run (fun _ _ _ _ => hear_step hsrtp) hstart h).2,
    outputs_sublist fun _ _ => List.filter_sublist⟩

theorem subscriber_hears_watched : ∃ s, run step Call.start Call.watched = some s ∧
    outputs step (wire 1) Call.start Call.watched =
      [.keys Call.bobKey (List.replicate srtpMasterSaltLen 2), .packet (.rtp Call.bobVideo)] ∧
    outputs step (delivered 1) Call.start Call.watched = [.rtp Call.video] ∧
    clientHears Call.platform (outputs step (wire 1) Call.start Call.watched) = [.rtp Call.video] := by
  obtain ⟨s, h⟩ := Option.isSome_iff_exists.mp
    (show (run step Call.start Call.watched).isSome by decide +kernel)
  have hdelivered : outputs step (delivered 1) Call.start Call.watched = [.rtp Call.video] := by
    decide +kernel
  exact ⟨s, h, by decide +kernel, hdelivered, (subscriber_hears Call.matched h 1).1.trans hdelivered⟩

/-- What a context makes of packets, one after the other. -/
def sealed (ctx : SrtpContext P.srtp) : List EgressPacket → List Bytes
  | [] => []
  | packet :: rest =>
    let (ctx, result) := ContextOp.encryptPacket ctx packet
    result.toOption.toList ++ sealed ctx rest

theorem sealed_concat (ctx : SrtpContext P.srtp) (queue : List EgressPacket)
    (packet : EgressPacket) : sealed ctx (queue ++ [packet]) = sealed ctx queue ++
      (ContextOp.encryptPacket ((queue.map .encrypt).foldl ContextOp.apply ctx)
        packet).2.toOption.toList := by
  induction queue generalizing ctx with
  | nil => exact List.append_nil _
  | cons first rest ih =>
    rw [List.cons_append, sealed, sealed]
    dsimp only
    rw [ih, List.append_assoc]
    rfl

/-- What an egress task does with a queue. -/
structure Drained (p : Ref) (addr : SocketAddr) (queue : List EgressPacket) (s s' : State P) :
    Prop where
  run : run step s (.replicate queue.length (.egress p)) = some s'
  handed : outputs step (handed p) s (.replicate queue.length (.egress p)) = queue
  egress : (s'.heap p).egress = []
  others : ∀ q, q ≠ p → s'.heap q = s.heap q
  udpSent : s'.udpSent = s.udpSent ++
    (sealed (s.srtp p .subscribe).outbound queue).map fun encrypted => (addr, encrypted)

theorem drained_queue {queue : List EgressPacket} {addr : SocketAddr}
    (hqueue : (s.heap p).egress = queue) (htask : p ∈ s.egressTasks)
    (haddr : (s.heap p).subscribe.address = some addr) : ∃ s', Drained p addr queue s s' := by
  induction queue generalizing s with
  | nil => exact ⟨s, rfl, rfl, hqueue, fun _ _ => rfl, (List.append_nil _).symm⟩
  | cons packet rest ih =>
    have hpassed := passed_runEgress s p packet rest
    have hstep : s.step (.egress p) = some (s.runEgress p packet rest) := by
      simp only [step, hqueue, if_pos htask]
    have hheap : (s.runEgress p packet rest).heap =
        s.heap.update p fun x => { x with egress := rest } := hpassed.heap
    have htask' : p ∈ (s.runEgress p packet rest).egressTasks := by
      rw [hpassed.frame]
      exact htask
    obtain ⟨s', hs'⟩ := @ih (s.runEgress p packet rest) (by rw [hheap, Heap.update_same]) htask'
      (by rw [hheap, Heap.update_same]; exact haddr)
    refine ⟨s', ?_, ?_, hs'.egress, fun q hq => ?_, ?_⟩
    · rw [List.length_cons, List.replicate_succ, run_step hstep]
      exact hs'.run
    · rw [List.length_cons, List.replicate_succ, outputs_step hstep, hs'.handed]
      simp [State.handed, hqueue]
    · rw [hs'.others q hq, hheap, Heap.update_of_ne hq]
    · rw [hs'.udpSent, runEgress_sent s p packet rest haddr, runEgress_subscribe,
        if_pos ⟨rfl, Option.isSome_of_eq_some haddr⟩, List.append_assoc]
      refine congrArg _ ?_
      simp only [sealed, ContextOp.apply, List.map_append]
      refine congrArg (· ++ _) ?_
      cases (ContextOp.encryptPacket (s.srtp p .subscribe).outbound packet).2.toOption <;> rfl

/-- Whatever waits for a subscriber with an egress task can be sent: by as many turns of the
task, in the order in which it waits, to where the subscriber is latched. -/
theorem Reachable.drained (h : s.Reachable) (htask : p ∈ s.egressTasks) :
    ∃ addr s', (s.heap p).subscribe.address = some addr ∧
      Drained p addr (s.heap p).egress s s' := by
  have hagreed := h.agreed
  obtain ⟨draws, labels, hrun⟩ := h
  obtain ⟨addr, haddr⟩ := Option.isSome_iff_exists.mp
    (hagreed.task_addressed (addressed_run hrun) htask)
  obtain ⟨s', hs'⟩ := drained_queue rfl htask haddr
  exact ⟨addr, s', haddr, hs'⟩

theorem drained_filmed : ∃ s addr s',
    run step Call.start (Call.setup ++ [Call.bobReady, Call.filmed]) = some s ∧
    (s.heap 1).subscribe.address = some addr ∧ (s.heap 1).egress = [.rtp Call.video] ∧
    Drained 1 addr (s.heap 1).egress s s' := by
  obtain ⟨s, h, hs⟩ := Option.map_eq_some_iff.mp
    (show (run step Call.start (Call.setup ++ [Call.bobReady, Call.filmed])).map (fun s =>
      decide (1 ∈ s.egressTasks ∧ (s.heap 1).egress = [.rtp Call.video])) = some true by
      decide +kernel)
  obtain ⟨htask, hqueue⟩ := of_decide_eq_true hs
  obtain ⟨addr, s', haddr, hs'⟩ := Reachable.drained ⟨_, _, h⟩ htask
  exact ⟨s, addr, s', h, haddr, hqueue, hs'⟩

theorem decrypt_udpSent {data : Bytes}
    {f : SrtpContext P.srtp → Bytes → SrtpContext P.srtp × Except SrtpError Bytes}
    {t : State P} {result : Except SrtpError Bytes}
    (h : s.decrypt f p pc data = (t, result)) : t.udpSent = s.udpSent :=
  congrArg (fun x => x.1.udpSent) h.symm

theorem publish_udpSent {worker now : Nat} {data : Bytes} {remote : SocketAddr} {arrival : Instant}
    {room : Room} (hclass : classify data = .srtp)
    (hfind : s.rooms.findByAddr remote = some (p, .publish, room)) :
    (s.receive worker data remote now arrival).udpSent = s.udpSent := by
  rw [receive, (countPacket_same ..).2.1]
  simp only [handleDatagram, hclass, handleSrtp, hfind, ne_eq, not_true_eq_false, if_false]
  split
  · rfl
  · split
    · unfold handlePublishRtcp
      split <;> rename_i heq <;> exact (decrypt_udpSent heq).trans rfl
    · unfold handlePublishRtp
      split <;> rename_i heq <;> exact (decrypt_udpSent heq).trans rfl

/-- A packet that is let through is queued for everyone who hears it and has room in the queue:
the egress task takes what waits already, and then the packet, and sends what the context
makes of each.  What that refuses to encrypt is left out. -/
theorem Reachable.relayed (h : s.Reachable) {worker now : Nat} {data : Bytes} {remote : SocketAddr}
    {arrival : Instant} {sender : Ref} {room : Room} {plaintext payload : Bytes}
    (hheard : s.heard (.datagram worker data remote now arrival) =
      some (.rtp sender room plaintext arrival))
    (hgate : (passGate room (s.heap sender).userId plaintext).2 = some payload)
    (hhears : Hears s.heap room (s.heap sender).userId p)
    (hspace : (s.heap p).egress.length < egressQueueSize) :
    ∃ addr t s', (s.heap p).subscribe.address = some addr ∧
      s.step (.datagram worker data remote now arrival) = some t ∧ t.udpSent = s.udpSent ∧
      (t.srtp p .subscribe).outbound = (s.srtp p .subscribe).outbound ∧
      Drained p addr ((s.heap p).egress ++ [.rtp payload]) t s' ∧
      s'.udpSent = s.udpSent ++ (sealed (s.srtp p .subscribe).outbound (s.heap p).egress ++
        (ContextOp.encryptPacket (((s.heap p).egress.map .encrypt).foldl ContextOp.apply
          (s.srtp p .subscribe).outbound) (.rtp payload)).2.toOption.toList).map
            fun encrypted => (addr, encrypted) := by
  obtain ⟨draws, labels, hrun⟩ := h
  have hinv := inv_run hrun
  have hstep : s.step (.datagram worker data remote now arrival) =
      some (s.receive worker data remote now arrival) := rfl
  generalize ht : s.receive worker data remote now arrival = t at hstep
  have hrun' := run_snoc hrun hstep
  have hagreed := Reachable.agreed ⟨draws, _, hrun'⟩
  have hready : ((s.heap p).session .subscribe).mediaReady = true := hhears.2.2
  have htask : p ∈ t.egressTasks := by
    refine (hagreed.spawned p).mpr ((hagreed.mediaReady p .subscribe).mp ?_)
    exact ((step_stepped hstep).mediaReady hinv p .subscribe).mpr (.inr hready)
  have hqueue : (t.heap p).egress = (s.heap p).egress ++ [.rtp payload] := by
    rw [(step_stepped hstep).egress hinv p]
    simp only [egressOps, offers, hheard, if_pos hhears, hgate, Option.map_some, Option.toList_some,
      List.map_cons, List.map_nil]
    exact if_pos hspace
  obtain ⟨addr, haddr⟩ := Option.isSome_iff_exists.mp
    (hagreed.task_addressed (addressed_run hrun') htask)
  obtain ⟨s', hs'⟩ := drained_queue hqueue htask haddr
  obtain ⟨hfind, -⟩ := heard_source hheard
  have hclass : classify data = .srtp := by
    by_contra hne
    rw [heard_eq_none hne] at hheard
    cases hheard
  have hsent : t.udpSent = s.udpSent := by
    rw [← ht]
    exact publish_udpSent hclass hfind
  have hcontext := (step_tasked hstep).subscriber p
  refine ⟨addr, t, s', ?_, hstep, hsent, hcontext, hs', ?_⟩
  · have hsession := congrFun ((step_stepped hstep).session_of_heard hheard p) .subscribe
    exact (congrArg (fun x => x.address) hsession).symm.trans haddr
  · rw [hs'.udpSent, hsent, sealed_concat, hcontext]
    rfl

/-- Alice's word reaches Bob, after the frame that waits for him. -/
theorem relayed_filmed : ∃ s t s',
    run step Call.start (Call.setup ++ [Call.bobReady, Call.filmed]) = some s ∧
    (s.heap 1).egress = [.rtp Call.video] ∧ s.step Call.spoken = some t ∧
    Drained 1 Call.bobAddr [.rtp Call.video, .rtp Call.opus] t s' ∧
    s'.udpSent = s.udpSent ++ [(Call.bobAddr, Call.bobVideo), (Call.bobAddr, Call.bobOpus)] := by
  obtain ⟨s, h, hs⟩ := Option.map_eq_some_iff.mp
    (show (run step Call.start (Call.setup ++ [Call.bobReady, Call.filmed])).map (fun s =>
      (s.heard Call.spoken).any fun m => decide (m.packet = some (Call.opus, 1000) ∧
        (passGate m.source.2.2 (s.heap m.source.1).userId Call.opus).2 = some Call.opus ∧
        Hears s.heap m.source.2.2 (s.heap m.source.1).userId 1 ∧
        (s.heap 1).egress = [.rtp Call.video] ∧
        (s.heap 1).subscribe.address = some Call.bobAddr ∧
        sealed (s.srtp 1 .subscribe).outbound (s.heap 1).egress = [Call.bobVideo] ∧
        (ContextOp.encryptPacket (((s.heap 1).egress.map .encrypt).foldl ContextOp.apply
          (s.srtp 1 .subscribe).outbound) (.rtp Call.opus)).2.toOption = some Call.bobOpus)) =
      some true by decide +kernel)
  obtain ⟨hsome, hs⟩ := (Option.any_eq_true_iff_get _ _).mp hs
  obtain ⟨hrtp, hgate, hhears, hqueue, haddr, hwaiting, hsealed⟩ := of_decide_eq_true hs
  have hheard := (Option.some_get hsome).symm
  generalize (s.heard Call.spoken).get hsome = m at *
  cases m with
  | rtp sender room plaintext arrival =>
    cases hrtp
    obtain ⟨addr, t, s', haddr', hstep, -, -, hs', hsent⟩ :=
      Reachable.relayed ⟨_, _, h⟩ hheard hgate hhears (by rw [hqueue]; decide)
    cases haddr.symm.trans haddr'
    rw [hwaiting, hsealed] at hsent
    rw [hqueue] at hs'
    exact ⟨s, t, s', h, hqueue, hstep, hs', hsent⟩
  | _ => cases hrtp

end

end State

end LightLivechat.Sfu
