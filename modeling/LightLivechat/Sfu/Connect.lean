import LightLivechat.Sfu.Delivery
import LightLivechat.Transport.Stun.Format
import LightLivechat.Transport.Udp.Channels

/-! How a client gets through.  A request that names a session and verifies under its password
latches it, and starts a handshake if it nominates its pair where the worker has none.  When
that one has finished, media can pass. -/

namespace LightLivechat.Sfu

open LightLivechat.Config LightLivechat.Lib LightLivechat.Lib.Bytes LightLivechat.Lib.Std
open LightLivechat.Lib.Runs
open LightLivechat.Room (Heap Ref Participant PcType Room RoomHub)
open LightLivechat.Transport LightLivechat.Transport.Srtp
open LightLivechat.Transport.Udp (Handshake Instant)

theorem classify_of_names {data : Bytes} {msg : Stun.StunMessage} {ufrag : String}
    (h : Udp.Names data msg ufrag) : classify data = .stun := by
  obtain ⟨hparse, htype, -⟩ := h
  obtain ⟨x, trailing, rfl, rfl⟩ := Stun.exists_message hparse
  have htype' : x.msgType = Stun.bindingRequest := htype
  rw [Stun.Message.bytes, Stun.header, htype']
  rfl

namespace State

variable {P : Platform}

/-- Media can pass the session: the server knows where to and has the keys, and a subscriber
has its egress task. -/
structure Connected (s : State P) (p : Ref) (pc : PcType) : Prop where
  address : ((s.heap p).session pc).address.isSome
  mediaReady : ((s.heap p).session pc).mediaReady = true
  inbound : (s.srtp p pc).inbound.isReady = true
  outbound : (s.srtp p pc).outbound.isReady = true
  task : pc = .subscribe → p ∈ s.egressTasks

section

variable {s s' t : State P} {l : Label} {labels : List Label} {p : Ref} {pc : PcType}

theorem Agreed.connected (hagreed : s.Agreed) (haddr : s.Addressed) (h : s.Finished p pc) :
    s.Connected p pc where
  address := by
    obtain ⟨i, -, remote, hx⟩ := h
    exact haddr _ (List.mem_of_getElem? hx)
  mediaReady := (hagreed.mediaReady p pc).mpr h
  inbound := (hagreed.inbound p pc).mpr h
  outbound := (hagreed.outbound p pc).mpr h
  task := by
    rintro rfl
    exact (hagreed.spawned p).mpr h

theorem handshakes_step (h : s.step l = some s') :
    s.handshakes <+: s'.handshakes ∧ s.finished ⊆ s'.finished := by
  rcases (step_tasked h).idle_or_done with hidle | ⟨i, x, hdone⟩
  · obtain ⟨more, hmore⟩ := hidle.handshakes
    exact ⟨⟨more, hmore.symm⟩, hidle.finished ▸ List.Subset.refl _⟩
  · exact ⟨hdone.handshakes ▸ List.prefix_refl _,
      hdone.finished ▸ List.subset_append_left _ _⟩

theorem handshakes_run (h : run step s labels = some s') : s.handshakes <+: s'.handshakes :=
  run_inv (G := fun _ _ => True) (P := fun t => s.handshakes <+: t.handshakes)
    (fun _ _ _ ht _ h => ht.trans (handshakes_step h).1) (List.prefix_refl _)
    (.of_forall (fun _ _ => trivial) ..) h

theorem latchByUfrag_of_findByUfrag {hub : RoomHub} {ufrag : String} {room : Room}
    (h : hub.findByUfrag ufrag = some (p, pc, room)) (heap : Heap) (remote : SocketAddr) :
    ∃ hub', hub.latchByUfrag heap ufrag remote = some (heap.latch p pc remote, hub', p, pc) ∧
      ∃ room', hub'.findByAddr remote = some (p, pc, room') := by
  obtain ⟨roomId, hid, hroom, hufrag⟩ := RoomHub.findByUfrag_eq_some h
  obtain ⟨room', hlatch, haddr⟩ : ∃ room', room.latch heap ufrag remote =
      some (heap.latch p pc remote, room', p, pc) ∧ room'.byAddr.lookup remote = some (p, pc) := by
    simp only [Room.latch, hufrag]
    exact ⟨_, rfl, AList.lookup_insert _⟩
  refine ⟨{ hub with
    rooms := hub.rooms.insert roomId room'
    addrIndex := hub.addrIndex.insert remote roomId }, ?_, room', ?_⟩
  · simp [RoomHub.latchByUfrag, hid, hroom, hlatch]
  · simp [RoomHub.findByAddr, Room.getByAddr, haddr]

theorem handleStun_starts {c : Stun.Primitives} (u : Udp.Server) (worker now : Nat) {data : Bytes}
    {remote : SocketAddr} {msg : Stun.StunMessage} {ufrag : String} {heap : Heap} {hub : RoomHub}
    (hnames : Udp.Names data msg ufrag)
    (hlatch : u.hub.latchByUfrag u.heap ufrag remote = some (heap, hub, p, pc))
    (hverify : Udp.VerifiesUnder c msg ((heap p).session pc))
    (hnominates : msg.hasUseCandidate = true) (hfree : (u.dtlsMap worker).lookup remote = none) :
    u.handleStun c worker data remote now = ({ u with
      heap := heap.update p fun x => x.touch now
      hub := hub
      sent := u.sent ++ [(remote, Stun.buildBindingResponse c msg.transactionId remote
        (Stun.iceIntegrityKey ((heap p).session pc).icePwd))] } : Udp.Server).startDtlsHandshake
          worker remote p pc := by
  obtain ⟨hparse, htype, username, husername, rfl⟩ := hnames
  unfold Udp.VerifiesUnder at hverify
  have hfree' : (u.dtlsMap worker).has remote = false := Udp.DtlsSessionMap.has_eq_false.mpr hfree
  simp [Udp.Server.handleStun, hparse, htype, husername, hlatch, hverify, hnominates, hfree',
    Heap.update_same, Participant.touch_session]

/-- A client that names a session in a request, signs it with the password of the session and
nominates its pair is answered and found by its address from then on.  Where the worker's
DTLS map has no entry for the address, not even that of a handshake that has ended, one is
started; and whatever happens after that, once it has finished the session is connected. -/
theorem Reachable.connects (h : s.Reachable) {worker now : Nat} {data : Bytes}
    {remote : SocketAddr} {arrival : Instant} {msg : Stun.StunMessage} {ufrag : String} {room : Room}
    (hnames : Udp.Names data msg ufrag)
    (hfind : s.rooms.findByUfrag ufrag = some (p, pc, room))
    (hverify : Udp.VerifiesUnder P.stun msg ((s.heap p).session pc))
    (hnominates : msg.hasUseCandidate = true) (hfree : (s.dtlsMap worker).lookup remote = none) :
    ∃ t, s.step (.datagram worker data remote now arrival) = some t ∧
      t.udpSent = s.udpSent ++ [(remote, Stun.buildBindingResponse P.stun msg.transactionId remote
        (Stun.iceIntegrityKey ((s.heap p).session pc).icePwd))] ∧
      ((t.heap p).session pc).address = some remote ∧
      (∃ room', t.rooms.findByAddr remote = some (p, pc, room')) ∧
      t.handshakes = s.handshakes ++ [⟨remote, p, pc⟩] ∧
      ∀ labels u, run step t labels = some u → s.handshakes.length ∈ u.finished →
        u.Connected p pc := by
  obtain ⟨hub, hlatch, room', hfound⟩ := latchByUfrag_of_findByUfrag hfind s.heap remote
  have hicePwd := latchByUfrag_icePwd hlatch
  have hstun := handleStun_starts s.udp worker now hnames hlatch
    (by unfold Udp.VerifiesUnder at hverify ⊢; rwa [hicePwd]) hnominates hfree
  rw [hicePwd] at hstun
  have hdatagram : s.handleDatagram worker data remote now arrival =
      s.withUdp (s.udp.handleStun P.stun worker data remote now) := by
    rw [handleDatagram, classify_of_names hnames]
  have hstep : s.step (.datagram worker data remote now arrival) =
      some (s.receive worker data remote now arrival) := rfl
  rw [receive, hdatagram, hstun] at hstep
  have hserver := (s.withUdp (s.udp.handleStun P.stun worker data remote now)).countPacket_toServer
    worker
  have htasks := (s.withUdp (s.udp.handleStun P.stun worker data remote now)).countPacket_sameTasks
    worker
  obtain ⟨-, hsent, -⟩ :=
    (s.withUdp (s.udp.handleStun P.stun worker data remote now)).countPacket_same worker
  rw [hstun] at hserver htasks hsent
  refine ⟨_, hstep, hsent, ?_, ?_, htasks.handshakes, fun labels u hrun hfinished => ?_⟩
  · rw [hserver]
    refine (Heap.update_field (fun x => (x.session pc).address) (by cases pc <;> rfl) p).trans ?_
    rw [Heap.latch_address, if_pos ⟨rfl, rfl⟩]
  · rw [hserver]
    exact ⟨room', hfound⟩
  · obtain ⟨draws, before, hbefore⟩ := h
    have hreached := run_snoc hbefore hstep
    have hwhole := (run_append hreached).trans hrun
    refine (Reachable.agreed ⟨draws, _, hwhole⟩).connected (addressed_run hwhole)
      ⟨s.handshakes.length, hfinished, remote, ?_⟩
    obtain ⟨more, hmore⟩ := handshakes_run hrun
    rw [← hmore, htasks.handshakes]
    have hnew : ((s.handshakes ++ [⟨remote, p, pc⟩]) ++ more)[s.handshakes.length]? =
        some ⟨remote, p, pc⟩ := by
      rw [List.append_assoc, List.getElem?_append_right (Nat.le_refl _), Nat.sub_self]
      rfl
    exact hnew

/-- Alice's client gets through. -/
theorem connects_setup : ∃ s t u, run step Call.start (Call.setup.take 5) = some s ∧
    s.step Call.nominated = some t ∧ s.handshakes = [] ∧
    ((t.heap 0).session .publish).address = some Call.aliceAddr ∧
    run step t [Call.aliceReady] = some u ∧ u.Connected 0 .publish := by
  obtain ⟨s, h, hs⟩ := Option.map_eq_some_iff.mp
    (show (run step Call.start (Call.setup.take 5)).map (fun s =>
      (Stun.parse (Call.signedRequest "a2p:c" Call.aliceDigest)).any fun msg =>
        (s.rooms.findByUfrag "a2p").any fun x => decide (x.1 = 0 ∧ x.2.1 = .publish ∧
          s.handshakes.length = 0 ∧ ((s.dtlsMap 0).lookup Call.aliceAddr).isNone ∧
          msg.msgType = Stun.bindingRequest ∧ msg.username.map Udp.serverUfrag = some "a2p" ∧
          msg.hasUseCandidate = true ∧ Stun.verifyMessageIntegrity Call.stun msg
            (Stun.iceIntegrityKey ((s.heap 0).session .publish).icePwd) = true)) = some true by
      decide +kernel)
  obtain ⟨hparse, hs⟩ := (Option.any_eq_true_iff_get _ _).mp hs
  obtain ⟨hfind, hs⟩ := (Option.any_eq_true_iff_get _ _).mp hs
  obtain ⟨hp, hpc, hnone, hfree, htype, husername, hnominates, hverify⟩ := of_decide_eq_true hs
  obtain ⟨username, husername, hufrag⟩ := Option.map_eq_some_iff.mp husername
  have hfound : s.rooms.findByUfrag "a2p" = some (0, .publish, _) :=
    (Option.some_get hfind).symm.trans (congrArg some (Prod.ext hp (Prod.ext hpc rfl)))
  obtain ⟨t, (ht : s.step Call.nominated = some t), -, haddr, -, -, hlater⟩ :=
    Reachable.connects ⟨_, _, h⟩
      ⟨(Option.some_get hparse).symm, htype, username, husername, hufrag⟩ hfound hverify hnominates
      (Option.isNone_iff_eq_none.mp hfree)
  have hnil := List.length_eq_zero_iff.mp hnone
  rw [hnil] at hlater
  have hdone : (run step Call.start (Call.setup.take 5 ++ [Call.nominated, Call.aliceReady])).any
      (fun u => decide (0 ∈ u.finished)) = true := by decide +kernel
  rw [run_append h, run_step ht] at hdone
  obtain ⟨hsome, hfinished⟩ := (Option.any_eq_true_iff_get _ _).mp hdone
  have hu := (Option.some_get hsome).symm
  exact ⟨s, t, _, h, ht, hnil, haddr, hu, hlater _ _ hu (of_decide_eq_true hfinished)⟩

end

end State

end LightLivechat.Sfu
