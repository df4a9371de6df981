import LightLivechat.Sfu.Steps

/-! What a step of the whole server does to the handshakes, the egress tasks and the keys. -/

namespace LightLivechat.Sfu

open LightLivechat.Config LightLivechat.Lib.Bytes LightLivechat.Lib.Std
open LightLivechat.Room (Heap Ref Participant PcType Room RoomHub EgressPacket)
open LightLivechat.Transport LightLivechat.Transport.Srtp
open LightLivechat.Transport.Udp (Handshake Instant)

namespace State

variable {P : Platform}

/-- Handshakes and egress tasks, which contexts have their keys and what was encrypted for
subscribers. -/
structure SameTasks (s s' : State P) : Prop where
  handshakes : s'.handshakes = s.handshakes
  finished : s'.finished = s.finished
  egressRx : s'.egressRx = s.egressRx
  egressTasks : s'.egressTasks = s.egressTasks
  inbound : ∀ p pc, (s'.srtp p pc).inbound.isReady = (s.srtp p pc).inbound.isReady
  outbound : ∀ p pc, (s'.srtp p pc).outbound.isReady = (s.srtp p pc).outbound.isReady
  subscribe : ∀ p, (s'.srtp p .subscribe).outbound = (s.srtp p .subscribe).outbound

theorem SameTasks.refl (s : State P) : SameTasks s s :=
  ⟨rfl, rfl, rfl, rfl, fun _ _ => rfl, fun _ _ => rfl, fun _ => rfl⟩

theorem SameTasks.trans {s s' s'' : State P} (h : SameTasks s s') (h' : SameTasks s' s'') :
    SameTasks s s'' where
  handshakes := h'.handshakes.trans h.handshakes
  finished := h'.finished.trans h.finished
  egressRx := h'.egressRx.trans h.egressRx
  egressTasks := h'.egressTasks.trans h.egressTasks
  inbound := fun p pc => (h'.inbound p pc).trans (h.inbound p pc)
  outbound := fun p pc => (h'.outbound p pc).trans (h.outbound p pc)
  subscribe := fun p => (h'.subscribe p).trans (h.subscribe p)

theorem sameTasks_of (s : State P) (server : Signaling.Server) (dtlsMap : Nat → Udp.DtlsSessionMap)
    (pktCount : Nat → Nat) (udpSent : List (SocketAddr × Bytes)) (pliBursts : List PliBurst) :
    SameTasks s { s with
      toServer := server
      dtlsMap := dtlsMap
      pktCount := pktCount
      udpSent := udpSent
      pliBursts := pliBursts } :=
  ⟨rfl, rfl, rfl, rfl, fun _ _ => rfl, fun _ _ => rfl, fun _ => rfl⟩

theorem Quiet.sameTasks {s s' : State P} (h : Quiet s s') : SameTasks s s' where
  handshakes := by rw [h.frame]
  finished := by rw [h.frame]
  egressRx := by rw [h.frame]
  egressTasks := by rw [h.frame]
  inbound := h.inbound
  outbound := h.outbound
  subscribe := h.subscribe

/-- A datagram starts a handshake: it is a request for the session and verifies under its
password, or it is DTLS from where the session is latched. -/
def Starts (x : Handshake) (s : State P) : Label → Prop
  | .datagram _ data remote _ _ => x.remote = remote ∧
    ((∃ msg ufrag room, Udp.Names data msg ufrag ∧
        s.rooms.findByUfrag ufrag = some (x.participant, x.pcType, room) ∧
        Udp.VerifiesUnder P.stun msg ((s.heap x.participant).session x.pcType)) ∨
      classify data = .dtls ∧
        ∃ room, s.rooms.findByAddr remote = some (x.participant, x.pcType, room))
  | _ => False

/-- What a step does to the tasks. -/
inductive Tasked (s s' : State P) : Label → Prop
  | same {l : Label} (h : SameTasks s s') (htakes : ∀ p, l ≠ .egress p)
    (hinstalls : ∀ i material, l ≠ .handshakeDone i material) : Tasked s s' l
  | started {l : Label} {x : Handshake} (hx : Starts x s l)
    (h : SameTasks { s with handshakes := s.handshakes ++ [x] } s') : Tasked s s' l
  | finished {i : Nat} {material : Vector U8 srtpKeyMaterialLen} {x : Handshake}
    (hx : s.handshakes[i]? = some x) (hi : i ∉ s.finished)
    (h : SameTasks (({ s with finished := s.finished ++ [i] } : State P).installSrtpKeys
      x.participant x.pcType (exportSrtpKeys material)) s') (hpc : x.pcType = .publish) :
    Tasked s s' (.handshakeDone i material)
  | spawned {i : Nat} {material : Vector U8 srtpKeyMaterialLen} {x : Handshake}
    (hx : s.handshakes[i]? = some x) (hi : i ∉ s.finished)
    (h : SameTasks ((({ s with finished := s.finished ++ [i] } : State P).installSrtpKeys
      x.participant x.pcType (exportSrtpKeys material)).spawnEgressTask x.participant) s')
    (hpc : x.pcType = .subscribe) : Tasked s s' (.handshakeDone i material)
  | taken {p : Ref} {packet : EgressPacket} {rest : List EgressPacket}
    (hqueue : (s.heap p).egress = packet :: rest) (hp : p ∈ s.egressTasks)
    (h : s' = s.runEgress p packet rest) : Tasked s s' (.egress p)

section

variable {s s' : State P} {l : Label}

theorem handleSrtp_sameTasks (s : State P) (data : Bytes) (remote : SocketAddr) (now : Nat)
    (arrival : Instant) : SameTasks s (s.handleSrtp data remote now arrival) := by
  have htouch : ∀ p, SameTasks s (s.touch p now) := fun p => s.sameTasks_of ..
  have hset : ∀ (t : State P) (heap : Heap) (rooms : RoomHub),
      SameTasks t { t with heap := heap, rooms := rooms } := fun t heap rooms => t.sameTasks_of ..
  unfold handleSrtp
  split
  · exact .refl s
  · rename_i p pc room hfind
    dsimp only
    split
    · refine (htouch p).trans ?_
      rcases (s.touch p now).handleSubscribeRtcp_cases data p room with ⟨-, hquiet⟩ | ⟨_, -, -, hquiet⟩
      · exact hquiet.sameTasks
      · exact (hset ..).trans hquiet.sameTasks
    · split
      · exact htouch p
      · refine (htouch p).trans ?_
        split
        · rcases (s.touch p now).handlePublishRtcp_cases data p room with ⟨-, hquiet⟩ | ⟨_, -, hquiet⟩
          · exact hquiet.sameTasks
          · exact (hset ..).trans hquiet.sameTasks
        · rcases (s.touch p now).handlePublishRtp_cases data p room arrival with
            ⟨-, hquiet⟩ | ⟨_, -, hquiet⟩
          · exact hquiet.sameTasks
          · exact (hset ..).trans hquiet.sameTasks

theorem countPacket_same (s : State P) (worker : Nat) :
    (s.countPacket worker).srtp = s.srtp ∧ (s.countPacket worker).udpSent = s.udpSent ∧
      (s.countPacket worker).pliBursts = s.pliBursts := by
  unfold countPacket
  dsimp only
  split <;> exact ⟨rfl, rfl, rfl⟩

theorem countPacket_sameTasks (s : State P) (worker : Nat) :
    SameTasks s (s.countPacket worker) := by
  unfold countPacket
  dsimp only
  split <;> exact s.sameTasks_of ..

theorem withUdp_sameTasks (s : State P) (u : Udp.Server) :
    SameTasks { s with handshakes := u.handshakes } (s.withUdp u) :=
  ⟨rfl, rfl, rfl, rfl, fun _ _ => rfl, fun _ _ => rfl, fun _ => rfl⟩

theorem latchByUfrag_icePwd {hub hub' : RoomHub} {heap heap' : Heap} {ufrag : String}
    {addr : SocketAddr} {p : Ref} {pc : PcType}
    (h : hub.latchByUfrag heap ufrag addr = some (heap', hub', p, pc)) :
    ((heap' p).session pc).icePwd = ((heap p).session pc).icePwd := by
  obtain ⟨roomId, room, room', -, -, hlatch, -⟩ := Room.RoomHub.latchByUfrag_eq_some h
  obtain ⟨-, rfl, -⟩ := Room.Room.latch_spec hlatch
  exact Heap.update_field (fun x => (x.session pc).icePwd) (by cases pc <;> rfl) p

theorem receive_tasked (s : State P) (worker : Nat) (data : Bytes) (remote : SocketAddr)
    (now : Nat) (arrival : Instant) : Tasked s (s.receive worker data remote now arrival)
      (.datagram worker data remote now arrival) := by
  have hcount := (s.handleDatagram worker data remote now arrival).countPacket_sameTasks worker
  unfold receive
  generalize ht : (s.handleDatagram worker data remote now arrival).countPacket worker = t at *
  unfold handleDatagram at hcount
  split at hcount
  · have hudp := (s.withUdp_sameTasks (s.udp.handleStun P.stun worker data remote now)).trans hcount
    rcases Udp.Server.handleStun_cases s.udp worker data remote now with
      ⟨hsame, -⟩ | ⟨msg, ufrag, heap, hub, p, pc, hnames, hlatch, -, -, -, hhand⟩
    · rw [hsame] at hudp
      exact .same hudp (by simp) (by simp)
    · rcases hhand with hhand | ⟨hverifies, hhand⟩
      · rw [hhand] at hudp
        exact .same hudp (by simp) (by simp)
      · rw [hhand] at hudp
        obtain ⟨room, hfind⟩ := Room.RoomHub.findByUfrag_of_latch hlatch
        refine .started (x := ⟨remote, p, pc⟩) ⟨rfl, .inl ⟨msg, ufrag, room, hnames, hfind, ?_⟩⟩ hudp
        unfold Udp.VerifiesUnder at hverifies ⊢
        rwa [latchByUfrag_icePwd hlatch] at hverifies
  · have hudp := (s.withUdp_sameTasks (s.udp.handleDtls worker data remote)).trans hcount
    obtain ⟨-, -, -, hhand | ⟨p, pc, room, hfind, hhand⟩⟩ :=
      Udp.Server.handleDtls_cases s.udp worker data remote
    · rw [hhand] at hudp
      exact .same hudp (by simp) (by simp)
    · rw [hhand] at hudp
      exact .started (x := ⟨remote, p, pc⟩) ⟨rfl, .inr ⟨‹_›, room, hfind⟩⟩ hudp
  · exact .same ((s.handleSrtp_sameTasks data remote now arrival).trans hcount) (by simp) (by simp)
  · exact .same hcount (by simp) (by simp)

theorem step_tasked (h : s.step l = some s') : Tasked s s' l := by
  cases l with
  | packet sid packet draws =>
    obtain ⟨server, -, heq⟩ := Option.bind_eq_some_iff.mp h
    cases heq
    exact .same (SameTasks.trans (s.sameTasks_of ..)
      (quiet_pliOnPacket { s with toServer := server } s.toServer sid packet draws).sameTasks)
      (by simp) (by simp)
  | disconnect sid =>
    obtain ⟨server, -, heq⟩ := Option.bind_eq_some_iff.mp h
    cases heq
    exact .same (s.sameTasks_of ..) (by simp) (by simp)
  | floorTimer | zombieReaper =>
    cases h
    exact .same (s.sameTasks_of ..) (by simp) (by simp)
  | datagram worker data remote now arrival =>
    cases h
    exact receive_tasked ..
  | dtlsClosed worker addr =>
    obtain ⟨tx, -, heq⟩ := Option.bind_eq_some_iff.mp h
    cases heq
    exact .same (s.sameTasks_of ..) (by simp) (by simp)
  | dtlsSend i buf =>
    obtain ⟨x, -, heq⟩ := Option.bind_eq_some_iff.mp h
    cases heq
    exact .same (s.sameTasks_of ..) (by simp) (by simp)
  | handshakeDone i material =>
    obtain ⟨x, hx, heq⟩ := Option.bind_eq_some_iff.mp h
    split at heq
    · cases heq
    · rename_i hi
      cases heq
      obtain ⟨hpub, hsub⟩ := finishHandshake_quiet { s with finished := s.finished ++ [i] } x material
      cases hpc : x.pcType with
      | publish =>
        refine .finished hx hi ?_ hpc
        rw [hpub hpc]
        exact .refl _
      | subscribe => exact .spawned hx hi (hsub hpc).sameTasks hpc
  | egress p =>
    simp only [step] at h
    split at h
    · rename_i packet rest hqueue
      split at h
      · cases h
        exact .taken hqueue ‹_› rfl
      · cases h
    · cases h
  | bweTimer =>
    simp only [step] at h
    split at h
    · cases h
      exact .same (SameTasks.trans (s.sameTasks_of ..)
        (readOut_sendTwccToPublishers s).quiet.sameTasks) (by simp) (by simp)
    · cases h
      exact .same s.quiet_sendRembToPublishers.sameTasks (by simp) (by simp)
  | pliBurst i =>
    obtain ⟨b, hb, heq⟩ := Option.bind_eq_some_iff.mp h
    split at heq
    · cases heq
    · cases heq
      have hquiet := s.quiet_sendRtcp b.participant (Udp.buildPli b.ssrc) b.addr
      exact .same (hquiet.sameTasks.trans (sameTasks_of ..)) (by simp) (by simp)

end

end State

end LightLivechat.Sfu
