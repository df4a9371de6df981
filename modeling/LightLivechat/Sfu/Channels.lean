import LightLivechat.Lib.Components
import LightLivechat.Sfu.Tasks
import LightLivechat.Transport.Udp.Channels

/-! What the task of a DTLS handshake is given.  It has the channel of its address at its
worker to itself until that is closed, and all DTLS from there comes to it. -/

namespace LightLivechat.Sfu

open LightLivechat.Config LightLivechat.Lib LightLivechat.Lib.Bytes LightLivechat.Lib.Std
open LightLivechat.Lib.Runs
open LightLivechat.Transport
open LightLivechat.Transport.Checked (PacketType)
open LightLivechat.Transport.Udp (DtlsSessionMap Handshake Instant)

inductive ChannelOp where
  | start
  | put (data : Bytes)
  | close

/-- On what is in the open channel, if there is one. -/
def ChannelOp.apply (queue : Option (List Bytes)) : ChannelOp → Option (List Bytes)
  | .start => some []
  | .put data => queue.map (· ++ [data])
  | .close => none

theorem ChannelOp.foldl_put (queue datas : List Bytes) :
    (datas.map put).foldl apply (some queue) = some (queue ++ datas) := by
  induction datas generalizing queue with
  | nil => rw [List.append_nil]; rfl
  | cons data datas ih => exact (ih _).trans (by rw [List.append_assoc]; rfl)

theorem ChannelOp.foldl_start {α : Type} (queue : Option (List Bytes)) {xs : List α}
    (h : xs ≠ []) : (xs.map fun _ => start).foldl apply queue = some [] := by
  cases xs with
  | nil => exact absurd rfl h
  | cons x xs =>
    clear h
    show (xs.map fun _ => start).foldl apply (some []) = some []
    induction xs with
    | nil => rfl
    | cons x xs ih => exact ih

def Label.dtlsFrom (worker : Nat) (addr : SocketAddr) : Label → List Bytes
  | .datagram worker' data remote _ _ =>
    if worker' = worker ∧ remote = addr ∧ classify data = .dtls then [data] else []
  | _ => []

namespace State

variable {P : Platform}

/-- The handshakes a step starts with an address at a worker. -/
def startedAt (worker : Nat) (addr : SocketAddr) (s : State P) : Label → List Handshake
  | .datagram worker' data remote now arrival =>
    if worker' = worker ∧ remote = addr then
      (s.receive worker' data remote now arrival).handshakes.drop s.handshakes.length
    else []
  | _ => []

def channelOps (worker : Nat) (addr : SocketAddr) (s : State P) (l : Label) : List ChannelOp :=
  (s.startedAt worker addr l).map (fun _ => .start) ++
    match l with
    | .dtlsClosed worker' addr' => if worker' = worker ∧ addr' = addr then [.close] else []
    | l => (l.dtlsFrom worker addr).map .put

section

variable {s s' : State P} {l : Label} {worker : Nat} {addr : SocketAddr}

theorem countPacket_opened (s : State P) (worker worker' : Nat) (addr : SocketAddr) :
    ((s.countPacket worker').dtlsMap worker).opened addr = (s.dtlsMap worker).opened addr := by
  unfold countPacket
  dsimp only
  split
  · dsimp only
    by_cases hw : worker = worker'
    · subst hw
      rw [Function.update_self, DtlsSessionMap.removeStale_opened]
    · rw [Function.update_of_ne hw]
  · rfl

theorem handleSrtp_dtlsMap (s : State P) (data : Bytes) (remote : SocketAddr) (now : Nat)
    (arrival : Instant) : (s.handleSrtp data remote now arrival).dtlsMap = s.dtlsMap := by
  unfold handleSrtp
  split
  · rfl
  · rename_i p pc room hfind
    dsimp only
    have htouch : (s.touch p now).dtlsMap = s.dtlsMap := rfl
    rw [← htouch]
    generalize s.touch p now = t
    split
    · rcases t.handleSubscribeRtcp_cases data p room with ⟨-, hquiet⟩ | ⟨_, -, -, hquiet⟩ <;>
        rw [hquiet.frame]
    · split
      · rfl
      · split
        · rcases t.handlePublishRtcp_cases data p room with ⟨-, hquiet⟩ | ⟨_, -, hquiet⟩ <;>
            rw [hquiet.frame]
        · rcases t.handlePublishRtp_cases data p room arrival with ⟨-, hquiet⟩ | ⟨_, -, hquiet⟩ <;>
            rw [hquiet.frame]

theorem update_opened (maps : Nat → DtlsSessionMap) (queue : List Bytes) (worker worker' : Nat)
    (addr addr' : SocketAddr) :
    DtlsSessionMap.opened (Function.update maps worker ((maps worker).insert addr ⟨queue, false⟩)
      worker') addr' =
      if worker' = worker ∧ addr' = addr then some queue else (maps worker').opened addr' := by
  by_cases hw : worker' = worker
  · subst hw
    rw [Function.update_self, DtlsSessionMap.opened_insert]
    simp
  · rw [Function.update_of_ne hw, if_neg fun h => hw h.1]

/-- A datagram starts a handshake only where no channel is open, and what is DTLS comes after
that into the channel, if there is one. -/
theorem handleDatagram_channels (s : State P) (worker : Nat) (data : Bytes) (remote : SocketAddr)
    (now : Nat) (arrival : Instant) : ∃ started,
    (s.handleDatagram worker data remote now arrival).handshakes = s.handshakes ++ started ∧
    (started ≠ [] → (s.dtlsMap worker).opened remote = none) ∧
    ∀ worker' addr, ((s.handleDatagram worker data remote now arrival).dtlsMap worker').opened addr =
      if worker' = worker ∧ addr = remote then
        (started.map (fun _ => ChannelOp.start) ++
          if classify data = PacketType.dtls then [ChannelOp.put data] else []).foldl ChannelOp.apply
            ((s.dtlsMap worker).opened remote)
      else (s.dtlsMap worker').opened addr := by
  have hsame : ∀ t : State P, classify data ≠ .dtls → t.dtlsMap = s.dtlsMap → ∀ worker' addr,
      (t.dtlsMap worker').opened addr = if worker' = worker ∧ addr = remote then
        (([] : List Handshake).map (fun _ => ChannelOp.start) ++
          if classify data = PacketType.dtls then [ChannelOp.put data] else []).foldl ChannelOp.apply
            ((s.dtlsMap worker).opened remote)
      else (s.dtlsMap worker').opened addr := by
    intro t hclass ht worker' addr
    rw [ht, if_neg hclass]
    split
    · obtain ⟨rfl, rfl⟩ := ‹worker' = worker ∧ addr = remote›
      rfl
    · rfl
  unfold handleDatagram
  split
  · rename_i hclass
    have hnot : classify data ≠ .dtls := by rw [hclass]; simp
    obtain ⟨hmap, hhand⟩ | ⟨hnone, hmap, p, pc, hhand⟩ :=
      s.udp.handleStun_channels worker remote P.stun data now
    · exact ⟨[], hhand.trans (List.append_nil _).symm, fun h => absurd rfl h, hsame _ hnot hmap⟩
    · refine ⟨[⟨remote, p, pc⟩], hhand, fun _ => ?_, fun worker' addr => ?_⟩
      · unfold DtlsSessionMap.opened
        rw [show (s.dtlsMap worker).lookup remote = none from hnone]
        rfl
      · refine (congrArg (fun maps => DtlsSessionMap.opened (maps worker') addr) hmap).trans ?_
        rw [update_opened, if_neg hnot]
        rfl
  · rename_i hclass
    obtain ⟨queue, hopen, hmap, hhand⟩ | ⟨hnone, -, hdropped⟩ | ⟨hnone, hmap, p, pc, _, -, hhand⟩ :=
      s.udp.handleDtls_channels worker remote data
    · refine ⟨[], hhand.trans (List.append_nil _).symm, fun h => absurd rfl h,
        fun worker' addr => ?_⟩
      refine (congrArg (fun maps => DtlsSessionMap.opened (maps worker') addr) hmap).trans ?_
      rw [update_opened, if_pos hclass, show (s.dtlsMap worker).opened remote = some queue from hopen]
      rfl
    · refine ⟨[], ?_, fun h => absurd rfl h, fun worker' addr => ?_⟩
      · rw [hdropped]
        exact (List.append_nil _).symm
      · rw [hdropped, if_pos hclass, show (s.dtlsMap worker).opened remote = none from hnone]
        split
        · obtain ⟨rfl, rfl⟩ := ‹worker' = worker ∧ addr = remote›
          exact hnone
        · rfl
    · refine ⟨[⟨remote, p, pc⟩], hhand, fun _ => hnone, fun worker' addr => ?_⟩
      refine (congrArg (fun maps => DtlsSessionMap.opened (maps worker') addr) hmap).trans ?_
      rw [update_opened, if_pos hclass]
      rfl
  · rename_i hclass
    exact ⟨[], (handleSrtp_sameTasks ..).handshakes.trans (List.append_nil _).symm,
      fun h => absurd rfl h, hsame _ (by rw [hclass]; simp) (handleSrtp_dtlsMap ..)⟩
  · rename_i hclass
    exact ⟨[], (List.append_nil _).symm, fun h => absurd rfl h, hsame _ (by rw [hclass]; simp) rfl⟩

theorem receive_channels (s : State P) (worker' : Nat) (data : Bytes) (remote : SocketAddr)
    (now : Nat) (arrival : Instant) (worker : Nat) (addr : SocketAddr) :
    (((s.receive worker' data remote now arrival).dtlsMap worker).opened addr =
      (s.channelOps worker addr (.datagram worker' data remote now arrival)).foldl ChannelOp.apply
        ((s.dtlsMap worker).opened addr)) ∧
    (s.startedAt worker addr (.datagram worker' data remote now arrival) ≠ [] →
      (s.dtlsMap worker).opened addr = none) := by
  obtain ⟨started, hhand, hfree, hopened⟩ := s.handleDatagram_channels worker' data remote now arrival
  have hstarted : (s.receive worker' data remote now arrival).handshakes.drop s.handshakes.length =
      started := by
    rw [receive, (countPacket_sameTasks ..).handshakes, hhand, List.drop_left]
  have hmap : ((s.receive worker' data remote now arrival).dtlsMap worker).opened addr = _ :=
    (countPacket_opened ..).trans (hopened worker addr)
  rw [hmap]
  simp only [channelOps, startedAt, Label.dtlsFrom, hstarted]
  by_cases hat : worker' = worker ∧ remote = addr
  · obtain ⟨rfl, rfl⟩ := hat
    simp only [and_self, if_true, true_and]
    refine ⟨?_, hfree⟩
    split <;> rfl
  · have hat' : ¬ (worker = worker' ∧ addr = remote) := fun h => hat ⟨h.1.symm, h.2.symm⟩
    have hfrom : ¬ (worker' = worker ∧ remote = addr ∧ classify data = .dtls) :=
      fun h => hat ⟨h.1, h.2.1⟩
    rw [if_neg hat, if_neg hat', if_neg hfrom]
    exact ⟨rfl, fun h => absurd rfl h⟩

theorem step_dtlsMap (h : s.step l = some s')
    (hdatagram : ∀ worker data remote now arrival, l ≠ .datagram worker data remote now arrival)
    (hclosed : ∀ worker addr, l ≠ .dtlsClosed worker addr) : s'.dtlsMap = s.dtlsMap := by
  cases l with
  | packet sid packet draws =>
    obtain ⟨server, -, heq⟩ := Option.bind_eq_some_iff.mp h
    cases heq
    rw [(quiet_pliOnPacket { s with toServer := server } s.toServer sid packet draws).frame]
  | disconnect sid =>
    obtain ⟨server, -, heq⟩ := Option.bind_eq_some_iff.mp h
    cases heq
    rfl
  | floorTimer | zombieReaper =>
    cases h
    rfl
  | datagram worker data remote now arrival => exact (hdatagram _ _ _ _ _ rfl).elim
  | dtlsClosed worker addr => exact (hclosed _ _ rfl).elim
  | dtlsSend i buf =>
    obtain ⟨x, -, heq⟩ := Option.bind_eq_some_iff.mp h
    cases heq
    rfl
  | handshakeDone i material =>
    obtain ⟨x, hx, heq⟩ := Option.bind_eq_some_iff.mp h
    split at heq
    · cases heq
    · cases heq
      obtain ⟨hpub, hsub⟩ := finishHandshake_quiet { s with finished := s.finished ++ [i] } x material
      cases hpc : x.pcType with
      | publish =>
        rw [hpub hpc]
        rfl
      | subscribe =>
        rw [(hsub hpc).frame]
        unfold spawnEgressTask
        dsimp only
        split <;> rfl
  | egress p =>
    obtain ⟨packet, rest, -, -, rfl⟩ := step_egress h
    rw [(s.passed_runEgress p packet rest).frame]
  | bweTimer =>
    simp only [step] at h
    split at h
    · cases h
      rw [(readOut_sendTwccToPublishers s).quiet.frame]
    · cases h
      rw [s.quiet_sendRembToPublishers.frame]
  | pliBurst i =>
    obtain ⟨b, hb, heq⟩ := Option.bind_eq_some_iff.mp h
    split at heq
    · cases heq
    · cases heq
      dsimp only [runPliBurst]
      rw [(s.quiet_sendRtcp b.participant (Udp.buildPli b.ssrc) b.addr).frame]

theorem step_channels (h : s.step l = some s') (worker : Nat) (addr : SocketAddr) :
    ((s'.dtlsMap worker).opened addr =
      (s.channelOps worker addr l).foldl ChannelOp.apply ((s.dtlsMap worker).opened addr)) ∧
    (s.startedAt worker addr l ≠ [] → (s.dtlsMap worker).opened addr = none) := by
  cases l with
  | datagram =>
    cases h
    exact receive_channels ..
  | dtlsClosed worker' addr' =>
    obtain ⟨tx, -, heq⟩ := Option.bind_eq_some_iff.mp h
    cases heq
    refine ⟨?_, fun h => absurd rfl h⟩
    simp only [channelOps, startedAt, List.map_nil, List.nil_append]
    by_cases hw : worker = worker'
    · subst hw
      rw [Function.update_self, DtlsSessionMap.opened_insert]
      by_cases haddr : addr = addr'
      · subst haddr
        rw [if_pos rfl, if_pos (And.intro rfl rfl)]
        rfl
      · rw [if_neg haddr, if_neg fun h => haddr h.2.symm]
        rfl
    · rw [Function.update_of_ne hw, if_neg fun h => hw h.1.symm]
      rfl
  | _ =>
    rw [step_dtlsMap h (by simp) (by simp)]
    exact ⟨rfl, fun h => absurd rfl h⟩

end

section

variable {labels : List Label} {s s' t : State P} {l : Label}
variable {worker : Nat} {addr : SocketAddr} {queue : List Bytes}

/-- Along every run the channel of an address at a worker is what its starts, its datagrams
and its ends make of it. -/
theorem channel_run (h : run step s labels = some s') (worker : Nat) (addr : SocketAddr) :
    (s'.dtlsMap worker).opened addr =
      (outputs step (channelOps worker addr) s labels).foldl ChannelOp.apply
        ((s.dtlsMap worker).opened addr) :=
  component (I := fun _ => True) (g := fun t => (t.dtlsMap worker).opened addr)
    (fun _ _ _ _ hstep => ⟨trivial, (step_channels hstep worker addr).1⟩) trivial h

/-- An open channel is not closed by anything but the end of its task: it stays open, takes all
DTLS from its address, and no other handshake is started there. -/
theorem open_run (hopen : (s.dtlsMap worker).opened addr = some queue)
    (hrun : run step s labels = some s') (hclosed : Label.dtlsClosed worker addr ∉ labels) :
    (s'.dtlsMap worker).opened addr = some (queue ++ labels.flatMap (Label.dtlsFrom worker addr)) ∧
      outputs step (startedAt worker addr) s labels = [] := by
  induction labels generalizing s queue with
  | nil =>
    cases hrun
    exact ⟨by rw [hopen, List.flatMap_nil, List.append_nil], rfl⟩
  | cons l labels ih =>
    obtain ⟨s₁, hs, hr⟩ := run_cons_some hrun
    obtain ⟨hl, hrest⟩ := not_or.mp (List.mem_cons.not.mp hclosed)
    obtain ⟨hops, hfree⟩ := step_channels hs worker addr
    have hnone : s.startedAt worker addr l = [] := by
      by_contra hne
      cases hopen.symm.trans (hfree hne)
    have hopen' : (s₁.dtlsMap worker).opened addr = some (queue ++ l.dtlsFrom worker addr) := by
      have hputs : s.channelOps worker addr l = (l.dtlsFrom worker addr).map .put := by
        unfold channelOps
        rw [hnone]
        cases l with
        | dtlsClosed worker' addr' => exact if_neg fun h => hl (by rw [h.1, h.2])
        | _ => rfl
      rw [hops, hputs, hopen, ChannelOp.foldl_put]
    obtain ⟨hlast, hstarted⟩ := ih hopen' hr hrest
    rw [hlast, outputs_step hs, hnone, hstarted, List.flatMap_cons, List.append_assoc]
    exact ⟨rfl, rfl⟩

/-- The task of a handshake has the channel of its address at its worker to itself.  Whatever
happens until the task ends, no other handshake is started there, and the task has been given
all DTLS from the address, in order, and nothing else. -/
theorem handshake_channel (hstep : s.step l = some t) (hstarted : s.startedAt worker addr l ≠ [])
    (hrun : run step t labels = some s') (hclosed : Label.dtlsClosed worker addr ∉ labels) :
    (s'.dtlsMap worker).opened addr = some ((l :: labels).flatMap (Label.dtlsFrom worker addr)) ∧
      outputs step (startedAt worker addr) t labels = [] := by
  refine open_run ?_ hrun hclosed
  rw [(step_channels hstep worker addr).1]
  have hops : s.channelOps worker addr l =
      (s.startedAt worker addr l).map (fun _ => .start) ++ (l.dtlsFrom worker addr).map .put := by
    cases l with
    | dtlsClosed => exact absurd rfl hstarted
    | _ => rfl
  rw [hops, List.foldl_append, ChannelOp.foldl_start _ hstarted, ChannelOp.foldl_put, List.nil_append]

/-- Alice's client shakes hands, and a stranger knocks. -/
theorem handshake_channel_knocked : ∃ s t s', run step Call.start (Call.setup.take 5) = some s ∧
    s.step Call.nominated = some t ∧
    run step t [.datagram 0 [22, 1] Call.aliceAddr 3 0, .datagram 0 [22, 9] Call.bobAddr 4 0,
      .datagram 0 [20, 2] Call.aliceAddr 5 0] = some s' ∧
    (s'.dtlsMap 0).opened Call.aliceAddr = some [[22, 1], [20, 2]] := by
  obtain ⟨s, h, hs⟩ := Option.map_eq_some_iff.mp
    (show (run step Call.start (Call.setup.take 5)).map (fun s =>
      decide (s.startedAt 0 Call.aliceAddr Call.nominated = [])) = some false by decide +kernel)
  obtain ⟨hopen, -⟩ := handshake_channel rfl (of_decide_eq_false hs)
    (show run step _ [.datagram 0 [22, 1] Call.aliceAddr 3 0, .datagram 0 [22, 9] Call.bobAddr 4 0,
      .datagram 0 [20, 2] Call.aliceAddr 5 0] = some _ from rfl) (by simp)
  exact ⟨s, _, _, h, rfl, rfl, hopen⟩

end

end State

end LightLivechat.Sfu
