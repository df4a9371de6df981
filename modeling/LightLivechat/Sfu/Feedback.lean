import LightLivechat.Sfu.Handshakes

/-! What publishers are sent on the server's own account: bandwidth feedback by the timer, and
requests for keyframes when a subscriber becomes ready. -/

namespace LightLivechat.Sfu

open LightLivechat.Config LightLivechat.Lib LightLivechat.Lib.Bytes LightLivechat.Lib.Std
open LightLivechat.Lib.Runs
open LightLivechat.Room (Heap Ref Participant PcType Room RoomHub EgressPacket)
open LightLivechat.Transport LightLivechat.Transport.Srtp
open LightLivechat.Transport.Udp (Handshake Instant)

namespace State

variable {P : Platform}

def publishers (s : State P) : List Ref :=
  s.rooms.rooms.entries.flatMap fun room => DashMap.values room.2.participants

/-- What is sent of RTCP for a publisher, as its outbound context encrypts it. -/
def rtcpTo (s : State P) (p : Ref) (addr : SocketAddr) (packet : Bytes) :
    List (SocketAddr × Bytes) :=
  match ((s.srtp p .publish).outbound.encryptRtcp packet).2 with
  | .ok encrypted => [(addr, encrypted)]
  | .error _ => []

def pliTo (s : State P) (p : Ref) : List (SocketAddr × Bytes) :=
  match videoOf (s.heap p) with
  | some (addr, ssrc) => s.rtcpTo p addr (Udp.buildPli ssrc)
  | none => []

/-- The feedback for a publisher's video: by the mode, of its arrivals or a fixed bitrate. -/
def bweTo (s : State P) (p : Ref) : List (SocketAddr × Bytes) :=
  match videoOf (s.heap p) with
  | some (addr, ssrc) =>
    match P.bweMode with
    | .remb => s.rtcpTo p addr (Udp.buildRemb P.rembBitrate ssrc)
    | .twcc =>
      match (Udp.buildTwccFeedback (s.heap p).twccRecorder ssrc).2 with
      | some feedback => s.rtcpTo p addr feedback
      | none => []
  | none => []

def readRecorder (x : Participant) : Udp.TwccRecorder :=
  match videoOf x with
  | some (_, ssrc) => (Udp.buildTwccFeedback x.twccRecorder ssrc).1
  | none => x.twccRecorder

section

variable {s s' : State P} {p q : Ref}

theorem mem_publishers : p ∈ s.publishers ↔ ∃ r, s.rooms.Member r p := by
  unfold publishers
  rw [List.mem_flatMap]
  constructor
  · rintro ⟨⟨r, room⟩, hroom, hp⟩
    obtain ⟨u, hu⟩ := DashMap.exists_lookup_of_mem_values hp
    exact ⟨r, room, u, AList.mem_lookup_iff.mpr hroom, hu⟩
  · rintro ⟨r, room, u, hroom, hu⟩
    exact ⟨⟨r, room⟩, AList.mem_lookup_iff.mp hroom, DashMap.mem_values hu⟩

theorem Inv.publishers_nodup (hinv : s.Inv) : s.publishers.Nodup := by
  unfold publishers
  rw [List.nodup_flatMap]
  refine ⟨fun room hroom => ?_, ?_⟩
  · exact (hinv.keyed (AList.mem_lookup_iff.mpr hroom)).values_nodup
  · refine (List.nodupKeys_iff_pairwise.mp s.rooms.rooms.nodupKeys).imp_of_mem
      fun {room room'} hroom hroom' hne => ?_
    intro q hq hq'
    obtain ⟨u, hu⟩ := DashMap.exists_lookup_of_mem_values hq
    obtain ⟨u', hu'⟩ := DashMap.exists_lookup_of_mem_values hq'
    have hhome := hinv.home ⟨room.2, u, AList.mem_lookup_iff.mpr hroom, hu⟩
    have hhome' := hinv.home ⟨room'.2, u', AList.mem_lookup_iff.mpr hroom', hu'⟩
    exact hne (hhome.symm.trans hhome')

theorem forPublishers_eq (s : State P) (f : State P → Ref → State P) :
    s.forPublishers f = s.publishers.foldl f s := by
  unfold forPublishers publishers
  rw [List.foldl_flatMap]
  simp only [DashMap.values, List.foldl_map]

theorem rtcpTo_congr (h : s'.srtp p .publish = s.srtp p .publish) (addr : SocketAddr)
    (packet : Bytes) : s'.rtcpTo p addr packet = s.rtcpTo p addr packet := by
  unfold rtcpTo
  rw [h]

section

variable (s : State P) (p : Ref) (addr : SocketAddr) (packet : Bytes)

theorem sendRtcp_udpSent :
    (s.sendRtcp p addr packet).udpSent = s.udpSent ++ s.rtcpTo p addr packet := by
  unfold sendRtcp sendEncrypted rtcpTo
  dsimp only
  cases ((s.srtp p .publish).outbound.encryptRtcp packet).2 with
  | ok encrypted => rfl
  | error e => exact (List.append_nil _).symm

theorem sendRtcp_srtp (hq : q ≠ p) :
    (s.sendRtcp p addr packet).srtp q .publish = s.srtp q .publish := by
  unfold sendRtcp
  rw [sendEncrypted_srtp, if_neg fun h => hq h.1]

theorem sendRtcp_heap : (s.sendRtcp p addr packet).heap = s.heap := (s.quiet_sendRtcp ..).heap

end

/-- A sender asks one publisher: it sends what it has for it, and what it would send to the
others stays as it is. -/
structure Asks (send : State P → Ref → State P)
    (out : State P → Ref → List (SocketAddr × Bytes)) : Prop where
  sent : ∀ s p, (send s p).udpSent = s.udpSent ++ out s p
  others : ∀ s p q, q ≠ p → out (send s p) q = out s q

theorem Asks.foldl {send : State P → Ref → State P}
    {out : State P → Ref → List (SocketAddr × Bytes)} (h : Asks send out) {ps : List Ref}
    (hnd : ps.Nodup) (s : State P) : (ps.foldl send s).udpSent = s.udpSent ++ ps.flatMap (out s) :=
  foldl_sent h.sent h.others hnd s

theorem asks_sendPli : Asks (P := P) sendPli pliTo where
  sent := fun s p => by
    unfold sendPli pliTo
    split <;> rename_i h
    · rw [h]
      exact (List.append_nil _).symm
    · rw [h]
      exact sendRtcp_udpSent ..
  others := fun s p q hq => by
    unfold sendPli
    split
    · rfl
    · unfold pliTo
      rw [sendRtcp_heap]
      split
      · exact rtcpTo_congr (sendRtcp_srtp _ _ _ _ hq) ..
      · rfl

theorem bweTo_congr (hheap : s'.heap q = s.heap q)
    (hsrtp : s'.srtp q .publish = s.srtp q .publish) : s'.bweTo q = s.bweTo q := by
  unfold bweTo
  simp only [hheap, rtcpTo_congr hsrtp]

theorem asks_sendRemb (hmode : P.bweMode = .remb) : Asks (P := P) sendRemb bweTo where
  sent := fun s p => by
    unfold sendRemb bweTo
    split <;> rename_i h
    · rw [h]
      exact (List.append_nil _).symm
    · rw [h, hmode]
      exact sendRtcp_udpSent ..
  others := fun s p q hq => by
    unfold sendRemb
    split
    · rfl
    · exact bweTo_congr (by rw [sendRtcp_heap]) (sendRtcp_srtp _ _ _ _ hq)

theorem asks_sendTwcc (hmode : P.bweMode = .twcc) : Asks (P := P) sendTwcc bweTo where
  sent := fun s p => by
    unfold sendTwcc bweTo
    split <;> rename_i h
    · rw [h]
      exact (List.append_nil _).symm
    · rw [h, hmode]
      dsimp only
      split <;> rename_i hfb
      · rw [hfb]
        exact (List.append_nil _).symm
      · rw [hfb]
        exact sendRtcp_udpSent ..
  others := fun s p q hq => by
    refine bweTo_congr (s.sendTwcc_elsewhere hq) ?_
    unfold sendTwcc
    split
    · rfl
    · dsimp only
      split
      · rfl
      · exact sendRtcp_srtp _ _ _ _ hq

theorem sendTwcc_recorder (s : State P) (p : Ref) :
    ((s.sendTwcc p).heap p).twccRecorder = readRecorder (s.heap p) := by
  unfold sendTwcc readRecorder
  split <;> rename_i h
  · rw [h]
  · rw [h]
    dsimp only
    split
    · dsimp only
      rw [Heap.update_same]
    · rw [sendRtcp_heap]
      dsimp only
      rw [Heap.update_same]

theorem Inv.sendTwccToPublishers_recorder (hinv : s.Inv) (p : Ref) :
    (s.sendTwccToPublishers.heap p).twccRecorder =
      if p ∈ s.publishers then readRecorder (s.heap p) else (s.heap p).twccRecorder := by
  unfold sendTwccToPublishers
  rw [forPublishers_eq]
  exact @foldl_apply _ _ _ sendTwcc s.publishers _ (fun t q => (t.heap q).twccRecorder)
    (fun t q => readRecorder (t.heap q)) sendTwcc_recorder
    (fun t p q hq => by rw [t.sendTwcc_elsewhere hq])
    (fun t p q hq => by rw [t.sendTwcc_elsewhere hq]) hinv.publishers_nodup s p

theorem Inv.bweTimer_udpSent (hinv : s.Inv) (h : s.step .bweTimer = some s') :
    s'.udpSent = s.udpSent ++ s.publishers.flatMap s.bweTo := by
  simp only [step] at h
  split at h <;> rename_i hmode <;> cases h
  · unfold sendTwccToPublishers
    rw [forPublishers_eq]
    exact (asks_sendTwcc hmode).foldl hinv.publishers_nodup s
  · unfold sendRembToPublishers
    rw [forPublishers_eq]
    exact (asks_sendRemb hmode).foldl hinv.publishers_nodup s

/-- The timer sends bandwidth feedback once for each participant of a room that is ready for
publishing, latched and has a video, to where it is latched, for the SSRC of that video;
and nothing else. -/
theorem Reachable.bweTimer_sent (hs : s.Reachable) (h : s.step .bweTimer = some s') :
    ∃ publishers : List Ref, publishers.Nodup ∧
      (∀ p, p ∈ publishers ↔ ∃ r, s.rooms.Member r p) ∧
      s'.udpSent = s.udpSent ++ publishers.flatMap s.bweTo :=
  ⟨s.publishers, hs.inv.publishers_nodup, fun _ => mem_publishers, hs.inv.bweTimer_udpSent h⟩

theorem bweTimer_sent_watched : ∃ s s', run step Call.start Call.watched = some s ∧
    s.step .bweTimer = some s' ∧ s'.udpSent = s.udpSent ++ [(Call.aliceAddr, Call.aliceTwcc)] ∧
    ∃ publishers : List Ref, publishers.Nodup ∧
      (∀ p, p ∈ publishers ↔ ∃ r, s.rooms.Member r p) ∧
      s'.udpSent = s.udpSent ++ publishers.flatMap s.bweTo := by
  obtain ⟨s, h, hs⟩ := Option.map_eq_some_iff.mp
    (show (run step Call.start Call.watched).map (fun s => (s.step .bweTimer).map fun s' =>
      decide (s'.udpSent = s.udpSent ++ [(Call.aliceAddr, Call.aliceTwcc)])) =
      some (some true) by decide +kernel)
  obtain ⟨s', hstep, hsent⟩ := Option.map_eq_some_iff.mp hs
  exact ⟨s, s', h, hstep, of_decide_eq_true hsent, Reachable.bweTimer_sent ⟨_, _, h⟩ hstep⟩

theorem foldl_filter_sendPli (s : State P) (ps : List (Sigma fun _ : String => Ref))
    (excludeUser : String) (hsame : ∀ (t : State P) q, (t.sendPli q).heap = t.heap) :
    ps.foldl (fun t e => if (t.heap e.2).userId = excludeUser then t else t.sendPli e.2) s =
      ((ps.map fun e => e.2).filter fun p => (s.heap p).userId ≠ excludeUser).foldl sendPli s := by
  induction ps generalizing s with
  | nil => rfl
  | cons e ps ih =>
    rw [List.foldl_cons, List.map_cons]
    split <;> rename_i huser
    · rw [ih s, List.filter_cons_of_neg (by simp [huser])]
    · rw [ih, List.filter_cons_of_pos (by simp [huser]), List.foldl_cons, hsame]

theorem sendPliToPublishers_sent {room : Room}
    (hnd : (DashMap.values room.participants).Nodup) (s : State P) (excludeUser : String) :
    (s.sendPliToPublishers room excludeUser).udpSent = s.udpSent ++
      ((DashMap.values room.participants).filter fun p =>
        (s.heap p).userId ≠ excludeUser).flatMap s.pliTo := by
  unfold sendPliToPublishers
  rw [foldl_filter_sendPli _ _ _ fun t q => (t.quiet_sendPli q).heap]
  exact asks_sendPli.foldl (hnd.filter _) s

/-- For the publishers everything is as it was. -/
structure SamePublishers (s s' : State P) : Prop where
  udpSent : s'.udpSent = s.udpSent
  rooms : s'.rooms = s.rooms
  heap : ∀ q, ∃ session, s'.heap q = { s.heap q with subscribe := session }
  srtp : ∀ q, s'.srtp q .publish = s.srtp q .publish

theorem SamePublishers.pliTo (h : SamePublishers s s') (p : Ref) : s'.pliTo p = s.pliTo p := by
  obtain ⟨session, hp⟩ := h.heap p
  have hvideo : videoOf (s'.heap p) = videoOf (s.heap p) := by
    rw [hp]
    rfl
  unfold State.pliTo
  rw [hvideo]
  simp only [rtcpTo_congr (h.srtp p)]

theorem SamePublishers.userId (h : SamePublishers s s') (p : Ref) :
    (s'.heap p).userId = (s.heap p).userId := by
  obtain ⟨session, hp⟩ := h.heap p
  rw [hp]

theorem SamePublishers.roomId (h : SamePublishers s s') (p : Ref) :
    (s'.heap p).roomId = (s.heap p).roomId := by
  obtain ⟨session, hp⟩ := h.heap p
  rw [hp]

theorem samePublishers_ready (s : State P) (p : Ref) (i : Nat) (keys : SrtpKeyMaterial) :
    SamePublishers s ((({ s with finished := s.finished ++ [i] } : State P).installSrtpKeys p
      .subscribe keys).spawnEgressTask p) := by
  obtain ⟨hheap, -, hrooms⟩ := spawnEgressTask_same
    (({ s with finished := s.finished ++ [i] } : State P).installSrtpKeys p .subscribe keys) p
  refine ⟨?_, hrooms, fun q => ?_, fun q => ?_⟩
  · unfold spawnEgressTask
    split <;> rfl
  · rw [hheap]
    refine ⟨((s.heap.update p fun y => y.updateSession .subscribe fun session =>
      session.installSrtpKeys) q).subscribe, ?_⟩
    dsimp only [installSrtpKeys]
    rw [Heap.update_apply]
    split
    · subst_vars
      rfl
    · rfl
  · rw [(spawnEgressTask_tasks _ _).2.2]
    exact (setSrtp_srtp ..).trans (if_neg (by simp))

/-- When a handshake of a subscriber finishes, each of the others in its room that is ready for
publishing, latched and has a video is asked for one keyframe of it, and nobody else is
sent anything. -/
theorem Reachable.subscriberReady_sent (hs : s.Reachable) {i : Nat} {x : Udp.Handshake}
    {material : Vector U8 srtpKeyMaterialLen} (hx : s.handshakes[i]? = some x)
    (hpc : x.pcType = .subscribe) (h : s.step (.handshakeDone i material) = some s') :
    ∃ asked : List Ref, asked.Nodup ∧
      (∀ p, p ∈ asked ↔ s.rooms.Member (s.heap x.participant).roomId p ∧
        (s.heap p).userId ≠ (s.heap x.participant).userId) ∧
      s'.udpSent = s.udpSent ++ asked.flatMap s.pliTo := by
  simp only [step, hx, Option.bind_eq_bind, Option.bind_some] at h
  split at h
  · cases h
  · simp only [Option.some.injEq, finishHandshake, hpc, if_true] at h
    have hsame := s.samePublishers_ready x.participant i (exportSrtpKeys material)
    rw [hsame.roomId, hsame.userId, hsame.rooms] at h
    cases hroom : s.rooms.rooms.lookup (s.heap x.participant).roomId with
    | none =>
      rw [RoomHub.get, hroom] at h
      refine ⟨[], List.nodup_nil, fun p => ?_, ?_⟩
      · simp [RoomHub.Member, hroom]
      · rw [← h, List.flatMap_nil, List.append_nil]
        exact hsame.udpSent
    | some room =>
      rw [RoomHub.get, hroom] at h
      have hnd := (hs.inv.keyed hroom).values_nodup
      refine ⟨(DashMap.values room.participants).filter fun p =>
        (s.heap p).userId ≠ (s.heap x.participant).userId, hnd.filter _, fun p => ?_, ?_⟩
      · rw [List.mem_filter, decide_eq_true_eq]
        refine and_congr_left fun _ => ⟨fun hp => ?_, ?_⟩
        · obtain ⟨u, hu⟩ := DashMap.exists_lookup_of_mem_values hp
          exact ⟨room, u, hroom, hu⟩
        · rintro ⟨room', u, hroom', hu⟩
          cases hroom.symm.trans hroom'
          exact DashMap.mem_values hu
      · rw [← h]
        dsimp only
        rw [sendPliToPublishers_sent hnd, hsame.udpSent, funext hsame.pliTo]
        simp only [hsame.userId]

theorem subscriberReady_sent_bob : ∃ s s' x, run step Call.start Call.setup = some s ∧
    s.handshakes[1]? = some x ∧ s.step Call.bobReady = some s' ∧
    s'.udpSent = s.udpSent ++ [(Call.aliceAddr, Call.alicePli)] ∧
    ∃ asked : List Ref, asked.Nodup ∧
      (∀ p, p ∈ asked ↔ s.rooms.Member (s.heap x.participant).roomId p ∧
        (s.heap p).userId ≠ (s.heap x.participant).userId) ∧
      s'.udpSent = s.udpSent ++ asked.flatMap s.pliTo := by
  obtain ⟨s, h, hs⟩ := Option.map_eq_some_iff.mp
    (show (run step Call.start Call.setup).map (fun s =>
      (s.handshakes[1]?.map fun x => x.pcType, (s.step Call.bobReady).map fun s' =>
        decide (s'.udpSent = s.udpSent ++ [(Call.aliceAddr, Call.alicePli)]))) =
      some (some .subscribe, some true) by decide +kernel)
  obtain ⟨hx, hsent⟩ := Prod.mk.inj hs
  obtain ⟨x, hx, hpc⟩ := Option.map_eq_some_iff.mp hx
  obtain ⟨s', hstep, hsent⟩ := Option.map_eq_some_iff.mp hsent
  exact ⟨s, s', x, h, hx, hstep, of_decide_eq_true hsent,
    Reachable.subscriberReady_sent ⟨_, _, h⟩ hx hpc hstep⟩

end

end State

end LightLivechat.Sfu
