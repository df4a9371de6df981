import LightLivechat.Sfu.Handshakes
import LightLivechat.Transport.Udp.Relay

/-! What leaves the server.  A datagram answers a request that verified, belongs to a handshake,
or was encrypted with the keys of a session and goes to where that session was latched. -/

namespace LightLivechat.Sfu

open LightLivechat.Lib.Bytes LightLivechat.Lib.Std LightLivechat.Lib.Runs
open LightLivechat.Room (Heap Ref Participant PcType Room RoomHub EgressPacket)
open LightLivechat.Transport LightLivechat.Transport.Srtp
open LightLivechat.Transport.Udp (Handshake Instant)

/-- The context some packets later. -/
inductive Passes {P : Platform} (ctx : SrtpContext P.srtp) : SrtpContext P.srtp → Prop
  | refl : Passes ctx ctx
  | pass {ctx' : SrtpContext P.srtp} (h : Passes ctx ctx') (packet : EgressPacket) :
    Passes ctx (State.ContextOp.encryptPacket ctx' packet).1

theorem Passes.trans {P : Platform} {ctx ctx' ctx'' : SrtpContext P.srtp} (h : Passes ctx ctx')
    (h' : Passes ctx' ctx'') : Passes ctx ctx'' := by
  induction h' with
  | refl => exact h
  | pass _ packet ih => exact ih.pass packet

theorem Passes.isReady {P : Platform} {ctx ctx' : SrtpContext P.srtp} (h : Passes ctx ctx') :
    ctx'.isReady = ctx.isReady := by
  induction h with
  | refl => rfl
  | pass _ packet ih =>
    rw [← ih]
    cases packet <;> exact SrtpContext.pass_isReady ..

namespace State

variable {P : Platform}

/-- The outbound context of the session, as it is or some packets later, makes the bytes of a
packet. -/
def Seals (s : State P) (p : Ref) (pc : PcType) (b : Bytes) : Prop :=
  ∃ ctx packet, Passes (s.srtp p pc).outbound ctx ∧
    (ContextOp.encryptPacket ctx packet).2 = .ok b

/-- Packets are encrypted and sent, for sessions and to addresses that go together by `A`;
the bursts that are still to come keep to it too. -/
structure Emits (A : Ref → PcType → SocketAddr → Prop) (s s' : State P) : Prop where
  contexts : ∀ p pc, Passes (s.srtp p pc).outbound (s'.srtp p pc).outbound
  sent : ∃ ds, s'.udpSent = s.udpSent ++ ds ∧ ∀ d ∈ ds, ∃ p pc, A p pc d.1 ∧ s.Seals p pc d.2
  bursts : (∀ b ∈ s.pliBursts, A b.participant .publish b.addr) →
    ∀ b ∈ s'.pliBursts, A b.participant .publish b.addr

section

variable {A : Ref → PcType → SocketAddr → Prop} {s s' s'' : State P} {p : Ref} {pc : PcType}
variable {addr : SocketAddr}

theorem Seals.of_passes {b : Bytes} (h : s'.Seals p pc b)
    (hpasses : Passes (s.srtp p pc).outbound (s'.srtp p pc).outbound) : s.Seals p pc b := by
  obtain ⟨ctx, packet, hctx, hok⟩ := h
  exact ⟨ctx, packet, hpasses.trans hctx, hok⟩

theorem Seals.isReady {b : Bytes} (h : s.Seals p pc b) :
    (s.srtp p pc).outbound.isReady = true := by
  obtain ⟨ctx, packet, hctx, hok⟩ := h
  rw [← hctx.isReady]
  have hsome := congrArg Except.toOption hok
  cases packet with
  | rtp plaintext | rtcp plaintext => exact isReady_of_toOption hsome

theorem emits_of (hsrtp : ∀ p pc, (s'.srtp p pc).outbound = (s.srtp p pc).outbound)
    (hsent : s'.udpSent = s.udpSent) (hbursts : s'.pliBursts = s.pliBursts) : Emits A s s' where
  contexts := fun p pc => by rw [hsrtp]; exact .refl
  sent := ⟨[], by rw [hsent, List.append_nil], fun _ h => absurd h List.not_mem_nil⟩
  bursts := fun h => by rwa [hbursts]

theorem Emits.refl : Emits A s s := emits_of (fun _ _ => rfl) rfl rfl

theorem Emits.trans (h : Emits A s s') (h' : Emits A s' s'') : Emits A s s'' where
  contexts := fun p pc => (h.contexts p pc).trans (h'.contexts p pc)
  sent := by
    obtain ⟨ds, hsent, hds⟩ := h.sent
    obtain ⟨ds', hsent', hds'⟩ := h'.sent
    refine ⟨ds ++ ds', by rw [hsent', hsent, List.append_assoc], fun d hd => ?_⟩
    obtain hd | hd := List.mem_append.mp hd
    · exact hds d hd
    · obtain ⟨p, pc, hA, hseals⟩ := hds' d hd
      exact ⟨p, pc, hA, hseals.of_passes (h.contexts p pc)⟩
  bursts := fun hold => h'.bursts (h.bursts hold)

theorem Emits.foldl {α : Type} {g : State P → α → State P} {xs : List α}
    (hg : ∀ t, ∀ x ∈ xs, Emits A t (g t x)) : Emits A s (xs.foldl g s) :=
  List.foldlRecOn (motive := Emits A s) xs _ .refl fun t ht x hx => ht.trans (hg t x hx)

theorem emits_decrypt (s : State P) (p : Ref) (pc : PcType) (data : Bytes)
    (f : SrtpContext P.srtp → Bytes → SrtpContext P.srtp × Except SrtpError Bytes) :
    Emits A s (s.decrypt f p pc data).1 := by
  refine emits_of (fun q pc' => ?_) rfl rfl
  unfold decrypt
  dsimp only
  rw [setSrtp_srtp]
  split
  · obtain ⟨rfl, rfl⟩ := ‹q = p ∧ pc' = pc›
    rfl
  · rfl

theorem emits_sendEncrypted (s : State P) (wrap : Bytes → EgressPacket)
    {f : SrtpContext P.srtp → Bytes → SrtpContext P.srtp × Except SrtpError Bytes}
    (hf : ∀ ctx plaintext, f ctx plaintext = ContextOp.encryptPacket ctx (wrap plaintext))
    (hA : A p pc addr) (plaintext : Bytes) :
    Emits A s (s.sendEncrypted f p pc addr plaintext) where
  contexts := fun q pc' => by
    rw [sendEncrypted_srtp]
    split
    · obtain ⟨rfl, rfl⟩ := ‹q = p ∧ pc' = pc›
      dsimp only
      rw [hf]
      exact .pass .refl _
    · exact .refl
  sent := by
    unfold sendEncrypted
    dsimp only
    split
    · rename_i encrypted hok
      refine ⟨[(addr, encrypted)], rfl, fun d hd => ?_⟩
      obtain rfl := List.mem_singleton.mp hd
      rw [hf] at hok
      exact ⟨p, pc, hA, _, _, .refl, hok⟩
    · exact ⟨[], (List.append_nil _).symm, fun _ h => absurd h List.not_mem_nil⟩
  bursts := fun h => by
    unfold sendEncrypted
    dsimp only
    split <;> exact h

theorem emits_sendRtcp (s : State P) (hA : A p .publish addr) (packet : Bytes) :
    Emits A s (s.sendRtcp p addr packet) :=
  s.emits_sendEncrypted .rtcp (fun _ _ => rfl) hA packet

theorem publish_of_videoOf {x : Participant} {ssrc : U32} (h : videoOf x = some (addr, ssrc)) :
    x.publish.address = some addr := by
  unfold videoOf at h
  split at h
  · cases h
  · obtain ⟨addr', haddr, hmap⟩ := Option.bind_eq_some_iff.mp h
    obtain ⟨t, -, ht⟩ := Option.map_eq_some_iff.mp hmap
    cases ht
    exact haddr

/-- A publisher may be sent to where it is latched for publishing. -/
def Publishes (A : Ref → PcType → SocketAddr → Prop) (s : State P) : Prop :=
  ∀ p addr, (s.heap p).publish.address = some addr → A p .publish addr

theorem Publishes.congr (h : Publishes A s)
    (hsame : ∀ p, (s'.heap p).publish = (s.heap p).publish) : Publishes A s' :=
  fun p addr haddr => h p addr (by rw [← hsame]; exact haddr)

theorem emits_sendPli (s : State P) (hA : Publishes A s) (p : Ref) : Emits A s (s.sendPli p) := by
  unfold sendPli
  split
  · exact .refl
  · rename_i addr ssrc hvideo
    exact s.emits_sendRtcp (hA p addr (publish_of_videoOf hvideo)) _

theorem emits_sendRemb (s : State P) (hA : Publishes A s) (p : Ref) : Emits A s (s.sendRemb p) := by
  unfold sendRemb
  split
  · exact .refl
  · rename_i addr ssrc hvideo
    exact s.emits_sendRtcp (hA p addr (publish_of_videoOf hvideo)) _

theorem emits_sendTwcc (s : State P) (hA : Publishes A s) (p : Ref) : Emits A s (s.sendTwcc p) := by
  unfold sendTwcc
  split
  · exact .refl
  · rename_i addr ssrc hvideo
    dsimp only
    split
    · exact emits_of (fun _ _ => rfl) rfl rfl
    · refine .trans ?_ (emits_sendRtcp _ (hA p addr (publish_of_videoOf hvideo)) _)
      exact emits_of (fun _ _ => rfl) rfl rfl

theorem foldl_publish {α : Type} {g : State P → α → State P}
    (hg : ∀ t x p, ((g t x).heap p).publish = (t.heap p).publish) (s : State P) (xs : List α)
    (p : Ref) : ((xs.foldl g s).heap p).publish = (s.heap p).publish :=
  List.foldlRecOn (motive := fun t : State P => (t.heap p).publish = (s.heap p).publish) xs g rfl
    fun t ht x _ => (hg t x p).trans ht

theorem emits_foldl {α : Type} {g : State P → α → State P} (hA : Publishes A s) (xs : List α)
    (hg : ∀ t x, Publishes A t → Emits A t (g t x))
    (hpublish : ∀ t x p, ((g t x).heap p).publish = (t.heap p).publish) :
    Emits A s (xs.foldl g s) := by
  induction xs generalizing s with
  | nil => exact .refl
  | cons x xs ih => exact (hg s x hA).trans (ih (hA.congr (hpublish s x)))

theorem emits_sendPliToPublishers (s : State P) (hA : Publishes A s) (room : Room)
    (excludeUser : String) : Emits A s (s.sendPliToPublishers room excludeUser) := by
  refine emits_foldl hA _ (fun t x hAt => ?_) fun t x p => ?_
  · split
    · exact .refl
    · exact t.emits_sendPli hAt x.2
  · split
    · rfl
    · rw [(t.quiet_sendPli x.2).heap]

theorem emits_forPublishers (s : State P) (hA : Publishes A s) {g : State P → Ref → State P}
    (hg : ∀ t p, Publishes A t → Emits A t (g t p))
    (hpublish : ∀ t q p, ((g t q).heap p).publish = (t.heap p).publish) :
    Emits A s (s.forPublishers g) := by
  refine emits_foldl hA _ (fun t room hAt => ?_) fun t room p => ?_
  · exact emits_foldl hAt _ (fun t e hAt => hg t e.2 hAt) fun t e p => hpublish t e.2 p
  · exact foldl_publish (fun t e p => hpublish t e.2 p) t _ p

theorem emits_bweTimer (s : State P) (hA : Publishes A s) : Emits A s s.sendTwccToPublishers ∧
    Emits A s s.sendRembToPublishers := by
  refine ⟨s.emits_forPublishers hA (fun t p hAt => t.emits_sendTwcc hAt p) fun t q p => ?_,
    s.emits_forPublishers hA (fun t p hAt => t.emits_sendRemb hAt p) fun t q p => ?_⟩
  · obtain ⟨recorder, hread⟩ := (t.readOut_sendTwcc q).heap p
    rw [hread]
  · rw [(t.quiet_sendRemb q).heap]

theorem emits_handleSubscribeRtcp (s : State P) (hA : Publishes A s) (data : Bytes) (p : Ref)
    (room : Room) : Emits A s (s.handleSubscribeRtcp data p room) := by
  unfold handleSubscribeRtcp
  split
  · exact .refl
  · have hdecrypt := s.emits_decrypt (A := A) p .subscribe data SrtpContext.decryptRtcp
    split <;> rename_i t result heq
    · rw [heq] at hdecrypt
      exact hdecrypt
    · rw [heq] at hdecrypt
      have hheap : t.heap = s.heap :=
        (decrypt_eq heq fun ctx => ctx.pass_isReady data _ _).1.heap
      dsimp only
      refine hdecrypt.trans (.trans ?_ (.foldl fun u r hr => ?_))
      · exact emits_of (fun _ _ => rfl) rfl rfl
      · rw [Udp.handleSubscribeRtcp_relays, hheap] at hr
        obtain ⟨e, -, hrelay⟩ := List.mem_filterMap.mp hr
        exact u.emits_sendRtcp (hA _ _ (Udp.relayOf_eq_some.mp hrelay).2.2.1) _

theorem emits_handleSrtp (s : State P) (hA : Publishes A s) (data : Bytes) (remote : SocketAddr)
    (now : Nat) (arrival : Instant) : Emits A s (s.handleSrtp data remote now arrival) := by
  unfold handleSrtp
  split
  · exact .refl
  · rename_i p pc room hfind
    dsimp only
    have htouch : Emits A s (s.touch p now) := emits_of (fun _ _ => rfl) rfl rfl
    refine htouch.trans ?_
    split
    · refine emits_handleSubscribeRtcp _ (hA.congr fun q => ?_) ..
      exact congrFun (s.mediaOnly_touch p now q).session .publish
    · split
      · exact .refl
      · split
        · have hdecrypt := (s.touch p now).emits_decrypt (A := A) p .publish data
            SrtpContext.decryptRtcp
          unfold handlePublishRtcp
          split <;> rename_i heq <;> rw [heq] at hdecrypt
          · exact hdecrypt
          · exact hdecrypt.trans (emits_of (fun _ _ => rfl) rfl rfl)
        · have hdecrypt := (s.touch p now).emits_decrypt (A := A) p .publish data
            SrtpContext.decryptRtp
          unfold handlePublishRtp
          split <;> rename_i heq <;> rw [heq] at hdecrypt
          · exact hdecrypt
          · exact hdecrypt.trans (emits_of (fun _ _ => rfl) rfl rfl)

end

/-- The datagram answers a request that names a session and verifies under its password. -/
def Answers (d : SocketAddr × Bytes) (s : State P) : Label → Prop
  | .datagram _ data remote _ _ => ∃ msg ufrag p pc room, Udp.Names data msg ufrag ∧
    s.rooms.findByUfrag ufrag = some (p, pc, room) ∧
    Udp.VerifiesUnder P.stun msg ((s.heap p).session pc) ∧
    d = (remote, Stun.buildBindingResponse P.stun msg.transactionId remote
      (Stun.iceIntegrityKey ((s.heap p).session pc).icePwd))
  | _ => False

/-- The datagram is the handshake's own. -/
def Shakes (x : Handshake) (d : SocketAddr × Bytes) (s : State P) : Label → Prop
  | .dtlsSend i buf => s.handshakes[i]? = some x ∧ d = (x.remote, buf)
  | _ => False

section

variable {A : Ref → PcType → SocketAddr → Prop} {s s' : State P} {l : Label} {p : Ref}
variable {pc : PcType}

/-- A request that verifies is answered, and nothing else. -/
theorem handleStun_sent (s : State P) (worker : Nat) (data : Bytes) (remote : SocketAddr)
    (now : Nat) (arrival : Instant) :
    (s.udp.handleStun P.stun worker data remote now).sent = s.udpSent ∨
      ∃ d, Answers d s (.datagram worker data remote now arrival) ∧
        (s.udp.handleStun P.stun worker data remote now).sent = s.udpSent ++ [d] := by
  generalize hr : s.udp.handleStun P.stun worker data remote now = r
  unfold Udp.Server.handleStun at hr
  split at hr
  · exact .inl (by rw [← hr]; rfl)
  · rename_i msg hparse
    split at hr
    · exact .inl (by rw [← hr]; rfl)
    · rename_i htype
      split at hr
      · exact .inl (by rw [← hr]; rfl)
      · rename_i username husername
        split at hr
        · exact .inl (by rw [← hr]; rfl)
        · rename_i heap hub p pc hlatch
          obtain ⟨room, hfind⟩ := RoomHub.findByUfrag_of_latch hlatch
          have hicePwd := latchByUfrag_icePwd hlatch
          simp only [Heap.update_same, Participant.touch_session] at hr
          split at hr
          · exact .inl (by rw [← hr]; rfl)
          · rename_i hverifies
            rw [hicePwd] at hr hverifies
            refine .inr ⟨_, ⟨msg, Udp.serverUfrag username, p, pc, room,
              ⟨hparse, not_not.mp htype, username, husername, rfl⟩, hfind, not_not.mp hverifies,
              rfl⟩, ?_⟩
            split at hr <;> (rw [← hr]; rfl)

/-- A datagram is answered, or something is encrypted and sent. -/
theorem handleDatagram_emits (s : State P) (hA : Publishes A s) (worker : Nat) (data : Bytes)
    (remote : SocketAddr) (now : Nat) (arrival : Instant) :
    (∃ d, Answers d s (.datagram worker data remote now arrival) ∧
      (s.handleDatagram worker data remote now arrival).udpSent = s.udpSent ++ [d] ∧
      (s.handleDatagram worker data remote now arrival).pliBursts = s.pliBursts) ∨
    Emits A s (s.handleDatagram worker data remote now arrival) := by
  unfold handleDatagram
  split
  · obtain hsame | ⟨d, hd, hsent⟩ := s.handleStun_sent worker data remote now arrival
    · exact .inr (emits_of (fun _ _ => rfl) hsame rfl)
    · exact .inl ⟨d, hd, hsent, rfl⟩
  · refine .inr (emits_of (fun _ _ => rfl) ?_ rfl)
    unfold Udp.Server.handleDtls
    dsimp only
    split
    · rfl
    · split <;> rfl
  · exact .inr (s.emits_handleSrtp hA data remote now arrival)
  · exact .inr .refl

theorem emits_pliOnRequest (s : State P) (hA : Publishes A s) (before : Signaling.AppState)
    (session : Signaling.Session) (now : Nat) (r : Signaling.Request) :
    Emits A s (s.pliOnRequest before session now r) := by
  unfold pliOnRequest
  split
  · unfold pliOnUnmute
    split
    · exact .refl
    · split
      · exact .refl
      · split
        · split
          · rename_i addr haddr
            exact s.emits_sendRtcp (hA _ _ haddr) _
          · exact .refl
        · exact .refl
  · unfold pliOnGrant
    split
    · exact .refl
    · split
      · exact .refl
      · split
        · split
          · rename_i q addr ssrc hspeaker
            obtain ⟨q', -, hmap⟩ := Option.bind_eq_some_iff.mp hspeaker
            obtain ⟨video, hvideo, heq⟩ := Option.map_eq_some_iff.mp hmap
            cases heq
            refine ⟨fun _ _ => .refl, ⟨[], (List.append_nil _).symm,
              fun _ h => absurd h List.not_mem_nil⟩, fun hold b hb => ?_⟩
            obtain hb | hb := List.mem_append.mp hb
            · exact hold b hb
            · obtain rfl := List.mem_singleton.mp hb
              exact hA _ _ (publish_of_videoOf hvideo)
          · exact .refl
        · exact .refl
  · exact .refl

/-- What has been sent and what is still to be asked for keep to `A`. -/
structure SentBy (A : Ref → PcType → SocketAddr → Prop) (s s' : State P) (l : Label) : Prop where
  sent : ∃ ds, s'.udpSent = s.udpSent ++ ds ∧ ∀ d ∈ ds, Answers d s l ∨
    (∃ x, Shakes x d s l) ∨ ∃ p pc, A p pc d.1 ∧ s.Seals p pc d.2
  bursts : ∀ b ∈ s'.pliBursts, A b.participant .publish b.addr

theorem Emits.sentBy (h : Emits A s s')
    (hbursts : ∀ b ∈ s.pliBursts, A b.participant .publish b.addr) : SentBy A s s' l where
  sent := by
    obtain ⟨ds, hsent, hds⟩ := h.sent
    exact ⟨ds, hsent, fun d hd => .inr (.inr (hds d hd))⟩
  bursts := h.bursts hbursts

theorem finishHandshake_sentBy (s : State P) (hA : Publishes A s)
    (hbursts : ∀ b ∈ s.pliBursts, A b.participant .publish b.addr) (x : Handshake)
    (material : Vector U8 srtpKeyMaterialLen) : SentBy A s (s.finishHandshake x material) l := by
  unfold finishHandshake
  dsimp only
  have hinstall : ∀ t : State P, t.udpSent = s.udpSent → t.pliBursts = s.pliBursts →
      SentBy A s t l := fun t hsent hsame =>
    ⟨⟨[], by rw [hsent, List.append_nil], fun _ h => absurd h List.not_mem_nil⟩,
      by rw [hsame]; exact hbursts⟩
  split
  · rename_i hpc
    generalize ht : (s.installSrtpKeys x.participant x.pcType
      (exportSrtpKeys material)).spawnEgressTask x.participant = t
    obtain ⟨hcontext, hsent, hsame, hheap⟩ : (∀ q, t.srtp q .publish = s.srtp q .publish) ∧
        t.udpSent = s.udpSent ∧ t.pliBursts = s.pliBursts ∧
        ∀ q, (t.heap q).publish = (s.heap q).publish := by
      rw [← ht, (spawnEgressTask_same ..).1, (spawnEgressTask_tasks ..).2.2]
      refine ⟨fun q => ?_, ?_, ?_, fun q => ?_⟩
      · exact (s.setSrtp_srtp x.participant q x.pcType .publish _).trans (if_neg (by simp [hpc]))
      · unfold spawnEgressTask
        split <;> rfl
      · unfold spawnEgressTask
        split <;> rfl
      · exact Heap.update_field (fun y => y.publish) (by rw [hpc]; rfl) q
    split
    · -- only publishers are asked for keyframes, and their contexts are as they were
      rename_i room hroom
      have hemits := t.emits_sendPliToPublishers
        (A := fun q pc addr => pc = .publish ∧ A q pc addr)
        (fun q addr haddr => ⟨rfl, (hA.congr hheap) q addr haddr⟩) room
        (t.heap x.participant).userId
      obtain ⟨ds, hds, hfor⟩ := hemits.sent
      refine ⟨⟨ds, hsent ▸ hds, fun d hd => ?_⟩,
        fun b hb => (hemits.bursts (fun b hb => ⟨rfl, ?_⟩) b hb).2⟩
      · obtain ⟨q, pc, ⟨rfl, hq⟩, ctx, packet, hctx, hok⟩ := hfor d hd
        rw [hcontext] at hctx
        exact .inr (.inr ⟨q, .publish, hq, ctx, packet, hctx, hok⟩)
      · rw [hsame] at hb
        exact hbursts b hb
    · exact hinstall t hsent hsame
  · exact hinstall _ rfl rfl

theorem step_sentBy (h : s.step l = some s') (hA : ∀ p pc addr,
      ((s.heap p).session pc).address = some addr ∨ ((s'.heap p).session pc).address = some addr →
        A p pc addr)
    (hbursts : ∀ b ∈ s.pliBursts, A b.participant .publish b.addr) : SentBy A s s' l := by
  have hpublishes : Publishes A s := fun p addr haddr => hA p .publish addr (.inl haddr)
  cases l with
  | packet sid packet draws =>
    obtain ⟨server, -, heq⟩ := Option.bind_eq_some_iff.mp h
    cases heq
    have hheap := (quiet_pliOnPacket { s with toServer := server } s.toServer sid packet draws).heap
    have hserver : Emits A s { s with toServer := server } := emits_of (fun _ _ => rfl) rfl rfl
    refine (hserver.trans ?_).sentBy hbursts
    unfold pliOnPacket
    split
    · refine emits_pliOnRequest _ (fun p addr haddr => hA p .publish addr (.inr ?_)) ..
      rw [hheap]
      exact haddr
    · exact .refl
  | disconnect sid =>
    obtain ⟨server, -, heq⟩ := Option.bind_eq_some_iff.mp h
    cases heq
    exact Emits.sentBy (emits_of (fun _ _ => rfl) rfl rfl) hbursts
  | floorTimer | zombieReaper =>
    cases h
    exact Emits.sentBy (emits_of (fun _ _ => rfl) rfl rfl) hbursts
  | datagram worker data remote now arrival =>
    cases h
    obtain ⟨hsrtp, hcount, hbursts'⟩ :=
      countPacket_same (s.handleDatagram worker data remote now arrival) worker
    obtain ⟨d, hd, hsent, hsame⟩ | hemits :=
      s.handleDatagram_emits hpublishes worker data remote now arrival
    · refine ⟨⟨[d], hcount.trans hsent, fun d' hd' => ?_⟩, ?_⟩
      · obtain rfl := List.mem_singleton.mp hd'
        exact .inl hd
      · rw [receive, hbursts', hsame]
        exact hbursts
    · exact (hemits.trans (emits_of (fun p pc => by rw [hsrtp]) hcount hbursts')).sentBy hbursts
  | dtlsClosed worker addr =>
    obtain ⟨tx, -, heq⟩ := Option.bind_eq_some_iff.mp h
    cases heq
    exact Emits.sentBy (emits_of (fun _ _ => rfl) rfl rfl) hbursts
  | dtlsSend i buf =>
    obtain ⟨x, hx, heq⟩ := Option.bind_eq_some_iff.mp h
    cases heq
    refine ⟨⟨[(x.remote, buf)], rfl, fun d hd => ?_⟩, hbursts⟩
    exact .inr (.inl ⟨x, hx, List.mem_singleton.mp hd⟩)
  | handshakeDone i material =>
    obtain ⟨x, hx, heq⟩ := Option.bind_eq_some_iff.mp h
    split at heq
    · cases heq
    · cases heq
      have hby := finishHandshake_sentBy (l := .handshakeDone i material)
        ({ s with finished := s.finished ++ [i] } : State P) hpublishes hbursts x material
      exact ⟨hby.sent, hby.bursts⟩
  | egress p =>
    obtain ⟨packet, rest, -, -, rfl⟩ := step_egress h
    have htaken : Emits A s { s with heap := s.heap.update p fun x => { x with egress := rest } } :=
      emits_of (fun _ _ => rfl) rfl rfl
    refine (htaken.trans ?_).sentBy hbursts
    unfold runEgress
    dsimp only
    split
    · exact .refl
    · rename_i addr haddr
      rw [Heap.update_same] at haddr
      have hA' := hA p .subscribe addr (.inl haddr)
      cases packet with
      | rtp => exact emits_sendEncrypted _ .rtp (fun _ _ => rfl) hA' _
      | rtcp => exact emits_sendEncrypted _ .rtcp (fun _ _ => rfl) hA' _
  | bweTimer =>
    simp only [step] at h
    obtain ⟨htwcc, hremb⟩ := s.emits_bweTimer hpublishes
    split at h
    · cases h
      exact htwcc.sentBy hbursts
    · cases h
      exact hremb.sentBy hbursts
  | pliBurst i =>
    obtain ⟨b, hb, heq⟩ := Option.bind_eq_some_iff.mp h
    split at heq
    · cases heq
    · cases heq
      have hA' := hbursts b (List.mem_of_getElem? hb)
      have hsent := (s.emits_sendRtcp hA' (Udp.buildPli b.ssrc)).sentBy (l := .pliBurst i) hbursts
      refine ⟨hsent.sent, fun b' hb' => ?_⟩
      obtain hb' | rfl := List.mem_or_eq_of_mem_set hb'
      · exact hbursts b' hb'
      · exact hA'

end

def LatchedIn (s₀ : State P) (labels : List Label) (p : Ref) (pc : PcType) (addr : SocketAddr) :
    Prop :=
  ∃ before s, before <+: labels ∧ run step s₀ before = some s ∧
    ((s.heap p).session pc).address = some addr

section

variable {draws : Fin 3 → Signaling.Draws} {labels : List Label} {s s' s₀ : State P} {l : Label}
variable {p : Ref} {pc : PcType} {addr : SocketAddr}

theorem LatchedIn.append (h : LatchedIn s₀ labels p pc addr) (more : List Label) :
    LatchedIn s₀ (labels ++ more) p pc addr := by
  obtain ⟨before, s, hbefore, hrun, haddr⟩ := h
  exact ⟨before, s, hbefore.trans (List.prefix_append ..), hrun, haddr⟩

theorem LatchedIn.here (h : run step s₀ labels = some s)
    (haddr : ((s.heap p).session pc).address = some addr) : LatchedIn s₀ labels p pc addr :=
  ⟨labels, s, List.prefix_refl _, h, haddr⟩

/-- The bursts that are still to come go where their publishers have been latched. -/
theorem bursts_run (h : run step (start P draws) labels = some s) :
    ∀ b ∈ s.pliBursts, LatchedIn (start P draws) labels b.participant .publish b.addr :=
  run_induction (P := fun labels t =>
      ∀ b ∈ t.pliBursts, LatchedIn (start P draws) labels b.participant .publish b.addr)
    (fun _ hb => absurd hb List.not_mem_nil)
    (fun _ _ l _ hrun hP hstep => (step_sentBy hstep
      (fun _ _ _ haddr => haddr.elim (fun haddr => (LatchedIn.here hrun haddr).append [l])
        (LatchedIn.here (run_snoc hrun hstep))) fun b hb => (hP b hb).append [l]).bursts) h

theorem Shakes.started {x : Handshake} {d : SocketAddr × Bytes} (hx : Shakes x d s l)
    (h : run step (start P draws) labels = some s) :
    Happened step (Starts x) (start P draws) labels := by
  cases l with
  | dtlsSend i buf => exact handshakes_started h x (List.mem_of_getElem? hx.1)
  | _ => exact hx.elim

/-- A datagram that a step of a run sends answers a request that verifies under the password
of the session it names; or it is sent by the connection of a handshake, to where that was
started from; or it is encrypted by the outbound context of a session that has a finished
handshake, and goes to an address where that session has been latched. -/
theorem sent_run (h : run step (start P draws) labels = some s) (hstep : s.step l = some s') :
    ∃ ds, s'.udpSent = s.udpSent ++ ds ∧ ∀ d ∈ ds, Answers d s l ∨
      (∃ x, Shakes x d s l ∧ Happened step (Starts x) (start P draws) labels) ∨
      ∃ p pc, s.Finished p pc ∧ s.Seals p pc d.2 ∧
        LatchedIn (start P draws) (labels ++ [l]) p pc d.1 := by
  have hby := step_sentBy (A := LatchedIn (start P draws) (labels ++ [l])) hstep
    (fun _ _ _ haddr => haddr.elim (fun haddr => (LatchedIn.here h haddr).append [l])
      (LatchedIn.here (run_snoc h hstep))) fun b hb => (bursts_run h b hb).append [l]
  obtain ⟨ds, hsent, hds⟩ := hby.sent
  refine ⟨ds, hsent, fun d hd => (hds d hd).imp_right (Or.imp ?_ ?_)⟩
  · rintro ⟨x, hx⟩
    exact ⟨x, hx, hx.started h⟩
  · rintro ⟨p, pc, hlatched, hseals⟩
    have hagreed := Reachable.agreed ⟨draws, labels, h⟩
    exact ⟨p, pc, (hagreed.outbound p pc).mp hseals.isReady, hseals, hlatched⟩

/-- The end of Bob's handshake asks Alice for a keyframe. -/
theorem sent_run_bob : ∃ s s' d, run step Call.start Call.setup = some s ∧
    s.step Call.bobReady = some s' ∧ s'.udpSent = s.udpSent ++ [d] ∧
    ∃ p pc, s.Finished p pc ∧ s.Seals p pc d.2 ∧
      LatchedIn Call.start (Call.setup ++ [Call.bobReady]) p pc d.1 := by
  obtain ⟨s, h, hs⟩ := Option.map_eq_some_iff.mp
    (show (run step Call.start Call.setup).map (fun s => (s.step Call.bobReady).any fun s' =>
      s'.udpSent.length = s.udpSent.length + 1) = some true by decide +kernel)
  obtain ⟨hsome, hs⟩ := (Option.any_eq_true_iff_get _ _).mp hs
  have hstep := (Option.some_get hsome).symm
  obtain ⟨ds, hsent, hds⟩ := sent_run h hstep
  rw [hsent, decide_eq_true_eq, List.length_append, Nat.add_left_cancel_iff] at hs
  obtain ⟨d, rfl⟩ := List.length_eq_one_iff.mp hs
  obtain hanswers | ⟨x, hx, -⟩ | hsealed := hds d List.mem_cons_self
  · exact hanswers.elim
  · exact hx.elim
  · exact ⟨s, _, d, h, hstep, hsent, hsealed⟩

end

end State

end LightLivechat.Sfu
