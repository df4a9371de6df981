import LightLivechat.Room.Indices
import LightLivechat.Transport.Udp

/-! Where latched addresses come from.  A latch happens before the integrity check,
so an address is authenticated as long as the requests that name a session are. -/

namespace LightLivechat.Transport.Udp

open LightLivechat.Lib LightLivechat.Lib.Bytes LightLivechat.Lib.Std LightLivechat.Lib.Runs
open LightLivechat.Room (Heap Ref Participant PcType MediaSession RoomHub)
open LightLivechat.Transport.Stun (Primitives StunMessage)

/-- `buf` is a Binding Request and its USERNAME names `ufrag`. -/
def Names (buf : Bytes) (msg : StunMessage) (ufrag : String) : Prop :=
  Stun.parse buf = some msg ∧ msg.msgType = Stun.bindingRequest ∧
    ∃ username, msg.username = some username ∧ serverUfrag username = ufrag

variable (c : Primitives)

def VerifiesUnder (msg : StunMessage) (session : MediaSession) : Prop :=
  Stun.verifyMessageIntegrity c msg (Stun.iceIntegrityKey session.icePwd) = true

/-- Among the events is a request from `remote` that names the session and verifies
under its password. -/
def Verified (es : List Event) (remote : SocketAddr) (session : MediaSession) : Prop :=
  ∃ worker buf now msg, Event.stun worker buf remote now ∈ es ∧ Names buf msg session.ufrag ∧
    VerifiesUnder c msg session

structure Authenticated (es : List Event) (s : Server) : Prop where
  latched : ∀ p < s.next, ∀ pc a, ((s.heap p).session pc).address = some a →
    Verified c es a ((s.heap p).session pc)
  found : ∀ a p pc room, s.hub.findByAddr a = some (p, pc, room) →
    Verified c es a ((s.heap p).session pc)
  handshakes : ∀ h ∈ s.handshakes,
    Verified c es h.remote ((s.heap h.participant).session h.pcType)

/-- A request that names a registered ufrag verifies under that session's password. -/
def NamedVerifies (s : Server) : Event → Prop
  | .stun _ buf _ _ => ∀ msg ufrag, Names buf msg ufrag → ∀ p pc room,
    s.hub.findByUfrag ufrag = some (p, pc, room) → VerifiesUnder c msg ((s.heap p).session pc)
  | _ => True

/-- A request that does not verify changes no address, index or time of activity. -/
def UnverifiedInert (s : Server) : Event → Prop
  | .stun worker buf remote now => ∀ msg ufrag, Names buf msg ufrag →
    (∀ p pc room, s.hub.findByUfrag ufrag = some (p, pc, room) →
      ¬ VerifiesUnder c msg ((s.heap p).session pc)) →
    (s.handleStun c worker buf remote now).heap = s.heap ∧
      (s.handleStun c worker buf remote now).hub = s.hub
  | _ => True

structure Inv (es : List Event) (s : Server) : Prop where
  indexed : s.hub.Indexed (fun u p pc => p < s.next ∧ ((s.heap p).session pc).ufrag = u)
    (fun a p pc => p < s.next ∧ Verified c es a ((s.heap p).session pc))
  latched : ∀ p < s.next, ∀ pc a, ((s.heap p).session pc).address = some a →
    Verified c es a ((s.heap p).session pc)
  handshakes : ∀ h ∈ s.handshakes, h.participant < s.next ∧
    Verified c es h.remote ((s.heap h.participant).session h.pcType)

variable {c}

theorem Names.unique {buf : Bytes} {msg msg' : StunMessage} {u u' : String}
    (h : Names buf msg u) (h' : Names buf msg' u') : msg = msg' ∧ u = u' := by
  obtain ⟨hparse, -, username, husername, rfl⟩ := h
  obtain ⟨hparse', -, username', husername', rfl⟩ := h'
  obtain rfl := Option.some.inj (hparse.symm.trans hparse')
  obtain rfl := Option.some.inj (husername.symm.trans husername')
  exact ⟨rfl, rfl⟩

/-- What a request does: nothing, or a latch, after which a handshake may start if
the request verifies. -/
theorem Server.handleStun_cases (s : Server) (worker : Nat) (buf : Bytes) (remote : SocketAddr)
    (now : Nat) :
    (s.handleStun c worker buf remote now = s ∧
        ∀ msg ufrag, Names buf msg ufrag → s.hub.latchByUfrag s.heap ufrag remote = none) ∨
      ∃ msg ufrag heap hub p pc, Names buf msg ufrag ∧
        s.hub.latchByUfrag s.heap ufrag remote = some (heap, hub, p, pc) ∧
        (s.handleStun c worker buf remote now).heap = heap.update p (fun x => x.touch now) ∧
        (s.handleStun c worker buf remote now).hub = hub ∧
        (s.handleStun c worker buf remote now).next = s.next ∧
        ((s.handleStun c worker buf remote now).handshakes = s.handshakes ∨
          VerifiesUnder c msg ((heap p).session pc) ∧
            (s.handleStun c worker buf remote now).handshakes =
              s.handshakes ++ [⟨remote, p, pc⟩]) := by
  generalize hr : s.handleStun c worker buf remote now = r
  unfold handleStun at hr
  split at hr
  · rename_i hparse
    refine .inl ⟨hr.symm, fun msg u h => ?_⟩
    cases hparse.symm.trans h.1
  · rename_i msg hparse
    split at hr
    · rename_i htype
      refine .inl ⟨hr.symm, fun msg' u h => ?_⟩
      cases hparse.symm.trans h.1
      exact absurd h.2.1 htype
    · rename_i htype
      split at hr
      · rename_i hnone
        refine .inl ⟨hr.symm, fun msg' u h => ?_⟩
        obtain ⟨hparse', -, username, husername, -⟩ := h
        cases hparse.symm.trans hparse'
        cases hnone.symm.trans husername
      · rename_i username husername
        have hnames : Names buf msg (serverUfrag username) :=
          ⟨hparse, not_not.mp htype, username, husername, rfl⟩
        split at hr
        · rename_i hlatch
          refine .inl ⟨hr.symm, fun msg' u h => ?_⟩
          obtain ⟨rfl, rfl⟩ := hnames.unique h
          exact hlatch
        · rename_i heap hub p pc hlatch
          refine .inr ⟨msg, serverUfrag username, heap, hub, p, pc, hnames, hlatch, ?_⟩
          simp only [Heap.update_same, Participant.touch_session] at hr
          split at hr
          · subst hr
            exact ⟨rfl, rfl, rfl, .inl rfl⟩
          · rename_i hverify
            split at hr
            · subst hr
              exact ⟨rfl, rfl, rfl, .inr ⟨not_not.mp hverify, rfl⟩⟩
            · subst hr
              exact ⟨rfl, rfl, rfl, .inl rfl⟩

theorem Server.handleDtls_cases (s : Server) (worker : Nat) (data : Bytes) (remote : SocketAddr) :
    (s.handleDtls worker data remote).heap = s.heap ∧
      (s.handleDtls worker data remote).hub = s.hub ∧
      (s.handleDtls worker data remote).next = s.next ∧
      ((s.handleDtls worker data remote).handshakes = s.handshakes ∨
        ∃ p pc room, s.hub.findByAddr remote = some (p, pc, room) ∧
          (s.handleDtls worker data remote).handshakes = s.handshakes ++ [⟨remote, p, pc⟩]) := by
  generalize hr : s.handleDtls worker data remote = r
  simp only [handleDtls] at hr
  split at hr
  · subst hr
    exact ⟨rfl, rfl, rfl, .inl rfl⟩
  · split at hr
    · subst hr
      exact ⟨rfl, rfl, rfl, .inl rfl⟩
    · rename_i p pc room hfind
      subst hr
      exact ⟨rfl, rfl, rfl, .inr ⟨p, pc, room, hfind, rfl⟩⟩

theorem Verified.mono {es es' : List Event} {a : SocketAddr} {x x' : MediaSession}
    (h : Verified c es a x) (hes : es ⊆ es') (hu : x'.ufrag = x.ufrag) (hp : x'.icePwd = x.icePwd) :
    Verified c es' a x' := by
  obtain ⟨worker, buf, now, msg, hmem, hnames, hverify⟩ := h
  exact ⟨worker, buf, now, msg, hes hmem, hu ▸ hnames, by rwa [VerifiesUnder, hp]⟩

section

variable {es es' : List Event} {s s' : Server}

/-- The credentials of the participants there are stay as they are. -/
structure Keeps (s s' : Server) : Prop where
  next : s.next ≤ s'.next
  ufrag : ∀ p < s.next, ∀ pc, ((s'.heap p).session pc).ufrag = ((s.heap p).session pc).ufrag
  icePwd : ∀ p < s.next, ∀ pc, ((s'.heap p).session pc).icePwd = ((s.heap p).session pc).icePwd

theorem Keeps.of_session (hsession : ∀ p pc, (s'.heap p).session pc = (s.heap p).session pc)
    (hnext : s'.next = s.next) : Keeps s s' where
  next := hnext ▸ Nat.le_refl _
  ufrag := fun p _ pc => by rw [hsession]
  icePwd := fun p _ pc => by rw [hsession]

theorem Keeps.verified {a : SocketAddr} {p : Ref} {pc : PcType} (h : Keeps s s') (hes : es ⊆ es')
    (hp : p < s.next ∧ Verified c es a ((s.heap p).session pc)) :
    p < s'.next ∧ Verified c es' a ((s'.heap p).session pc) :=
  ⟨Nat.lt_of_lt_of_le hp.1 h.next, hp.2.mono hes (h.ufrag p hp.1 pc) (h.icePwd p hp.1 pc)⟩

theorem Inv.indexed_keeps (h : Inv c es s) (hk : Keeps s s') (hes : es ⊆ es') :
    s.hub.Indexed (fun u p pc => p < s'.next ∧ ((s'.heap p).session pc).ufrag = u)
      (fun a p pc => p < s'.next ∧ Verified c es' a ((s'.heap p).session pc)) :=
  h.indexed.mono
    (fun hu => ⟨Nat.lt_of_lt_of_le hu.1 hk.next, by rw [hk.ufrag _ hu.1, hu.2]⟩)
    fun ha => hk.verified hes ha

theorem Inv.handshakes_keeps (h : Inv c es s) (hk : Keeps s s') (hes : es ⊆ es') :
    ∀ x ∈ s.handshakes, x.participant < s'.next ∧
      Verified c es' x.remote ((s'.heap x.participant).session x.pcType) :=
  fun x hx => hk.verified hes (h.handshakes x hx)

theorem Inv.authenticated (h : Inv c es s) : Authenticated c es s where
  latched := h.latched
  found := fun a p pc room hfind => by
    obtain ⟨roomId, -, hroom, haddr⟩ := RoomHub.findByAddr_eq_some hfind
    exact ((h.indexed.room hroom).addr haddr).2
  handshakes := fun x hx => (h.handshakes x hx).2

theorem inv_init : Inv c [] Server.init where
  indexed := RoomHub.indexed_new
  latched := fun p hp => absurd hp (Nat.not_lt_zero p)
  handshakes := fun _ hx => absurd hx List.not_mem_nil

theorem Inv.of_session (h : Inv c es s) (hes : es ⊆ es')
    (hsession : ∀ p pc, (s'.heap p).session pc = (s.heap p).session pc) (hnext : s'.next = s.next)
    (hhub : ∀ {P Q}, s.hub.Indexed P Q → s'.hub.Indexed P Q)
    (hnew : ∀ x ∈ s'.handshakes, x ∈ s.handshakes ∨ x.participant < s.next ∧
      Verified c es x.remote ((s.heap x.participant).session x.pcType)) : Inv c es' s' where
  indexed := hhub (h.indexed_keeps (.of_session hsession hnext) hes)
  latched := fun p hp pc a ha => by
    rw [hsession] at ha ⊢
    exact (h.latched p (hnext ▸ hp) pc a ha).mono hes rfl rfl
  handshakes := fun x hx => by
    have hk : Keeps s s' := .of_session hsession hnext
    rcases hnew x hx with hx | hx
    · exact h.handshakes_keeps hk hes x hx
    · exact hk.verified hes hx

structure Latched (s s' : Server) (p : Ref) (pc : PcType) (remote : SocketAddr) : Prop where
  session : ∀ q pc', (s'.heap q).session pc' =
    if q = p ∧ pc' = pc then ((s.heap p).session pc).latchAddress remote
    else (s.heap q).session pc'
  next : s'.next = s.next

section

variable {p : Ref} {pc : PcType} {remote : SocketAddr}

theorem Latched.credential (h : Latched s s' p pc remote) (field : MediaSession → String)
    (hfield : ∀ x : MediaSession, field (x.latchAddress remote) = field x) (q : Ref)
    (pc' : PcType) : field ((s'.heap q).session pc') = field ((s.heap q).session pc') := by
  rw [h.session]
  split
  · rename_i heq
    rw [heq.1, heq.2, hfield]
  · rfl

theorem Latched.keeps (h : Latched s s' p pc remote) : Keeps s s' where
  next := h.next ▸ Nat.le_refl _
  ufrag := fun q _ pc' => h.credential (fun x => x.ufrag) (fun _ => rfl) q pc'
  icePwd := fun q _ pc' => h.credential (fun x => x.icePwd) (fun _ => rfl) q pc'

theorem Latched.of_latchByUfrag {ufrag : String} {heap : Heap} {hub : RoomHub} {now : Nat}
    (hlatch : s.hub.latchByUfrag s.heap ufrag remote = some (heap, hub, p, pc))
    (hheap : s'.heap = heap.update p fun x => x.touch now) (hnext : s'.next = s.next) :
    Latched s s' p pc remote where
  session := fun q pc' => by
    obtain ⟨roomId, room, room', -, -, hroom, -⟩ := RoomHub.latchByUfrag_eq_some hlatch
    obtain ⟨-, hupdate, -⟩ := Room.Room.latch_eq_some hroom
    rw [hheap, hupdate, Heap.update_apply]
    by_cases hq : q = p
    · subst hq
      simp [Participant.updateSession_session]
    · simp [hq, Heap.update_apply]
  next := hnext

theorem Inv.latch (h : Inv c es s) (hl : Latched s s' p pc remote) (hes : es ⊆ es')
    (hp : p < s.next) (hverified : Verified c es' remote ((s.heap p).session pc))
    (hhub : ∀ {P Q}, s.hub.Indexed P Q → Q remote p pc → s'.hub.Indexed P Q)
    (hnew : ∀ x ∈ s'.handshakes, x ∈ s.handshakes ∨ x = ⟨remote, p, pc⟩) : Inv c es' s' := by
  have hk : Keeps s s' := hl.keeps
  have hnow : p < s'.next ∧ Verified c es' remote ((s'.heap p).session pc) :=
    hk.verified (List.Subset.refl _) ⟨hp, hverified⟩
  exact {
    indexed := hhub (h.indexed_keeps hk hes) hnow
    latched := fun q hq pc' a ha => by
      by_cases heq : q = p ∧ pc' = pc
      · obtain ⟨rfl, rfl⟩ := heq
        rw [hl.session, if_pos ⟨rfl, rfl⟩] at ha
        cases ha
        exact hnow.2
      · rw [hl.session, if_neg heq] at ha
        have hq' : q < s.next := hl.next ▸ hq
        exact (hk.verified hes ⟨hq', h.latched q hq' pc' a ha⟩).2
    handshakes := fun x hx => by
      rcases hnew x hx with hx | rfl
      · exact h.handshakes_keeps hk hes x hx
      · exact hnow }

end

theorem Inv.stun (h : Inv c es s) {worker : Nat} {buf : Bytes} {remote : SocketAddr} {now : Nat}
    (hG : NamedVerifies c s (.stun worker buf remote now)) :
    Inv c (es ++ [.stun worker buf remote now]) (s.handleStun c worker buf remote now) := by
  have hes : es ⊆ es ++ [.stun worker buf remote now] := List.subset_append_left _ _
  rcases s.handleStun_cases (c := c) worker buf remote now with ⟨hr, -⟩ |
    ⟨msg, ufrag, heap, hub, p, pc, hnames, hlatch, hheap, hhub, hnext, hstart⟩
  · rw [hr]
    exact h.of_session hes (fun _ _ => rfl) rfl id fun x hx => .inl hx
  obtain ⟨room, hfind⟩ := RoomHub.findByUfrag_of_latch hlatch
  obtain ⟨roomId, room', room'', -, hroom, hroomLatch, -⟩ := RoomHub.latchByUfrag_eq_some hlatch
  obtain ⟨hufrag, -, -⟩ := Room.Room.latch_eq_some hroomLatch
  obtain ⟨hp, hnamed⟩ := (h.indexed.room hroom).ufrag hufrag
  refine h.latch (.of_latchByUfrag hlatch hheap hnext) hes hp ?_ (fun hi hQ => ?_) fun x hx => ?_
  · -- the request itself is the one that verifies
    exact ⟨worker, buf, now, msg, by simp, hnamed ▸ hnames, hG msg ufrag hnames p pc room hfind⟩
  · rw [hhub]
    exact hi.latchByUfrag hlatch hQ
  · rcases hstart with hsame | ⟨-, hsnoc⟩
    · exact .inl (hsame ▸ hx)
    · rw [hsnoc] at hx
      exact (List.mem_append.mp hx).imp id List.mem_singleton.mp

theorem Inv.dtls (h : Inv c es s) (hes : es ⊆ es') (worker : Nat) (data : Bytes)
    (remote : SocketAddr) : Inv c es' (s.handleDtls worker data remote) := by
  obtain ⟨hheap, hhub, hnext, hstart⟩ := s.handleDtls_cases worker data remote
  refine h.of_session hes (fun _ _ => by rw [hheap]) hnext (fun hi => hhub ▸ hi) fun x hx => ?_
  rcases hstart with hsame | ⟨p, pc, room, hfind, hsnoc⟩
  · exact .inl (hsame ▸ hx)
  · rw [hsnoc] at hx
    rcases List.mem_append.mp hx with hx | hx
    · exact .inl hx
    · rw [List.mem_singleton.mp hx]
      obtain ⟨roomId, -, hroom, haddr⟩ := RoomHub.findByAddr_eq_some hfind
      exact .inr ((h.indexed.room hroom).addr haddr)

theorem Inv.alloc (h : Inv c es s) (hes : es ⊆ es') {p : Participant}
    (hfresh : ∀ pc, (p.session pc).address = none)
    (hheap : s'.heap = s.heap.update s.next fun _ => p)
    (hnext : s'.next = s.next + 1) (hhs : s'.handshakes = s.handshakes)
    (hhub : ∀ {P Q}, s.hub.Indexed P Q → P p.publish.ufrag s.next .publish →
      P p.subscribe.ufrag s.next .subscribe → s'.hub.Indexed P Q) : Inv c es' s' := by
  have hnew : s'.heap s.next = p := by rw [hheap, Heap.update_same]
  have hold : ∀ q < s.next, s'.heap q = s.heap q := fun q hq => by
    rw [hheap, Heap.update_of_ne (Nat.ne_of_lt hq)]
  have hk : Keeps s s' := {
    next := hnext ▸ Nat.le_succ s.next
    ufrag := fun q hq pc => by rw [hold q hq]
    icePwd := fun q hq pc => by rw [hold q hq] }
  have hlt : s.next < s'.next := hnext ▸ Nat.lt_succ_self s.next
  exact {
    indexed := hhub (h.indexed_keeps hk hes) ⟨hlt, by rw [hnew]; rfl⟩ ⟨hlt, by rw [hnew]; rfl⟩
    latched := fun q hq pc a ha => by
      rcases Nat.lt_or_eq_of_le (Nat.le_of_lt_succ (hnext ▸ hq)) with hq | rfl
      · rw [hold q hq] at ha
        exact (hk.verified hes ⟨hq, h.latched q hq pc a ha⟩).2
      · rw [hnew, hfresh pc] at ha
        cases ha
    handshakes := hhs ▸ h.handshakes_keeps hk hes }

theorem inv_step {e : Event} (h : Inv c es s) (hG : NamedVerifies c s e)
    (hs : s.step c e = some s') : Inv c (es ++ [e]) s' := by
  have hes : es ⊆ es ++ [e] := List.subset_append_left _ _
  have hkeep {x : Server} (hheap : x.heap = s.heap) (hnext : x.next = s.next)
      (hhs : x.handshakes = s.handshakes)
      (hhub : ∀ {P Q}, s.hub.Indexed P Q → x.hub.Indexed P Q) : Inv c (es ++ [e]) x :=
    h.of_session hes (fun _ _ => by rw [hheap]) hnext hhub fun y hy => .inl (hhs ▸ hy)
  cases e with
  | stun worker buf remote now =>
    cases hs
    exact h.stun hG
  | dtls worker data remote =>
    cases hs
    exact h.dtls hes worker data remote
  | dtlsClosed worker addr =>
    obtain ⟨tx, -, rfl⟩ := Option.map_eq_some_iff.mp hs
    exact hkeep rfl rfl rfl id
  | removeStale worker =>
    cases hs
    exact hkeep rfl rfl rfl id
  | touch p now =>
    simp only [Server.step] at hs
    split at hs
    · cases hs
      refine h.of_session hes (fun q pc => ?_) rfl id fun x hx => .inl hx
      exact Heap.update_field (fun x => x.session pc) (Participant.touch_session ..) q
    · cases hs
  | create id name capacity mode now audioSsrc videoSsrc =>
    cases hs
    exact hkeep rfl rfl rfl fun hi => hi.create ..
  | join roomId userId pubUfrag pubPwd subUfrag subPwd now =>
    have hfresh : ∀ pc, ((Participant.new userId roomId pubUfrag pubPwd subUfrag subPwd now).session
        pc).address = none := by rintro (_ | _) <;> rfl
    simp only [Server.step] at hs
    split at hs
    · rename_i hub hadd
      cases hs
      exact h.alloc hes hfresh rfl rfl rfl fun hi hpub hsub =>
        hi.addParticipant (by rwa [Heap.update_same]) (by rwa [Heap.update_same]) hadd
    · cases hs
      exact h.alloc hes hfresh rfl rfl rfl fun hi _ _ => hi
  | leave roomId userId =>
    simp only [Server.step] at hs
    split at hs
    · cases hs
      exact hkeep rfl rfl rfl fun hi => hi.removeParticipant ‹_›
    · cases hs
      exact hkeep rfl rfl rfl id
  | reap now =>
    cases hs
    exact hkeep rfl rfl rfl fun hi => hi.reapZombies ..
  | removeRoom roomId =>
    simp only [Server.step] at hs
    split at hs
    · cases hs
      exact hkeep rfl rfl rfl fun hi => hi.removeRoom ‹_›
    · cases hs
      exact hkeep rfl rfl rfl id

theorem NamedVerifies.inert {e : Event} (hG : NamedVerifies c s e) : UnverifiedInert c s e := by
  cases e with
  | stun worker buf remote now =>
    intro msg ufrag hnames hunverified
    rcases s.handleStun_cases (c := c) worker buf remote now with ⟨hr, -⟩ |
      ⟨msg', ufrag', heap, hub, p, pc, hnames', hlatch, -⟩
    · rw [hr]
      exact ⟨rfl, rfl⟩
    · obtain ⟨rfl, rfl⟩ := hnames.unique hnames'
      obtain ⟨room, hfind⟩ := RoomHub.findByUfrag_of_latch hlatch
      exact absurd (hG msg ufrag hnames p pc room hfind) (hunverified p pc room hfind)
  | _ => trivial

end

/-- In a run whose requests verify whenever they name a registered ufrag, latched
addresses are authenticated and no other request has an effect. -/
theorem latches_authenticated {es : List Event} {t : Server}
    (hG : Along (Server.step c) (NamedVerifies c) Server.init es)
    (hrun : run (Server.step c) Server.init es = some t) :
    Authenticated c es t ∧ Along (Server.step c) (UnverifiedInert c) Server.init es := by
  have hinv : Inv c ([] ++ es) t :=
    run_inv_trace (P := Inv c) (fun _ _ _ _ h hG hs => inv_step h hG hs) inv_init hG hrun
  exact ⟨hinv.authenticated, hG.imp fun _ _ h => h.inert⟩

/-- A Binding Request for the ufrag `s`, up to its attributes' end. -/
def bindingRequestFor (length : U16) : Bytes :=
  Stun.writeAttr
    (toBe16 Stun.bindingRequest ++ toBe16 length ++ toBe32 Stun.magicCookie ++
      [1, 2, 3, 4, 5, 6, 7, 8, 9, 10, 11, 12])
    Stun.attrUsername (Str.asBytes "s:c")

/-- The digest of that request, with the integrity attribute counted, under the key `p`. -/
def requestDigest : Vector U8 20 :=
  #v[66, 164, 25, 221, 232, 182, 59, 148, 210, 242, 17, 249, 66, 100, 92, 233, 233, 160, 193, 214]

def signedRequest : Bytes :=
  Stun.writeAttr (bindingRequestFor 32) Stun.attrMessageIntegrity requestDigest.toList

/-- The two digests and the checksum that one exchange asks for. -/
def exchangePrimitives : Primitives where
  hmacSha1 := fun data _ =>
    if data = bindingRequestFor 32 then requestDigest
    else #v[127, 9, 214, 149, 107, 2, 149, 41, 28, 89, 59, 57, 208, 86, 131, 119, 16, 144, 107, 209]
  crc32 := fun _ => 0x6E9F98F7

def joined : List Event :=
  [.create "r" "room" none .conference 1 7 8, .join "r" "u" "s" "p" "t" "q" 1]

def clientAddr : SocketAddr := .v4 0x0A000001 5000

theorem latches_authenticated_signed :
    ∃ t, run (Server.step exchangePrimitives) Server.init
        (joined ++ [.stun 0 signedRequest clientAddr 2]) = some t ∧
      (t.hub.findByAddr clientAddr).isSome ∧
      Authenticated exchangePrimitives (joined ++ [.stun 0 signedRequest clientAddr 2]) t := by
  have hG : Along (Server.step exchangePrimitives) (NamedVerifies exchangePrimitives) Server.init
      (joined ++ [.stun 0 signedRequest clientAddr 2]) := by
    refine ⟨trivial, ?_⟩
    rintro _ ⟨⟩
    refine ⟨trivial, ?_⟩
    rintro _ ⟨⟩
    refine ⟨?_, fun _ _ => trivial⟩
    rintro msg ufrag ⟨hparse, -, -⟩ p pc room -
    cases hparse
    rfl
  exact ⟨_, rfl, by decide, (latches_authenticated hG rfl).1⟩

/-- A request without an integrity attribute latches its sender's address. -/
theorem unsigned_request_latches :
    ¬ ∀ (c : Primitives) (es : List Event) (t : Server),
      run (Server.step c) Server.init es = some t →
        Authenticated c es t ∧ Along (Server.step c) (UnverifiedInert c) Server.init es := by
  intro h
  obtain ⟨hauth, -⟩ := h exchangePrimitives
    (joined ++ [.stun 0 (bindingRequestFor 8) clientAddr 2]) _ rfl
  obtain ⟨worker, buf, now, msg, hmem, ⟨hparse, -, -⟩, hverify⟩ :=
    hauth.found clientAddr 0 .publish _ rfl
  have hbuf : buf = bindingRequestFor 8 := by
    simp only [joined, List.cons_append, List.nil_append, List.mem_cons, reduceCtorEq,
      Event.stun.injEq, List.not_mem_nil, or_false, false_or] at hmem
    exact hmem.2.1
  subst hbuf
  cases hparse
  cases hverify

end LightLivechat.Transport.Udp
