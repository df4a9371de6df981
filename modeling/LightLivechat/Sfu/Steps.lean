import LightLivechat.Sfu.Server
import LightLivechat.Signaling.Media
import LightLivechat.Transport.Authenticated

/-! What a step of the whole server does to the participants and the rooms. -/

namespace LightLivechat.Sfu

open LightLivechat.Config LightLivechat.Lib.Bytes LightLivechat.Lib.Std
open LightLivechat.Room (Heap Ref Participant PcType MediaSession Room RoomHub EgressPacket)
open LightLivechat.Transport LightLivechat.Transport.Srtp
open LightLivechat.Transport.Udp (Handshake Instant TwccRecorder)

def Label.signals : Label → Option Signaling.Label
  | .packet sid p draws => some (.packet sid p draws)
  | .disconnect sid => some (.disconnect sid)
  | .floorTimer now => some (.floorTimer now)
  | .zombieReaper now => some (.zombieReaper now)
  | _ => none

/-- What a datagram turns out to be, once it is decrypted. -/
inductive Media where
  | rtp (sender : Ref) (room : Room) (plaintext : Bytes) (arrival : Instant)
  | rtcp (sender : Ref) (room : Room) (plaintext : Bytes)
  | feedback (subscriber : Ref) (room : Room) (plaintext : Bytes)

def Media.source : Media → Ref × PcType × Room
  | .rtp sender room _ _ => (sender, .publish, room)
  | .rtcp sender room _ => (sender, .publish, room)
  | .feedback subscriber room _ => (subscriber, .subscribe, room)

def Media.packet : Media → Option (Bytes × Instant)
  | .rtp _ _ plaintext arrival => some (plaintext, arrival)
  | _ => none

namespace State

variable {P : Platform}

/-- What the session at an address makes of a datagram. -/
def decrypted (s : State P) (data : Bytes) (remote : SocketAddr) (arrival : Instant) :
    Option Media :=
  match s.rooms.findByAddr remote with
  | none => none
  | some (p, .subscribe, room) =>
    if Udp.isRtcp data then
      ((s.srtp p .subscribe).inbound.decryptRtcp data).2.toOption.map (.feedback p room)
    else none
  | some (p, .publish, room) =>
    if ¬ (s.heap p).isPublishReady then none
    else if Udp.isRtcp data then
      ((s.srtp p .publish).inbound.decryptRtcp data).2.toOption.map (.rtcp p room)
    else
      ((s.srtp p .publish).inbound.decryptRtp data).2.toOption.map fun b => .rtp p room b arrival

def heard (s : State P) : Label → Option Media
  | .datagram _ data remote _ arrival =>
    if classify data = .srtp then s.decrypted data remote arrival else none
  | _ => none

/-- Contexts move on, datagrams are sent and keyframes are asked for; nothing else. -/
structure Passed (s s' : State P) : Prop where
  frame : s' = { s with srtp := s'.srtp, udpSent := s'.udpSent, pliBursts := s'.pliBursts }
  inbound : ∀ p pc, (s'.srtp p pc).inbound.isReady = (s.srtp p pc).inbound.isReady
  outbound : ∀ p pc, (s'.srtp p pc).outbound.isReady = (s.srtp p pc).outbound.isReady

/-- Nothing is encrypted for a subscriber. -/
structure Quiet (s s' : State P) : Prop extends Passed s s' where
  subscribe : ∀ p, (s'.srtp p .subscribe).outbound = (s.srtp p .subscribe).outbound

section

variable {s s' s'' : State P}

theorem Passed.heap (h : Passed s s') : s'.heap = s.heap := by rw [h.frame]

theorem Passed.next (h : Passed s s') : s'.next = s.next := by rw [h.frame]

theorem Passed.rooms (h : Passed s s') : s'.rooms = s.rooms := by rw [h.frame]

theorem Quiet.refl : Quiet s s := ⟨⟨rfl, fun _ _ => rfl, fun _ _ => rfl⟩, fun _ => rfl⟩

theorem Quiet.trans (h : Quiet s s') (h' : Quiet s' s'') : Quiet s s'' where
  frame := by rw [h'.frame, h.frame]
  inbound := fun p pc => (h'.inbound p pc).trans (h.inbound p pc)
  outbound := fun p pc => (h'.outbound p pc).trans (h.outbound p pc)
  subscribe := fun p => (h'.subscribe p).trans (h.subscribe p)

end

section

variable (s : State P) (p q : Ref) (pc pc' : PcType) (packet : Bytes) (addr : SocketAddr)
variable {f : SrtpContext P.srtp → Bytes → SrtpContext P.srtp × Except SrtpError Bytes}

theorem setSrtp_srtp (x : SrtpSession P.srtp) : (s.setSrtp p pc x).srtp q pc' =
    if q = p ∧ pc' = pc then x else s.srtp q pc' := by
  by_cases hq : q = p
  · subst hq
    by_cases hpc : pc' = pc
    · subst hpc
      simp [setSrtp]
    · simp [setSrtp, hpc]
  · simp [setSrtp, hq]

theorem passed_setSrtp {x : SrtpSession P.srtp}
    (hin : x.inbound.isReady = (s.srtp p pc).inbound.isReady)
    (hout : x.outbound.isReady = (s.srtp p pc).outbound.isReady) : Passed s (s.setSrtp p pc x) where
  frame := rfl
  inbound := fun q pc' => by
    rw [setSrtp_srtp]
    split
    · obtain ⟨rfl, rfl⟩ := ‹q = p ∧ pc' = pc›
      exact hin
    · rfl
  outbound := fun q pc' => by
    rw [setSrtp_srtp]
    split
    · obtain ⟨rfl, rfl⟩ := ‹q = p ∧ pc' = pc›
      exact hout
    · rfl

theorem quiet_decrypt (hf : ∀ ctx, (f ctx packet).1.isReady = ctx.isReady) :
    Quiet s (s.decrypt f p pc packet).1 where
  toPassed := s.passed_setSrtp p pc (hf _) rfl
  subscribe := fun q => by
    unfold decrypt
    dsimp only
    rw [setSrtp_srtp]
    split
    · obtain ⟨rfl, rfl⟩ := ‹q = p ∧ _›
      rfl
    · rfl

theorem sendEncrypted_srtp : (s.sendEncrypted f p pc addr packet).srtp q pc' =
    if q = p ∧ pc' = pc then
      { s.srtp p pc with outbound := (f (s.srtp p pc).outbound packet).1 }
    else s.srtp q pc' := by
  rw [← setSrtp_srtp]
  unfold sendEncrypted
  dsimp only
  split <;> rfl

theorem passed_sendEncrypted (hf : ∀ ctx, (f ctx packet).1.isReady = ctx.isReady) :
    Passed s (s.sendEncrypted f p pc addr packet) := by
  have hset := s.passed_setSrtp p pc (x := { s.srtp p pc with
    outbound := (f (s.srtp p pc).outbound packet).1 }) rfl (hf _)
  unfold sendEncrypted
  dsimp only
  split
  · exact ⟨by rw [hset.frame], hset.inbound, hset.outbound⟩
  · exact hset

theorem quiet_sendRtcp : Quiet s (s.sendRtcp p addr packet) where
  toPassed := s.passed_sendEncrypted p .publish packet addr fun ctx => ctx.pass_isReady packet _ _
  subscribe := fun q => by
    unfold sendRtcp
    rw [sendEncrypted_srtp, if_neg (by simp)]

theorem quiet_sendPli : Quiet s (s.sendPli p) := by
  unfold sendPli
  split
  · exact .refl
  · exact s.quiet_sendRtcp ..

theorem quiet_sendRemb : Quiet s (s.sendRemb p) := by
  unfold sendRemb
  split
  · exact .refl
  · exact s.quiet_sendRtcp ..

theorem quiet_foldl {α : Type} {g : State P → α → State P} (hg : ∀ s x, Quiet s (g s x))
    (xs : List α) : Quiet s (xs.foldl g s) :=
  List.foldlRecOn (motive := Quiet s) xs _ .refl fun _ ht x _ => ht.trans (hg _ x)

theorem quiet_sendPliToPublishers (room : Room) (excludeUser : String) :
    Quiet s (s.sendPliToPublishers room excludeUser) := by
  refine s.quiet_foldl (fun s e => ?_) _
  split
  · exact .refl
  · exact s.quiet_sendPli e.2

theorem quiet_sendRembToPublishers : Quiet s s.sendRembToPublishers := by
  refine s.quiet_foldl (fun s room => ?_) _
  refine s.quiet_foldl (fun s e => ?_) _
  exact s.quiet_sendRemb e.2

theorem quiet_pliOnRequest (before : Signaling.AppState) (session : Signaling.Session) (now : Nat)
    (r : Signaling.Request) : Quiet s (s.pliOnRequest before session now r) := by
  unfold pliOnRequest
  split
  · unfold pliOnUnmute
    split
    · exact .refl
    · split
      · exact .refl
      · split
        · split
          · exact s.quiet_sendRtcp ..
          · exact .refl
        · exact .refl
  · unfold pliOnGrant
    split
    · exact .refl
    · split
      · exact .refl
      · split
        · split
          · exact ⟨⟨rfl, fun _ _ => rfl, fun _ _ => rfl⟩, fun _ => rfl⟩
          · exact .refl
        · exact .refl
  · exact .refl

theorem quiet_pliOnPacket (before : Signaling.Server) (sid : Signaling.SessionId)
    (packet : Signaling.Packet) (draws : Signaling.Draws) :
    Quiet s (s.pliOnPacket before sid packet draws) := by
  unfold pliOnPacket
  split
  · exact s.quiet_pliOnRequest ..
  · exact .refl

end

/-- Recorders are read out, and nothing else but what is quiet. -/
structure ReadOut (s s' : State P) : Prop where
  quiet : Quiet { s with heap := s'.heap } s'
  heap : ∀ p, ∃ recorder, s'.heap p = { s.heap p with twccRecorder := recorder }

theorem ReadOut.refl {s : State P} : ReadOut s s := ⟨.refl, fun _ => ⟨_, rfl⟩⟩

theorem ReadOut.trans {s s' s'' : State P} (h : ReadOut s s') (h' : ReadOut s' s'') :
    ReadOut s s'' where
  quiet :=
    { frame := by rw [h'.quiet.frame, h.quiet.frame]
      inbound := fun p pc => (h'.quiet.inbound p pc).trans (h.quiet.inbound p pc)
      outbound := fun p pc => (h'.quiet.outbound p pc).trans (h.quiet.outbound p pc)
      subscribe := fun p => (h'.quiet.subscribe p).trans (h.quiet.subscribe p) }
  heap := fun p => by
    obtain ⟨recorder, hr⟩ := h.heap p
    obtain ⟨recorder', hr'⟩ := h'.heap p
    exact ⟨recorder', by rw [hr', hr]⟩

theorem ReadOut.of_quiet {s s' : State P} (h : Quiet s s') : ReadOut s s' where
  quiet := by
    rw [h.heap]
    exact h
  heap := fun p => ⟨_, by rw [h.heap]⟩

theorem readOut_sendTwcc (s : State P) (p : Ref) : ReadOut s (s.sendTwcc p) := by
  have hread : ∀ recorder : TwccRecorder, ReadOut s { s with
      heap := s.heap.update p fun x => { x with twccRecorder := recorder } } :=
    fun recorder => ⟨.refl, fun q => by
      by_cases hq : q = p
      · subst hq
        exact ⟨recorder, by simp⟩
      · exact ⟨(s.heap q).twccRecorder, by simp [Heap.update_apply, hq]⟩⟩
  unfold sendTwcc
  split
  · exact .refl
  · dsimp only
    split
    · exact hread _
    · exact (hread _).trans (.of_quiet (quiet_sendRtcp ..))

theorem readOut_sendTwccToPublishers (s : State P) : ReadOut s s.sendTwccToPublishers := by
  refine List.foldlRecOn (motive := ReadOut s) _ _ .refl fun t ht room _ => ?_
  refine List.foldlRecOn (motive := ReadOut s) _ _ ht fun t ht e _ => ?_
  exact ht.trans (readOut_sendTwcc t e.2)

theorem sendTwcc_elsewhere (s : State P) {p q : Ref} (h : q ≠ p) :
    (s.sendTwcc p).heap q = s.heap q := by
  unfold sendTwcc
  split
  · rfl
  · dsimp only
    split
    · dsimp only
      rw [Heap.update_of_ne h]
    · rw [(quiet_sendRtcp ..).heap]
      dsimp only
      rw [Heap.update_of_ne h]

theorem sendTwccToPublishers_elsewhere (s : State P) {q : Ref} (h : ∀ r, ¬ s.rooms.Member r q) :
    s.sendTwccToPublishers.heap q = s.heap q := by
  refine List.foldlRecOn (motive := fun t : State P => t.heap q = s.heap q) _ _ rfl
    fun t ht room hroom => ?_
  refine List.foldlRecOn (motive := fun t : State P => t.heap q = s.heap q) _ _ ht
    fun t ht e he => ?_
  rw [sendTwcc_elsewhere t, ht]
  rintro rfl
  exact h room.1 ⟨room.2, e.1, AList.mem_lookup_iff.mpr hroom, AList.mem_lookup_iff.mpr he⟩

/-- What a step does to the participants and the rooms. -/
inductive Stepped (s : State P) : Label → Heap → Ref → RoomHub → Prop
  | same {l : Label} (hheard : s.heard l = none) (htakes : ∀ p, l ≠ .egress p)
    (hinstalls : ∀ i material, l ≠ .handshakeDone i material) : Stepped s l s.heap s.next s.rooms
  | signalled {l : Label} {l' : Signaling.Label} {server : Signaling.Server}
    (hl : l.signals = some l') (h : s.toServer.step l' = some server) :
    Stepped s l server.heap server.next server.rooms
  | latched {worker now : Nat} {data : Bytes} {remote : SocketAddr} {arrival : Instant}
    {ufrag : String} {heap : Heap} {rooms : RoomHub} {p : Ref} {pc : PcType}
    (hheard : s.heard (.datagram worker data remote now arrival) = none)
    (h : s.rooms.latchByUfrag s.heap ufrag remote = some (heap, rooms, p, pc)) :
    Stepped s (.datagram worker data remote now arrival) (heap.update p fun x => x.touch now) s.next
      rooms
  | touched {worker now : Nat} {data : Bytes} {remote : SocketAddr} {arrival : Instant} {p : Ref}
    {pc : PcType} {room : Room}
    (hheard : s.heard (.datagram worker data remote now arrival) = none)
    (h : s.rooms.findByAddr remote = some (p, pc, room)) :
    Stepped s (.datagram worker data remote now arrival) (s.heap.update p fun x => x.touch now)
      s.next s.rooms
  | answered {worker now : Nat} {data : Bytes} {remote : SocketAddr} {arrival : Instant} {p : Ref}
    {room : Room} {plaintext : Bytes}
    (h : s.heard (.datagram worker data remote now arrival) = some (.feedback p room plaintext)) :
    Stepped s (.datagram worker data remote now arrival)
      (Udp.handleSubscribeRtcp (s.heap.update p fun x => x.touch now) room p plaintext).1 s.next
      s.rooms
  | relayed {worker now : Nat} {data : Bytes} {remote : SocketAddr} {arrival : Instant} {p : Ref}
    {room : Room} {plaintext : Bytes}
    (h : s.heard (.datagram worker data remote now arrival) = some (.rtcp p room plaintext)) :
    Stepped s (.datagram worker data remote now arrival)
      (Udp.relayPublishRtcp (s.heap.update p fun x => x.touch now) room (s.heap p).userId plaintext)
      s.next s.rooms
  | forwarded {worker now : Nat} {data : Bytes} {remote : SocketAddr} {arrival : Instant} {p : Ref}
    {room : Room} {plaintext : Bytes}
    (h : s.heard (.datagram worker data remote now arrival) = some (.rtp p room plaintext arrival)) :
    Stepped s (.datagram worker data remote now arrival)
      (Udp.handleSrtp (s.heap.update p fun x => x.touch now) room p plaintext arrival).1 s.next
      { s.rooms with
        rooms := s.rooms.rooms.insert room.id
          (Udp.handleSrtp (s.heap.update p fun x => x.touch now) room p plaintext arrival).2 }
  | installed {i : Nat} {material : Vector U8 srtpKeyMaterialLen} {x : Handshake}
    (h : s.handshakes[i]? = some x) (hi : i ∉ s.finished) :
    Stepped s (.handshakeDone i material) (s.heap.update x.participant fun y =>
      y.updateSession x.pcType fun session => session.installSrtpKeys) s.next s.rooms
  | taken {p : Ref} {packet : EgressPacket} {rest : List EgressPacket}
    (h : (s.heap p).egress = packet :: rest) (hp : p ∈ s.egressTasks) :
    Stepped s (.egress p) (s.heap.update p fun x => { x with egress := rest }) s.next s.rooms
  | readOut {heap : Heap}
    (h : ∀ p, ∃ recorder, heap p = { s.heap p with twccRecorder := recorder })
    (hout : ∀ p, (∀ r, ¬ s.rooms.Member r p) → heap p = s.heap p) :
    Stepped s .bweTimer heap s.next s.rooms

section

theorem decrypt_eq {s s' : State P} {p : Ref} {pc : PcType} {data : Bytes}
    {f : SrtpContext P.srtp → Bytes → SrtpContext P.srtp × Except SrtpError Bytes}
    {result : Except SrtpError Bytes}
    (h : s.decrypt f p pc data = (s', result)) (hf : ∀ ctx, (f ctx data).1.isReady = ctx.isReady) :
    Quiet s s' ∧ (f (s.srtp p pc).inbound data).2 = result := by
  have hquiet := s.quiet_decrypt p pc data hf
  rw [h] at hquiet
  refine ⟨hquiet, ?_⟩
  have hresult : (s.decrypt f p pc data).2 = (f (s.srtp p pc).inbound data).2 := rfl
  rw [← hresult, h]

variable (s : State P) (data : Bytes) (p : Ref) (room : Room)

theorem handleSubscribeRtcp_cases :
    ((Udp.isRtcp data = true → ∀ plaintext,
      ((s.srtp p .subscribe).inbound.decryptRtcp data).2 ≠ .ok plaintext) ∧
      Quiet s (s.handleSubscribeRtcp data p room)) ∨
    ∃ plaintext, Udp.isRtcp data = true ∧
      ((s.srtp p .subscribe).inbound.decryptRtcp data).2 = .ok plaintext ∧
      Quiet { s with heap := (Udp.handleSubscribeRtcp s.heap room p plaintext).1 }
        (s.handleSubscribeRtcp data p room) := by
  unfold handleSubscribeRtcp
  split
  · exact .inl ⟨fun hrtcp => absurd hrtcp ‹_›, .refl⟩
  · rename_i hrtcp
    split <;> rename_i t result hdecrypt
    · obtain ⟨hquiet, hresult⟩ := decrypt_eq hdecrypt fun ctx => ctx.pass_isReady data _ _
      exact .inl ⟨fun _ _ => by simp [hresult], hquiet⟩
    · obtain ⟨hquiet, hresult⟩ := decrypt_eq hdecrypt fun ctx => ctx.pass_isReady data _ _
      refine .inr ⟨result, not_not.mp hrtcp, hresult, ?_⟩
      dsimp only
      rw [hquiet.heap]
      refine Quiet.trans ?_ (quiet_foldl _ (fun s r => s.quiet_sendRtcp ..) _)
      exact ⟨⟨by rw [hquiet.frame], hquiet.inbound, hquiet.outbound⟩, hquiet.subscribe⟩

theorem handlePublishRtcp_cases :
    ((∀ plaintext, ((s.srtp p .publish).inbound.decryptRtcp data).2 ≠ .ok plaintext) ∧
      Quiet s (s.handlePublishRtcp data p room)) ∨
    ∃ plaintext, ((s.srtp p .publish).inbound.decryptRtcp data).2 = .ok plaintext ∧
      Quiet { s with heap := Udp.relayPublishRtcp s.heap room (s.heap p).userId plaintext }
        (s.handlePublishRtcp data p room) := by
  unfold handlePublishRtcp
  split <;> rename_i t result hdecrypt
  · obtain ⟨hquiet, hresult⟩ := decrypt_eq hdecrypt fun ctx => ctx.pass_isReady data _ _
    exact .inl ⟨fun _ => by simp [hresult], hquiet⟩
  · obtain ⟨hquiet, hresult⟩ := decrypt_eq hdecrypt fun ctx => ctx.pass_isReady data _ _
    refine .inr ⟨result, hresult, ?_⟩
    rw [hquiet.heap]
    exact ⟨⟨by rw [hquiet.frame], hquiet.inbound, hquiet.outbound⟩, hquiet.subscribe⟩

theorem handlePublishRtp_cases (arrival : Instant) :
    ((∀ plaintext, ((s.srtp p .publish).inbound.decryptRtp data).2 ≠ .ok plaintext) ∧
      Quiet s (s.handlePublishRtp data p room arrival)) ∨
    ∃ plaintext, ((s.srtp p .publish).inbound.decryptRtp data).2 = .ok plaintext ∧
      Quiet { s with
        heap := (Udp.handleSrtp s.heap room p plaintext arrival).1
        rooms := { s.rooms with
          rooms := s.rooms.rooms.insert room.id
            (Udp.handleSrtp s.heap room p plaintext arrival).2 } }
        (s.handlePublishRtp data p room arrival) := by
  unfold handlePublishRtp
  split <;> rename_i t result hdecrypt
  · obtain ⟨hquiet, hresult⟩ := decrypt_eq hdecrypt fun ctx => ctx.pass_isReady data _ _
    exact .inl ⟨fun _ => by simp [hresult], hquiet⟩
  · obtain ⟨hquiet, hresult⟩ := decrypt_eq hdecrypt fun ctx => ctx.pass_isReady data _ _
    refine .inr ⟨result, hresult, ?_⟩
    dsimp only
    rw [hquiet.heap, hquiet.rooms]
    exact ⟨⟨by rw [hquiet.frame], hquiet.inbound, hquiet.outbound⟩, hquiet.subscribe⟩

theorem toOption_eq_none {result : Except SrtpError Bytes} (h : ∀ b, result ≠ .ok b) :
    result.toOption = none := by
  cases result with
  | error e => rfl
  | ok b => exact absurd rfl (h b)

theorem handleSrtp_stepped (worker : Nat) (hclass : classify data = .srtp) (remote : SocketAddr)
    (now : Nat) (arrival : Instant) :
    Stepped s (.datagram worker data remote now arrival) (s.handleSrtp data remote now arrival).heap
      (s.handleSrtp data remote now arrival).next (s.handleSrtp data remote now arrival).rooms := by
  have hheard : s.heard (.datagram worker data remote now arrival) =
      s.decrypted data remote arrival := if_pos hclass
  unfold handleSrtp
  cases hfind : s.rooms.findByAddr remote with
  | none =>
    refine .same ?_ (by simp) (by simp)
    rw [hheard, decrypted, hfind]
  | some found =>
    obtain ⟨p, pc, room⟩ := found
    simp only [decrypted, hfind] at hheard
    dsimp only
    have htouched : s.heard (.datagram worker data remote now arrival) = none →
        ∀ t, Quiet (s.touch p now) t →
          Stepped s (.datagram worker data remote now arrival) t.heap t.next t.rooms := by
      intro hnone t hquiet
      rw [hquiet.heap, hquiet.next, hquiet.rooms]
      exact .touched hnone hfind
    cases pc with
    | subscribe =>
      dsimp only at hheard
      rw [if_pos (by simp)]
      rcases (s.touch p now).handleSubscribeRtcp_cases data p room with
        ⟨hfailed, hquiet⟩ | ⟨plaintext, hrtcp, hresult, hquiet⟩
      · refine htouched ?_ _ hquiet
        rw [hheard]
        split
        · rename_i hrtcp
          have hnone := toOption_eq_none (hfailed hrtcp)
          rw [show ((s.srtp p .subscribe).inbound.decryptRtcp data).2.toOption = none from hnone]
          rfl
        · rfl
      · rw [hquiet.heap, hquiet.next, hquiet.rooms]
        refine .answered ?_
        rw [hheard, if_pos hrtcp, show ((s.srtp p .subscribe).inbound.decryptRtcp data).2 =
          .ok plaintext from hresult]
        rfl
    | publish =>
      dsimp only at hheard
      rw [if_neg (by simp)]
      have hheap : (s.touch p now).heap p = (s.heap p).touch now := by simp [touch]
      split
      · rename_i hnotReady
        rw [hheap] at hnotReady
        exact htouched (hheard.trans (if_pos hnotReady)) _ .refl
      · rename_i hnotReady
        have hnot : ¬ ¬ (s.heap p).isPublishReady = true := by
          rw [hheap] at hnotReady
          exact hnotReady
        split
        · rename_i hrtcp
          rcases (s.touch p now).handlePublishRtcp_cases data p room with
            ⟨hfailed, hquiet⟩ | ⟨plaintext, hresult, hquiet⟩
          · refine htouched ?_ _ hquiet
            rw [hheard, if_neg hnot, if_pos hrtcp, show ((s.srtp p .publish).inbound.decryptRtcp
              data).2.toOption = none from toOption_eq_none hfailed]
            rfl
          · rw [hquiet.heap, hquiet.next, hquiet.rooms, hheap]
            refine .relayed ?_
            rw [hheard, if_neg hnot, if_pos hrtcp,
              show ((s.srtp p .publish).inbound.decryptRtcp data).2 = .ok plaintext from hresult]
            rfl
        · rename_i hrtcp
          rcases (s.touch p now).handlePublishRtp_cases data p room arrival with
            ⟨hfailed, hquiet⟩ | ⟨plaintext, hresult, hquiet⟩
          · refine htouched ?_ _ hquiet
            rw [hheard, if_neg hnot, if_neg hrtcp, show ((s.srtp p .publish).inbound.decryptRtp
              data).2.toOption = none from toOption_eq_none hfailed]
            rfl
          · rw [hquiet.heap, hquiet.next, hquiet.rooms]
            refine .forwarded ?_
            rw [hheard, if_neg hnot, if_neg hrtcp,
              show ((s.srtp p .publish).inbound.decryptRtp data).2 = .ok plaintext from hresult]
            rfl

end

section

variable {s s' : State P} {l : Label}

theorem countPacket_toServer (s : State P) (worker : Nat) :
    (s.countPacket worker).toServer = s.toServer := by
  unfold countPacket
  dsimp only
  split <;> rfl

theorem heard_eq_none {worker now : Nat} {data : Bytes} {remote : SocketAddr} {arrival : Instant}
    (h : classify data ≠ .srtp) : s.heard (.datagram worker data remote now arrival) = none :=
  if_neg h

theorem receive_stepped (worker : Nat) (data : Bytes) (remote : SocketAddr) (now : Nat)
    (arrival : Instant) : Stepped s (.datagram worker data remote now arrival)
      (s.receive worker data remote now arrival).heap
      (s.receive worker data remote now arrival).next
      (s.receive worker data remote now arrival).rooms := by
  unfold receive
  rw [countPacket_toServer]
  unfold handleDatagram
  split
  · rcases Udp.Server.handleStun_cases s.udp worker data remote now with
      ⟨hsame, -⟩ | ⟨msg, ufrag, heap, hub, p, pc, -, hlatch, hheap, hhub, hnext, -⟩
    · rw [hsame]
      exact .same (heard_eq_none (by simp [*])) (by simp) (by simp)
    · dsimp only [withUdp]
      rw [hheap, hhub, hnext]
      exact .latched (heard_eq_none (by simp [*])) hlatch
  · obtain ⟨hheap, hhub, hnext, -⟩ := Udp.Server.handleDtls_cases s.udp worker data remote
    dsimp only [withUdp]
    rw [hheap, hhub, hnext]
    exact .same (heard_eq_none (by simp [*])) (by simp) (by simp)
  · exact s.handleSrtp_stepped data worker ‹_› remote now arrival
  · exact .same (heard_eq_none (by simp [*])) (by simp) (by simp)

theorem finishHandshake_quiet (s : State P) (h : Handshake)
    (material : Vector U8 srtpKeyMaterialLen) :
    let t := s.installSrtpKeys h.participant h.pcType (exportSrtpKeys material)
    (h.pcType = .publish → s.finishHandshake h material = t) ∧
    (h.pcType = .subscribe →
      Quiet (t.spawnEgressTask h.participant) (s.finishHandshake h material)) := by
  intro t
  unfold finishHandshake
  refine ⟨fun hpc => ?_, fun hpc => ?_⟩
  · rw [if_neg (by simp [hpc])]
  · rw [if_pos hpc]
    dsimp only
    split
    · exact quiet_sendPliToPublishers ..
    · exact .refl

theorem spawnEgressTask_same (s : State P) (p : Ref) : (s.spawnEgressTask p).heap = s.heap ∧
    (s.spawnEgressTask p).next = s.next ∧ (s.spawnEgressTask p).rooms = s.rooms := by
  unfold spawnEgressTask
  split <;> exact ⟨rfl, rfl, rfl⟩

theorem spawnEgressTask_tasks (s : State P) (p : Ref) :
    (s.spawnEgressTask p).handshakes = s.handshakes ∧
      (s.spawnEgressTask p).finished = s.finished ∧ (s.spawnEgressTask p).srtp = s.srtp := by
  unfold spawnEgressTask
  split <;> exact ⟨rfl, rfl, rfl⟩

theorem spawnEgressTask_egress (s : State P) (p : Ref) :
    if s.egressRx p = true then
      (s.spawnEgressTask p).egressRx = Function.update s.egressRx p false ∧
        (s.spawnEgressTask p).egressTasks = s.egressTasks ++ [p]
    else
      (s.spawnEgressTask p).egressRx = s.egressRx ∧
        (s.spawnEgressTask p).egressTasks = s.egressTasks := by
  unfold spawnEgressTask
  split <;> exact ⟨rfl, rfl⟩

theorem passed_runEgress (s : State P) (p : Ref) (packet : EgressPacket)
    (rest : List EgressPacket) :
    Passed { s with heap := s.heap.update p fun x => { x with egress := rest } }
      (s.runEgress p packet rest) := by
  unfold runEgress
  dsimp only
  split
  · exact Quiet.refl.toPassed
  · split
    · exact passed_sendEncrypted _ _ _ _ _ fun ctx => ctx.pass_isReady _ _ _
    · exact passed_sendEncrypted _ _ _ _ _ fun ctx => ctx.pass_isReady _ _ _

/-- One turn of an egress task: the packet is taken and goes through the context, and what
becomes of it is sent where the session is latched. -/
theorem step_egress {p : Ref} (h : s.step (.egress p) = some s') :
    ∃ packet rest, (s.heap p).egress = packet :: rest ∧ p ∈ s.egressTasks ∧
      s' = s.runEgress p packet rest := by
  simp only [step] at h
  split at h
  · rename_i packet rest hqueue
    split at h
    · rename_i hp
      cases h
      exact ⟨packet, rest, hqueue, hp, rfl⟩
    · cases h
  · cases h

/-- What the signalling side does, the whole server does to the participants and the rooms. -/
theorem step_signalled (h : s.step l = some s') {l' : Signaling.Label} (hl : l.signals = some l') :
    ∃ server, s.toServer.step l' = some server ∧ s'.heap = server.heap ∧
      s'.next = server.next ∧ s'.rooms = server.rooms := by
  cases l with
  | packet sid packet draws =>
    obtain ⟨server, hstep, heq⟩ := Option.bind_eq_some_iff.mp h
    cases hl
    cases heq
    have hquiet := quiet_pliOnPacket { s with toServer := server } s.toServer sid packet draws
    exact ⟨server, hstep, hquiet.heap, hquiet.next, hquiet.rooms⟩
  | disconnect sid =>
    obtain ⟨server, hstep, heq⟩ := Option.bind_eq_some_iff.mp h
    cases hl
    cases heq
    exact ⟨server, hstep, rfl, rfl, rfl⟩
  | floorTimer now | zombieReaper now =>
    cases hl
    cases h
    exact ⟨_, rfl, rfl, rfl, rfl⟩
  | _ => cases hl

theorem step_stepped (h : s.step l = some s') : Stepped s l s'.heap s'.next s'.rooms := by
  have hsignalled : ∀ l', l.signals = some l' → Stepped s l s'.heap s'.next s'.rooms := by
    intro l' hl
    obtain ⟨server, hstep, hheap, hnext, hrooms⟩ := step_signalled h hl
    rw [hheap, hnext, hrooms]
    exact .signalled hl hstep
  cases l with
  | packet | disconnect | floorTimer | zombieReaper => exact hsignalled _ rfl
  | datagram worker data remote now arrival =>
    cases h
    exact receive_stepped ..
  | dtlsClosed worker addr =>
    obtain ⟨tx, -, heq⟩ := Option.bind_eq_some_iff.mp h
    cases heq
    exact .same rfl (by simp) (by simp)
  | dtlsSend i buf =>
    obtain ⟨x, -, heq⟩ := Option.bind_eq_some_iff.mp h
    cases heq
    exact .same rfl (by simp) (by simp)
  | handshakeDone i material =>
    obtain ⟨x, hx, heq⟩ := Option.bind_eq_some_iff.mp h
    split at heq
    · cases heq
    · rename_i hi
      cases heq
      obtain ⟨hpub, hsub⟩ := finishHandshake_quiet { s with finished := s.finished ++ [i] } x material
      cases hpc : x.pcType with
      | publish =>
        rw [hpub hpc]
        exact .installed hx hi
      | subscribe =>
        have hquiet := hsub hpc
        obtain ⟨hheap, hnext, hrooms⟩ := spawnEgressTask_same
          (({ s with finished := s.finished ++ [i] } : State P).installSrtpKeys x.participant
            x.pcType (exportSrtpKeys material)) x.participant
        rw [hquiet.heap, hquiet.next, hquiet.rooms, hheap, hnext, hrooms]
        exact .installed hx hi
  | egress p =>
    obtain ⟨packet, rest, hqueue, hp, rfl⟩ := step_egress h
    have hpassed := s.passed_runEgress p packet rest
    rw [hpassed.heap, hpassed.next, hpassed.rooms]
    exact .taken hqueue hp
  | bweTimer =>
    simp only [step] at h
    split at h
    · cases h
      have hread := readOut_sendTwccToPublishers s
      rw [hread.quiet.next, hread.quiet.rooms]
      exact .readOut hread.heap fun p hp => s.sendTwccToPublishers_elsewhere hp
    · cases h
      have hquiet := s.quiet_sendRembToPublishers
      rw [hquiet.heap, hquiet.next, hquiet.rooms]
      exact .same rfl (by simp) (by simp)
  | pliBurst i =>
    obtain ⟨b, hb, heq⟩ := Option.bind_eq_some_iff.mp h
    split at heq
    · cases heq
    · cases heq
      have hquiet := s.quiet_sendRtcp b.participant (Udp.buildPli b.ssrc) b.addr
      dsimp only [runPliBurst]
      rw [hquiet.heap, hquiet.next, hquiet.rooms]
      exact .same rfl (by simp) (by simp)

end

end State

end LightLivechat.Sfu
