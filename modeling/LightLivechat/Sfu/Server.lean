import LightLivechat.Signaling.Effects
import LightLivechat.Transport.Checked.Dispatch
import LightLivechat.Transport.Srtp
import LightLivechat.Transport.Udp
import LightLivechat.Transport.Udp.Ingress

/-! The whole server: signalling connections, UDP workers, handshakes, egress tasks and
timers over one state.  SRTP is part of it, and datagrams are what it hears and says. -/

namespace LightLivechat.Sfu

open LightLivechat.Config LightLivechat.Lib.Bytes LightLivechat.Lib.Std
open LightLivechat.Room (Heap Ref Participant PcType Room EgressPacket TrackKind)
open LightLivechat.Signaling (AppState Draws Packet Request Session SessionId)
open LightLivechat.Transport LightLivechat.Transport.Srtp
open LightLivechat.Transport.Checked (PacketType)
open LightLivechat.Transport.Udp (DtlsSessionMap Handshake Instant)

/-- The cryptography the server is built on and what it is configured with. -/
structure Platform where
  stun : Stun.Primitives
  srtp : Srtp.Primitives
  bweMode : BweMode
  rembBitrate : BitVec 64

structure SrtpSession (c : Srtp.Primitives) where
  inbound : SrtpContext c
  outbound : SrtpContext c

/-- A task that asks a publisher for keyframes, a few times. -/
structure PliBurst where
  participant : Ref
  ssrc : U32
  addr : SocketAddr
  left : Nat

/-- The contexts of a participant's sessions and the receiving end of its egress channel
are kept beside the heap. -/
structure State (P : Platform) extends Signaling.Server where
  dtlsMap : Nat → DtlsSessionMap
  pktCount : Nat → Nat
  udpSent : List (SocketAddr × Bytes)
  /-- The handshakes started, and the numbers of those that have finished. -/
  handshakes : List Handshake
  finished : List Nat
  srtp : Ref → PcType → SrtpSession P.srtp
  egressRx : Ref → Bool
  egressTasks : List Ref
  pliBursts : List PliBurst

inductive Label where
  | packet (sid : SessionId) (packet : Packet) (draws : Draws)
  | disconnect (sid : SessionId)
  | floorTimer (now : Nat)
  | zombieReaper (now : Nat)
  | datagram (worker : Nat) (data : Bytes) (remote : SocketAddr) (now : Nat) (arrival : Instant)
  | dtlsClosed (worker : Nat) (addr : SocketAddr)
  /-- The connection of a handshake sends a datagram of its own. -/
  | dtlsSend (i : Nat) (buf : Bytes)
  | handshakeDone (i : Nat) (material : Vector U8 srtpKeyMaterialLen)
  | egress (p : Ref)
  | bweTimer
  | pliBurst (i : Nat)

def classify (buf : Bytes) : PacketType :=
  match buf.head? with
  | some first => .ofFirst first
  | none => .unknown

/-- Where a publisher is asked about its video: it is ready, latched and has a video. -/
def videoOf (publisher : Participant) : Option (SocketAddr × U32) :=
  if ¬ publisher.isPublishReady then none
  else
    publisher.publish.address.bind fun addr =>
      (publisher.trackOf .video).map fun t => (addr, t.ssrc)

namespace State

variable {P : Platform}

def start (P : Platform) (draws : Fin 3 → Draws) : State P where
  toServer := .start draws
  dtlsMap := fun _ => ∅
  pktCount := fun _ => 0
  udpSent := []
  handshakes := []
  finished := []
  srtp := fun _ _ => ⟨.new, .new⟩
  egressRx := fun _ => true
  egressTasks := []
  pliBursts := []

variable (s : State P)

def touch (p : Ref) (now : Nat) : State P :=
  { s with heap := s.heap.update p fun x => x.touch now }

def setSrtp (p : Ref) (pc : PcType) (x : SrtpSession P.srtp) : State P :=
  { s with srtp := Function.update s.srtp p (Function.update (s.srtp p) pc x) }

def decrypt (f : SrtpContext P.srtp → Bytes → SrtpContext P.srtp × Except SrtpError Bytes)
    (p : Ref) (pc : PcType) (packet : Bytes) : State P × Except SrtpError Bytes :=
  let (ctx, result) := f (s.srtp p pc).inbound packet
  (s.setSrtp p pc { s.srtp p pc with inbound := ctx }, result)

/-- What the outbound context of a session makes of a packet is sent. -/
def sendEncrypted (f : SrtpContext P.srtp → Bytes → SrtpContext P.srtp × Except SrtpError Bytes)
    (p : Ref) (pc : PcType) (addr : SocketAddr) (packet : Bytes) : State P :=
  let (ctx, result) := f (s.srtp p pc).outbound packet
  let s := s.setSrtp p pc { s.srtp p pc with outbound := ctx }
  match result with
  | .ok encrypted => { s with udpSent := s.udpSent ++ [(addr, encrypted)] }
  | .error _ => s

def sendRtcp (p : Ref) (addr : SocketAddr) (packet : Bytes) : State P :=
  s.sendEncrypted SrtpContext.encryptRtcp p .publish addr packet

def udp : Udp.Server where
  heap := s.heap
  next := s.next
  hub := s.rooms
  dtlsMap := s.dtlsMap
  sent := s.udpSent
  handshakes := s.handshakes

def withUdp (u : Udp.Server) : State P :=
  { s with
    heap := u.heap
    next := u.next
    rooms := u.hub
    dtlsMap := u.dtlsMap
    udpSent := u.sent
    handshakes := u.handshakes }

def handleSubscribeRtcp (buf : Bytes) (subscriber : Ref) (room : Room) : State P :=
  if ¬ Udp.isRtcp buf then s
  else
    match s.decrypt SrtpContext.decryptRtcp subscriber .subscribe buf with
    | (s, .error _) => s
    | (s, .ok plaintext) =>
      let (heap, relays) := Udp.handleSubscribeRtcp s.heap room subscriber plaintext
      relays.foldl (fun s r => s.sendRtcp r.publisher r.addr (r.compound plaintext))
        { s with heap := heap }

def handlePublishRtcp (buf : Bytes) (sender : Ref) (room : Room) : State P :=
  match s.decrypt SrtpContext.decryptRtcp sender .publish buf with
  | (s, .error _) => s
  | (s, .ok plaintext) =>
    { s with heap := Udp.relayPublishRtcp s.heap room (s.heap sender).userId plaintext }

def handlePublishRtp (buf : Bytes) (sender : Ref) (room : Room) (arrival : Instant) : State P :=
  match s.decrypt SrtpContext.decryptRtp sender .publish buf with
  | (s, .error _) => s
  | (s, .ok plaintext) =>
    let (heap, room') := Udp.handleSrtp s.heap room sender plaintext arrival
    { s with heap := heap, rooms := { s.rooms with rooms := s.rooms.rooms.insert room.id room' } }

def handleSrtp (buf : Bytes) (remote : SocketAddr) (now : Nat) (arrival : Instant) : State P :=
  match s.rooms.findByAddr remote with
  | none => s
  | some (sender, pcType, room) =>
    let s := s.touch sender now
    if pcType ≠ .publish then s.handleSubscribeRtcp buf sender room
    else if ¬ (s.heap sender).isPublishReady then s
    else if Udp.isRtcp buf then s.handlePublishRtcp buf sender room
    else s.handlePublishRtp buf sender room arrival

def handleDatagram (worker : Nat) (data : Bytes) (remote : SocketAddr) (now : Nat)
    (arrival : Instant) : State P :=
  match classify data with
  | .stun => s.withUdp (s.udp.handleStun P.stun worker data remote now)
  | .dtls => s.withUdp (s.udp.handleDtls worker data remote)
  | .srtp => s.handleSrtp data remote now arrival
  | .unknown => s

/-- Every thousandth datagram, the closed channels go. -/
def countPacket (worker : Nat) : State P :=
  let pktCount := s.pktCount worker + 1
  let s := { s with pktCount := Function.update s.pktCount worker pktCount }
  if pktCount % 1000 = 0 then
    { s with dtlsMap := Function.update s.dtlsMap worker (s.dtlsMap worker).removeStale }
  else s

def receive (worker : Nat) (data : Bytes) (remote : SocketAddr) (now : Nat) (arrival : Instant) :
    State P := (s.handleDatagram worker data remote now arrival).countPacket worker

def sendPli (publisher : Ref) : State P :=
  match videoOf (s.heap publisher) with
  | none => s
  | some (addr, ssrc) => s.sendRtcp publisher addr (Udp.buildPli ssrc)

def sendRemb (publisher : Ref) : State P :=
  match videoOf (s.heap publisher) with
  | none => s
  | some (addr, ssrc) => s.sendRtcp publisher addr (Udp.buildRemb P.rembBitrate ssrc)

/-- The recorder gives its feedback away before it is encrypted. -/
def sendTwcc (publisher : Ref) : State P :=
  match videoOf (s.heap publisher) with
  | none => s
  | some (addr, ssrc) =>
    let (recorder, feedback) := Udp.buildTwccFeedback (s.heap publisher).twccRecorder ssrc
    let s := { s with heap := s.heap.update publisher fun p => { p with twccRecorder := recorder } }
    match feedback with
    | none => s
    | some feedback => s.sendRtcp publisher addr feedback

def sendPliToPublishers (room : Room) (excludeUser : String) : State P :=
  room.participants.entries.foldl (fun s e =>
    if (s.heap e.2).userId = excludeUser then s else s.sendPli e.2) s

def forPublishers (f : State P → Ref → State P) : State P :=
  s.rooms.rooms.entries.foldl (fun s room =>
    room.2.participants.entries.foldl (fun s e => f s e.2) s) s

def sendTwccToPublishers : State P := s.forPublishers sendTwcc

def sendRembToPublishers : State P := s.forPublishers sendRemb

/-- `DemuxConn::send`. -/
def demuxSend (h : Handshake) (buf : Bytes) : State P :=
  { s with udpSent := s.udpSent ++ [(h.remote, buf)] }

def installSrtpKeys (p : Ref) (pc : PcType) (keys : SrtpKeyMaterial) : State P :=
  { s.setSrtp p pc {
      inbound := (s.srtp p pc).inbound.installKey keys.clientKey keys.clientSalt
      outbound := (s.srtp p pc).outbound.installKey keys.serverKey keys.serverSalt } with
    heap := s.heap.update p fun x => x.updateSession pc fun session => session.installSrtpKeys }

/-- The receiving end is taken once, by the task that is spawned with it. -/
def spawnEgressTask (p : Ref) : State P :=
  if s.egressRx p then
    { s with
      egressRx := Function.update s.egressRx p false
      egressTasks := s.egressTasks ++ [p] }
  else s

def finishHandshake (h : Handshake) (material : Vector U8 srtpKeyMaterialLen) : State P :=
  let s := s.installSrtpKeys h.participant h.pcType (exportSrtpKeys material)
  if h.pcType = .subscribe then
    let s := s.spawnEgressTask h.participant
    match s.rooms.get (s.heap h.participant).roomId with
    | .ok room => s.sendPliToPublishers room (s.heap h.participant).userId
    | .error _ => s
  else s

def runEgress (p : Ref) (packet : EgressPacket) (rest : List EgressPacket) : State P :=
  let s := { s with heap := s.heap.update p fun x => { x with egress := rest } }
  match (s.heap p).subscribe.address with
  | none => s
  | some addr =>
    match packet with
    | .rtp plaintext => s.sendEncrypted SrtpContext.encryptRtp p .subscribe addr plaintext
    | .rtcp plaintext => s.sendEncrypted SrtpContext.encryptRtcp p .subscribe addr plaintext

/-- What `MUTE_UPDATE` does on the media side; `before` is the state it found. -/
def pliOnUnmute (before : AppState) (session : Session) (ssrc : U32) (muted : Bool) : State P :=
  match Signaling.currentParticipant session before with
  | .error _ => s
  | .ok (_, _, p) =>
    match (before.heap p).setTrackMuted ssrc muted with
    | none => s
    | some (_, kind) =>
      if ¬ muted ∧ kind = .video ∧ (s.heap p).isPublishReady then
        match (s.heap p).publish.address with
        | some addr => s.sendRtcp p addr (Udp.buildPli ssrc)
        | none => s
      else s

def pliOnGrant (before : AppState) (userId roomId : String) (now : Nat) : State P :=
  match before.rooms.get roomId with
  | .error _ => s
  | .ok room =>
    if room.mode ≠ .ptt then s
    else
      match (room.floor.request userId now).2 with
      | .granted speaker =>
        match (room.getParticipant speaker).bind fun p => (videoOf (s.heap p)).map fun v => (p, v) with
        | some (p, addr, ssrc) => { s with pliBursts := s.pliBursts ++ [⟨p, ssrc, addr, 3⟩] }
        | none => s
      | _ => s

def pliOnRequest (before : AppState) (session : Session) (now : Nat) : Request → State P
  | .muteUpdate ssrc muted => s.pliOnUnmute before session ssrc muted
  | .floorRequest roomId => s.pliOnGrant before (session.userId.getD "") roomId now
  | _ => s

def pliOnPacket (before : Signaling.Server) (sid : SessionId) (packet : Packet) (draws : Draws) :
    State P :=
  match (before.sessions sid).bind fun session => (packet.reaches session).map fun r => (session, r) with
  | some (session, r) => s.pliOnRequest before.toAppState session draws.now r
  | none => s

def runPliBurst (i : Nat) (b : PliBurst) : State P :=
  { s.sendRtcp b.participant b.addr (Udp.buildPli b.ssrc) with
    pliBursts := s.pliBursts.set i { b with left := b.left - 1 } }

/-- A step runs its handler to the end; what can come between the calls of a handler of a
push-to-talk room is `Ptt.step`.  The DTLS library says what the connection of a handshake
sends, and whether and when the handshake is done. -/
def step (s : State P) : Label → Option (State P)
  | .packet sid packet draws => do
    let server ← s.toServer.step (.packet sid packet draws)
    return { s with toServer := server }.pliOnPacket s.toServer sid packet draws
  | .disconnect sid => do
    let server ← s.toServer.step (.disconnect sid)
    return { s with toServer := server }
  | .floorTimer now => some { s with toAppState := Signaling.floorTimer s.toAppState now }
  | .zombieReaper now => some { s with toAppState := Signaling.zombieReaper s.toAppState now }
  | .datagram worker data remote now arrival => some (s.receive worker data remote now arrival)
  | .dtlsClosed worker addr => do
    let tx ← (s.dtlsMap worker).lookup addr
    return { s with
      dtlsMap := Function.update s.dtlsMap worker
        ((s.dtlsMap worker).insert addr { tx with closed := true }) }
  | .dtlsSend i buf => do
    let h ← s.handshakes[i]?
    return s.demuxSend h buf
  | .handshakeDone i material => do
    let h ← s.handshakes[i]?
    if i ∈ s.finished then none
    else some ({ s with finished := s.finished ++ [i] }.finishHandshake h material)
  | .egress p =>
    match (s.heap p).egress with
    | packet :: rest => if p ∈ s.egressTasks then some (s.runEgress p packet rest) else none
    | [] => none
  | .bweTimer =>
    match P.bweMode with
    | .twcc => some s.sendTwccToPublishers
    | .remb => some s.sendRembToPublishers
  | .pliBurst i => do
    let b ← s.pliBursts[i]?
    if b.left = 0 then none else some (s.runPliBurst i b)

end State

/-! One call: Alice films in a meeting, Bob watches and misses a packet. -/

namespace Call

/-- A Binding Request that nominates its pair, up to its integrity attribute. -/
def bindingRequest (username : String) : Bytes :=
  let buf := toBe16 Stun.bindingRequest ++ toBe16 40 ++ toBe32 Stun.magicCookie ++
    [1, 2, 3, 4, 5, 6, 7, 8, 9, 10, 11, 12]
  let buf := Stun.writeAttr buf Stun.attrUsername (Str.asBytes username)
  Stun.writeAttr buf Stun.attrUseCandidate []

/-- The digests of the requests, under the empty passwords of the sessions. -/
def aliceDigest : Vector U8 20 :=
  #v[233, 67, 216, 134, 227, 195, 153, 124, 99, 126, 205, 121, 181, 107, 232, 24, 179, 63, 113, 14]

def bobDigest : Vector U8 20 :=
  #v[39, 185, 90, 136, 86, 128, 184, 192, 25, 53, 136, 135, 195, 39, 148, 13, 180, 253, 93, 216]

def signedRequest (username : String) (digest : Vector U8 20) : Bytes :=
  Stun.writeAttr (bindingRequest username) Stun.attrMessageIntegrity digest.toList

/-- Two requests and two responses, told apart by the port the responses map. -/
def stun : Stun.Primitives where
  hmacSha1 := fun data _ =>
    if data = bindingRequest "a2p:c" then aliceDigest
    else if data = bindingRequest "b2s:c" then bobDigest
    else if byteAt data 27 = 154 then
      #v[245, 1, 230, 87, 118, 49, 66, 169, 17, 153, 66, 100, 61, 53, 159, 123, 108, 64, 218, 210]
    else
      #v[37, 211, 57, 7, 32, 238, 155, 246, 237, 50, 153, 92, 37, 74, 45, 181, 112, 247, 95, 179]
  crc32 := fun data => if byteAt data 27 = 154 then 0x253E2BC7 else 0xB5C2FEB8

def aliceKey : Bytes := List.replicate srtpMasterKeyLen 1
def bobKey : Bytes := List.replicate srtpMasterKeyLen 2

/-- A frame of Alice's video, and Bob's request to have it twice again. -/
def video : Bytes :=
  [144, 96, 0, 7, 0, 0, 11, 184, 0, 0, 18, 52, 190, 222, 0, 1, 97, 0, 1, 0, 16, 0, 9, 9]

def nack : Bytes := [129, 205, 0, 4, 0, 0, 0, 1, 0, 0, 18, 52, 0, 7, 0, 0, 0, 7, 0, 0]

def opus : Bytes := [128, 111, 0, 9, 0, 0, 3, 192, 0, 0, 86, 120, 1, 2]

/-- What the server tells Alice of the arrival of her frame. -/
def twcc : Bytes :=
  [175, 205, 0, 6, 0, 0, 0, 1, 0, 0, 18, 52, 0, 1, 0, 1, 0, 0, 0, 0, 208, 0, 0, 0, 0, 0, 0, 1]

def aliceVideo : Bytes :=
  video.take 20 ++ [154, 130, 102, 200, 107, 251, 112, 53, 77, 114, 64, 46, 127, 75]

def aliceOpus : Bytes := opus.take 12 ++ [193, 40, 44, 147, 208, 102, 137, 241, 161, 149, 149, 200]

def bobVideo : Bytes :=
  video.take 20 ++ [40, 209, 255, 244, 134, 158, 108, 99, 175, 204, 201, 244, 181, 249]

def bobOpus : Bytes := opus.take 12 ++ [217, 181, 166, 230, 215, 75, 81, 178, 171, 68, 98, 231]

def bobNack : Bytes :=
  nack.take 8 ++ [106, 222, 35, 13, 239, 219, 213, 144, 230, 236, 125, 38, 128, 0, 0, 1, 218, 110,
    108, 40, 255, 190, 48, 70, 157, 58]

def alicePli : Bytes :=
  (Udp.buildPli 0x1234).take 8 ++ [159, 191, 119, 75, 128, 0, 0, 1, 53, 170, 42, 4, 27, 69, 28, 31,
    48, 51]

def aliceTwcc : Bytes :=
  twcc.take 8 ++ [147, 201, 146, 197, 171, 90, 38, 24, 254, 205, 106, 41, 194, 114, 213, 138, 37, 205,
    78, 41, 128, 0, 0, 1, 163, 94, 113, 206, 219, 74, 52, 6, 6, 195]

def rtp : List (Bytes × Bytes × Bytes) :=
  [(aliceKey, video, aliceVideo), (aliceKey, opus, aliceOpus), (bobKey, video, bobVideo),
    (bobKey, opus, bobOpus)]

def rtcp : List (Bytes × Bytes × Bytes) :=
  [(bobKey, nack, bobNack), (aliceKey, Udp.buildPli 0x1234, alicePli), (aliceKey, twcc, aliceTwcc)]

def encrypt (packets : List (Bytes × Bytes × Bytes)) (key plaintext : Bytes) :
    Bytes × Except String Bytes :=
  match packets.find? fun e => e.1 = key ∧ e.2.1 = plaintext with
  | some e => (key, .ok e.2.2)
  | none => (key, .error "not in this call")

def decrypt (packets : List (Bytes × Bytes × Bytes)) (key encrypted : Bytes) :
    Bytes × Except String Bytes :=
  match packets.find? fun e => e.1 = key ∧ e.2.2 = encrypted with
  | some e => (key, .ok e.2.1)
  | none => (key, .error "failed to verify auth tag")

def srtp : Srtp.Primitives where
  Context := Bytes
  new := fun key salt =>
    if key.length = srtpMasterKeyLen ∧ salt.length = srtpMasterSaltLen then some key else none
  decryptRtp := decrypt rtp
  decryptRtcp := decrypt rtcp
  encryptRtp := encrypt rtp
  encryptRtcp := encrypt rtcp
  new_isSome := fun key salt hkey hsalt => by rw [if_pos ⟨hkey, hsalt⟩]; rfl

def platform : Platform := ⟨stun, srtp, .twcc, 500000⟩

abbrev start : State platform := .start platform Signaling.Server.bootDraws

def ask (sid : SessionId) (uuid : String) (r : Request) : Label :=
  .packet sid ⟨1, none, .request r⟩ (Signaling.Server.draws uuid)

def aliceAddr : SocketAddr := .v4 0x0A000001 5000
def bobAddr : SocketAddr := .v4 0x0A000002 6000

def nominated : Label := .datagram 0 (signedRequest "a2p:c" aliceDigest) aliceAddr 2 0

def aliceReady : Label := .handshakeDone 0 (.replicate _ 1)

/-- Both have joined, and each has one session set up. -/
def setup : List Label :=
  [ask 0 "a1" (.identify "" (some "alice")), ask 0 "a2" (.roomJoin "meeting"),
    ask 0 "a3" (.publishTracks [⟨"video", 0x1234⟩]), ask 1 "b1" (.identify "" (some "bob")),
    ask 1 "b2" (.roomJoin "meeting"), nominated,
    .datagram 0 (signedRequest "b2s:c" bobDigest) bobAddr 3 0, aliceReady]

def bobReady : Label := .handshakeDone 1 (.replicate _ 2)

def filmed : Label := .datagram 0 aliceVideo aliceAddr 4 1000

def spoken : Label := .datagram 0 aliceOpus aliceAddr 4 1000

def missed : Label := .datagram 0 bobNack bobAddr 5 2000

/-- The frame is forwarded and sent, and its retransmissions wait. -/
def watched : List Label := setup ++ [bobReady, filmed, missed, .egress 1]

/-- Alice takes the floor of the walkie-talkie and says a word. -/
def talked : List Label :=
  [ask 0 "a1" (.identify "" (some "alice")), ask 0 "a2" (.roomJoin "walkie"),
    nominated, aliceReady, ask 0 "a3" (.floorRequest "walkie"), spoken]

end Call

end LightLivechat.Sfu
