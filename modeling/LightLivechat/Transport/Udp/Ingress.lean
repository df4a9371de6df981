import LightLivechat.Room.Room
import LightLivechat.Transport.Udp.Rtcp

/-! What happens to decrypted packets: publishers' RTP is cached, gated, rewritten
and fanned out; subscribers' RTCP is answered with retransmissions or relayed.  SRTP
itself stays outside: packets arrive decrypted and leave unencrypted. -/

namespace LightLivechat.Transport.Udp

open LightLivechat.Lib.Bytes LightLivechat.Lib.Std LightLivechat.Config
open LightLivechat.Room (Heap Ref Participant PcType TrackKind Room EgressPacket RtpCache
  RewriteResult isVp8Keyframe)

/-- RFC 5761: payload types 72 to 79 are RTCP. -/
def isRtcp (buf : Bytes) : Bool :=
  match buf[1]? with
  | some b => 72 ≤ b &&& 0x7F ∧ b &&& 0x7F ≤ 79
  | none => false

def takeIn (sender : Participant) (plaintext : Bytes) (now : Instant) : Participant :=
  let rtpHdr := parseRtpHeader plaintext
  let sender :=
    if rtpHdr.pt = 96 then { sender with rtpCache := sender.rtpCache.store rtpHdr.seq plaintext }
    else sender
  match parseTwccSeq plaintext twccExtmapId with
  | some twccSeq => { sender with twccRecorder := sender.twccRecorder.record twccSeq now }
  | none => sender

def allowed (room : Room) (userId : String) : Bool := room.floor.currentSpeaker = some userId

/-- The rewriter a packet goes through, by its payload type. -/
def rewriteRtp (room : Room) (userId : String) (plaintext : Bytes) : Room × Bytes × RewriteResult :=
  let pt := (parseRtpHeader plaintext).pt
  if pt = 111 then
    let (r, rewritten, result) := room.audioRewriter.rewrite plaintext userId false
    ({ room with audioRewriter := r }, rewritten, result)
  else if pt = 96 then
    let (r, rewritten, result) :=
      room.videoRewriter.rewrite plaintext userId (isVp8Keyframe plaintext)
    ({ room with videoRewriter := r }, rewritten, result)
  else (room, plaintext, .skip)

def fanoutPayload (plaintext rewritten : Bytes) : RewriteResult → Option Bytes
  | .ok => some rewritten
  | .pendingKeyframe => none
  | .skip => some plaintext

def fanOut (heap : Heap) (room : Room) (userId : String) (packet : EgressPacket) : Heap :=
  room.participants.entries.foldl (fun heap e =>
    if e.1 = userId then heap
    else if ¬ (heap e.2).isSubscribeReady then heap
    else heap.update e.2 fun target => target.trySend packet) heap

/-- A decrypted RTP packet from a publisher, handled without interruption. -/
def handleSrtp (heap : Heap) (room : Room) (sender : Ref) (plaintext : Bytes) (now : Instant) :
    Heap × Room :=
  let heap := heap.update sender fun p => takeIn p plaintext now
  let userId := (heap sender).userId
  if room.mode = .ptt then
    if ¬ allowed room userId then (heap, room)
    else
      let (room, rewritten, result) := rewriteRtp room userId plaintext
      match fanoutPayload plaintext rewritten result with
      | none => (heap, room)
      | some payload => (fanOut heap room userId (.rtp payload), room)
  else (fanOut heap room userId (.rtp plaintext), room)

/-- A decrypted RTCP packet from a publisher goes to the others whole. -/
def relayPublishRtcp (heap : Heap) (room : Room) (userId : String) (plaintext : Bytes) : Heap :=
  if room.mode = .ptt ∧ ¬ allowed room userId then heap
  else fanOut heap room userId (.rtcp plaintext)

structure RtxPacket where
  lostSeq : U16
  rtxSeq : U16
  packet : Bytes
  deriving DecidableEq

/-- The retransmissions for the numbers the cache still holds, and the next number
of the publisher's retransmission stream. -/
def rtxPackets (cache : RtpCache) (rtxSsrc : U32) : U16 → List U16 → U16 × List RtxPacket
  | rtxSeq, [] => (rtxSeq, [])
  | rtxSeq, lostSeq :: seqs =>
    match cache.get lostSeq with
    | none => rtxPackets cache rtxSsrc rtxSeq seqs
    | some original =>
      let (next, rest) := rtxPackets cache rtxSsrc (rtxSeq + 1) seqs
      (next, ⟨lostSeq, rtxSeq, buildRtxPacket original rtxSsrc rtxSeq⟩ :: rest)

section

variable (heap : Heap) (room : Room)

/-- The SSRC the current speaker has registered for a kind of media. -/
def speakerSsrc (kind : TrackKind) : Option U32 :=
  room.floor.currentSpeaker.bind fun uid => (room.getParticipant uid).bind fun p =>
    ((heap p).trackOf kind).map fun t => t.ssrc

def isVideoVirtual (ssrc : U32) : Bool :=
  room.mode = .ptt ∧ room.videoRewriter.virtualSsrc = ssrc

def isAudioVirtual (ssrc : U32) : Bool :=
  room.mode = .ptt ∧ room.audioRewriter.virtualSsrc = ssrc

/-- The stream a NACK is looked up under and the numbers looked up there. -/
def lookupOf (nack : NackItem) : U32 × List U16 :=
  let lostSeqs := expandNack nack.pid nack.blp
  if isVideoVirtual room nack.mediaSsrc then
    ((speakerSsrc heap room .video).getD nack.mediaSsrc,
      lostSeqs.map fun vs => room.videoRewriter.reverseSeq vs)
  else (nack.mediaSsrc, lostSeqs)

def handleNackItem (subscriber : Ref) (nack : NackItem) : Heap × List RtxPacket :=
  let (lookupSsrc, cacheSeqs) := lookupOf heap room nack
  match room.findByTrackSsrc heap lookupSsrc with
  | none => (heap, [])
  | some publisher =>
    let track := (heap publisher).tracks.find? fun t => t.ssrc = lookupSsrc
    match track.bind fun t => t.rtxSsrc with
    | none => (heap, [])
    | some rtxSsrc =>
      let (next, rtx) :=
        rtxPackets (heap publisher).rtpCache rtxSsrc (heap publisher).rtxSeq cacheSeqs
      let heap := heap.update publisher fun p => { p with rtxSeq := next }
      (rtx.foldl (fun heap x => heap.update subscriber fun p => p.trySend (.rtp x.packet)) heap,
        rtx)

def answerNack (subscriber : Ref) (acc : Heap × List RtxPacket) (nack : NackItem) :
    Heap × List RtxPacket :=
  let (heap, rtx) := handleNackItem acc.1 room subscriber nack
  (heap, acc.2 ++ rtx)

/-- The heap after a NACK block, and the retransmissions built for it. -/
def handleNackBlock (subscriber : Ref) (nackData : Bytes) : Heap × List RtxPacket :=
  (parseRtcpNack nackData).foldl (answerNack room subscriber) (heap, [])

/-- The SSRC a block is routed by: a virtual SSRC stands for the current speaker's. -/
def effectiveSsrc (mediaSsrc : U32) : U32 :=
  if isAudioVirtual room mediaSsrc ∨ isVideoVirtual room mediaSsrc then
    let kind := if isVideoVirtual room mediaSsrc then TrackKind.video else .audio
    (speakerSsrc heap room kind).getD mediaSsrc
  else mediaSsrc

structure Relay where
  publisher : Ref
  addr : SocketAddr
  blocks : List RtcpBlockRef

def Relay.packets (plaintext : Bytes) (r : Relay) : List Bytes :=
  r.blocks.map fun b => slice plaintext b.offset b.length

def Relay.compound (plaintext : Bytes) (r : Relay) : Bytes := assembleCompound (r.packets plaintext)

def relayOf (mediaSsrc : U32) (blocks : List RtcpBlockRef) : Option Relay :=
  match room.findByTrackSsrc heap mediaSsrc with
  | none => none
  | some publisher =>
    if ¬ (heap publisher).isPublishReady then none
    else (heap publisher).publish.address.map fun addr => ⟨publisher, addr, blocks⟩

/-- The relay blocks, collected by publisher SSRC. -/
def publisherRtcp (relayBlocks : List RtcpBlockRef) : DashMap U32 (List RtcpBlockRef) :=
  (relayBlocks.filter fun b => b.mediaSsrc ≠ 0).foldl (fun m b =>
    DashMap.push m (effectiveSsrc heap room b.mediaSsrc) b) ∅

def relays (plaintext : Bytes) : List Relay :=
  (publisherRtcp heap room (splitCompoundRtcp plaintext).relayBlocks).entries.filterMap fun e =>
    relayOf heap room e.1 e.2

def handleSubscribeRtcp (subscriber : Ref) (plaintext : Bytes) : Heap × List Relay :=
  let heap := (splitCompoundRtcp plaintext).nackBlocks.foldl (fun heap nackBlock =>
    (handleNackBlock heap room subscriber nackBlock).1) heap
  (heap, relays heap room plaintext)

end

theorem takeIn_rtpCache (p : Participant) (plaintext : Bytes) (now : Instant) :
    (takeIn p plaintext now).rtpCache =
      if (parseRtpHeader plaintext).pt = 96 then
        p.rtpCache.store (parseRtpHeader plaintext).seq plaintext
      else p.rtpCache := by
  simp only [takeIn]
  split <;> split <;> rfl

theorem takeIn_tracks (p : Participant) (plaintext : Bytes) (now : Instant) :
    (takeIn p plaintext now).tracks = p.tracks := by
  simp only [takeIn]
  split <;> split <;> rfl

theorem takeIn_publish (p : Participant) (plaintext : Bytes) (now : Instant) :
    (takeIn p plaintext now).publish = p.publish := by
  simp only [takeIn]
  split <;> split <;> rfl

theorem takeIn_userId (p : Participant) (plaintext : Bytes) (now : Instant) :
    (takeIn p plaintext now).userId = p.userId := by
  simp only [takeIn]
  split <;> split <;> rfl

theorem takeIn_egress (p : Participant) (plaintext : Bytes) (now : Instant) :
    (takeIn p plaintext now).egress = p.egress := by
  simp only [takeIn]
  split <;> split <;> rfl

theorem fanOut_field (heap : Heap) (room : Room) {β : Type} (field : Participant → β)
    (hfield : ∀ p packet, field (p.trySend packet) = field p) (userId : String)
    (packet : EgressPacket) (q : Ref) :
    field (fanOut heap room userId packet q) = field (heap q) := by
  refine List.foldlRecOn (motive := fun h : Heap => field (h q) = field (heap q)) _ _ rfl
    fun h hh e _ => ?_
  split
  · exact hh
  · split
    · exact hh
    · refine Eq.trans ?_ hh
      exact Heap.update_field (f := fun target => target.trySend packet) field (hfield _ _) q

end LightLivechat.Transport.Udp
