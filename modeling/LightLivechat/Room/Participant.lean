import LightLivechat.Lib.Ring
import LightLivechat.Lib.Std
import LightLivechat.Transport.Udp.Twcc

/-! A participant: two media sessions, the published tracks and what is kept for
retransmission.  Behind `Arc`s the source shares participants; here they live in a
heap and are shared by reference. -/

namespace LightLivechat.Room

open LightLivechat.Lib LightLivechat.Lib.Bytes LightLivechat.Lib.Std
open LightLivechat.Transport.Udp (TwccRecorder)

inductive EgressPacket where
  | rtp (packet : Bytes)
  | rtcp (packet : Bytes)
  deriving DecidableEq

inductive PcType where
  | publish
  | subscribe
  deriving DecidableEq

inductive TrackKind where
  | audio
  | video
  deriving DecidableEq

/-- Exactly the video tracks have an SSRC for retransmission. -/
structure Track where
  ssrc : U32
  kind : TrackKind
  trackId : String
  rtxSsrc : Option U32
  muted : Bool
  rtx_isSome : rtxSsrc.isSome ↔ kind = .video
  deriving DecidableEq

/-- `mediaReady` stands for the two SRTP contexts, which are installed together. -/
structure MediaSession where
  ufrag : String
  icePwd : String
  address : Option SocketAddr
  mediaReady : Bool

namespace MediaSession

def new (ufrag icePwd : String) : MediaSession := ⟨ufrag, icePwd, none, false⟩

def latchAddress (s : MediaSession) (addr : SocketAddr) : MediaSession :=
  { s with address := some addr }

def installSrtpKeys (s : MediaSession) : MediaSession := { s with mediaReady := true }

end MediaSession

structure RtpCache where
  slots : Ring.Slots Config.rtpCacheSize Bytes

namespace RtpCache

def new : RtpCache := ⟨Ring.empty⟩

def slot (seq : U16) : Fin Config.rtpCacheSize :=
  ⟨seq.toNat % Config.rtpCacheSize, Nat.mod_lt _ (by decide)⟩

def store (c : RtpCache) (seq : U16) (plaintext : Bytes) : RtpCache :=
  ⟨Ring.put c.slots (slot seq) plaintext⟩

def get (c : RtpCache) (seq : U16) : Option Bytes :=
  (c.slots (slot seq)).filter fun pkt => Config.rtpHeaderMinSize ≤ pkt.length ∧ be16 pkt 2 = seq

end RtpCache

structure Participant where
  userId : String
  roomId : String
  joinedAt : Nat
  lastSeen : Nat
  publish : MediaSession
  subscribe : MediaSession
  tracks : List Track
  rtpCache : RtpCache
  rtxSsrcCounter : U32
  rtxSeq : U16
  twccRecorder : TwccRecorder
  /-- What waits in the egress channel. -/
  egress : List EgressPacket

namespace Participant

def new (userId roomId pubUfrag pubPwd subUfrag subPwd : String) (joinedAt : Nat) :
    Participant where
  userId := userId
  roomId := roomId
  joinedAt := joinedAt
  lastSeen := joinedAt
  publish := .new pubUfrag pubPwd
  subscribe := .new subUfrag subPwd
  tracks := []
  rtpCache := .new
  rtxSsrcCounter := 0
  rtxSeq := 0
  twccRecorder := .new
  egress := []

def touch (p : Participant) (ts : Nat) : Participant := { p with lastSeen := ts }

def session (p : Participant) : PcType → MediaSession
  | .publish => p.publish
  | .subscribe => p.subscribe

def updateSession (p : Participant) (pc : PcType) (f : MediaSession → MediaSession) : Participant :=
  match pc with
  | .publish => { p with publish := f p.publish }
  | .subscribe => { p with subscribe := f p.subscribe }

def addTrack (p : Participant) (ssrc : U32) (kind : TrackKind) (trackId : String) : Participant :=
  if p.tracks.any fun t => t.ssrc = ssrc then p
  else
    match kind with
    | .video => { p with
        tracks := p.tracks ++ [⟨ssrc, .video, trackId, some (ssrc + 1000 + p.rtxSsrcCounter), false,
          by simp⟩]
        rtxSsrcCounter := p.rtxSsrcCounter + 1 }
    | .audio => { p with tracks := p.tracks ++ [⟨ssrc, .audio, trackId, none, false, by simp⟩] }

def muteTrack (ssrc : U32) (muted : Bool) : List Track → Option (List Track × TrackKind)
  | [] => none
  | t :: ts =>
    if t.ssrc = ssrc then some ({ t with muted := muted } :: ts, t.kind)
    else (muteTrack ssrc muted ts).map fun (ts, kind) => (t :: ts, kind)

def setTrackMuted (p : Participant) (ssrc : U32) (muted : Bool) : Option (Participant × TrackKind) :=
  (muteTrack ssrc muted p.tracks).map fun (tracks, kind) => ({ p with tracks := tracks }, kind)

def registered (p : Participant) (ssrc : U32) : Bool := p.tracks.any fun t => t.ssrc = ssrc

def trackOf (p : Participant) (kind : TrackKind) : Option Track :=
  p.tracks.find? fun t => t.kind = kind

def isPublishReady (p : Participant) : Bool := p.publish.mediaReady

def isSubscribeReady (p : Participant) : Bool := p.subscribe.mediaReady

/-- A full channel refuses the packet. -/
def trySend (p : Participant) (packet : EgressPacket) : Participant :=
  if p.egress.length < Config.egressQueueSize then { p with egress := p.egress ++ [packet] } else p

section

variable (p : Participant) (pc pc' : PcType) (f : MediaSession → MediaSession)

@[simp] theorem touch_session (ts : Nat) : (p.touch ts).session pc = p.session pc := by
  cases pc <;> rfl

theorem updateSession_session :
    (p.updateSession pc f).session pc' = if pc' = pc then f (p.session pc) else p.session pc' := by
  cases pc <;> cases pc' <;> rfl

@[simp] theorem trySend_tracks (packet : EgressPacket) : (p.trySend packet).tracks = p.tracks := by
  unfold trySend
  split <;> rfl

@[simp] theorem trySend_publish (packet : EgressPacket) :
    (p.trySend packet).publish = p.publish := by
  unfold trySend
  split <;> rfl

@[simp] theorem trySend_rtpCache (packet : EgressPacket) :
    (p.trySend packet).rtpCache = p.rtpCache := by
  unfold trySend
  split <;> rfl

end

end Participant

abbrev Ref := Nat

abbrev Heap := Ref → Participant

def Heap.update (heap : Heap) (ref : Ref) (f : Participant → Participant) : Heap :=
  Function.update heap ref (f (heap ref))

@[simp] theorem Heap.update_same (heap : Heap) (ref : Ref) (f : Participant → Participant) :
    heap.update ref f ref = f (heap ref) := by simp [Heap.update]

theorem Heap.update_apply (heap : Heap) (ref x : Ref) (f : Participant → Participant) :
    heap.update ref f x = if x = ref then f (heap ref) else heap x := by
  simp [Heap.update, Function.update_apply]

theorem Heap.update_of_ne {heap : Heap} {ref x : Ref} (h : x ≠ ref)
    (f : Participant → Participant) : heap.update ref f x = heap x := Function.update_of_ne h ..

theorem Heap.update_field {β : Type} (field : Participant → β) {heap : Heap} {ref : Ref}
    {f : Participant → Participant} (h : field (f (heap ref)) = field (heap ref)) (x : Ref) :
    field (heap.update ref f x) = field (heap x) := by
  rw [Heap.update_apply]
  split
  · subst_vars
    exact h
  · rfl

end LightLivechat.Room
