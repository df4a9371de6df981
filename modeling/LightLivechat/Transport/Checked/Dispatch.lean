import LightLivechat.Transport.Checked.Rtcp
import LightLivechat.Transport.Checked.Rtp
import LightLivechat.Transport.Checked.Stun

/-! One turn of a UDP worker's receive loop, with every access and every addition
checked, from the datagram to the parsers.  It stops a worker in two ways only. -/

namespace LightLivechat.Transport.Checked

open LightLivechat.Lib.Bytes LightLivechat.Lib.Checked
open LightLivechat.Config
open LightLivechat.Room (PttRewriter)
open LightLivechat.Transport.Stun (StunMessage Primitives)

inductive LevelFilter where
  | off
  | error
  | warn
  | info
  | debug
  | trace
  deriving DecidableEq

inductive PacketType where
  | stun
  | dtls
  | srtp
  | unknown
  deriving DecidableEq

def PacketType.ofFirst (first : U8) : PacketType :=
  if demuxStunMin ≤ first ∧ first ≤ demuxStunMax then .stun
  else if demuxDtlsMin ≤ first ∧ first ≤ demuxDtlsMax then .dtls
  else if demuxRtpMin ≤ first ∧ first ≤ demuxRtpMax then .srtp
  else .unknown

def classify (buf : Bytes) : Checked PacketType := do
  if buf.isEmpty then return .unknown
  let first ← index buf 0
  return .ofFirst first

/-- `integrityKey` gives the password of the session a message belongs to, or none
where the handler leaves before the check. -/
def handleStun (c : Primitives) (integrityKey : StunMessage → Option Bytes) (buf : Bytes) :
    Checked Unit := do
  let some msg ← Stun.parse buf | return ()
  let some key := integrityKey msg | return ()
  let _ ← Stun.verifyMessageIntegrity c msg key
  return ()

/-- The arguments of an event are evaluated where its level is enabled. -/
def traceUnknown (level : LevelFilter) (data : Bytes) : Checked Unit := do
  if level = .trace then
    let _ ← index data 0
  return ()

structure Worker where
  buf : Bytes
  pktCount : BitVec 64
  size : buf.length = udpRecvBufSize

def Worker.new : Worker where
  buf := List.replicate udpRecvBufSize 0
  pktCount := 0
  size := List.length_replicate

/-- What `recv_from` can yield. -/
structure Datagram where
  bytes : Bytes
  size : bytes.length ≤ udpRecvBufSize

def Worker.recvFrom (w : Worker) (d : Datagram) : Worker where
  buf := write w.buf 0 d.bytes
  pktCount := w.pktCount
  size := by rw [length_write (by simpa [w.size] using d.size), w.size]

/-- What is done with a datagram is left to its handler, but for the bytes read. -/
def dispatch (c : Primitives) (integrityKey : StunMessage → Option Bytes) (level : LevelFilter)
    (data : Bytes) : Checked Unit := do
  match ← classify data with
  | .stun => handleStun c integrityKey data
  | .dtls => return ()
  | .srtp => return ()
  | .unknown => traceUnknown level data

def receive (c : Primitives) (integrityKey : StunMessage → Option Bytes) (level : LevelFilter)
    (w : Worker) (d : Datagram) : Checked Worker := do
  let w := w.recvFrom d
  let data ← range w.buf 0 d.bytes.length
  dispatch c integrityKey level data
  let pktCount ← add w.pktCount.toNat 1
  return { w with pktCount := BitVec.ofNat 64 pktCount }

/-- None of the functions that take decrypted bytes fails on these. -/
structure MediaSafe (plaintext : Slice) : Prop where
  rtpHeader : NoFault (Rtp.parseRtpHeader plaintext.bytes)
  twccSeq : ∀ extmapId, NoFault (Rtp.parseTwccSeq plaintext.bytes extmapId)
  vp8Keyframe : NoFault (Rtp.isVp8Keyframe plaintext.bytes)
  rewrite : ∀ (r : PttRewriter) senderUserId isKeyframe,
    NoFault (Rtp.rewrite r plaintext.bytes senderUserId isKeyframe)
  compound : NoFault (Rtcp.splitCompoundRtcp plaintext.bytes)
  nack : NoFault (Rtcp.parseRtcpNack plaintext.bytes)
  rtx : ∀ rtxSsrc rtxSeq, NoFault (Rtp.buildRtxPacket plaintext.bytes rtxSsrc rtxSeq)

theorem mediaSafe (plaintext : Slice) : MediaSafe plaintext where
  rtpHeader := ⟨_, Rtp.parseRtpHeader_ok plaintext.bounded⟩
  twccSeq := fun extmapId => ⟨_, Rtp.parseTwccSeq_ok plaintext.bounded extmapId⟩
  vp8Keyframe := ⟨_, Rtp.isVp8Keyframe_ok plaintext.bounded⟩
  rewrite := fun r senderUserId isKeyframe =>
    ⟨_, Rtp.rewrite_ok r plaintext.bounded senderUserId isKeyframe⟩
  compound := ⟨_, Rtcp.splitCompoundRtcp_ok plaintext.bounded⟩
  nack := ⟨_, Rtcp.parseRtcpNack_ok plaintext.bounded⟩
  rtx := fun rtxSsrc rtxSeq => ⟨_, Rtp.buildRtxPacket_ok plaintext.bounded rtxSsrc rtxSeq⟩

theorem handleStun_ok (c : Primitives) (integrityKey : StunMessage → Option Bytes) {buf : Bytes}
    (hb : buf.length < 2 ^ 63) : handleStun c integrityKey buf = .ok () := by
  rw [handleStun, Stun.parse_ok hb, ok_bind]
  cases hparse : LightLivechat.Transport.Stun.parse buf with
  | none => rfl
  | some msg =>
    obtain ⟨hhead, hle⟩ := Stun.parse_raw hparse
    simp only
    cases integrityKey msg with
    | none => rfl
    | some key =>
      simp only [Stun.verifyMessageIntegrity_ok c key (by omega) hhead, ok_bind]
      rfl

theorem classify_cons (first : U8) (rest : Bytes) :
    classify (first :: rest) = .ok (.ofFirst first) := rfl

theorem traceUnknown_ok_iff (level : LevelFilter) (data : Bytes) :
    traceUnknown level data = .ok () ↔ ¬ (level = .trace ∧ data = []) := by
  by_cases hlevel : level = .trace
  · cases data with
    | nil => simp [hlevel, traceUnknown, index]
    | cons first rest => simp [hlevel, traceUnknown, index]
  · simp [hlevel, traceUnknown]
    rfl

/-- Of all datagrams only the empty one can fail, when its first byte is logged. -/
theorem dispatch_ok_iff (c : Primitives) (integrityKey : StunMessage → Option Bytes)
    (level : LevelFilter) {data : Bytes} (hb : data.length < 2 ^ 63) :
    dispatch c integrityKey level data = .ok () ↔ ¬ (level = .trace ∧ data = []) := by
  cases data with
  | nil => exact traceUnknown_ok_iff level []
  | cons first rest =>
    have hne : ¬ (level = .trace ∧ first :: rest = []) := fun h => List.cons_ne_nil _ _ h.2
    refine iff_of_true ?_ hne
    rw [dispatch, classify_cons, ok_bind]
    cases PacketType.ofFirst first with
    | stun => exact handleStun_ok c integrityKey hb
    | dtls => rfl
    | srtp => rfl
    | unknown => exact (traceUnknown_ok_iff level _).mpr hne

theorem recvFrom_data (w : Worker) (d : Datagram) :
    range (w.recvFrom d).buf 0 d.bytes.length = .ok d.bytes := by
  have hle : d.bytes.length ≤ (w.recvFrom d).buf.length := (w.recvFrom d).size ▸ d.size
  rw [range_ok (Nat.zero_le _) hle]
  exact congrArg _ (slice_append (w.buf.take 0) d.bytes (w.buf.drop (0 + d.bytes.length)))

theorem receive_noFault_iff (c : Primitives) (integrityKey : StunMessage → Option Bytes)
    (level : LevelFilter) (w : Worker) (d : Datagram) :
    NoFault (receive c integrityKey level w d) ↔
      ¬ (level = .trace ∧ d.bytes = []) ∧ w.pktCount.toNat + 1 < 2 ^ 64 := by
  have hb : d.bytes.length < 2 ^ 63 := Nat.lt_of_le_of_lt d.size (by decide)
  simp only [receive, recvFrom_data, ok_bind, noFault_bind_iff, add_eq_ok_iff]
  constructor
  · rintro ⟨_, hdispatch, _, ⟨hcount, -⟩, -⟩
    exact ⟨(dispatch_ok_iff c integrityKey level hb).mp hdispatch, hcount⟩
  · rintro ⟨hlog, hcount⟩
    exact ⟨(), (dispatch_ok_iff c integrityKey level hb).mpr hlog, _, ⟨hcount, rfl⟩, _, rfl⟩

/-- The loop and the parsers never fail, but for an empty datagram whose first byte is
logged and for a count of datagrams that is full. -/
theorem never_fails_iff (c : Primitives) (integrityKey : StunMessage → Option Bytes)
    (level : LevelFilter) (w : Worker) (d : Datagram) :
    (NoFault (receive c integrityKey level w d) ∧ ∀ plaintext, MediaSafe plaintext) ↔
      ¬ (level = .trace ∧ d.bytes = []) ∧ w.pktCount.toNat + 1 < 2 ^ 64 := by
  rw [receive_noFault_iff, and_iff_left mediaSafe]

/-- The first datagram a worker gets is empty, and `trace` events are logged. -/
theorem empty_logged_fails :
    ¬ NoFault (receive ⟨fun _ _ => .replicate 20 0, fun _ => 0⟩ (fun _ => none) .trace .new
      ⟨[], Nat.zero_le _⟩) := by
  rw [receive_noFault_iff]
  simp

end LightLivechat.Transport.Checked
