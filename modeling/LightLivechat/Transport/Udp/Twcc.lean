import LightLivechat.Config
import LightLivechat.Lib.Bytes
import LightLivechat.Lib.Ring
import LightLivechat.Lib.Serial
import LightLivechat.Lib.Walk

/-! Transport-wide congestion control: the recorder of arrival times and the
builder of feedback packets.  An `Instant` is a number of nanoseconds. -/

namespace LightLivechat.Transport.Udp

open LightLivechat.Lib LightLivechat.Lib.Bytes LightLivechat.Lib.Serial LightLivechat.Lib.Walk

/-- One element of a one-byte-header extension block; `none` is a padding byte. -/
def extElementAt (buf : Bytes) (extDataEnd : Nat) : Reader (Option (U8 × Nat × Nat)) := fun pos =>
  if pos < extDataEnd then
    let byte := byteAt buf pos
    if byte = 0 then some (none, pos + 1)
    else
      let id := byte >>> 4 &&& 0x0F
      let len := (byte &&& 0x0F).toNat + 1
      if id = 15 then none
      else if pos + 1 + len > extDataEnd then none
      else some (some (id, pos + 1, len), pos + 1 + len)
  else none

theorem extElementAt_bounds {buf : Bytes} {extDataEnd i j : Nat} {e : Option (U8 × Nat × Nat)}
    (h : extElementAt buf extDataEnd i = some (e, j)) : i < j ∧ j ≤ extDataEnd := by
  simp only [extElementAt] at h
  split at h
  · split at h
    · cases h
      omega
    · simp only [Option.ite_none_left_eq_some, Option.some.injEq, Prod.mk.injEq] at h
      omega
  · cases h

theorem extElementAt_advances (buf : Bytes) (extDataEnd : Nat) :
    Advances (extElementAt buf extDataEnd) extDataEnd where
  lt := fun h => (extElementAt_bounds h).1
  bound := fun h => Nat.lt_of_lt_of_le (extElementAt_bounds h).1 (extElementAt_bounds h).2

/-- The number an element carries if it is the one looked for. -/
def seqOf (buf : Bytes) (extmapId : U8) (element : Option (U8 × Nat × Nat)) : Option U16 :=
  element.bind fun x => if x.1 = extmapId ∧ 2 ≤ x.2.2 then some (be16 buf x.2.1) else none

def parseTwccSeq (buf : Bytes) (extmapId : U8) : Option U16 :=
  if buf.length < Config.rtpHeaderMinSize then none
  else if byteAt buf 0 &&& 0x10 = 0 then none
  else
    let cc := (byteAt buf 0 &&& 0x0F).toNat
    let extOffset := 12 + cc * 4
    if buf.length < extOffset + 4 then none
    else
      let profile := be16 buf extOffset
      let extLenWords := (be16 buf (extOffset + 2)).toNat
      if profile ≠ 0xBEDE then none
      else
        let extDataStart := extOffset + 4
        let extDataEnd := extDataStart + extLenWords * 4
        if buf.length < extDataEnd then none
        else
          (items (extElementAt buf extDataEnd) extDataEnd extDataStart).findSome? fun element =>
            element.bind fun (id, pos, len) =>
              if id = extmapId ∧ 2 ≤ len then some (be16 buf pos) else none

abbrev Instant := Nat

structure ArrivalEntry where
  twccSeq : U16
  arrival : Instant
  deriving DecidableEq

structure TwccRecorder where
  arrivals : Ring.Slots Config.twccRecorderCapacity ArrivalEntry
  pendingBaseSeq : U16
  maxSeq : U16
  started : Bool
  count : Nat
  baseTime : Option Instant
  fbPktCount : U8

namespace TwccRecorder

def slot (twccSeq : U16) : Fin Config.twccRecorderCapacity :=
  ⟨twccSeq.toNat % Config.twccRecorderCapacity, Nat.mod_lt _ (by decide)⟩

def new : TwccRecorder where
  arrivals := Ring.empty
  pendingBaseSeq := 0
  maxSeq := 0
  started := false
  count := 0
  baseTime := none
  fbPktCount := 0

def record (r : TwccRecorder) (twccSeq : U16) (arrival : Instant) : TwccRecorder :=
  let r := { r with
    arrivals := Ring.put r.arrivals (slot twccSeq) ⟨twccSeq, arrival⟩
    count := r.count + 1 }
  if r.started then
    let diff := twccSeq - r.maxSeq
    if 0 < diff ∧ diff < 0x8000 then { r with maxSeq := twccSeq } else r
  else
    { r with
      started := true
      pendingBaseSeq := twccSeq
      maxSeq := twccSeq
      baseTime := some arrival }

def get (r : TwccRecorder) (twccSeq : U16) : Option ArrivalEntry :=
  (r.arrivals (slot twccSeq)).filter fun e => e.twccSeq = twccSeq

def advanceBase (r : TwccRecorder) (newBase : U16) : TwccRecorder :=
  { r with pendingBaseSeq := newBase }

def pendingCount (r : TwccRecorder) : U16 :=
  if r.started then r.maxSeq - r.pendingBaseSeq + 1 else 0

end TwccRecorder

inductive PacketStatus where
  | notReceived
  | smallDelta
  | largeDelta
  deriving DecidableEq

def PacketStatus.code : PacketStatus → U16
  | .notReceived => 0
  | .smallDelta => 1
  | .largeDelta => 2

def statusOf (delta250us : Int) : PacketStatus :=
  if 0 ≤ delta250us ∧ delta250us ≤ 255 then .smallDelta else .largeDelta

def asMicros (d : Nat) : Nat := d / 1000

/-- The delta of a packet in ticks of 250 µs: to the packet reported before it, or,
for the first one, to the reference time. -/
def deltaTicks (baseTime : Instant) (prevArrival : Option Instant) (arrival : Instant) : Int :=
  match prevArrival with
  | some prev =>
    if prev ≤ arrival then (asMicros (arrival - prev) / 250 : Nat)
    else -(asMicros (prev - arrival) / 250 : Nat)
  | none =>
    let offset250us := asMicros (arrival - baseTime) / 250
    (offset250us - offset250us / 256 * 256 : Nat)

structure Collected where
  statuses : List PacketStatus
  deltas : List Int
  firstArrival : Option Instant
  prevArrival : Option Instant

def Collected.empty : Collected := ⟨[], [], none, none⟩

def Collected.add (baseTime : Instant) (c : Collected) (entry : Option ArrivalEntry) : Collected :=
  match entry with
  | some e =>
    let delta := deltaTicks baseTime c.prevArrival e.arrival
    { statuses := c.statuses ++ [statusOf delta]
      deltas := c.deltas ++ [delta]
      firstArrival := c.firstArrival.or (some e.arrival)
      prevArrival := some e.arrival }
  | none => { c with statuses := c.statuses ++ [.notReceived] }

/-- The entries of the pending range, in the order the feedback lists them. -/
def pendingEntries (r : TwccRecorder) : List (Option ArrivalEntry) :=
  (List.range r.pendingCount.toNat).map fun i => r.get (r.pendingBaseSeq + BitVec.ofNat 16 i)

def collect (baseTime : Instant) (entries : List (Option ArrivalEntry)) : Collected :=
  entries.foldl (Collected.add baseTime) Collected.empty

def statusChunk (statuses : List PacketStatus) (i : Nat) : U16 :=
  (List.range 7).foldl (fun chunk slot =>
    chunk ||| (statuses.getD (i + slot) .notReceived).code <<< (12 - slot * 2)) 0xC000

def encodeStatusChunks (statuses : List PacketStatus) : List U16 :=
  (List.range ((statuses.length + 6) / 7)).map fun k => statusChunk statuses (7 * k)

def clamp (lo hi d : Int) : Int := max lo (min hi d)

def encodeRecvDeltas : List PacketStatus → List Int → Bytes
  | [], _ => []
  | .notReceived :: statuses, deltas => encodeRecvDeltas statuses deltas
  | .smallDelta :: statuses, d :: deltas =>
    BitVec.ofInt 8 (clamp 0 255 d) :: encodeRecvDeltas statuses deltas
  | .largeDelta :: statuses, d :: deltas =>
    toBe16 (BitVec.ofInt 16 (clamp (-8192) 8191 d)) ++ encodeRecvDeltas statuses deltas
  | _ :: statuses, [] => encodeRecvDeltas statuses []

/-- The bytes of a feedback packet.  The trailing bytes fill it up to the length
announced in its header, the last one being their count. -/
def feedbackBytes (mediaSsrc : U32) (baseSeq pktStatusCount : U16) (referenceTime24 : U32)
    (fbPktCount : U8) (chunks : List U16) (deltaBytes : Bytes) : Bytes :=
  let payloadLen := 8 + chunks.length * 2 + deltaBytes.length
  let bodyLen := 12 + payloadLen
  let paddedBody := (bodyLen + 3) / 4 * 4
  let needPadding := paddedBody > bodyLen
  let totalLen := 4 + paddedBody
  let buf :=
    [if needPadding then 0xAF else 0x8F, Config.rtcpPtRtpfb] ++
    toBe16 (BitVec.ofNat 16 (paddedBody / 4)) ++
    toBe32 1 ++
    toBe32 mediaSsrc ++
    toBe16 baseSeq ++ toBe16 pktStatusCount ++
    [referenceTime24.extractLsb' 16 8, referenceTime24.extractLsb' 8 8,
      referenceTime24.extractLsb' 0 8, fbPktCount] ++
    chunks.flatMap toBe16 ++
    deltaBytes
  let buf := buf ++ List.replicate (totalLen - buf.length) 0
  if needPadding then
    write buf (buf.length - 1) [BitVec.ofNat 8 (totalLen - (4 + bodyLen))]
  else buf

def buildTwccFeedback (r : TwccRecorder) (mediaSsrc : U32) : TwccRecorder × Option Bytes :=
  if ¬ r.started ∨ r.pendingCount = 0 then (r, none)
  else
    match r.baseTime with
    | none => (r, none)
    | some baseTime =>
      let baseSeq := r.pendingBaseSeq
      let pktStatusCount := r.pendingCount
      if pktStatusCount.toNat > Config.twccRecorderCapacity then
        (r.advanceBase (r.maxSeq - 100), none)
      else
        let c := collect baseTime (pendingEntries r)
        match c.firstArrival with
        | none => (r, none)
        | some firstArrival =>
          let firstOffset250us := asMicros (firstArrival - baseTime) / 250
          let referenceTimeRaw := firstOffset250us / 256
          let referenceTime24 := BitVec.ofNat 32 referenceTimeRaw &&& 0x00FFFFFF
          let buf := feedbackBytes mediaSsrc baseSeq pktStatusCount referenceTime24 r.fbPktCount
            (encodeStatusChunks c.statuses) (encodeRecvDeltas c.statuses c.deltas)
          let r := { r with fbPktCount := r.fbPktCount + 1 }
          (r.advanceBase (baseSeq + pktStatusCount), some buf)

theorem ahead_iff (a b : U16) : Ahead a b ↔ 0 < a - b ∧ a - b < 0x8000 := by
  have hlt := (a - b).isLt
  have hzero : (0 : U16).toNat = 0 := rfl
  have hhalf : (0x8000 : U16).toNat = 0x8000 := rfl
  rw [Ahead, serialDiff, BitVec.toInt_eq_toNat_cond, BitVec.lt_def, BitVec.lt_def, hzero, hhalf]
  split <;> omega

section

variable {r r' : TwccRecorder} {mediaSsrc : U32}

theorem record_started (hstarted : r.started = true) (twccSeq : U16) (arrival : Instant) :
    (r.record twccSeq arrival).maxSeq = (if Ahead twccSeq r.maxSeq then twccSeq else r.maxSeq) ∧
      (r.record twccSeq arrival).pendingBaseSeq = r.pendingBaseSeq ∧
      (r.record twccSeq arrival).started = true ∧
      (r.record twccSeq arrival).baseTime = r.baseTime := by
  simp only [TwccRecorder.record, hstarted, if_true, ahead_iff]
  split <;> exact ⟨rfl, rfl, rfl, rfl⟩

theorem buildTwccFeedback_advance (h : buildTwccFeedback r mediaSsrc = (r', some fb)) :
    r.started = true ∧ r.pendingCount.toNat ≤ Config.twccRecorderCapacity ∧
      r' = { r with
        fbPktCount := r.fbPktCount + 1
        pendingBaseSeq := r.pendingBaseSeq + r.pendingCount } := by
  simp only [buildTwccFeedback] at h
  split at h
  · cases h
  rename_i hstarted
  split at h
  · cases h
  split at h
  · cases h
  rename_i hcount
  split at h
  · cases h
  cases h
  exact ⟨by simpa using (not_or.mp hstarted).1, Nat.le_of_not_lt hcount, rfl⟩

/-- Without a packet to show for it, a feedback changes the recorder only when there was too
much to report. -/
theorem buildTwccFeedback_none (hstarted : r.started = true)
    (hbase : r.baseTime.isSome) (h : buildTwccFeedback r mediaSsrc = (r', none)) :
    r' = if r.pendingCount.toNat > Config.twccRecorderCapacity then r.advanceBase (r.maxSeq - 100)
      else r := by
  simp only [buildTwccFeedback] at h
  split at h
  · rename_i hidle
    have hzero : r.pendingCount = 0 := by simpa [hstarted] using hidle
    cases h
    rw [hzero, if_neg (by decide)]
  split at h
  · rename_i hnone
    simp [hnone] at hbase
  split at h
  · rename_i hlarge
    cases h
    rw [if_pos hlarge]
  rename_i hsmall
  split at h
  · cases h
    rw [if_neg hsmall]
  · cases h

/-- Where the pending range starts after a feedback, and what else is as before. -/
theorem buildTwccFeedback_base (hstarted : r.started = true) (hbase : r.baseTime.isSome)
    (mediaSsrc : U32) :
    (buildTwccFeedback r mediaSsrc).1.maxSeq = r.maxSeq ∧
      (buildTwccFeedback r mediaSsrc).1.pendingBaseSeq =
        (if r.pendingCount.toNat > Config.twccRecorderCapacity then r.maxSeq - 100
        else if (buildTwccFeedback r mediaSsrc).2.isSome then r.maxSeq + 1
        else r.pendingBaseSeq) ∧
      (buildTwccFeedback r mediaSsrc).1.started = r.started ∧
      (buildTwccFeedback r mediaSsrc).1.baseTime = r.baseTime := by
  cases hmade : buildTwccFeedback r mediaSsrc with
  | mk r' packet =>
    cases packet with
    | none =>
      rw [buildTwccFeedback_none hstarted hbase hmade]
      split <;> exact ⟨rfl, rfl, rfl, rfl⟩
    | some fb =>
      obtain ⟨-, hsmall, rfl⟩ := buildTwccFeedback_advance hmade
      have hend : r.pendingBaseSeq + r.pendingCount = r.maxSeq + 1 := by
        simp only [TwccRecorder.pendingCount, hstarted, if_true]
        grind
      rw [if_neg (Nat.not_lt.mpr hsmall)]
      exact ⟨rfl, hend, rfl, rfl⟩

end

end LightLivechat.Transport.Udp
