import LightLivechat.Transport.Udp.Twcc
import Mathlib.Data.List.Basic

/-! The receiving end of transport-wide feedback, as the draft describes it, and
what it reads from the packets the builder makes. -/

namespace LightLivechat.Transport.Udp

open LightLivechat.Lib.Bytes

structure Feedback where
  baseSeq : U16
  referenceTime : BitVec 24
  fbPktCount : U8
  statuses : List PacketStatus
  deltas : List Int

def symbolAt (chunk : U16) (slot : Nat) : U16 := chunk >>> (12 - 2 * slot) &&& 3

/-- The `k`-th status, out of chunks that are vectors of two-bit symbols. -/
def statusAt (fb : Bytes) (k : Nat) : Option PacketStatus :=
  let chunk := be16 fb (20 + 2 * (k / 7))
  if chunk >>> 14 ≠ 3 then none
  else if symbolAt chunk (k % 7) = 0 then some .notReceived
  else if symbolAt chunk (k % 7) = 1 then some .smallDelta
  else if symbolAt chunk (k % 7) = 2 then some .largeDelta
  else none

/-- The deltas the statuses call for, and the bytes after them. -/
def decodeRecvDeltas : List PacketStatus → Bytes → Option (List Int × Bytes)
  | [], b => some ([], b)
  | .notReceived :: statuses, b => decodeRecvDeltas statuses b
  | .smallDelta :: statuses, x :: b =>
    (decodeRecvDeltas statuses b).map fun (ds, rest) => (x.toNat :: ds, rest)
  | .largeDelta :: statuses, hi :: lo :: b =>
    (decodeRecvDeltas statuses b).map fun (ds, rest) => ((hi ++ lo).toInt :: ds, rest)
  | _, _ => none

def decodeTwccFeedback (fb : Bytes) : Option Feedback :=
  if byteAt fb 0 &&& 0xDF ≠ 0x8F ∨ byteAt fb 1 ≠ 205 then none
  else
    let count := (be16 fb 14).toNat
    let deltaStart := 20 + 2 * ((count + 6) / 7)
    if fb.length < deltaStart then none
    else do
      let statuses ← (List.range count).mapM (statusAt fb)
      let (deltas, _) ← decodeRecvDeltas statuses (fb.drop deltaStart)
      return {
        baseSeq := be16 fb 12
        referenceTime := byteAt fb 16 ++ byteAt fb 17 ++ byteAt fb 18
        fbPktCount := byteAt fb 19
        statuses := statuses
        deltas := deltas }

section

variable (statuses : List PacketStatus)

theorem symbol_shift (s : PacketStatus) (j k : Nat) (hj : j < 7) (hk : k < 7) :
    (s.code <<< (12 - k * 2)) >>> (12 - 2 * j) &&& 3 = if k = j then s.code else 0 := by
  have h : ∀ j < 7, ∀ k < 7,
      (s.code <<< (12 - k * 2)) >>> (12 - 2 * j) &&& 3 = if k = j then s.code else 0 := by
    cases s <;> decide
  exact h j hj k hk

theorem type_shift (s : PacketStatus) (k : Nat) (hk : k < 7) :
    (s.code <<< (12 - k * 2)) >>> 14 = 0 := by
  have h : ∀ k < 7, (s.code <<< (12 - k * 2)) >>> 14 = 0 := by cases s <;> decide
  exact h k hk

theorem foldl_or_map {g : U16 → U16} (hg : ∀ a b, g (a ||| b) = g a ||| g b) (f : Nat → U16)
    (slots : List Nat) (c : U16) :
    g (slots.foldl (fun chunk slot => chunk ||| f slot) c) =
      slots.foldl (fun x slot => x ||| g (f slot)) (g c) := by
  induction slots generalizing c with
  | nil => rfl
  | cons slot slots ih => rw [List.foldl_cons, List.foldl_cons, ih, hg]

theorem foldl_or_single (v : Nat → U16) (slots : List Nat) (x : U16) (j : Nat) :
    slots.foldl (fun x slot => x ||| if slot = j then v slot else 0) x =
      if j ∈ slots then x ||| v j else x := by
  induction slots generalizing x with
  | nil => rfl
  | cons slot slots ih =>
    rw [List.foldl_cons, ih]
    by_cases hslot : slot = j
    · subst hslot
      simp [BitVec.or_assoc]
    · simp [hslot, Ne.symm hslot]

theorem symbolAt_or (slot : Nat) (a b : U16) :
    symbolAt (a ||| b) slot = symbolAt a slot ||| symbolAt b slot := by
  unfold symbolAt
  rw [BitVec.ushiftRight_or_distrib]
  grind

theorem symbolAt_statusChunk (i j : Nat) (hj : j < 7) :
    symbolAt (statusChunk statuses i) j = (statuses.getD (i + j) .notReceived).code := by
  have htype : ∀ j < 7, symbolAt 0xC000 j = 0 := by decide
  rw [statusChunk, foldl_or_map (g := fun x => symbolAt x j) (symbolAt_or j)]
  rw [htype j hj, List.foldl_ext _ (fun x slot =>
    x ||| if slot = j then (statuses.getD (i + slot) .notReceived).code else 0)]
  · rw [foldl_or_single, if_pos (List.mem_range.mpr hj)]
    exact BitVec.zero_or
  · intro x slot hslot
    rw [symbolAt, symbol_shift _ j slot hj (List.mem_range.mp hslot)]

theorem statusChunk_type (i : Nat) : statusChunk statuses i >>> 14 = 3 := by
  rw [statusChunk,
    foldl_or_map (g := fun x => x >>> 14) fun a b => BitVec.ushiftRight_or_distrib ..]
  rw [List.foldl_ext _ (fun x _ => x), List.foldl_fixed]
  · rfl
  · intro x slot hslot
    rw [type_shift _ slot (List.mem_range.mp hslot)]
    exact BitVec.or_zero

end

theorem be16_flatMap_toBe16 {chunks : List U16} (rest : Bytes) {k : Nat} (hk : k < chunks.length) :
    be16 (chunks.flatMap toBe16 ++ rest) (2 * k) = chunks[k] := by
  induction chunks generalizing k with
  | nil => exact absurd hk (Nat.not_lt_zero k)
  | cons chunk chunks ih =>
    rw [List.flatMap_cons, List.append_assoc]
    cases k with
    | zero => rw [Nat.mul_zero, be16_append_left _ (by simp), be16_toBe16, List.getElem_cons_zero]
    | succ k =>
      rw [be16_append_right _ (by rw [length_toBe16]; omega), length_toBe16,
        show 2 * (k + 1) - 2 = 2 * k by omega, ih (Nat.lt_of_succ_lt_succ hk),
        List.getElem_cons_succ]

theorem code_symbol (s : PacketStatus) :
    (if s.code = 0 then some PacketStatus.notReceived
      else if s.code = 1 then some .smallDelta
      else if s.code = 2 then some .largeDelta
      else none) = some s := by cases s <;> rfl

theorem statusAt_encode {fb header rest : Bytes} {statuses : List PacketStatus} {k : Nat}
    (hfb : fb = header ++ ((encodeStatusChunks statuses).flatMap toBe16 ++ rest))
    (hheader : header.length = 20) (hk : k < statuses.length) :
    statusAt fb k = some statuses[k] := by
  have hchunk : k / 7 < (encodeStatusChunks statuses).length := by
    simp only [encodeStatusChunks, List.length_map, List.length_range]
    omega
  have hbe : be16 fb (20 + 2 * (k / 7)) = statusChunk statuses (7 * (k / 7)) := by
    rw [hfb, be16_append_right _ (by omega), hheader, Nat.add_sub_cancel_left,
      be16_flatMap_toBe16 rest hchunk]
    simp [encodeStatusChunks]
  have hsymbol : symbolAt (statusChunk statuses (7 * (k / 7))) (k % 7) = statuses[k].code := by
    rw [symbolAt_statusChunk statuses _ _ (Nat.mod_lt k (by decide)), Nat.div_add_mod]
    simp [List.getD_eq_getElem?_getD, hk]
  rw [statusAt, hbe, statusChunk_type, hsymbol]
  exact code_symbol statuses[k]

/-- Statuses and deltas that belong together: one delta for each packet received,
within the range its status announces. -/
inductive Matches : List PacketStatus → List Int → Prop
  | nil : Matches [] []
  | notReceived {ss ds} : Matches ss ds → Matches (.notReceived :: ss) ds
  | smallDelta {ss ds d} (lo : 0 ≤ d) (hi : d ≤ 255) : Matches ss ds →
      Matches (.smallDelta :: ss) (d :: ds)
  | largeDelta {ss ds d} (lo : -8192 ≤ d) (hi : d ≤ 8191) : Matches ss ds →
      Matches (.largeDelta :: ss) (d :: ds)

/-- The same whatever the size of a large delta, which is sent clamped. -/
inductive Announces : List PacketStatus → List Int → Prop
  | nil : Announces [] []
  | notReceived {ss ds} : Announces ss ds → Announces (.notReceived :: ss) ds
  | smallDelta {ss ds d} (lo : 0 ≤ d) (hi : d ≤ 255) : Announces ss ds →
      Announces (.smallDelta :: ss) (d :: ds)
  | largeDelta {ss ds d} : Announces ss ds → Announces (.largeDelta :: ss) (d :: ds)

/-- A delta as a receiver reads it.  The writer cuts longer gaps off at 8192 ticks, a quarter
of what the field can hold. -/
def sentDelta (d : Int) : Int := clamp (-8192) 8191 d

theorem sentDelta_of_bounds {d : Int} (lo : -8192 ≤ d) (hi : d ≤ 8191) : sentDelta d = d := by
  unfold sentDelta clamp
  omega

theorem Matches.announces {statuses : List PacketStatus} {deltas : List Int}
    (h : Matches statuses deltas) : Announces statuses deltas := by
  induction h with
  | nil => exact .nil
  | notReceived _ ih => exact .notReceived ih
  | smallDelta lo hi _ ih => exact .smallDelta lo hi ih
  | largeDelta _ _ _ ih => exact .largeDelta ih

theorem Matches.map_sentDelta {statuses : List PacketStatus} {deltas : List Int}
    (h : Matches statuses deltas) : deltas.map sentDelta = deltas := by
  induction h with
  | nil => rfl
  | notReceived _ ih => exact ih
  | smallDelta lo hi _ ih => rw [List.map_cons, ih, sentDelta_of_bounds (by omega) (by omega)]
  | largeDelta lo hi _ ih => rw [List.map_cons, ih, sentDelta_of_bounds lo hi]

theorem decodeRecvDeltas_encode {statuses : List PacketStatus} {deltas : List Int}
    (h : Announces statuses deltas) (rest : Bytes) :
    decodeRecvDeltas statuses (encodeRecvDeltas statuses deltas ++ rest) =
      some (deltas.map sentDelta, rest) := by
  induction h with
  | nil => rfl
  | notReceived _ ih => exact ih
  | @smallDelta ss ds d lo hi _ ih =>
    have hd : ((BitVec.ofInt 8 (clamp 0 255 d)).toNat : Int) = d := by
      rw [clamp, BitVec.toNat_ofInt]
      omega
    simp only [encodeRecvDeltas, List.cons_append, decodeRecvDeltas, ih, Option.map_some, hd,
      List.map_cons, sentDelta_of_bounds (show -8192 ≤ d by omega) (show d ≤ 8191 by omega)]
  | @largeDelta ss ds d _ ih =>
    have hd : (BitVec.ofInt 16 (sentDelta d)).toInt = sentDelta d := by
      rw [BitVec.toInt_ofInt]
      unfold sentDelta clamp
      exact Int.bmod_eq_of_le_mul_two (by omega) (by omega)
    have hbytes : (BitVec.ofInt 16 (sentDelta d)).extractLsb' 8 8 ++
        (BitVec.ofInt 16 (sentDelta d)).extractLsb' 0 8 = BitVec.ofInt 16 (sentDelta d) :=
      be16_toBe16 _
    have hclamp : clamp (-8192) 8191 d = sentDelta d := rfl
    simp only [encodeRecvDeltas, hclamp, toBe16, List.cons_append, List.nil_append,
      decodeRecvDeltas, ih, Option.map_some, hbytes, hd, List.map_cons]

theorem length_flatMap_toBe16 (chunks : List U16) :
    (chunks.flatMap toBe16).length = 2 * chunks.length := by
  induction chunks with
  | nil => rfl
  | cons chunk chunks ih =>
    rw [List.flatMap_cons, List.length_append, ih, length_toBe16, List.length_cons]
    omega

section

variable (first : U8) (length : U16) (mediaSsrc : U32) (baseSeq count : U16)
  (referenceTime24 : U32) (fbPktCount : U8)

def feedbackHeader : Bytes :=
  [first, 205] ++ toBe16 length ++ toBe32 1 ++ toBe32 mediaSsrc ++ toBe16 baseSeq ++ toBe16 count ++
    [referenceTime24.extractLsb' 16 8, referenceTime24.extractLsb' 8 8,
      referenceTime24.extractLsb' 0 8, fbPktCount]

theorem length_feedbackHeader : (feedbackHeader first length mediaSsrc baseSeq count
    referenceTime24 fbPktCount).length = 20 := rfl

/-- The fields a receiver reads, whatever follows the header. -/
structure HeaderRead (fb : Bytes) : Prop where
  first : byteAt fb 0 = first
  packetType : byteAt fb 1 = 205
  length : be16 fb 2 = length
  baseSeq : be16 fb 12 = baseSeq
  count : be16 fb 14 = count
  referenceTime :
    byteAt fb 16 ++ byteAt fb 17 ++ byteAt fb 18 = referenceTime24.extractLsb' 0 24
  fbPktCount : byteAt fb 19 = fbPktCount

theorem feedbackHeader_read (rest : Bytes) :
    HeaderRead first length baseSeq count referenceTime24 fbPktCount
      (feedbackHeader first length mediaSsrc baseSeq count referenceTime24 fbPktCount ++ rest) where
  first := rfl
  packetType := rfl
  length := be16_toBe16 length
  baseSeq := be16_toBe16 baseSeq
  count := be16_toBe16 count
  referenceTime := by
    have hbytes : referenceTime24.extractLsb' 16 8 ++ referenceTime24.extractLsb' 8 8 ++
        referenceTime24.extractLsb' 0 8 = referenceTime24.extractLsb' 0 24 := by
      rw [BitVec.extractLsb'_append_extractLsb'_eq_extractLsb' (show 16 = 8 + 8 from rfl),
        BitVec.extractLsb'_append_extractLsb'_eq_extractLsb' (show 8 = 0 + 8 from rfl)]
    exact hbytes
  fbPktCount := rfl

/-- What comes after the deltas: `k` bytes to the next word, and a word more.  The last byte
is their count, less that word. -/
def trailer (k : Nat) : Bytes :=
  if 0 < k then List.replicate (k + 3) 0 ++ [BitVec.ofNat 8 k] else List.replicate 4 0

theorem length_trailer (k : Nat) : (trailer k).length = k + 4 := by
  unfold trailer
  split
  · simp
  · simp
    omega

theorem feedbackBytes_layout (chunks : List U16) (deltaBytes : Bytes) :
    ∃ k body, k < 4 ∧ body = 20 + 2 * chunks.length + deltaBytes.length ∧ 4 ∣ body + k ∧
      feedbackBytes mediaSsrc baseSeq count referenceTime24 fbPktCount chunks deltaBytes =
        feedbackHeader (if 0 < k then 0xAF else 0x8F) (BitVec.ofNat 16 ((body + k) / 4)) mediaSsrc
            baseSeq count referenceTime24 fbPktCount ++
          (chunks.flatMap toBe16 ++ (deltaBytes ++ trailer k)) := by
  obtain ⟨body, hbody⟩ : ∃ n, n = 12 + (8 + chunks.length * 2 + deltaBytes.length) := ⟨_, rfl⟩
  obtain ⟨k, hk⟩ : ∃ k, (body + 3) / 4 * 4 = body + k := ⟨(body + 3) / 4 * 4 - body, by omega⟩
  obtain ⟨first, hfirst⟩ : ∃ b : U8, b = if 0 < k then 0xAF else 0x8F := ⟨_, rfl⟩
  obtain ⟨content, hcontent⟩ : ∃ b : Bytes, b =
      feedbackHeader first (BitVec.ofNat 16 ((body + k) / 4)) mediaSsrc baseSeq count
        referenceTime24 fbPktCount ++ chunks.flatMap toBe16 ++ deltaBytes := ⟨_, rfl⟩
  have hlen : content.length = body := by
    simp only [hcontent, List.length_append, length_flatMap_toBe16, length_feedbackHeader]
    omega
  have hmore : (body + k > body) = (0 < k) := propext (by omega)
  have hbytes : feedbackBytes mediaSsrc baseSeq count referenceTime24 fbPktCount chunks deltaBytes =
      if 0 < k then
        write (content ++ List.replicate (4 + (body + k) - content.length) 0)
          ((content ++ List.replicate (4 + (body + k) - content.length) 0).length - 1)
          [BitVec.ofNat 8 (4 + (body + k) - (4 + body))]
      else content ++ List.replicate (4 + (body + k) - content.length) 0 := by
    simp only [feedbackBytes, ← hbody, hk, hmore]
    rw [hcontent, hfirst]
    rfl
  have hfill : 4 + (body + k) - content.length = k + 3 + 1 := by omega
  have hcount : 4 + (body + k) - (4 + body) = k := by omega
  refine ⟨k, body, by omega, by omega, by omega, ?_⟩
  rw [hbytes, hfill, hcount, ← hfirst, trailer]
  split
  · -- the count replaces the last of the trailing bytes
    rw [write_last, hcontent]
    simp only [List.append_assoc]
  · rw [hcontent, show k = 0 by omega]
    simp only [List.append_assoc]

end

theorem mapM_eq_some {α β : Type} {f : α → Option β} {g : α → β} {l : List α}
    (h : ∀ a ∈ l, f a = some (g a)) : l.mapM f = some (l.map g) := by
  induction l with
  | nil => rfl
  | cons a l ih =>
    rw [List.mapM_cons, h a List.mem_cons_self, ih fun b hb => h b (List.mem_cons_of_mem a hb)]
    rfl

theorem mapM_statusAt_encode {statuses : List PacketStatus} {fb header rest : Bytes}
    (hfb : fb = header ++ ((encodeStatusChunks statuses).flatMap toBe16 ++ rest))
    (hlen : header.length = 20) :
    (List.range statuses.length).mapM (statusAt fb) = some statuses := by
  rw [mapM_eq_some (g := fun k => statuses.getD k .notReceived)]
  · congr 1
    exact List.ext_getElem (by simp) fun k hk hk' => by
      simp [List.getD_eq_getElem?_getD, hk']
  · intro k hk
    have hk := List.mem_range.mp hk
    rw [statusAt_encode hfb hlen hk]
    simp [List.getD_eq_getElem?_getD, hk]

/-- What can be read from a feedback packet whose deltas end with these bytes. -/
structure PacketRead (statuses : List PacketStatus) (k : Nat) (deltaBytes : Bytes)
    (baseSeq count : U16) (referenceTime24 : U32) (fbPktCount : U8) (fb : Bytes) : Prop
    extends HeaderRead (if 0 < k then 0xAF else 0x8F) (BitVec.ofNat 16 (fb.length / 4 - 1)) baseSeq
      count referenceTime24 fbPktCount fb where
  words : 4 ∣ fb.length
  size : fb.length = 24 + 2 * ((statuses.length + 6) / 7) + deltaBytes.length + k
  vector : (List.range statuses.length).mapM (statusAt fb) = some statuses
  rest : fb.drop (20 + 2 * ((statuses.length + 6) / 7)) = deltaBytes ++ trailer k

theorem packetRead_feedbackBytes (statuses : List PacketStatus) (deltaBytes : Bytes)
    (mediaSsrc : U32) (baseSeq count : U16) (referenceTime24 : U32) (fbPktCount : U8) :
    ∃ k < 4, PacketRead statuses k deltaBytes baseSeq count referenceTime24 fbPktCount
      (feedbackBytes mediaSsrc baseSeq count referenceTime24 fbPktCount
        (encodeStatusChunks statuses) deltaBytes) := by
  obtain ⟨k, body, hk, hbody, hwords, hfb⟩ := feedbackBytes_layout mediaSsrc baseSeq count
    referenceTime24 fbPktCount (encodeStatusChunks statuses) deltaBytes
  have hchunks : (encodeStatusChunks statuses).length = (statuses.length + 6) / 7 := by
    rw [encodeStatusChunks, List.length_map, List.length_range]
  have hread := feedbackHeader_read (if 0 < k then 0xAF else 0x8F)
    (BitVec.ofNat 16 ((body + k) / 4)) mediaSsrc baseSeq count referenceTime24 fbPktCount
    ((encodeStatusChunks statuses).flatMap toBe16 ++ (deltaBytes ++ trailer k))
  have hlen := length_feedbackHeader (if 0 < k then 0xAF else 0x8F)
    (BitVec.ofNat 16 ((body + k) / 4)) mediaSsrc baseSeq count referenceTime24 fbPktCount
  rw [← hfb] at hread
  generalize feedbackHeader (if 0 < k then 0xAF else 0x8F) (BitVec.ofNat 16 ((body + k) / 4))
    mediaSsrc baseSeq count referenceTime24 fbPktCount = header at hfb hlen
  generalize feedbackBytes mediaSsrc baseSeq count referenceTime24 fbPktCount
    (encodeStatusChunks statuses) deltaBytes = fb at *
  have hsize : fb.length = body + k + 4 := by
    rw [hfb]
    simp only [List.length_append, hlen, length_flatMap_toBe16, length_trailer]
    omega
  have hword : (body + k) / 4 = fb.length / 4 - 1 := by omega
  refine ⟨k, hk, ⟨hword ▸ hread, by omega, by omega, ?_, ?_⟩⟩
  · exact mapM_statusAt_encode hfb hlen
  · rw [hfb, ← List.append_assoc]
    exact List.drop_left' (by rw [List.length_append, hlen, length_flatMap_toBe16, hchunks])

theorem decode_feedbackBytes {statuses : List PacketStatus} {deltas : List Int}
    (h : Announces statuses deltas) (mediaSsrc : U32) (baseSeq count : U16) (referenceTime24 : U32)
    (fbPktCount : U8) (hcount : count.toNat = statuses.length) :
    decodeTwccFeedback (feedbackBytes mediaSsrc baseSeq count referenceTime24 fbPktCount
        (encodeStatusChunks statuses) (encodeRecvDeltas statuses deltas)) =
      some ⟨baseSeq, referenceTime24.extractLsb' 0 24, fbPktCount, statuses,
        deltas.map sentDelta⟩ := by
  obtain ⟨k, -, hread⟩ := packetRead_feedbackBytes statuses (encodeRecvDeltas statuses deltas)
    mediaSsrc baseSeq count referenceTime24 fbPktCount
  have hversion : byteAt (feedbackBytes mediaSsrc baseSeq count referenceTime24 fbPktCount
      (encodeStatusChunks statuses) (encodeRecvDeltas statuses deltas)) 0 &&& 0xDF = 0x8F := by
    rw [hread.first]
    split <;> rfl
  have hlong := hread.size
  rw [decodeTwccFeedback, if_neg (not_or.mpr ⟨not_not.mpr hversion, not_not.mpr hread.packetType⟩)]
  simp only [hread.count, hcount]
  rw [if_neg (by omega), hread.vector, hread.rest]
  simp only [decodeRecvDeltas_encode h, hread.baseSeq, hread.referenceTime, hread.fbPktCount, bind,
    Option.bind, pure]

end LightLivechat.Transport.Udp
