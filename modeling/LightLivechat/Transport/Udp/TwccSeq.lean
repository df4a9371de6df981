import LightLivechat.Lib.Rtp
import LightLivechat.Transport.Udp.Twcc

/-! The transport-wide number in a packet: the walk over extension elements finds the
elements that were written. -/

namespace LightLivechat.Transport.Udp

open LightLivechat.Lib LightLivechat.Lib.Bytes LightLivechat.Lib.Walk LightLivechat.Lib.Rtp

/-- The number in the first element with this id that is long enough for one. -/
def firstSeq (extmapId : U8) (elements : List Element) : Option U16 :=
  (elements.find? fun e => e.id.setWidth 8 = extmapId ∧ 2 ≤ e.data.length).map fun e =>
    be16 e.data 0

section

variable {a b : Bytes} {extDataEnd : Nat}

theorem extElementAt_padding (h : a.length < extDataEnd) :
    extElementAt (a ++ (itemBytes none ++ b)) extDataEnd a.length =
      some (none, a.length + 1) := by
  have hbyte : byteAt (a ++ (itemBytes none ++ b)) a.length = 0 := by
    rw [byteAt_append_right _ (Nat.le_refl _), Nat.sub_self]
    rfl
  simp only [extElementAt, if_pos h, hbyte]
  rfl

theorem extElementAt_element (e : Element) (h : a.length + e.bytes.length ≤ extDataEnd) :
    extElementAt (a ++ (itemBytes (some e) ++ b)) extDataEnd a.length =
      some (some (e.id.setWidth 8, a.length + 1, e.data.length), a.length + e.bytes.length) := by
  obtain ⟨hzero, hid, hlen, hreserved⟩ := e.header_octet
  have hbyte : byteAt (a ++ (itemBytes (some e) ++ b)) a.length =
      e.id ++ BitVec.ofNat 4 (e.data.length - 1) := by
    rw [byteAt_append_right _ (Nat.le_refl _), Nat.sub_self]
    rfl
  rw [e.length_bytes, ← Nat.add_assoc] at h ⊢
  simp only [extElementAt, hbyte, hid, hlen]
  rw [if_pos (by omega), if_neg hzero, if_neg hreserved, if_neg (by omega)]

theorem extElementAt_ends {tail : Bytes} (h : Ends tail)
    (hend : extDataEnd = a.length + tail.length) :
    extElementAt (a ++ (tail ++ b)) extDataEnd a.length = none := by
  rcases h with rfl | ⟨low, rest, rfl⟩
  · rw [extElementAt, if_neg (by simp at hend; omega)]
  · have hbyte : byteAt (a ++ (((15#4 ++ low) :: rest) ++ b)) a.length = 15#4 ++ low := by
      rw [byteAt_append_right _ (Nat.le_refl _), Nat.sub_self]
      rfl
    have hid : (15#4 ++ low : U8) >>> 4 &&& 0x0F = 15 := high_nibble 15#4 low
    rw [List.length_cons] at hend
    simp only [extElementAt, hbyte, hid]
    rw [if_pos (by omega), if_neg (append_ne_zero (by decide) low), if_pos trivial]

end

/-- What a written element should give. -/
def writtenSeq (extmapId : U8) (item : Option Element) : Option U16 :=
  item.bind fun e =>
    if e.id.setWidth 8 = extmapId ∧ 2 ≤ e.data.length then some (be16 e.data 0) else none

theorem findSome?_writtenSeq (extmapId : U8) (written : List (Option Element)) :
    (written.map (writtenSeq extmapId)).findSome? id = firstSeq extmapId (written.filterMap id) := by
  induction written with
  | nil => rfl
  | cons item written ih =>
    cases item with
    | none => simpa [writtenSeq] using ih
    | some e =>
      by_cases he : e.id.setWidth 8 = extmapId ∧ 2 ≤ e.data.length
      · simp [writtenSeq, firstSeq, he]
      · have hskip : writtenSeq extmapId (some e) = none := if_neg he
        rw [List.map_cons, hskip]
        simpa [firstSeq, he] using ih

section

variable {buf pre post tail : Bytes} {written : List (Option Element)}

theorem items_written (htail : Ends tail)
    (hbuf : buf = pre ++ (written.flatMap itemBytes ++ (tail ++ post))) {extDataEnd : Nat}
    (hend : extDataEnd = pre.length + (written.flatMap itemBytes ++ tail).length) :
    items (extElementAt buf extDataEnd) extDataEnd pre.length =
      (layout (fun item => (itemBytes item).length) pre.length written).map fun p =>
        p.2.map fun e => (e.id.setWidth 8, p.1 + 1, e.data.length) := by
  have hread : ∀ x item (rest : List (Option Element)), item ∈ written →
      buf = x ++ (itemBytes item ++ (rest.flatMap itemBytes ++ (tail ++ post))) →
      extElementAt buf extDataEnd x.length =
        some (item.map fun e => (e.id.setWidth 8, x.length + 1, e.data.length),
          x.length + (itemBytes item).length) := by
    intro x item rest _ heq
    have hlen := congrArg List.length (hbuf.symm.trans heq)
    simp only [List.length_append] at hlen hend
    rw [heq]
    cases item with
    | none =>
      have hone : (itemBytes none).length = 1 := rfl
      exact extElementAt_padding (by omega)
    | some e =>
      have he : (itemBytes (some e)).length = e.bytes.length := rfl
      exact extElementAt_element e (by omega)
  have hstop : extElementAt buf extDataEnd (pre.length + (written.flatMap itemBytes).length) =
      none := by
    rw [List.length_append, ← Nat.add_assoc, ← List.length_append] at hend
    rw [← List.length_append, hbuf, ← List.append_assoc]
    exact extElementAt_ends htail hend
  rw [(extElementAt_advances buf extDataEnd).items_flatMap itemBytes pre (tail ++ post)
    (f := fun i (item : Option Element) => item.map fun e => (e.id.setWidth 8, i + 1, e.data.length))
    (by rw [← hbuf]; exact hread), items_stop hstop, List.append_nil]

/-- A walk over a block gives what the elements written in it should give. -/
theorem findSome?_written (htail : Ends tail)
    (hbuf : buf = pre ++ (written.flatMap itemBytes ++ (tail ++ post))) {extDataEnd : Nat}
    (hend : extDataEnd = pre.length + (written.flatMap itemBytes ++ tail).length)
    (extmapId : U8) :
    (items (extElementAt buf extDataEnd) extDataEnd pre.length).findSome? (seqOf buf extmapId) =
      firstSeq extmapId (written.filterMap id) := by
  have hvalue : ∀ p ∈ layout (fun item => (itemBytes item).length) pre.length written,
      seqOf buf extmapId (p.2.map fun e => (e.id.setWidth 8, p.1 + 1, e.data.length)) =
        writtenSeq extmapId p.2 := by
    intro p hp
    obtain ⟨x, b, hx, hsplit⟩ := exists_split_of_mem_layout (tail ++ post) hp
    obtain ⟨i, item⟩ := p
    cases item with
    | none => rfl
    | some e =>
      have hpos : (x ++ [e.id ++ BitVec.ofNat 4 (e.data.length - 1)]).length = i + 1 := by
        rw [List.length_append, hx]
        rfl
      have hfirst : 2 ≤ e.data.length → be16 buf (i + 1) = be16 e.data 0 := by
        intro htwo
        have hbytes : buf =
            (x ++ [e.id ++ BitVec.ofNat 4 (e.data.length - 1)]) ++ (e.data ++ b) := by
          rw [hbuf, hsplit]
          simp [itemBytes, Element.bytes]
        rw [hbytes, ← hpos, be16_append_right _ (Nat.le_refl _), Nat.sub_self,
          be16_append_left _ (by omega)]
      simp only [seqOf, writtenSeq, Option.map_some, Option.bind_some]
      split
      · rename_i hfits
        rw [hfirst hfits.2]
      · rfl
  have hid : ∀ (xs : List (Option (U8 × Nat × Nat))), xs.findSome? (seqOf buf extmapId) =
      (xs.map (seqOf buf extmapId)).findSome? id := fun xs => by
    rw [List.findSome?_map]
    rfl
  rw [items_written htail hbuf hend, hid, List.map_map, ← findSome?_writtenSeq,
    ← map_layout pre.length (writtenSeq extmapId)]
  exact congrArg (List.findSome? id) (List.map_congr_left hvalue)

end

section

variable {buf tail : Bytes} {p : Packet} {e : Extension} {written : List (Option Element)}

theorem parseTwccSeq_eq (hread : Rtp.read buf = some p) (he : p.extension = some e)
    (hprofile : e.profile = 0xBEDE) (extmapId : U8) :
    parseTwccSeq buf extmapId =
      (items (extElementAt buf (headerLen buf + 4 + e.data.length))
        (headerLen buf + 4 + e.data.length) (headerLen buf + 4)).findSome? (seqOf buf extmapId) := by
  have hlen : 12 + (byteAt buf 0 &&& 0x0F).toNat * 4 = headerLen buf := by
    rw [headerLen, csrcCount, Nat.mul_comm]
  have hmin : 12 ≤ headerLen buf := Nat.le_add_right 12 _
  obtain ⟨hsome, hfields⟩ := read_extension hread
  obtain ⟨hbede, hwords, -⟩ := hfields e he
  have hx : hasExtension buf = true := by rw [← hsome, he, Option.isSome_some]
  have hflag : byteAt buf 0 &&& 0x10 ≠ 0 := of_decide_eq_true hx
  have hle := payloadStart_le hread
  rw [payloadStart, if_pos hx, ← hwords, ← e.length] at hle
  have hdata : (be16 buf (headerLen buf + 2)).toNat * 4 = e.data.length := by
    rw [← hwords, e.length, Nat.mul_comm]
  rw [hprofile] at hbede
  rw [parseTwccSeq, Config.rtpHeaderMinSize, if_neg (by omega), if_neg hflag]
  simp only [hlen, hdata, ← hbede]
  rw [if_neg (by omega), if_neg (by simp), if_neg (by omega)]
  rfl

/-- The number read is the one in the first element written that could hold it. -/
theorem parseTwccSeq_written (hread : Rtp.read buf = some p) (he : p.extension = some e)
    (hprofile : e.profile = 0xBEDE) (hdata : e.data = written.flatMap itemBytes ++ tail)
    (htail : Ends tail) (extmapId : U8) :
    parseTwccSeq buf extmapId = firstSeq extmapId (written.filterMap id) := by
  have hle := Nat.le_trans (headerLen_le_payloadStart buf) (payloadStart_le hread)
  obtain ⟨pre, hpre⟩ : ∃ pre, pre =
      buf.take (headerLen buf) ++ (toBe16 e.profile ++ toBe16 e.words) := ⟨_, rfl⟩
  have hprelen : pre.length = headerLen buf + 4 := by
    rw [hpre, List.length_append, List.length_take, Nat.min_eq_left hle]
    rfl
  have hbuf : buf = pre ++ (written.flatMap itemBytes ++ (tail ++ p.payload)) := by
    have hdrop := drop_headerLen hread
    rw [he, extensionBytes, Option.elim_some, Extension.bytes, hdata] at hdrop
    have hwhole := List.take_append_drop (headerLen buf) buf
    rw [hdrop] at hwhole
    rw [← hwhole, hpre]
    simp
  rw [parseTwccSeq_eq hread he hprofile, ← hprelen,
    findSome?_written htail hbuf (by rw [hdata]) extmapId]

end

/-- Padding around a short element, one with another id and the one looked for, then the
reserved id. -/
def paddedItems : List (Option Element) :=
  [none, some ⟨6, [1], by decide, by decide, by decide⟩,
    some ⟨4, [2, 3], by decide, by decide, by decide⟩, none,
    some ⟨6, [0, 255, 9], by decide, by decide, by decide⟩]

def paddedPacket : Bytes :=
  [0x91, 96, 0, 1, 0, 0, 0, 0, 0, 0, 0, 1, 0, 0, 0, 9, 0xBE, 0xDE, 0, 4] ++
    (paddedItems.flatMap itemBytes ++ [0xF0, 0x61, 1, 2, 3]) ++ [7, 7]

theorem parseTwccSeq_written_padded :
    parseTwccSeq paddedPacket 6 = firstSeq 6 (paddedItems.filterMap id) ∧
      firstSeq 6 (paddedItems.filterMap id) = some 255 :=
  ⟨@parseTwccSeq_written paddedPacket [0xF0, 0x61, 1, 2, 3] _ _ _ rfl rfl rfl
    (by decide) (.inr ⟨0, [0x61, 1, 2, 3], by decide⟩) 6, by decide⟩

end LightLivechat.Transport.Udp
