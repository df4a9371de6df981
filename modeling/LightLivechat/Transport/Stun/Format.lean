import LightLivechat.Lib.Tlv
import LightLivechat.Transport.Stun

/-! STUN messages as a header and type-length-value records: what the parser and the
offset scan of the integrity check see of a message is what it is made of. -/

namespace LightLivechat.Transport.Stun

open LightLivechat.Lib.Bytes LightLivechat.Lib.Walk LightLivechat.Lib.Tlv

def StunAttribute.ofRecord (r : Record) : StunAttribute := ⟨r.kind, r.value⟩

def header (msgType length : U16) (transactionId : Vector U8 12) : Bytes :=
  toBe16 msgType ++ (toBe16 length ++ (toBe32 magicCookie ++ transactionId.toList))

@[simp] theorem length_header (msgType length : U16) (transactionId : Vector U8 12) :
    (header msgType length transactionId).length = headerSize := by
  simp [header, headerSize]

section

variable (r : Record) (a b : Bytes)

theorem attrAt_record {total : Nat} (htotal : a.length + r.bytes.length ≤ total) :
    attrAt (a ++ (r.bytes ++ b)) total a.length =
      some (.ofRecord r, a.length + r.bytes.length) := by
  have hlen := r.length_bytes
  simp only [attrAt, r.length_at, r.kind_at, r.value_at, align4]
  rw [if_pos (by omega), if_neg (by omega), hlen, ← Nat.add_assoc]
  rfl

theorem attrHeaderAt_record :
    attrHeaderAt (a ++ (r.bytes ++ b)) a.length =
      some ((r.kind, a.length), a.length + r.bytes.length) := by
  have hlen := r.length_bytes
  have hfits : a.length + 4 ≤ (a ++ (r.bytes ++ b)).length := by
    simp only [List.length_append]
    omega
  simp only [attrHeaderAt, r.length_at, r.kind_at, align4, if_pos hfits]
  rw [hlen, ← Nat.add_assoc]

theorem attrAt_overruns {rest : Bytes} (h : Overruns rest) :
    attrAt (a ++ (rest ++ b)) (a.length + rest.length) a.length = none := by
  simp only [attrAt]
  split
  · rename_i hfour
    have hlen : be16 (a ++ (rest ++ b)) (a.length + 2) = be16 rest 2 :=
      be16_append_mid _ _ (by omega)
    rw [hlen, if_pos]
    rcases h with h | h <;> omega
  · rfl

end

theorem items_attrAt (rs : List Record) {rest : Bytes} (h : Overruns rest) (a b : Bytes) :
    items (attrAt (a ++ (rs.flatMap Record.bytes ++ (rest ++ b)))
        (a.length + (rs.flatMap Record.bytes ++ rest).length))
      (a.length + (rs.flatMap Record.bytes ++ rest).length) a.length =
    rs.map .ofRecord := by
  obtain ⟨total, htotal⟩ : ∃ n, n = a.length + (rs.flatMap Record.bytes ++ rest).length := ⟨_, rfl⟩
  obtain ⟨buf, hbuf⟩ : ∃ x, x = a ++ (rs.flatMap Record.bytes ++ (rest ++ b)) := ⟨_, rfl⟩
  rw [← htotal, ← hbuf]
  have hend : items (attrAt buf total) total (a.length + (rs.flatMap Record.bytes).length) = [] := by
    have hstop := attrAt_overruns (a ++ rs.flatMap Record.bytes) b h
    rw [List.append_assoc, ← hbuf, List.length_append, Nat.add_assoc, ← List.length_append,
      ← htotal] at hstop
    exact items_stop hstop
  have hread : ∀ x r (ys : List Record), r ∈ rs →
      buf = x ++ (r.bytes ++ (ys.flatMap Record.bytes ++ (rest ++ b))) →
      attrAt buf total x.length = some (.ofRecord r, x.length + r.bytes.length) := by
    intro x r ys _ heq
    have hlen := congrArg List.length (hbuf.symm.trans heq)
    simp only [List.length_append] at hlen htotal
    rw [heq]
    exact attrAt_record r x _ (by omega)
  rw [(attrAt_advances buf total).items_flatMap Record.bytes a (rest ++ b)
    (f := fun _ r => .ofRecord r) (by rw [← hbuf]; exact hread), hend, List.append_nil, map_layout]

theorem findAttrOffset_record (targetType : U16) {before after : List Record} {r : Record}
    (hr : r.kind = targetType) (hbefore : ∀ x ∈ before, x.kind ≠ targetType) {a : Bytes}
    (ha : a.length = headerSize) (rest : Bytes) :
    findAttrOffset (a ++ ((before ++ r :: after).flatMap Record.bytes ++ rest)) targetType =
      some (headerSize + (before.flatMap Record.bytes).length) := by
  obtain ⟨raw, hraw⟩ : ∃ x, x = a ++ ((before ++ r :: after).flatMap Record.bytes ++ rest) :=
    ⟨_, rfl⟩
  have hread : ∀ x y (ys : List Record), y ∈ before ++ r :: after →
      raw = x ++ (y.bytes ++ (ys.flatMap Record.bytes ++ rest)) →
      attrHeaderAt raw x.length = some ((y.kind, x.length), x.length + y.bytes.length) := by
    intro x y ys _ heq
    rw [heq]
    exact attrHeaderAt_record y x _
  have hscan := (attrHeaderAt_advances raw).items_flatMap Record.bytes a rest
    (f := fun i (y : Record) => (y.kind, i)) (by rw [← hraw]; exact hread)
  have hnone : (((layout (fun x : Record => x.bytes.length) a.length before).map
      fun p => (p.2.kind, p.1)).find? fun h => h.1 = targetType) = none := by
    simp only [List.find?_eq_none, List.mem_map, decide_eq_true_eq]
    rintro _ ⟨p, hp, rfl⟩
    exact hbefore _ (mem_of_mem_layout hp)
  rw [← hraw, findAttrOffset, ← ha, hscan, layout_append, layout, List.map_append, List.append_assoc,
    List.find?_append, hnone, Option.none_or, List.map_cons, List.cons_append,
    List.find?_cons_of_pos (by simp [hr]), Option.map_some]

/-- A message: attributes as records, then bytes in which no attribute fits. -/
structure Message where
  msgType : U16
  transactionId : Vector U8 12
  records : List Record
  rest : Bytes
  topBits : msgType &&& 0xC000 = 0
  overruns : Overruns rest
  aligned : rest.length % 4 = 0
  fits : (records.flatMap Record.bytes ++ rest).length < 65536

namespace Message

variable (x : Message)

def body : Bytes := x.records.flatMap Record.bytes ++ x.rest

def length : U16 := BitVec.ofNat 16 x.body.length

def bytes : Bytes := header x.msgType x.length x.transactionId ++ x.body

def parsed : StunMessage where
  msgType := x.msgType
  length := x.length
  transactionId := x.transactionId
  attributes := x.records.map .ofRecord
  raw := x.bytes

theorem length_toNat : x.length.toNat = x.body.length := by
  rw [length, BitVec.toNat_ofNat]
  exact Nat.mod_eq_of_lt x.fits

theorem length_bytes : x.bytes.length = headerSize + x.body.length := by
  rw [bytes, List.length_append, length_header]

theorem body_length_mod : x.body.length % 4 = 0 := by
  have := length_records_mod x.records
  have := x.aligned
  rw [body, List.length_append]
  omega

section

variable (msgType : U16) (transactionId : Vector U8 12) (rs : List Record)
  (topBits : msgType &&& 0xC000 = 0) (fits : (rs.flatMap Record.bytes).length < 65536)

def ofRecords : Message where
  msgType := msgType
  transactionId := transactionId
  records := rs
  rest := []
  topBits := topBits
  overruns := overruns_nil
  aligned := rfl
  fits := by rwa [List.append_nil]

@[simp] theorem ofRecords_body :
    (ofRecords msgType transactionId rs topBits fits).body = rs.flatMap Record.bytes :=
  List.append_nil _

theorem ofRecords_bytes :
    (ofRecords msgType transactionId rs topBits fits).bytes =
      header msgType (BitVec.ofNat 16 (rs.flatMap Record.bytes).length) transactionId ++
        rs.flatMap Record.bytes := by
  rw [bytes, length, ofRecords_body]
  rfl

end

end Message

section

variable (msgType length : U16) (transactionId : Vector U8 12) (b : Bytes)

theorem header_fields :
    byteAt (header msgType length transactionId ++ b) 0 = byteAt (toBe16 msgType) 0 ∧
      be16 (header msgType length transactionId ++ b) 0 = msgType ∧
      be16 (header msgType length transactionId ++ b) 2 = length ∧
      be32 (header msgType length transactionId ++ b) 4 = magicCookie ∧
      (Vector.ofFn fun i : Fin 12 => byteAt (header msgType length transactionId ++ b) (8 + i)) =
        transactionId := by
  have hlen : (header msgType length transactionId).length = 20 := length_header _ _ _
  refine ⟨?_, ?_, ?_, ?_, ?_⟩
  · rw [byteAt_append_left _ (by omega), header, byteAt_append_left _ (by simp)]
  · rw [be16_append_left _ (by omega), header, be16_append_left _ (by simp), be16_toBe16]
  · rw [be16_append_left _ (by omega), header, be16_append_right _ (by simp),
      be16_append_left _ (by simp)]
    exact be16_toBe16 length
  · rw [be32_append_left _ (by omega), header, be32_append_right _ (by simp),
      be32_append_right _ (by simp), be32_append_left _ (by simp)]
    exact be32_toBe32 magicCookie
  · apply Vector.ext
    intro i hi
    rw [Vector.getElem_ofFn, byteAt_append_left _ (by simp only; omega), header,
      byteAt_append_right _ (by simp; omega), byteAt_append_right _ (by simp; omega),
      byteAt_append_right _ (by simp; omega)]
    simp only [length_toBe16, length_toBe32]
    rw [byteAt_eq_getElem (by simp; omega), Vector.getElem_toList]
    congr 1
    omega

end

theorem setLength_header (msgType length : U16) (transactionId : Vector U8 12) (b : Bytes)
    (extra : Nat) :
    setLength (header msgType length transactionId ++ b) extra =
      header msgType (BitVec.ofNat 16 (b.length + extra)) transactionId ++ b := by
  have hlen : (header msgType length transactionId ++ b).length - headerSize + extra =
      b.length + extra := by
    rw [List.length_append, length_header, Nat.add_sub_cancel_left]
  rw [setLength, hlen]
  rfl

theorem topBits_iff (msgType : U16) :
    byteAt (toBe16 msgType) 0 &&& 0xC0 = 0 ↔ msgType &&& 0xC000 = 0 := by
  have hsplit : msgType &&& 0xC000 = (byteAt (toBe16 msgType) 0 &&& 0xC0) ++ 0#8 := by
    have hlow : byteAt (toBe16 msgType) 1 &&& 0#8 = 0#8 := BitVec.and_zero
    rw [← hlow, ← BitVec.and_append]
    congr 1
    exact (be16_toBe16 msgType).symm
  rw [hsplit]
  constructor
  · intro h
    rw [h]
    rfl
  · intro h
    have := congrArg (fun x : U16 => x.extractLsb' 8 8) h
    simpa [BitVec.extractLsb'_append_eq_of_le (Nat.le_refl 8)] using this

/-- Parsing undoes writing, whatever follows the message in the buffer. -/
theorem Message.parse_bytes (x : Message) (trailing : Bytes) :
    parse (x.bytes ++ trailing) = some x.parsed := by
  obtain ⟨hzero, htype, hlength, hcookie, htid⟩ :=
    header_fields x.msgType x.length x.transactionId (x.body ++ trailing)
  have hassoc : x.bytes ++ trailing =
      header x.msgType x.length x.transactionId ++ (x.body ++ trailing) := by
    rw [bytes, List.append_assoc]
  have hlen : (x.bytes ++ trailing).length = headerSize + x.body.length + trailing.length := by
    rw [List.length_append, x.length_bytes]
  have hattrs : items (attrAt (x.bytes ++ trailing) (headerSize + x.body.length))
      (headerSize + x.body.length) headerSize = x.records.map .ofRecord := by
    have := items_attrAt x.records x.overruns (header x.msgType x.length x.transactionId) trailing
    rwa [length_header, ← List.append_assoc (x.records.flatMap Record.bytes), ← body,
      ← hassoc] at this
  rw [← hassoc] at hzero htype hlength hcookie htid
  have hmod := x.body_length_mod
  rw [parse, if_neg (by omega), hzero, if_neg (by simpa using (topBits_iff _).mpr x.topBits),
    hcookie, if_neg (by simp), hlength]
  simp only [x.length_toNat, hmod, htype, htid, hattrs, parsed]
  rw [if_neg (by simp), if_neg (by omega), List.take_left' x.length_bytes]

theorem header_eq_take {m : Bytes} (h : headerSize ≤ m.length) (hcookie : be32 m 4 = magicCookie) :
    header (be16 m 0) (be16 m 2) (Vector.ofFn fun i : Fin 12 => byteAt m (8 + i)) =
      m.take headerSize := by
  have hlen : 20 ≤ m.length := h
  rw [header, ← hcookie, toBe16_be16 (by omega), toBe16_be16 (by omega), toBe32_be32 (by omega),
    toList_ofFn_byteAt (by omega), slice_append_slice m 4, slice_append_slice m 2,
    slice_append_slice m 0, slice, List.drop_zero]
  rfl

/-- What the parser accepts is a message and what follows it. -/
theorem exists_message {m : Bytes} {msg : StunMessage} (h : parse m = some msg) :
    ∃ x : Message, ∃ trailing, m = x.bytes ++ trailing ∧ msg = x.parsed := by
  suffices hm : ∃ x : Message, ∃ trailing, m = x.bytes ++ trailing by
    obtain ⟨x, trailing, rfl⟩ := hm
    exact ⟨x, trailing, rfl, Option.some.inj (h.symm.trans (x.parse_bytes trailing))⟩
  simp only [parse] at h
  split at h
  · cases h
  rename_i hsize
  split at h
  · cases h
  rename_i htop
  split at h
  · cases h
  rename_i hcookie
  split at h
  · cases h
  rename_i hmod
  split at h
  · cases h
  rename_i htotal
  have hlen : (slice m headerSize (be16 m 2).toNat).length = (be16 m 2).toNat :=
    length_slice (by omega)
  obtain ⟨rs, rest, hbody, hrest⟩ := exists_records (slice m headerSize (be16 m 2).toNat)
    (by rw [hlen]; omega)
  have hfit : (be16 m 2).toNat < 65536 := (be16 m 2).isLt
  have htype : byteAt (toBe16 (be16 m 0)) 0 = byteAt m 0 := by
    rw [toBe16_be16 (by simp only [headerSize] at hsize; omega)]
    exact byteAt_take (by omega)
  refine ⟨{
    msgType := be16 m 0
    transactionId := Vector.ofFn fun i => byteAt m (8 + i)
    records := rs
    rest := rest
    topBits := (topBits_iff _).mp (by rw [htype]; simpa using htop)
    overruns := hrest
    aligned := by
      have := length_records_mod rs
      have := congrArg List.length hbody
      rw [List.length_append] at this
      omega
    fits := by rw [← hbody, hlen]; exact hfit }, m.drop (headerSize + (be16 m 2).toNat), ?_⟩
  simp only [Message.bytes, Message.length, Message.body]
  rw [← hbody, hlen, BitVec.ofNat_toNat, BitVec.setWidth_eq,
    header_eq_take (by omega) (by simpa using hcookie), List.append_assoc, slice_append_drop,
    List.take_append_drop]

theorem find?_ofRecord (attrType : U16) (rs : List Record) :
    (rs.map StunAttribute.ofRecord).find? (fun a => a.attrType = attrType) =
      (rs.find? fun r => r.kind = attrType).map .ofRecord := by
  rw [List.find?_map]
  rfl

/-- The digest is taken over the message up to its first MESSAGE-INTEGRITY, with the
length field counting that attribute too. -/
theorem verifyMessageIntegrity_parsed (c : Primitives) {x : Message} {before after : List Record}
    {r : Record} (hx : x.records = before ++ r :: after) (hr : r.kind = attrMessageIntegrity)
    (hbefore : ∀ y ∈ before, y.kind ≠ attrMessageIntegrity) (key : Bytes) :
    verifyMessageIntegrity c x.parsed key =
      decide ((c.hmacSha1 (setLength (header x.msgType 0 x.transactionId ++
        before.flatMap Record.bytes) 24) key).toList = r.value) := by
  have hfind : x.records.find? (fun y => y.kind = attrMessageIntegrity) = some r := by
    have hnone : before.find? (fun y => y.kind = attrMessageIntegrity) = none := by
      simpa [List.find?_eq_none] using hbefore
    rw [hx, List.find?_append, hnone, Option.none_or, List.find?_cons_of_pos (by simp [hr])]
  have hmi : x.parsed.messageIntegrity = some r.value := by
    rw [StunMessage.messageIntegrity, StunMessage.getAttr, Message.parsed, find?_ofRecord, hfind]
    rfl
  have hoffset : findAttrOffset x.parsed.raw attrMessageIntegrity =
      some (headerSize + (before.flatMap Record.bytes).length) := by
    rw [Message.parsed, Message.bytes, Message.body, hx]
    exact findAttrOffset_record _ hr hbefore (length_header _ _ _) _
  have htake : x.parsed.raw.take (headerSize + (before.flatMap Record.bytes).length) =
      header x.msgType x.length x.transactionId ++ before.flatMap Record.bytes := by
    have hsplit : x.bytes = header x.msgType x.length x.transactionId ++
        before.flatMap Record.bytes ++ ((r :: after).flatMap Record.bytes ++ x.rest) := by
      rw [Message.bytes, Message.body, hx, List.flatMap_append]
      simp only [List.append_assoc]
    rw [Message.parsed, hsplit, List.take_left' (by rw [List.length_append, length_header])]
  have hwrite : ∀ ℓ b, write (header x.msgType ℓ x.transactionId ++ b) 2
      (toBe16 (BitVec.ofNat 16 (headerSize + b.length - headerSize + 24))) =
      setLength (header x.msgType 0 x.transactionId ++ b) 24 := by
    intro ℓ b
    rw [setLength_header, ← setLength_header x.msgType ℓ, setLength, List.length_append,
      length_header]
  rw [verifyMessageIntegrity, hmi, hoffset]
  simp only
  rw [htake, hwrite]

end LightLivechat.Transport.Stun
