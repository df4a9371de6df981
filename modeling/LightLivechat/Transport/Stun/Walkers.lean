import LightLivechat.Transport.Authenticated
import LightLivechat.Transport.Stun.Format
import Mathlib.Algebra.Ring.Nat

/-! The parser and the offset scan walk a message each on its own, and only the parser
stops where a value overruns it.  On the types the parser has listed they agree, so the
integrity check takes its digest over the right bytes. -/

namespace LightLivechat.Transport.Stun

open LightLivechat.Lib.Bytes LightLivechat.Lib.Std LightLivechat.Lib.Tlv

def attrOffset (before : List StunAttribute) : Nat :=
  headerSize + (before.map fun a => 4 + align4 a.value.length).sum

/-- The header and the value of an attribute are at an offset. -/
structure StandsAt (raw : Bytes) (offset : Nat) (a : StunAttribute) : Prop where
  fits : offset + 4 + a.value.length ≤ raw.length
  attrType : be16 raw offset = a.attrType
  length : (be16 raw (offset + 2)).toNat = a.value.length
  value : slice raw (offset + 4) a.value.length = a.value

/-- The first attribute of a type, and those before it. -/
structure FirstOf (attrs : List StunAttribute) (attrType : U16) (before : List StunAttribute)
    (a : StunAttribute) : Prop where
  listed : before ++ [a] <+: attrs
  ofType : a.attrType = attrType
  earlier : ∀ x ∈ before, x.attrType ≠ attrType

/-- The bytes before an offset, but for the length field, which says that the message ends
`size` bytes behind them. -/
structure EndsAfter (raw : Bytes) (offset size : Nat) (b : Bytes) : Prop where
  length : b.length = offset
  same : ∀ i < offset, i ≠ 2 → i ≠ 3 → byteAt b i = byteAt raw i
  ends : headerSize + (be16 b 2).toNat = offset + size

section

variable {attrs before : List StunAttribute} {a : StunAttribute} {attrType : U16}

theorem exists_firstOf (h : ∃ a ∈ attrs, a.attrType = attrType) :
    ∃ before a, FirstOf attrs attrType before a := by
  obtain ⟨a, ha⟩ : ∃ a, attrs.find? (fun a => a.attrType = attrType) = some a := by
    rw [← Option.isSome_iff_exists, List.find?_isSome]
    simpa using h
  obtain ⟨htype, before, after, hattrs, hbefore⟩ := List.find?_eq_some_iff_append.mp ha
  exact ⟨before, a, ⟨after, by rw [hattrs, List.append_assoc]; rfl⟩, by simpa using htype,
    by simpa using hbefore⟩

theorem FirstOf.find? (h : FirstOf attrs attrType before a) :
    attrs.find? (fun a => a.attrType = attrType) = some a := by
  obtain ⟨⟨after, rfl⟩, htype, hbefore⟩ := h
  exact List.find?_eq_some_iff_append.mpr
    ⟨by simpa using htype, before, after, by simp, by simpa using hbefore⟩

end

theorem attrOffset_ofRecord (rs : List Record) :
    attrOffset (rs.map .ofRecord) = headerSize + (rs.flatMap Record.bytes).length := by
  have hlen : ∀ r : Record, 4 + align4 (StunAttribute.ofRecord r).value.length = r.bytes.length :=
    fun r => r.length_bytes.symm
  rw [attrOffset, List.map_map, List.length_flatMap]
  simp only [Function.comp_def, hlen]

theorem standsAt_record (r : Record) (a b : Bytes) :
    StandsAt (a ++ (r.bytes ++ b)) a.length (.ofRecord r) where
  fits := by
    have := r.length_bytes
    simp only [StunAttribute.ofRecord, List.length_append]
    omega
  attrType := r.kind_at a b
  length := r.length_at a b
  value := r.value_at a b

/-- The attributes are those of the records, so the first of a type is the first record's. -/
theorem FirstOf.exists_records {x : Message} {attrType : U16} {before : List StunAttribute}
    {a : StunAttribute} (h : FirstOf x.parsed.attributes attrType before a) :
    ∃ rs r after, x.records = rs ++ r :: after ∧ rs.map .ofRecord = before ∧
      StunAttribute.ofRecord r = a := by
  obtain ⟨after, hattrs⟩ := h.listed
  obtain ⟨front, qs, hrecords, hfront, -⟩ := List.map_eq_append_iff.mp hattrs.symm
  obtain ⟨rs, one, rfl, hrs, hone⟩ := List.map_eq_append_iff.mp hfront
  obtain ⟨r, rfl, hr⟩ := List.map_eq_singleton_iff.mp hone
  exact ⟨rs, r, qs, by rw [hrecords, List.append_assoc]; rfl, hrs, hr⟩

section

variable {buf : Bytes} {msg : StunMessage} {attrType : U16} {before : List StunAttribute}
  {a : StunAttribute}

/-- Both walkers come to the first attribute of a type, and it stands there. -/
theorem FirstOf.found (hparse : parse buf = some msg)
    (h : FirstOf msg.attributes attrType before a) :
    msg.getAttr attrType = some a ∧ findAttrOffset msg.raw attrType = some (attrOffset before) ∧
      StandsAt msg.raw (attrOffset before) a := by
  obtain ⟨x, trailing, rfl, rfl⟩ := exists_message hparse
  obtain ⟨rs, r, after, hrecords, rfl, rfl⟩ := h.exists_records
  have hearlier : ∀ y ∈ rs, y.kind ≠ attrType := fun y hy =>
    h.earlier _ (List.mem_map_of_mem hy)
  have hraw : x.parsed.raw = header x.msgType x.length x.transactionId ++
      ((rs ++ r :: after).flatMap Record.bytes ++ x.rest) := by
    rw [Message.parsed, Message.bytes, Message.body, hrecords]
  refine ⟨h.find?, ?_, ?_⟩
  · rw [hraw, attrOffset_ofRecord]
    exact findAttrOffset_record _ h.ofType hearlier (length_header _ _ _) _
  · have hsplit : x.parsed.raw = (header x.msgType x.length x.transactionId ++
        rs.flatMap Record.bytes) ++ (r.bytes ++ (after.flatMap Record.bytes ++ x.rest)) := by
      rw [hraw]
      simp
    have hoffset : attrOffset (rs.map .ofRecord) =
        (header x.msgType x.length x.transactionId ++ rs.flatMap Record.bytes).length := by
      rw [attrOffset_ofRecord, List.length_append, length_header]
    rw [hsplit, hoffset]
    exact standsAt_record r _ _

theorem raw_length_lt (hparse : parse buf = some msg) : msg.raw.length < headerSize + 65536 := by
  obtain ⟨x, -, -, rfl⟩ := exists_message hparse
  rw [Message.parsed, x.length_bytes]
  exact Nat.add_lt_add_left x.fits _

end

theorem endsAfter_iff {raw b : Bytes} {offset size : Nat} (hstart : headerSize ≤ offset)
    (hend : offset ≤ raw.length) (hfits : offset + size < headerSize + 65536) :
    EndsAfter raw offset size b ↔
      b = write (raw.take offset) 2 (toBe16 (BitVec.ofNat 16 (offset - headerSize + size))) := by
  obtain ⟨made, hmade⟩ : ∃ x, x = write (raw.take offset) 2
    (toBe16 (BitVec.ofNat 16 (offset - headerSize + size))) := ⟨_, rfl⟩
  have hheader : headerSize = 20 := rfl
  have htake : (raw.take offset).length = offset := List.length_take_of_le hend
  have hlen : made.length = offset := by
    rw [hmade, length_write (by rw [htake, length_toBe16]; omega), htake]
  have hfield : be16 made 2 = BitVec.ofNat 16 (offset - headerSize + size) := by
    rw [hmade]
    exact be16_write_same (by omega)
  have hother : ∀ i < offset, i ≠ 2 → i ≠ 3 → byteAt made i = byteAt raw i := by
    intro i hi h2 h3
    rw [hmade, byteAt_write (by rw [htake, length_toBe16]; omega), length_toBe16,
      if_neg (by omega), byteAt_take hi]
  have hends : (be16 made 2).toNat = offset - headerSize + size := by
    rw [hfield, BitVec.toNat_ofNat]
    exact Nat.mod_eq_of_lt (by omega)
  rw [← hmade]
  constructor
  · intro h
    have hlength := h.length
    have hsame : be16 b 2 = be16 made 2 := BitVec.eq_of_toNat_eq (by have := h.ends; omega)
    refine eq_of_byteAt (by omega) fun i hi => ?_
    by_cases hfirst : i = 2 ∨ i = 3
    · obtain ⟨k, hk, rfl⟩ : ∃ k < 2, i = 2 + k := ⟨i - 2, by omega, by omega⟩
      rw [byteAt_of_be16 (by omega) hk, hsame, ← byteAt_of_be16 (by omega) hk]
    · obtain ⟨h2, h3⟩ := not_or.mp hfirst
      rw [h.same i (by omega) h2 h3, hother i (by omega) h2 h3]
  · rintro rfl
    exact ⟨hlen, hother, by omega⟩

theorem verifyMessageIntegrity_iff (c : Primitives) {buf : Bytes} {msg : StunMessage}
    (hparse : parse buf = some msg) (key : Bytes) {before : List StunAttribute} {a : StunAttribute}
    (h : FirstOf msg.attributes attrMessageIntegrity before a) :
    verifyMessageIntegrity c msg key = true ↔ a.value.length = 20 ∧
      ∃ b, EndsAfter msg.raw (attrOffset before) 24 b ∧ a.value = (c.hmacSha1 b key).toList := by
  obtain ⟨hget, hoffset, hstands⟩ := h.found hparse
  have hmi : msg.messageIntegrity = some a.value := by
    rw [StunMessage.messageIntegrity, hget, Option.map_some]
  rw [verifyMessageIntegrity, hmi, hoffset]
  simp only [decide_eq_true_eq]
  have hfits := hstands.fits
  have hraw := raw_length_lt hparse
  have hstart : headerSize ≤ attrOffset before := Nat.le_add_right _ _
  -- a value of twenty bytes stands in the message, so the length that ends after it fits
  have hunique : a.value.length = 20 → ∀ b, EndsAfter msg.raw (attrOffset before) 24 b ↔ _ :=
    fun hlen b => endsAfter_iff hstart (by omega) (by omega)
  constructor
  · intro hdigest
    have hlen : a.value.length = 20 := by rw [← hdigest, Vector.length_toList]
    exact ⟨hlen, _, (hunique hlen _).mpr rfl, hdigest.symm⟩
  · rintro ⟨hlen, b, hb, hdigest⟩
    rw [(hunique hlen b).mp hb] at hdigest
    exact hdigest.symm

/-- The offset scan finds what the parser lists, and the integrity check passes just when the
first MESSAGE-INTEGRITY is the digest of what stands before it. -/
theorem walkers_agree (c : Primitives) {buf : Bytes} {msg : StunMessage}
    (hparse : parse buf = some msg) :
    (∀ attrType, (∃ a ∈ msg.attributes, a.attrType = attrType) →
      ∃ before a, FirstOf msg.attributes attrType before a ∧ msg.getAttr attrType = some a ∧
        findAttrOffset msg.raw attrType = some (attrOffset before) ∧
        StandsAt msg.raw (attrOffset before) a) ∧
    ∀ key, verifyMessageIntegrity c msg key = true ↔
      ∃ before a, FirstOf msg.attributes attrMessageIntegrity before a ∧ a.value.length = 20 ∧
        ∃ b, EndsAfter msg.raw (attrOffset before) 24 b ∧
          a.value = (c.hmacSha1 b key).toList := by
  refine ⟨fun attrType hpresent => ?_, fun key => ⟨fun hverify => ?_, ?_⟩⟩
  · obtain ⟨before, a, hfirst⟩ := exists_firstOf hpresent
    exact ⟨before, a, hfirst, hfirst.found hparse⟩
  · have hpresent : ∃ a ∈ msg.attributes, a.attrType = attrMessageIntegrity := by
      cases hget : msg.getAttr attrMessageIntegrity with
      | none =>
        rw [verifyMessageIntegrity_eq_false c key hget] at hverify
        cases hverify
      | some a => exact ⟨a, List.mem_of_find?_eq_some hget, by simpa using List.find?_some hget⟩
    obtain ⟨before, a, hfirst⟩ := exists_firstOf hpresent
    exact ⟨before, a, hfirst, (verifyMessageIntegrity_iff c hparse key hfirst).mp hverify⟩
  · rintro ⟨before, a, hfirst, hdigest⟩
    exact (verifyMessageIntegrity_iff c hparse key hfirst).mpr hdigest

theorem walkers_agree_signed : ∃ msg, parse Udp.signedRequest = some msg ∧
    (∃ before a, FirstOf msg.attributes attrUsername before a ∧
      findAttrOffset msg.raw attrUsername = some (attrOffset before) ∧
      StandsAt msg.raw (attrOffset before) a) ∧
    ∃ before a, FirstOf msg.attributes attrMessageIntegrity before a ∧
      ∃ b, EndsAfter msg.raw (attrOffset before) 24 b ∧
        a.value = (Udp.exchangePrimitives.hmacSha1 b (Str.asBytes "p")).toList := by
  obtain ⟨msg, hparse, hverify, hpresent⟩ : ∃ msg, parse Udp.signedRequest = some msg ∧
      verifyMessageIntegrity Udp.exchangePrimitives msg (Str.asBytes "p") = true ∧
      ∃ a ∈ msg.attributes, a.attrType = attrUsername :=
    ⟨_, rfl, rfl, ⟨attrUsername, Str.asBytes "s:c"⟩, by decide, rfl⟩
  obtain ⟨hfound, hverified⟩ := walkers_agree Udp.exchangePrimitives hparse
  obtain ⟨before, a, hfirst, -, hoffset, hstands⟩ := hfound attrUsername hpresent
  obtain ⟨before', a', hfirst', -, hdigest⟩ := (hverified _).mp hverify
  exact ⟨msg, hparse, ⟨before, a, hfirst, hoffset, hstands⟩, before', a', hfirst', hdigest⟩

end LightLivechat.Transport.Stun
