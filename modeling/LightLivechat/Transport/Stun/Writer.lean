import LightLivechat.Transport.Stun.Format

/-! Attributes written one after the other, and what the parser reads of them. -/

namespace LightLivechat.Transport.Stun

open LightLivechat.Lib.Bytes LightLivechat.Lib.Tlv

def writeAttrs (buf : Bytes) (attrs : List StunAttribute) : Bytes :=
  attrs.foldl (fun buf a => writeAttr buf a.attrType a.value) buf

/-- A header that announces the padded length of the attributes, and the attributes. -/
def written (msgType : U16) (transactionId : Vector U8 12) (attrs : List StunAttribute) : Bytes :=
  writeAttrs (header msgType (BitVec.ofNat 16 (writeAttrs [] attrs).length) transactionId) attrs

theorem writeAttr_eq (buf : Bytes) (attrType : U16) {value : Bytes} (h : value.length < 65536) :
    writeAttr buf attrType value = buf ++ (Record.zeroPadded attrType value h).bytes := by
  simp [writeAttr, Record.bytes, Record.zeroPadded]

theorem setLength_writeAttr (msgType length : U16) (transactionId : Vector U8 12)
    (rs : List Record) (attrType : U16) {value : Bytes} (h : value.length < 65536) (extra : Nat) :
    setLength (writeAttr (header msgType length transactionId ++ rs.flatMap Record.bytes)
        attrType value) extra =
      setLength (header msgType 0 transactionId ++
        (rs ++ [Record.zeroPadded attrType value h]).flatMap Record.bytes) extra := by
  rw [writeAttr_eq _ _ h, List.append_assoc, ← List.flatMap_singleton Record.bytes,
    ← List.flatMap_append, setLength_header, setLength_header]

theorem length_writeAttrs (buf : Bytes) (attrs : List StunAttribute) :
    buf.length ≤ (writeAttrs buf attrs).length ∧
      ∀ a ∈ attrs, a.value.length ≤ (writeAttrs buf attrs).length := by
  induction attrs generalizing buf with
  | nil => exact ⟨Nat.le_refl _, by simp⟩
  | cons a attrs ih =>
    obtain ⟨hbuf, hattrs⟩ := ih (writeAttr buf a.attrType a.value)
    have hwrite : buf.length + a.value.length ≤ (writeAttr buf a.attrType a.value).length := by
      simp only [writeAttr, List.length_append]
      omega
    change _ ≤ (writeAttrs (writeAttr buf a.attrType a.value) attrs).length ∧
      ∀ x ∈ a :: attrs, _ ≤ (writeAttrs (writeAttr buf a.attrType a.value) attrs).length
    refine ⟨by omega, fun x hx => ?_⟩
    rcases List.mem_cons.mp hx with rfl | hx
    · omega
    · exact hattrs x hx

theorem exists_zeroPadded {attrs : List StunAttribute} (h : ∀ a ∈ attrs, a.value.length < 65536) :
    ∃ rs : List Record, rs.map .ofRecord = attrs ∧
      ∀ buf, writeAttrs buf attrs = buf ++ rs.flatMap Record.bytes := by
  induction attrs with
  | nil => exact ⟨[], rfl, by simp [writeAttrs]⟩
  | cons a attrs ih =>
    obtain ⟨rs, hrs, hwrite⟩ := ih fun x hx => h x (List.mem_cons_of_mem a hx)
    refine ⟨.zeroPadded a.attrType a.value (h a List.mem_cons_self) :: rs, ?_, fun buf => ?_⟩
    · rw [List.map_cons, hrs]
      rfl
    · have hnext := hwrite (writeAttr buf a.attrType a.value)
      rw [writeAttr_eq _ _ (h a List.mem_cons_self), List.append_assoc] at hnext
      rw [List.flatMap_cons, ← hnext, ← writeAttr_eq]
      rfl

theorem parse_written (msgType : U16) (transactionId : Vector U8 12) (attrs : List StunAttribute)
    (trailing : Bytes) (htype : msgType &&& 0xC000 = 0)
    (hfits : (writeAttrs [] attrs).length < 65536) :
    parse (written msgType transactionId attrs ++ trailing) = some {
      msgType := msgType
      length := BitVec.ofNat 16 (writeAttrs [] attrs).length
      transactionId := transactionId
      attributes := attrs
      raw := written msgType transactionId attrs } := by
  obtain ⟨rs, hattrs, hwrite⟩ := exists_zeroPadded fun a ha =>
    Nat.lt_of_le_of_lt ((length_writeAttrs [] attrs).2 a ha) hfits
  have hbody : writeAttrs [] attrs = rs.flatMap Record.bytes := hwrite []
  have hfits' : (rs.flatMap Record.bytes).length < 65536 := hbody ▸ hfits
  have hbytes : written msgType transactionId attrs =
      (Message.ofRecords msgType transactionId rs htype hfits').bytes := by
    rw [written, hwrite, Message.ofRecords_bytes, hbody]
  rw [hbytes, Message.parse_bytes, Message.parsed, Message.length, Message.ofRecords_body, hbody,
    ← hattrs]
  rfl

/-- An empty value, one that needs padding, and bytes after the message. -/
def oddAttrs : List StunAttribute := [⟨0x0025, []⟩, ⟨0x8022, [1, 2, 3, 4, 5]⟩, ⟨0x0024, [9]⟩]

theorem parse_written_odd :
    parse (written 0x0001 (Vector.replicate 12 7) oddAttrs ++ [1, 2, 3]) = some {
      msgType := 0x0001
      length := 24
      transactionId := Vector.replicate 12 7
      attributes := oddAttrs
      raw := written 0x0001 (Vector.replicate 12 7) oddAttrs } :=
  parse_written 0x0001 (Vector.replicate 12 7) oddAttrs [1, 2, 3] (by decide) (by decide)

end LightLivechat.Transport.Stun
