import LightLivechat.Lib.Checked
import LightLivechat.Transport.Stun

/-! The STUN parser and the integrity check with every access and every addition
checked.  No message, whole or truncated, makes one of them fail. -/

namespace LightLivechat.Transport.Checked.Stun

open LightLivechat.Lib.Bytes LightLivechat.Lib.Walk LightLivechat.Lib.Checked
open LightLivechat.Transport.Stun (StunAttribute StunMessage Primitives magicCookie headerSize
  attrMessageIntegrity align4 attrAt attrHeaderAt attrAt_advances attrHeaderAt_advances)

def attrTurn (buf : Bytes) (totalLen : Nat) :
    List StunAttribute × Nat → Checked (Turn (List StunAttribute × Nat) (List StunAttribute))
  | (attrs, offset) => do
    if ¬ (← add offset 4) ≤ totalLen then return .done attrs
    let attrType ← u16At buf offset
    let attrLen := (← u16At buf (← add offset 2)).toNat
    let offset ← add offset 4
    if (← add offset attrLen) > totalLen then return .done attrs
    let value ← range buf offset (← add offset attrLen)
    let padded := (← add attrLen 3) / 4 * 4
    return .next (attrs ++ [⟨attrType, value⟩], ← add offset padded)

def parse (buf : Bytes) : Checked (Option StunMessage) := do
  if buf.length < headerSize then return none
  if (← index buf 0) &&& 0xC0 ≠ 0 then return none
  let msgType ← u16At buf 0
  let length ← u16At buf 2
  let cookie ← u32At buf 4
  if cookie ≠ magicCookie then return none
  if length.toNat % 4 ≠ 0 then return none
  let totalLen ← add headerSize length.toNat
  if buf.length < totalLen then return none
  let transactionId ← range buf 8 20
  let attributes ← loop (attrTurn buf totalLen) (totalLen + 1) ([], headerSize)
  let raw ← range buf 0 totalLen
  return some ⟨msgType, length, Vector.ofFn fun i => byteAt transactionId i, attributes, raw⟩

def findAttrTurn (raw : Bytes) (targetType : U16) : Nat → Checked (Turn Nat (Option Nat)) :=
  fun offset => do
    if ¬ (← add offset 4) ≤ raw.length then return .done none
    let attrType ← u16At raw offset
    if attrType = targetType then return .done (some offset)
    let attrLen := (← u16At raw (← add offset 2)).toNat
    let padded := (← add attrLen 3) / 4 * 4
    return .next (← add offset (← add 4 padded))

def findAttrOffset (raw : Bytes) (targetType : U16) : Checked (Option Nat) :=
  loop (findAttrTurn raw targetType) (raw.length + 1) headerSize

def verifyMessageIntegrity (c : Primitives) (msg : StunMessage) (key : Bytes) : Checked Bool := do
  let some receivedHmac := msg.messageIntegrity | return false
  let some miOffset ← findAttrOffset msg.raw attrMessageIntegrity | return false
  let tmp ← range msg.raw 0 miOffset
  let adjustedLen := BitVec.ofNat 16 (← add (← sub miOffset headerSize) 24)
  let tmp ← copyInto tmp 2 (toBe16 adjustedLen)
  return (c.hmacSha1 tmp key).toList = receivedHmac

theorem attrTurn_ok {buf : Bytes} {totalLen : Nat} (hb : buf.length < 2 ^ 63)
    (ht : totalLen ≤ buf.length) (attrs : List StunAttribute) {i : Nat}
    (hi : i ≤ totalLen + 2 ^ 17) :
    attrTurn buf totalLen (attrs, i) =
      .ok (.fold (fun attrs a => attrs ++ [a]) attrs (attrAt buf totalLen i)) := by
  have hlen := (be16 buf (i + 2)).isLt
  simp (disch := omega) only [attrTurn, add_ok, ok_bind, attrAt]
  by_cases hhead : i + 4 ≤ totalLen
  · simp (disch := omega) only [hhead, u16At_ok, ok_bind, not_true_eq_false, if_false, if_true]
    by_cases hvalue : i + 4 + (be16 buf (i + 2)).toNat > totalLen
    · simp only [hvalue, if_true]
      rfl
    · simp (disch := omega) only [hvalue, range_ok, ok_bind, if_false, Nat.add_sub_cancel_left]
      rfl
  · simp only [hhead, not_false_eq_true, if_true, if_false]
    rfl

theorem attrAt_bound {buf : Bytes} {totalLen i j : Nat} {a : StunAttribute}
    (h : attrAt buf totalLen i = some (a, j)) : j ≤ totalLen + 2 ^ 17 := by
  have hlen := (be16 buf (i + 2)).isLt
  simp only [attrAt, align4] at h
  split at h
  · split at h
    · cases h
    · cases h
      omega
  · cases h

theorem attributes_ok {buf : Bytes} {totalLen : Nat} (hb : buf.length < 2 ^ 63)
    (hhead : headerSize ≤ totalLen) (ht : totalLen ≤ buf.length) :
    loop (attrTurn buf totalLen) (totalLen + 1) ([], headerSize) =
      .ok (items (attrAt buf totalLen) totalLen headerSize) := by
  rw [loop_fold (attrAt_advances buf totalLen) (fun attrs a => attrs ++ [a])
    (fun attrs _ hi => attrTurn_ok hb ht attrs hi) (fun _ h => attrAt_bound h) (by omega)
    (by omega), List.foldl_append_eq_append, List.nil_append, ← List.flatMap_def,
    List.flatMap_singleton']

theorem parse_ok {buf : Bytes} (hb : buf.length < 2 ^ 63) :
    parse buf = .ok (LightLivechat.Transport.Stun.parse buf) := by
  have hlength := (be16 buf 2).isLt
  unfold parse LightLivechat.Transport.Stun.parse
  refine guard_ok fun hhead => ?_
  have h20 : 20 ≤ buf.length := Nat.not_lt.mp hhead
  rw [index_ok (by omega), ok_bind]
  refine guard_ok fun _ => ?_
  rw [u16At_ok hb (by omega), ok_bind, u16At_ok hb (by omega), ok_bind, u32At_ok hb (by omega),
    ok_bind]
  refine guard_ok fun _ => guard_ok fun _ => ?_
  rw [add_ok (by simp only [headerSize]; omega), ok_bind]
  refine guard_ok fun htotal => ?_
  have hle : headerSize + (be16 buf 2).toNat ≤ buf.length := Nat.not_lt.mp htotal
  rw [range_ok (by omega) (by omega), ok_bind, attributes_ok hb (by omega) hle, ok_bind,
    range_ok (by omega) hle, ok_bind]
  have hid : ∀ i : Fin 12, byteAt (slice buf 8 (20 - 8)) i = byteAt buf (8 + i) := fun i => by
    rw [slice, byteAt_take (by omega), byteAt_drop]
  have hraw : slice buf 0 (headerSize + (be16 buf 2).toNat - 0) =
      buf.take (headerSize + (be16 buf 2).toNat) := by simp [slice]
  simp only [hid, hraw]
  rfl

theorem findAttrOffset_bounds {raw : Bytes} {targetType : U16} {offset : Nat}
    (h : LightLivechat.Transport.Stun.findAttrOffset raw targetType = some offset) :
    headerSize ≤ offset ∧ offset + 4 ≤ raw.length := by
  obtain ⟨head, hfind, rfl⟩ := Option.map_eq_some_iff.mp h
  refine (attrHeaderAt_advances raw).forall_mem_items_from
    (P := fun head => headerSize ≤ head.2 ∧ head.2 + 4 ≤ raw.length)
    (fun i b j (hi : headerSize ≤ i) hr => ?_) (Nat.le_refl _) head
    (List.mem_of_find?_eq_some hfind)
  simp only [attrHeaderAt] at hr
  split at hr
  · cases hr
    exact ⟨hi, ‹_›⟩
  · cases hr

def offsetOf (targetType : U16) (head : U16 × Nat) : Option Nat :=
  if head.1 = targetType then some head.2 else none

theorem findAttrTurn_ok {raw : Bytes} (hb : raw.length < 2 ^ 63) (targetType : U16) {i : Nat}
    (hi : i ≤ raw.length + 2 ^ 17) :
    findAttrTurn raw targetType i = .ok (.search (offsetOf targetType) (attrHeaderAt raw i)) := by
  have hlen := (be16 raw (i + 2)).isLt
  simp (disch := omega) only [findAttrTurn, add_ok, ok_bind, attrHeaderAt]
  by_cases hhead : i + 4 ≤ raw.length
  · simp (disch := omega) only [hhead, u16At_ok, ok_bind, not_true_eq_false, if_false, if_true]
    by_cases htype : be16 raw i = targetType
    · have hhit : offsetOf targetType (be16 raw i, i) = some i := if_pos htype
      rw [if_pos htype, Turn.search_hit hhit]
      rfl
    · have hmiss : offsetOf targetType (be16 raw i, i) = none := if_neg htype
      rw [if_neg htype, Turn.search_miss hmiss, Nat.add_assoc]
      rfl
  · simp only [hhead, not_false_eq_true, if_true, if_false]
    rfl

theorem attrHeaderAt_bound {raw : Bytes} {i j : Nat} {head : U16 × Nat}
    (h : attrHeaderAt raw i = some (head, j)) : j ≤ raw.length + 2 ^ 17 := by
  have hlen := (be16 raw (i + 2)).isLt
  simp only [attrHeaderAt, align4] at h
  split at h
  · cases h
    omega
  · cases h

theorem findAttrOffset_ok {raw : Bytes} (hb : raw.length < 2 ^ 63) (hhead : headerSize ≤ raw.length)
    (targetType : U16) : findAttrOffset raw targetType =
      .ok (LightLivechat.Transport.Stun.findAttrOffset raw targetType) := by
  rw [findAttrOffset, loop_search (attrHeaderAt_advances raw)
    (offsetOf targetType) (fun _ hi => findAttrTurn_ok hb targetType hi)
    (fun _ h => attrHeaderAt_bound h) (by omega) (by omega),
    LightLivechat.Transport.Stun.findAttrOffset, List.find?_eq_findSome?_guard, List.map_findSome?]
  congr 3
  funext head
  by_cases h : head.1 = targetType <;> simp [offsetOf, Option.guard, h]

theorem verifyMessageIntegrity_ok (c : Primitives) {msg : StunMessage} (key : Bytes)
    (hb : msg.raw.length < 2 ^ 63) (hhead : headerSize ≤ msg.raw.length) :
    verifyMessageIntegrity c msg key =
      .ok (LightLivechat.Transport.Stun.verifyMessageIntegrity c msg key) := by
  unfold verifyMessageIntegrity LightLivechat.Transport.Stun.verifyMessageIntegrity
  cases hmac : msg.messageIntegrity with
  | none => rfl
  | some receivedHmac =>
    simp only [findAttrOffset_ok hb hhead, ok_bind]
    cases hfind : LightLivechat.Transport.Stun.findAttrOffset msg.raw attrMessageIntegrity with
    | none => rfl
    | some miOffset =>
      obtain ⟨hge, hle⟩ := findAttrOffset_bounds hfind
      have h20 : 20 ≤ miOffset := hge
      have hlen : (slice msg.raw 0 miOffset).length = miOffset := length_slice (by omega)
      simp only [range_ok (Nat.zero_le miOffset) (show miOffset ≤ msg.raw.length by omega),
        sub_ok hge, ok_bind, Nat.sub_zero]
      rw [add_ok (by omega), ok_bind, copyInto_ok (by rw [hlen, length_toBe16]; omega), ok_bind]
      simp only [slice, List.drop_zero]
      rfl

theorem parse_raw {buf : Bytes} {msg : StunMessage}
    (h : LightLivechat.Transport.Stun.parse buf = some msg) :
    headerSize ≤ msg.raw.length ∧ msg.raw.length ≤ buf.length := by
  unfold LightLivechat.Transport.Stun.parse at h
  simp only [Option.ite_none_left_eq_some, Option.some.injEq] at h
  obtain ⟨_, _, _, _, htotal, rfl⟩ := h
  have hle := Nat.not_lt.mp htotal
  simp only [List.length_take]
  omega

end LightLivechat.Transport.Checked.Stun
