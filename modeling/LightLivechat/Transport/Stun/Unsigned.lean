import LightLivechat.Transport.Authenticated
import LightLivechat.Transport.Stun.Format
import LightLivechat.Transport.Stun.Writer

/-! Attributes behind the digest: the check does not cover them, the lookups read them. -/

namespace LightLivechat.Transport.Stun

open LightLivechat.Lib.Bytes LightLivechat.Lib.Std LightLivechat.Lib.Tlv

/-- The attributes a byte string is made of, up to bytes in which none fits. -/
def Holds (b : Bytes) (attrs : List StunAttribute) : Prop :=
  ∃ (rs : List Record) (rest : Bytes),
    b = rs.flatMap Record.bytes ++ rest ∧ Overruns rest ∧ rs.map .ofRecord = attrs

/-- A message in two parts: `signed` ends with the first MESSAGE-INTEGRITY, which the
attributes `before` precede, and `tail` holds the attributes `after`. -/
structure SignedAs (m signed tail : Bytes) (before after : List StunAttribute) : Prop where
  split : ∃ trailing, m = signed ++ (tail ++ trailing)
  length : headerSize + (be16 m 2).toNat = signed.length + tail.length
  signed : ∃ (head : Bytes) (rs : List Record) (mi : Record),
    signed = head ++ (rs ++ [mi]).flatMap Record.bytes ∧ head.length = headerSize ∧
      mi.kind = attrMessageIntegrity ∧ rs.map .ofRecord = before
  first : ∀ a ∈ before, a.attrType ≠ attrMessageIntegrity
  rest : Holds tail after

/-- The signed part with other bytes behind it and the length field for them. -/
def extended (signed tail trailing : Bytes) : Bytes := setLength (signed ++ tail) 0 ++ trailing

def usernameOf (attrs : List StunAttribute) : Option String :=
  (attrs.find? fun a => a.attrType = attrUsername).bind fun a => Str.fromUtf8 a.value

def Occurs (attrType : U16) (attrs : List StunAttribute) : Prop :=
  ∃ a ∈ attrs, a.attrType = attrType

/-- Each of the two attributes stands before the digest, or the attributes behind it
say the same of it. -/
structure Settled (before after after' : List StunAttribute) : Prop where
  username : Occurs attrUsername before ∨ usernameOf after' = usernameOf after
  useCandidate : Occurs attrUseCandidate before ∨
    (Occurs attrUseCandidate after' ↔ Occurs attrUseCandidate after)

section

variable {m signed tail tail' : Bytes} {before after after' : List StunAttribute}
  {msg : StunMessage}

theorem parse_extended {msgType length : U16} {transactionId : Vector U8 12} {rs : List Record}
    {mi : Record} (topBits : msgType &&& 0xC000 = 0)
    (hsigned : signed = header msgType length transactionId ++ (rs ++ [mi]).flatMap Record.bytes)
    (htail : Holds tail after) (hmod : tail.length % 4 = 0)
    (hfits : signed.length + tail.length < headerSize + 65536) (trailing : Bytes) :
    ∃ (x : Message) (qs : List Record), parse (extended signed tail trailing) = some x.parsed ∧
      x.msgType = msgType ∧ x.transactionId = transactionId ∧ x.records = rs ++ mi :: qs ∧
      qs.map .ofRecord = after := by
  obtain ⟨qs, rest, rfl, hover, hafter⟩ := htail
  have hbody : (rs ++ mi :: qs).flatMap Record.bytes ++ rest =
      (rs ++ [mi]).flatMap Record.bytes ++ (qs.flatMap Record.bytes ++ rest) := by simp
  have hlen : ((rs ++ mi :: qs).flatMap Record.bytes ++ rest).length =
      ((rs ++ [mi]).flatMap Record.bytes).length + (qs.flatMap Record.bytes ++ rest).length := by
    rw [hbody, List.length_append]
  have hqs := length_records_mod qs
  rw [hsigned, List.length_append, length_header] at hfits
  rw [List.length_append] at hmod
  obtain ⟨x, hx⟩ : ∃ x : Message, x = {
      msgType := msgType
      transactionId := transactionId
      records := rs ++ mi :: qs
      rest := rest
      topBits := topBits
      overruns := hover
      aligned := by omega
      fits := by omega } := ⟨_, rfl⟩
  have hbytes : extended signed (qs.flatMap Record.bytes ++ rest) trailing = x.bytes ++ trailing := by
    rw [extended, hsigned, List.append_assoc, ← hbody, setLength_header, hx]
    rfl
  refine ⟨x, qs, hbytes ▸ x.parse_bytes trailing, ?_, ?_, ?_, hafter⟩ <;> rw [hx]

theorem SignedAs.exists_messages (h : SignedAs m signed tail before after)
    (hparse : parse m = some msg) (htail' : Holds tail' after') (hmod : tail'.length % 4 = 0)
    (hfits : signed.length + tail'.length < headerSize + 65536) (trailing' : Bytes) :
    ∃ (x y : Message) (rs qs qs' : List Record) (mi : Record),
      msg = x.parsed ∧ parse (extended signed tail' trailing') = some y.parsed ∧
      x.msgType = y.msgType ∧ x.transactionId = y.transactionId ∧
      x.records = rs ++ mi :: qs ∧ y.records = rs ++ mi :: qs' ∧
      mi.kind = attrMessageIntegrity ∧
      rs.map .ofRecord = before ∧ qs.map .ofRecord = after ∧ qs'.map .ofRecord = after' := by
  obtain ⟨head, rs, mi, hsigned, hhead, hmi, hbefore⟩ := h.signed
  obtain ⟨trailing, hm⟩ := h.split
  obtain ⟨z, trailing₀, hz, hmsg⟩ := exists_message hparse
  have hheader : head = header z.msgType z.length z.transactionId := by
    have htake : m.take headerSize = head := by
      rw [hm, hsigned, List.append_assoc, List.take_left' hhead]
    rw [← htake, hz, Message.bytes, List.append_assoc, List.take_left' (length_header _ _ _)]
  have hlen : be16 m 2 = z.length := by
    rw [hz, Message.bytes, List.append_assoc, (header_fields _ _ _ _).2.2.1]
  have hlength := h.length
  rw [hlen, z.length_toNat] at hlength
  have hsignedLen : signed.length = headerSize + ((rs ++ [mi]).flatMap Record.bytes).length := by
    rw [hsigned, List.length_append, hhead]
  have hzmod := z.body_length_mod
  have hrsmod := length_records_mod (rs ++ [mi])
  have hzfits : z.body.length < 65536 := z.fits
  rw [hheader] at hsigned
  have hself : m = extended signed tail trailing := by
    have hbody : ((rs ++ [mi]).flatMap Record.bytes ++ tail).length + 0 = z.body.length := by
      rw [List.length_append]
      omega
    rw [hm, extended, hsigned, List.append_assoc _ _ tail, setLength_header, hbody,
      ← Message.length]
    simp only [List.append_assoc]
  obtain ⟨x, qs, hxparse, hxtype, hxtid, hxrecords, hxafter⟩ :=
    parse_extended z.topBits hsigned h.rest (by omega) (by omega) trailing
  obtain ⟨y, qs', hyparse, hytype, hytid, hyrecords, hyafter⟩ :=
    parse_extended z.topBits hsigned htail' hmod hfits trailing'
  rw [← hself, hparse] at hxparse
  exact ⟨x, y, rs, qs, qs', mi, Option.some.inj hxparse, hyparse, hxtype.trans hytype.symm,
    hxtid.trans hytid.symm, hxrecords, hyrecords, hmi, hbefore, hxafter, hyafter⟩

theorem find?_attributes {attrType : U16} {mi : Record} (hmi : mi.kind ≠ attrType)
    (rs qs : List Record) :
    ((rs ++ mi :: qs).map StunAttribute.ofRecord).find? (fun a => a.attrType = attrType) =
      ((rs.map StunAttribute.ofRecord).find? fun a => a.attrType = attrType).or
        ((qs.map StunAttribute.ofRecord).find? fun a => a.attrType = attrType) := by
  rw [List.map_append, List.map_cons, List.find?_append, List.find?_cons_of_neg]
  simp [StunAttribute.ofRecord, hmi]

theorem or_same_iff {β : Type} (f : Option StunAttribute → β) (a b b' : Option StunAttribute) :
    f (a.or b') = f (a.or b) ↔ a.isSome ∨ f b' = f b := by
  cases a <;> simp

theorem isSome_find?_iff (attrType : U16) (attrs : List StunAttribute) :
    (attrs.find? fun a => a.attrType = attrType).isSome ↔ Occurs attrType attrs := by
  simp [Occurs]

/-- A message that passes the check has a part the digest covers. -/
theorem exists_signedAs (c : Primitives) {key : Bytes} (hparse : parse m = some msg)
    (hverify : verifyMessageIntegrity c msg key = true) :
    ∃ signed tail before after, SignedAs m signed tail before after := by
  obtain ⟨z, trailing, hz, rfl⟩ := exists_message hparse
  cases hfind : z.records.find? fun r => r.kind = attrMessageIntegrity with
  | none =>
    have hget : z.parsed.getAttr attrMessageIntegrity = none := by
      rw [StunMessage.getAttr, Message.parsed, find?_ofRecord, hfind, Option.map_none]
    rw [verifyMessageIntegrity_eq_false c key hget] at hverify
    cases hverify
  | some mi =>
    obtain ⟨hmi, rs, qs, hrecords, hfirst⟩ := List.find?_eq_some_iff_append.mp hfind
    have hbody : z.body = (rs ++ [mi]).flatMap Record.bytes ++
        (qs.flatMap Record.bytes ++ z.rest) := by
      rw [Message.body, hrecords]
      simp
    refine ⟨header z.msgType z.length z.transactionId ++ (rs ++ [mi]).flatMap Record.bytes,
      qs.flatMap Record.bytes ++ z.rest, rs.map .ofRecord, qs.map .ofRecord, {
        split := ⟨trailing, by rw [hz, Message.bytes, hbody]; simp only [List.append_assoc]⟩
        length := ?_
        signed := ⟨_, rs, mi, rfl, length_header _ _ _, by simpa using hmi, rfl⟩
        first := ?_
        rest := ⟨qs, z.rest, rfl, z.overruns, rfl⟩ }⟩
    · rw [hz, Message.bytes, List.append_assoc, (header_fields _ _ _ _).2.2.1, z.length_toNat,
        hbody]
      simp only [List.length_append, length_header, Nat.add_assoc]
    · simp only [List.mem_map]
      rintro _ ⟨r, hr, rfl⟩
      simpa [StunAttribute.ofRecord] using hfirst r hr

/-- What follows the digest is accepted as it is, and the server reads the same in it
exactly when the signed part settles it or both tails agree. -/
theorem appended_attributes_iff (c : Primitives) (key : Bytes) (hparse : parse m = some msg)
    (hverify : verifyMessageIntegrity c msg key = true) :
    (∃ signed tail before after, SignedAs m signed tail before after) ∧
    ∀ signed tail before after, SignedAs m signed tail before after →
      ∀ tail', tail'.length % 4 = 0 → signed.length + tail'.length < headerSize + 65536 →
        ∀ after', Holds tail' after' → ∀ trailing,
          ∃ msg', parse (extended signed tail' trailing) = some msg' ∧
            verifyMessageIntegrity c msg' key = true ∧
            ((msg'.username = msg.username ∧ msg'.hasUseCandidate = msg.hasUseCandidate) ↔
              Settled before after after') := by
  refine ⟨exists_signedAs c hparse hverify, ?_⟩
  intro signed tail before after h tail' hmod hfits after' htail' trailing
  obtain ⟨x, y, rs, qs, qs', mi, rfl, hy, htype, htid, hx, hy', hmi, rfl, rfl, rfl⟩ :=
    h.exists_messages hparse htail' hmod hfits trailing
  have hfirst : ∀ r ∈ rs, r.kind ≠ attrMessageIntegrity := fun r hr =>
    h.first _ (List.mem_map_of_mem hr)
  have hlookup : ∀ (z : Message) (zs : List Record) (attrType : U16),
      attrType ≠ attrMessageIntegrity → z.records = rs ++ mi :: zs → z.parsed.getAttr attrType =
        ((rs.map StunAttribute.ofRecord).find? fun a => a.attrType = attrType).or
          ((zs.map StunAttribute.ofRecord).find? fun a => a.attrType = attrType) := by
    intro z zs attrType hne hz
    rw [StunMessage.getAttr, Message.parsed, hz, find?_attributes (hmi ▸ hne.symm)]
  refine ⟨y.parsed, hy, ?_, ?_⟩
  · rw [verifyMessageIntegrity_parsed c hx hmi hfirst] at hverify
    rwa [verifyMessageIntegrity_parsed c hy' hmi hfirst, ← htype, ← htid]
  · have husername : y.parsed.username = x.parsed.username ↔
        Occurs attrUsername (rs.map .ofRecord) ∨
          usernameOf (qs'.map .ofRecord) = usernameOf (qs.map .ofRecord) := by
      rw [StunMessage.username, StunMessage.username, hlookup y qs' _ (by decide) hy',
        hlookup x qs _ (by decide) hx,
        or_same_iff (fun o => o.bind fun a => Str.fromUtf8 a.value), isSome_find?_iff]
      rfl
    have hcandidate : y.parsed.hasUseCandidate = x.parsed.hasUseCandidate ↔
        Occurs attrUseCandidate (rs.map .ofRecord) ∨
          (Occurs attrUseCandidate (qs'.map .ofRecord) ↔
            Occurs attrUseCandidate (qs.map .ofRecord)) := by
      rw [StunMessage.hasUseCandidate, StunMessage.hasUseCandidate,
        hlookup y qs' _ (by decide) hy', hlookup x qs _ (by decide) hx,
        or_same_iff Option.isSome, isSome_find?_iff, Bool.eq_iff_iff, isSome_find?_iff,
        isSome_find?_iff]
    rw [husername, hcandidate]
    exact ⟨fun h => ⟨h.1, h.2⟩, fun h => ⟨h.username, h.useCandidate⟩⟩

end

/-- A signed request of one attribute, as the digest of `exchangePrimitives` has it. -/
def signedCheck : Bytes := Udp.signedRequest

def checkUsername : StunAttribute := ⟨attrUsername, Str.asBytes "s:c"⟩

theorem signedCheck_signedAs : SignedAs signedCheck signedCheck [] [checkUsername] [] where
  split := ⟨[], by simp⟩
  length := by decide
  signed := ⟨header bindingRequest 32 (Vector.ofFn fun i => BitVec.ofNat 8 (i + 1)),
    [.zeroPadded attrUsername (Str.asBytes "s:c") (by decide)],
    .zeroPadded attrMessageIntegrity Udp.requestDigest.toList (by decide), by decide, rfl, rfl, rfl⟩
  first := by decide
  rest := ⟨[], [], rfl, overruns_nil, rfl⟩

/-- USE-CANDIDATE, as an attribute behind the digest. -/
def appendedCandidate : Bytes := writeAttr [] attrUseCandidate []

theorem appendedCandidate_holds : Holds appendedCandidate [⟨attrUseCandidate, []⟩] :=
  ⟨[.zeroPadded attrUseCandidate [] (by decide)], [], by decide, overruns_nil, rfl⟩

theorem appended_attributes_iff_candidate :
    ∃ msg msg', parse signedCheck = some msg ∧
      parse (extended signedCheck appendedCandidate []) = some msg' ∧
      verifyMessageIntegrity Udp.exchangePrimitives msg' (Str.asBytes "p") = true ∧
      ((msg'.username = msg.username ∧ msg'.hasUseCandidate = msg.hasUseCandidate) ↔
        Settled [checkUsername] [] [⟨attrUseCandidate, []⟩]) := by
  obtain ⟨msg, hmsg, hverify⟩ : ∃ msg, parse signedCheck = some msg ∧
      verifyMessageIntegrity Udp.exchangePrimitives msg (Str.asBytes "p") = true := ⟨_, rfl, rfl⟩
  obtain ⟨msg', hmsg', hrest⟩ :=
    (appended_attributes_iff Udp.exchangePrimitives (Str.asBytes "p") hmsg hverify).2 signedCheck []
      [checkUsername] [] signedCheck_signedAs appendedCandidate (by decide) (by decide)
      [⟨attrUseCandidate, []⟩] appendedCandidate_holds []
  exact ⟨msg, msg', hmsg, hmsg', hrest⟩

/-- The appended attribute passes the check and nominates the pair. -/
theorem appended_candidate_counts :
    ¬ ∀ (c : Primitives) (m key : Bytes) (msg : StunMessage), parse m = some msg →
      verifyMessageIntegrity c msg key = true →
        ∀ signed tail before after, SignedAs m signed tail before after →
          ∀ tail', tail'.length % 4 = 0 → signed.length + tail'.length < headerSize + 65536 →
            ∃ msg', parse (extended signed tail' []) = some msg' ∧
              verifyMessageIntegrity c msg' key = true ∧ msg'.username = msg.username ∧
              msg'.hasUseCandidate = msg.hasUseCandidate := by
  intro h
  obtain ⟨msg', hparse, -, -, hcandidate⟩ := h Udp.exchangePrimitives signedCheck (Str.asBytes "p")
    _ rfl rfl signedCheck [] [checkUsername] [] signedCheck_signedAs appendedCandidate (by decide)
    (by decide)
  cases hparse
  cases hcandidate

end LightLivechat.Transport.Stun
