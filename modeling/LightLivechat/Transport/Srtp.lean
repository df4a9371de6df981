import LightLivechat.Lib.Bytes

/-! SRTP contexts and where their keys come from.  The contexts of the third-party crate
are taken as they are documented: a context is made of a key and a salt of the profile's
lengths, and every packet may change it. -/

namespace LightLivechat.Transport.Srtp

open LightLivechat.Lib.Bytes

def srtpMasterKeyLen : Nat := 16
def srtpMasterSaltLen : Nat := 14
def srtpKeyMaterialLen : Nat := (srtpMasterKeyLen + srtpMasterSaltLen) * 2

/-- The profile `AES_CM_128_HMAC_SHA1_80`. -/
structure Primitives where
  Context : Type
  new : Bytes → Bytes → Option Context
  decryptRtp : Context → Bytes → Context × Except String Bytes
  decryptRtcp : Context → Bytes → Context × Except String Bytes
  encryptRtp : Context → Bytes → Context × Except String Bytes
  encryptRtcp : Context → Bytes → Context × Except String Bytes
  new_isSome : ∀ key salt, key.length = srtpMasterKeyLen → salt.length = srtpMasterSaltLen →
    (new key salt).isSome

inductive SrtpError where
  | decryptFailed (m : String)
  | encryptFailed (m : String)
  | keyNotInstalled

structure SrtpContext (c : Primitives) where
  inner : Option c.Context

namespace SrtpContext

variable {c : Primitives}

def new : SrtpContext c := ⟨none⟩

/-- A key that is refused leaves the context as it is. -/
def installKey (ctx : SrtpContext c) (key salt : Bytes) : SrtpContext c :=
  match c.new key salt with
  | some inner => ⟨some inner⟩
  | none => ctx

def isReady (ctx : SrtpContext c) : Bool := ctx.inner.isSome

/-- A packet goes through the context, if there is one. -/
def pass (f : c.Context → Bytes → c.Context × Except String Bytes) (failed : String → SrtpError)
    (ctx : SrtpContext c) (packet : Bytes) : SrtpContext c × Except SrtpError Bytes :=
  match ctx.inner with
  | none => (ctx, .error .keyNotInstalled)
  | some inner =>
    let (inner, result) := f inner packet
    (⟨some inner⟩, result.mapError failed)

def decryptRtp : SrtpContext c → Bytes → SrtpContext c × Except SrtpError Bytes :=
  pass c.decryptRtp .decryptFailed

def decryptRtcp : SrtpContext c → Bytes → SrtpContext c × Except SrtpError Bytes :=
  pass c.decryptRtcp .decryptFailed

def encryptRtp : SrtpContext c → Bytes → SrtpContext c × Except SrtpError Bytes :=
  pass c.encryptRtp .encryptFailed

def encryptRtcp : SrtpContext c → Bytes → SrtpContext c × Except SrtpError Bytes :=
  pass c.encryptRtcp .encryptFailed

variable (ctx : SrtpContext c) (packet : Bytes)

theorem pass_isReady (f : c.Context → Bytes → c.Context × Except String Bytes)
    (failed : String → SrtpError) : (ctx.pass f failed packet).1.isReady = ctx.isReady := by
  unfold pass
  split <;> simp [isReady, *]

theorem isReady_installKey {key salt : Bytes} (hkey : key.length = srtpMasterKeyLen)
    (hsalt : salt.length = srtpMasterSaltLen) : (ctx.installKey key salt).isReady = true := by
  obtain ⟨inner, h⟩ := Option.isSome_iff_exists.mp (c.new_isSome key salt hkey hsalt)
  simp [installKey, h, isReady]

theorem isReady_of_pass {f : c.Context → Bytes → c.Context × Except String Bytes}
    {failed : String → SrtpError} {ctx' : SrtpContext c} {plaintext : Bytes}
    (h : ctx.pass f failed packet = (ctx', .ok plaintext)) : ctx.isReady = true := by
  unfold pass at h
  split at h
  · cases h
  · simp [isReady, *]

end SrtpContext

/-- What one end makes of a packet the other turns back, and both stay in step. -/
structure Follows {c : Primitives} (R : c.Context → c.Context → Prop)
    (encrypt decrypt : c.Context → Bytes → c.Context × Except String Bytes) : Prop where
  turned : ∀ {tx rx tx' packet encrypted}, R tx rx → encrypt tx packet = (tx', .ok encrypted) →
    ∃ rx', decrypt rx encrypted = (rx', .ok packet) ∧ R tx' rx'
  refused : ∀ {tx rx tx' packet m}, R tx rx → encrypt tx packet = (tx', .error m) → R tx' rx

/-- How the contexts at the two ends of a session go together: `R` relates those that have
been made of one key and have passed the same packets. -/
structure Matched (c : Primitives) (R : c.Context → c.Context → Prop) : Prop where
  new : ∀ {key salt ctx}, c.new key salt = some ctx → R ctx ctx
  rtp : Follows R c.encryptRtp c.decryptRtp
  rtcp : Follows R c.encryptRtcp c.decryptRtcp

/-- Both ends have no key yet, or contexts that go together. -/
def InStep {c : Primitives} (R : c.Context → c.Context → Prop) (tx rx : SrtpContext c) : Prop :=
  match tx.inner, rx.inner with
  | none, none => True
  | some tx, some rx => R tx rx
  | _, _ => False

section

variable {c : Primitives} {R : c.Context → c.Context → Prop} {tx rx tx' : SrtpContext c}
variable {encrypt decrypt : c.Context → Bytes → c.Context × Except String Bytes}
variable {packet encrypted : Bytes}

theorem InStep.installKey (hnew : ∀ {key salt ctx}, c.new key salt = some ctx → R ctx ctx)
    (h : InStep R tx rx) (key salt : Bytes) :
    InStep R (tx.installKey key salt) (rx.installKey key salt) := by
  unfold SrtpContext.installKey
  cases hctx : c.new key salt with
  | none => exact h
  | some ctx => exact hnew hctx

theorem InStep.turned (h : InStep R tx rx) (hf : Follows R encrypt decrypt)
    {failed failed' : String → SrtpError} (hpass : tx.pass encrypt failed packet = (tx', .ok encrypted)) :
    ∃ rx', rx.pass decrypt failed' encrypted = (rx', .ok packet) ∧ InStep R tx' rx' := by
  obtain ⟨_ | tx⟩ := tx
  · cases hpass
  · obtain ⟨_ | rx⟩ := rx
    · exact h.elim
    · simp only [SrtpContext.pass, Prod.mk.injEq] at hpass
      obtain ⟨htx, hresult⟩ := hpass
      cases hout : encrypt tx packet with
      | mk ctx result =>
        rw [hout] at htx hresult
        cases result with
        | error m => cases hresult
        | ok b =>
          cases hresult
          obtain ⟨rx', hdecrypt, hR⟩ := hf.turned h hout
          subst htx
          exact ⟨⟨some rx'⟩, by simp only [SrtpContext.pass, hdecrypt]; rfl, hR⟩

theorem InStep.refused (h : InStep R tx rx) (hf : Follows R encrypt decrypt)
    {failed : String → SrtpError} {e : SrtpError}
    (hpass : tx.pass encrypt failed packet = (tx', .error e)) : InStep R tx' rx := by
  obtain ⟨_ | tx⟩ := tx
  · cases hpass
    exact h
  · obtain ⟨_ | rx⟩ := rx
    · exact h.elim
    · simp only [SrtpContext.pass, Prod.mk.injEq] at hpass
      obtain ⟨htx, hresult⟩ := hpass
      cases hout : encrypt tx packet with
      | mk ctx result =>
        rw [hout] at htx hresult
        subst htx
        cases result with
        | ok b => cases hresult
        | error m => exact hf.refused h hout

end

structure SrtpKeyMaterial where
  clientKey : Bytes
  serverKey : Bytes
  clientSalt : Bytes
  serverSalt : Bytes

/-- RFC 5764: the two keys come first, then the two salts. -/
def exportSrtpKeys (material : Vector U8 srtpKeyMaterialLen) : SrtpKeyMaterial where
  clientKey := slice material.toList 0 srtpMasterKeyLen
  serverKey := slice material.toList srtpMasterKeyLen srtpMasterKeyLen
  clientSalt := slice material.toList (srtpMasterKeyLen * 2) srtpMasterSaltLen
  serverSalt := material.toList.drop (srtpMasterKeyLen * 2 + srtpMasterSaltLen)

theorem slice_append_drop (b : Bytes) (i n : Nat) : slice b i n ++ b.drop (i + n) = b.drop i := by
  rw [slice, ← List.drop_drop]
  exact List.take_append_drop ..

theorem exportSrtpKeys_parts (material : Vector U8 srtpKeyMaterialLen) :
    let keys := exportSrtpKeys material
    (keys.clientKey.length = srtpMasterKeyLen ∧ keys.serverKey.length = srtpMasterKeyLen ∧
      keys.clientSalt.length = srtpMasterSaltLen ∧ keys.serverSalt.length = srtpMasterSaltLen) ∧
      keys.clientKey ++ (keys.serverKey ++ (keys.clientSalt ++ keys.serverSalt)) =
        material.toList := by
  have hlen : material.toList.length = 60 := Vector.length_toList
  refine ⟨?_, ?_⟩
  · simp [exportSrtpKeys, slice, hlen, srtpMasterKeyLen, srtpMasterSaltLen]
  · simp only [exportSrtpKeys, srtpMasterKeyLen, srtpMasterSaltLen]
    rw [slice_append_drop, slice_append_drop, slice_append_drop, List.drop_zero]

end LightLivechat.Transport.Srtp
