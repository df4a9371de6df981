import LightLivechat.Lib.Bytes

/-! The payload descriptor in front of VP8 data: one octet, then, as its flags say, an
octet of further flags and the fields these announce. -/

namespace LightLivechat.Lib.Vp8

open LightLivechat.Lib.Bytes

variable {α β : Type}

/-- Reads a field off the front of a byte string. -/
abbrev Field (α : Type) := Bytes → Option (α × Bytes)

def octet : Field U8
  | [] => none
  | x :: b => some (x, b)

def done (x : α) : Field α := fun b => some (x, b)

def andThen (field : Field α) (next : α → Field β) : Field β := fun b =>
  (field b).bind fun x => next x.1 x.2

/-- A field that is there only if a flag says so. -/
def whenSet (flag : Bool) (field : Field α) : Field (Option α) :=
  if flag then andThen field fun x => done (some x) else done none

/-- One octet, or two when the first one's top bit is set. -/
def pictureId : Field U16 :=
  andThen octet fun x =>
    if x &&& 0x80 = 0 then done (x.setWidth 16) else andThen octet fun y => done ((x &&& 0x7F) ++ y)

structure Descriptor where
  nonReference : Bool
  start : Bool
  partition : BitVec 3
  pictureId : Option U16
  tl0PicIdx : Option U8
  layer : Option U8
  deriving DecidableEq

/-- The descriptor a payload starts with; the VP8 data comes after it. -/
def readDescriptor : Field Descriptor :=
  andThen octet fun first =>
  andThen (whenSet (first &&& 0x80 ≠ 0) octet) fun second =>
  let flags := second.getD 0
  andThen (whenSet (flags &&& 0x80 ≠ 0) pictureId) fun pictureId =>
  andThen (whenSet (flags &&& 0x40 ≠ 0) octet) fun tl0PicIdx =>
  andThen (whenSet (flags &&& 0x30 ≠ 0) octet) fun layer =>
  done {
    nonReference := first &&& 0x20 ≠ 0
    start := first &&& 0x10 ≠ 0
    partition := first.extractLsb' 0 3
    pictureId := pictureId
    tl0PicIdx := tl0PicIdx
    layer := layer }

/-- The flags of the second octet; none are set without it. -/
def flagsOf (b : Bytes) : U8 := if byteAt b 0 &&& 0x80 ≠ 0 then byteAt b 1 else 0

/-- The octets a descriptor takes: the first one, and those its flags announce. -/
def size (b : Bytes) : Nat :=
  1 + ((if byteAt b 0 &&& 0x80 ≠ 0 then 1 else 0) +
    ((if flagsOf b &&& 0x80 ≠ 0 then if byteAt b 2 &&& 0x80 = 0 then 1 else 2 else 0) +
      ((if flagsOf b &&& 0x40 ≠ 0 then 1 else 0) + (if flagsOf b &&& 0x30 ≠ 0 then 1 else 0))))

/-- A field takes `n` octets of a byte string, or fails on fewer. -/
structure Takes (field : Field α) (b : Bytes) (n : Nat) : Prop where
  whole : n ≤ b.length → ∃ x, field b = some (x, b.drop n)
  short : b.length < n → field b = none

section

variable {b : Bytes} {field : Field α} {m n : Nat}

theorem takes_done (x : α) (b : Bytes) : Takes (done x) b 0 :=
  ⟨fun _ => ⟨x, rfl⟩, fun h => absurd h (by simp)⟩

theorem takes_octet (b : Bytes) : Takes octet b 1 := by
  cases b with
  | nil => exact ⟨fun h => absurd h (by simp), fun _ => rfl⟩
  | cons x b => exact ⟨fun _ => ⟨x, rfl⟩, fun h => absurd h (by simp)⟩

theorem octet_some {x : U8} (h : octet b = some (x, b.drop 1)) : x = byteAt b 0 := by
  cases b with
  | nil => cases h
  | cons y b =>
    cases h
    rfl

theorem Takes.andThen (h : Takes field b n) {next : α → Field β}
    (hnext : ∀ x, field b = some (x, b.drop n) → Takes (next x) (b.drop n) m) :
    Takes (andThen field next) b (n + m) := by
  constructor
  · intro hle
    obtain ⟨x, hx⟩ := h.whole (by omega)
    obtain ⟨y, hy⟩ := (hnext x hx).whole (by rw [List.length_drop]; omega)
    exact ⟨y, by rw [Vp8.andThen, hx, Option.bind_some, hy, List.drop_drop]⟩
  · intro hlt
    by_cases hfirst : n ≤ b.length
    · obtain ⟨x, hx⟩ := h.whole hfirst
      rw [Vp8.andThen, hx, Option.bind_some,
        (hnext x hx).short (by rw [List.length_drop]; omega)]
    · rw [Vp8.andThen, h.short (by omega), Option.bind_none]

theorem Takes.whenSet (h : Takes field b n) (flag : Prop) [Decidable flag] :
    Takes (whenSet flag field) b (if flag then n else 0) := by
  by_cases hf : flag
  · rw [if_pos hf, Vp8.whenSet, if_pos (decide_eq_true hf)]
    exact h.andThen fun x _ => takes_done (some x) _
  · rw [if_neg hf, Vp8.whenSet, if_neg (by simpa using hf)]
    exact takes_done none b

theorem takes_pictureId (b : Bytes) :
    Takes pictureId b (if byteAt b 0 &&& 0x80 = 0 then 1 else 2) := by
  have hsplit : (if byteAt b 0 &&& 0x80 = 0 then 1 else 2) =
      1 + (if byteAt b 0 &&& 0x80 = 0 then 0 else 1) := by split <;> rfl
  rw [hsplit]
  refine (takes_octet b).andThen fun x hx => ?_
  rw [octet_some hx]
  split
  · exact takes_done _ _
  · exact (takes_octet _).andThen fun y _ => takes_done _ _

end

theorem whenSet_octet_some {flag : Prop} [Decidable flag] {b rest : Bytes} {x : Option U8}
    (h : whenSet flag octet b = some (x, rest)) :
    x.getD 0 = if flag then byteAt b 0 else 0 := by
  by_cases hf : flag
  · rw [whenSet, if_pos (decide_eq_true hf)] at h
    rw [if_pos hf]
    cases b with
    | nil => cases h
    | cons y b =>
      cases h
      rfl
  · rw [whenSet, if_neg (by simpa using hf)] at h
    rw [if_neg hf]
    cases h
    rfl

theorem takes_readDescriptor (b : Bytes) : Takes readDescriptor b (size b) := by
  obtain ⟨k, hk⟩ : ∃ k, k = if byteAt b 0 &&& 0x80 ≠ 0 then 1 else 0 := ⟨_, rfl⟩
  have hpicture : Takes (whenSet (flagsOf b &&& 0x80 ≠ 0) pictureId) ((b.drop 1).drop k)
      (if flagsOf b &&& 0x80 ≠ 0 then if byteAt b 2 &&& 0x80 = 0 then 1 else 2 else 0) := by
    have htakes := (takes_pictureId ((b.drop 1).drop k)).whenSet (flagsOf b &&& 0x80 ≠ 0)
    by_cases hflag : flagsOf b &&& 0x80 ≠ 0
    · -- a flag can only be set in a second octet
      have hsecond : byteAt b 0 &&& 0x80 ≠ 0 := by
        intro h
        rw [flagsOf, if_neg (fun hn => hn h)] at hflag
        exact hflag rfl
      have htwo : k = 1 := by rw [hk, if_pos hsecond]
      subst htwo
      rw [byteAt_drop, byteAt_drop] at htakes
      exact htakes
    · rwa [if_neg hflag] at htakes ⊢
  refine (takes_octet b).andThen fun first hfirst => ?_
  rw [octet_some hfirst]
  refine ((takes_octet _).whenSet (byteAt b 0 &&& 0x80 ≠ 0)).andThen fun second hsecond => ?_
  have hflags : second.getD 0 = flagsOf b := by
    rw [whenSet_octet_some hsecond, byteAt_drop, flagsOf]
  simp only [hflags, ← hk]
  refine hpicture.andThen fun _ _ => ?_
  refine ((takes_octet _).whenSet (flagsOf b &&& 0x40 ≠ 0)).andThen fun _ _ => ?_
  exact ((takes_octet _).whenSet (flagsOf b &&& 0x30 ≠ 0)).andThen fun _ _ => takes_done _ _

theorem size_of_not_extended {b : Bytes} (h : byteAt b 0 &&& 0x80 = 0) : size b = 1 := by
  have hflags : flagsOf b = 0 := if_neg (fun hn => hn h)
  rw [size, hflags, if_neg (fun hn => hn h)]
  rfl

theorem size_of_extended {b : Bytes} (h : byteAt b 0 &&& 0x80 ≠ 0) :
    size b = 2 + ((if byteAt b 1 &&& 0x80 ≠ 0 then if byteAt b 2 &&& 0x80 = 0 then 1 else 2 else 0) +
      ((if byteAt b 1 &&& 0x40 ≠ 0 then 1 else 0) + (if byteAt b 1 &&& 0x30 ≠ 0 then 1 else 0))) := by
  have hflags : flagsOf b = byteAt b 1 := if_pos h
  rw [size, hflags, if_pos h]
  omega

theorem readDescriptor_first {b rest : Bytes} {d : Descriptor}
    (h : readDescriptor b = some (d, rest)) :
    d.start = decide (byteAt b 0 &&& 0x10 ≠ 0) ∧ d.partition = (byteAt b 0).extractLsb' 0 3 := by
  cases b with
  | nil => cases h
  | cons first b =>
    simp only [readDescriptor, andThen, octet, Option.bind_some, Option.bind_eq_some_iff] at h
    obtain ⟨x, -, y, -, z, -, w, -, hd⟩ := h
    cases hd
    exact ⟨rfl, rfl⟩

end LightLivechat.Lib.Vp8
