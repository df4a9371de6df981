/-! Byte strings with big-endian fields.  Reads past the end give zero bytes, so
a reader states its own bound where it relies on one. -/

namespace LightLivechat.Lib.Bytes

abbrev U8 := BitVec 8
abbrev U16 := BitVec 16
abbrev U32 := BitVec 32
abbrev Bytes := List U8

def byteAt (b : Bytes) (i : Nat) : U8 := b.getD i 0

def be16 (b : Bytes) (i : Nat) : U16 := byteAt b i ++ byteAt b (i + 1)

def be32 (b : Bytes) (i : Nat) : U32 := be16 b i ++ be16 b (i + 2)

def toBe16 (x : U16) : Bytes := [x.extractLsb' 8 8, x.extractLsb' 0 8]

def toBe32 (x : U32) : Bytes := toBe16 (x.extractLsb' 16 16) ++ toBe16 (x.extractLsb' 0 16)

/-- Overwrite `src.length` bytes of `b` from offset `i` on. -/
def write (b : Bytes) (i : Nat) (src : Bytes) : Bytes :=
  b.take i ++ src ++ b.drop (i + src.length)

/-- The `n` bytes from offset `i` on. -/
def slice (b : Bytes) (i n : Nat) : Bytes := (b.drop i).take n

@[simp] theorem length_toBe16 (x : U16) : (toBe16 x).length = 2 := rfl

@[simp] theorem length_toBe32 (x : U32) : (toBe32 x).length = 4 := rfl

theorem length_write {b : Bytes} {i : Nat} {src : Bytes} (h : i + src.length ≤ b.length) :
    (write b i src).length = b.length := by
  simp only [write, List.length_append, List.length_take, List.length_drop]
  omega

theorem write_write_cons {b : Bytes} {i : Nat} (x : U8) (src : Bytes) (h : i < b.length) :
    write (write b i [x]) (i + 1) src = write b i (x :: src) := by
  have hi : (b.take i ++ [x]).length = i + 1 := by simp; omega
  have hend : i + (x :: src).length = i + 1 + src.length := by simp; omega
  rw [write, write, write, List.take_left' hi, List.drop_append, List.drop_of_length_le (by omega),
    hi, hend, List.nil_append, List.length_singleton, List.drop_drop]
  simp

theorem write_last (b : Bytes) (n : Nat) (x y : U8) :
    write (b ++ List.replicate (n + 1) x) ((b ++ List.replicate (n + 1) x).length - 1) [y] =
      b ++ (List.replicate n x ++ [y]) := by
  have hlast : b ++ List.replicate (n + 1) x = (b ++ List.replicate n x) ++ [x] := by
    rw [List.replicate_succ', List.append_assoc]
  rw [hlast, List.length_append, List.length_singleton, Nat.add_sub_cancel, write,
    List.take_left' rfl, List.drop_of_length_le (by simp [Nat.add_assoc]), List.append_nil,
    List.append_assoc]

@[simp] theorem byteAt_append_left {a : Bytes} (b : Bytes) {i : Nat} (h : i < a.length) :
    byteAt (a ++ b) i = byteAt a i := by
  simp [byteAt, List.getD_eq_getElem?_getD, List.getElem?_append_left h]

theorem byteAt_append_right {a : Bytes} (b : Bytes) {i : Nat} (h : a.length ≤ i) :
    byteAt (a ++ b) i = byteAt b (i - a.length) := by
  simp [byteAt, List.getD_eq_getElem?_getD, List.getElem?_append_right h]

theorem byteAt_drop (b : Bytes) (n i : Nat) : byteAt (b.drop n) i = byteAt b (n + i) := by
  simp [byteAt, List.getD_eq_getElem?_getD, List.getElem?_drop]

theorem byteAt_take {b : Bytes} {n i : Nat} (h : i < n) : byteAt (b.take n) i = byteAt b i := by
  simp [byteAt, List.getD_eq_getElem?_getD, h]

theorem length_slice {b : Bytes} {i n : Nat} (h : i + n ≤ b.length) : (slice b i n).length = n := by
  simp only [slice, List.length_take, List.length_drop]
  omega

theorem slice_append (a b c : Bytes) : slice (a ++ b ++ c) a.length b.length = b := by
  simp [slice]

theorem byteAt_write {b : Bytes} {i j : Nat} {src : Bytes} (h : i + src.length ≤ b.length) :
    byteAt (write b i src) j =
      if i ≤ j ∧ j < i + src.length then byteAt src (j - i) else byteAt b j := by
  have hi : (b.take i).length = i := by simp; omega
  unfold write
  by_cases hlt : j < i
  · rw [List.append_assoc, byteAt_append_left _ (by omega), byteAt_take hlt, if_neg (by omega)]
  · rw [List.append_assoc, byteAt_append_right _ (by omega), hi]
    by_cases hin : j < i + src.length
    · rw [byteAt_append_left _ (by omega), if_pos (by omega)]
    · rw [byteAt_append_right _ (by omega), byteAt_drop, if_neg (by omega)]
      congr 1
      omega

theorem drop_write {b : Bytes} {i n : Nat} {src : Bytes} (h : i + src.length ≤ b.length)
    (hn : i + src.length ≤ n) : (write b i src).drop n = b.drop n := by
  have hlen : (b.take i ++ src).length = i + src.length := by
    rw [List.length_append, List.length_take, Nat.min_eq_left (by omega)]
  rw [write, List.drop_append, hlen, List.drop_eq_nil_of_le (by omega), List.nil_append,
    List.drop_drop, Nat.add_sub_cancel' hn]

theorem be16_append_left {a : Bytes} (b : Bytes) {i : Nat} (h : i + 2 ≤ a.length) :
    be16 (a ++ b) i = be16 a i := by
  rw [be16, be16, byteAt_append_left b (by omega), byteAt_append_left b (by omega)]

theorem be32_append_left {a : Bytes} (b : Bytes) {i : Nat} (h : i + 4 ≤ a.length) :
    be32 (a ++ b) i = be32 a i := by
  rw [be32, be32, be16_append_left b (by omega), be16_append_left b (by omega)]

theorem be16_append_right {a : Bytes} (b : Bytes) {i : Nat} (h : a.length ≤ i) :
    be16 (a ++ b) i = be16 b (i - a.length) := by
  rw [be16, be16, byteAt_append_right b h, byteAt_append_right b (by omega)]
  congr 2
  omega

theorem be32_append_right {a : Bytes} (b : Bytes) {i : Nat} (h : a.length ≤ i) :
    be32 (a ++ b) i = be32 b (i - a.length) := by
  rw [be32, be32, be16_append_right b h, be16_append_right b (by omega)]
  congr 2
  omega

section

variable (a b : Bytes) {p : Bytes} {i : Nat}

theorem byteAt_append_mid (h : i < p.length) :
    byteAt (a ++ (p ++ b)) (a.length + i) = byteAt p i := by
  rw [byteAt_append_right _ (by omega), Nat.add_sub_cancel_left, byteAt_append_left _ h]

theorem be16_append_mid (h : i + 2 ≤ p.length) :
    be16 (a ++ (p ++ b)) (a.length + i) = be16 p i := by
  rw [be16_append_right _ (by omega), Nat.add_sub_cancel_left, be16_append_left _ h]

theorem be32_append_mid (h : i + 4 ≤ p.length) :
    be32 (a ++ (p ++ b)) (a.length + i) = be32 p i := by
  rw [be32_append_right _ (by omega), Nat.add_sub_cancel_left, be32_append_left _ h]

end

theorem be16_drop (b : Bytes) (n i : Nat) : be16 (b.drop n) i = be16 b (n + i) := by
  simp only [be16, byteAt_drop, Nat.add_assoc]

theorem be32_drop (b : Bytes) (n i : Nat) : be32 (b.drop n) i = be32 b (n + i) := by
  simp only [be32, be16_drop, Nat.add_assoc]

theorem be16_take {b : Bytes} {n i : Nat} (h : i + 2 ≤ n) : be16 (b.take n) i = be16 b i := by
  rw [be16, be16, byteAt_take (by omega), byteAt_take (by omega)]

theorem be32_take {b : Bytes} {n i : Nat} (h : i + 4 ≤ n) : be32 (b.take n) i = be32 b i := by
  rw [be32, be32, be16_take (by omega), be16_take (by omega)]

@[simp] theorem be16_toBe16 (x : U16) : be16 (toBe16 x) 0 = x := by
  apply BitVec.eq_of_getLsbD_eq
  intro i hi
  simp only [be16, toBe16, byteAt, List.getD_cons_zero, List.getD_cons_succ,
    BitVec.getLsbD_append, BitVec.getLsbD_extractLsb']
  split <;> rename_i h
  · simp [h]
  · rw [show 8 + (i - 8) = i by omega]
    simp [show i - 8 < 8 by omega]

@[simp] theorem be32_toBe32 (x : U32) : be32 (toBe32 x) 0 = x := by
  have hl : be16 (toBe32 x) 0 = x.extractLsb' 16 16 := by
    rw [toBe32, be16_append_left _ (by simp), be16_toBe16]
  have hr : be16 (toBe32 x) 2 = x.extractLsb' 0 16 := by
    rw [toBe32, be16_append_right _ (by simp)]
    exact be16_toBe16 _
  apply BitVec.eq_of_getLsbD_eq
  intro i hi
  rw [be32, hl, hr]
  simp only [BitVec.getLsbD_append, BitVec.getLsbD_extractLsb']
  split <;> rename_i h
  · simp [h]
  · rw [show 16 + (i - 16) = i by omega]
    simp [show i - 16 < 16 by omega]

theorem byteAt_eq_getElem {b : Bytes} {i : Nat} (h : i < b.length) : byteAt b i = b[i] := by
  rw [byteAt, List.getD_eq_getElem?_getD, List.getElem?_eq_getElem h, Option.getD_some]

theorem eq_of_byteAt {a b : Bytes} (hlen : a.length = b.length)
    (h : ∀ i < a.length, byteAt a i = byteAt b i) : a = b := by
  refine List.ext_getElem hlen fun i ha hb => ?_
  rw [← byteAt_eq_getElem ha, ← byteAt_eq_getElem hb, h i ha]

theorem slice_append_slice (b : Bytes) (i m n : Nat) :
    slice b i m ++ slice b (i + m) n = slice b i (m + n) := by
  rw [slice, slice, slice, List.take_add, List.drop_drop]

theorem slice_append_drop (b : Bytes) (i n : Nat) : slice b i n ++ b.drop (i + n) = b.drop i := by
  rw [slice, ← List.drop_drop, List.take_append_drop]

theorem toBe16_be16 {b : Bytes} {i : Nat} (h : i + 2 ≤ b.length) :
    toBe16 (be16 b i) = slice b i 2 := by
  have hhi : (be16 b i).extractLsb' 8 8 = byteAt b i := by
    rw [be16, BitVec.extractLsb'_append_eq_of_le (Nat.le_refl 8)]
    simp
  have hlo : (be16 b i).extractLsb' 0 8 = byteAt b (i + 1) := by
    rw [be16, BitVec.extractLsb'_append_eq_of_add_le (by omega)]
    simp
  rw [toBe16, hhi, hlo, slice, byteAt_eq_getElem (by omega), byteAt_eq_getElem (by omega),
    List.drop_eq_getElem_cons (by omega), List.drop_eq_getElem_cons (by omega)]
  rfl

theorem byteAt_of_be16 {b : Bytes} {i k : Nat} (h : i + 2 ≤ b.length) (hk : k < 2) :
    byteAt b (i + k) = byteAt (toBe16 (be16 b i)) k := by
  rw [toBe16_be16 h, slice, byteAt_take hk, byteAt_drop]

theorem toBe32_be32 {b : Bytes} {i : Nat} (h : i + 4 ≤ b.length) :
    toBe32 (be32 b i) = slice b i 4 := by
  have hhi : (be32 b i).extractLsb' 16 16 = be16 b i := by
    rw [be32, BitVec.extractLsb'_append_eq_of_le (Nat.le_refl 16)]
    simp
  have hlo : (be32 b i).extractLsb' 0 16 = be16 b (i + 2) := by
    rw [be32, BitVec.extractLsb'_append_eq_of_add_le (by omega)]
    simp
  rw [toBe32, hhi, hlo, toBe16_be16 (by omega), toBe16_be16 (by omega), slice_append_slice]

theorem toList_ofFn_byteAt {b : Bytes} {i n : Nat} (h : i + n ≤ b.length) :
    (Vector.ofFn fun k : Fin n => byteAt b (i + k)).toList = slice b i n := by
  apply List.ext_getElem
  · rw [Vector.length_toList, length_slice h]
  · intro k hk _
    rw [Vector.length_toList] at hk
    simp only [slice, Vector.getElem_toList, Vector.getElem_ofFn, List.getElem_take,
      List.getElem_drop]
    exact byteAt_eq_getElem (by omega)

theorem be32_slice {b : Bytes} {i n k : Nat} (h : k + 4 ≤ n) :
    be32 (slice b i n) k = be32 b (i + k) := by rw [slice, be32_take h, be32_drop]

theorem byteAt_write_in {b : Bytes} {i k : Nat} {src : Bytes} (h : i + src.length ≤ b.length)
    (hk : k < src.length) : byteAt (write b i src) (i + k) = byteAt src k := by
  rw [byteAt_write h, if_pos (by omega), Nat.add_sub_cancel_left]

theorem be16_write_in {b : Bytes} {i k : Nat} {src : Bytes} (h : i + src.length ≤ b.length)
    (hk : k + 2 ≤ src.length) : be16 (write b i src) (i + k) = be16 src k := by
  rw [be16, be16, byteAt_write_in h (by omega), Nat.add_assoc, byteAt_write_in h (by omega)]

theorem be32_write_in {b : Bytes} {i k : Nat} {src : Bytes} (h : i + src.length ≤ b.length)
    (hk : k + 4 ≤ src.length) : be32 (write b i src) (i + k) = be32 src k := by
  rw [be32, be32, be16_write_in h (by omega), Nat.add_assoc, be16_write_in h (by omega)]

theorem be16_write_same {b : Bytes} {i : Nat} {x : U16} (h : i + 2 ≤ b.length) :
    be16 (write b i (toBe16 x)) i = x :=
  (be16_write_in (k := 0) h (by simp)).trans (be16_toBe16 x)

theorem be32_write_same {b : Bytes} {i : Nat} {x : U32} (h : i + 4 ≤ b.length) :
    be32 (write b i (toBe32 x)) i = x :=
  (be32_write_in (k := 0) h (by simp)).trans (be32_toBe32 x)

theorem be16_write_disjoint {b : Bytes} {i j : Nat} {src : Bytes} (h : i + src.length ≤ b.length)
    (hd : j + 2 ≤ i ∨ i + src.length ≤ j) : be16 (write b i src) j = be16 b j := by
  rw [be16, be16, byteAt_write h, byteAt_write h, if_neg (by omega), if_neg (by omega)]

theorem be32_write_disjoint {b : Bytes} {i j : Nat} {src : Bytes} (h : i + src.length ≤ b.length)
    (hd : j + 4 ≤ i ∨ i + src.length ≤ j) : be32 (write b i src) j = be32 b j := by
  rw [be32, be32, be16_write_disjoint h (by omega), be16_write_disjoint h (by omega)]

/-- A list that commutes with `s` and is a multiple of it long repeats `s`. -/
theorem eq_flatten_replicate {α : Type} {s e : List α} {n : Nat} (h : s ++ e = e ++ s)
    (hlen : e.length = n * s.length) : e = (List.replicate n s).flatten := by
  induction n generalizing e with
  | zero => exact List.eq_nil_of_length_eq_zero (by omega)
  | succ n ih =>
    rw [Nat.succ_mul] at hlen
    obtain ⟨rest, rfl⟩ : s <+: e :=
      List.prefix_of_prefix_length_le ⟨e, h⟩ (List.prefix_append e s) (by omega)
    rw [List.append_assoc] at h
    rw [List.length_append] at hlen
    have hrest : rest = (List.replicate n s).flatten := ih (List.append_cancel_left h) (by omega)
    rw [List.replicate_succ, List.flatten_cons, ← hrest]

theorem append_flatten_replicate {α : Type} (s : List α) (n : Nat) :
    s ++ (List.replicate n s).flatten = (List.replicate n s).flatten ++ s := by
  rw [← List.flatten_cons, ← List.replicate_succ, List.replicate_succ', List.flatten_concat]

end LightLivechat.Lib.Bytes
