import LightLivechat.Lib.Bytes
import Mathlib.Data.List.AList
import Mathlib.Data.List.Induction

/-! Types of the standard library and its companions: socket addresses and
concurrent hash maps.  A map's iteration order is whatever its entry list gives. -/

namespace LightLivechat.Lib.Std

open LightLivechat.Lib.Bytes

inductive SocketAddr where
  | v4 (ip : U32) (port : U16)
  | v6 (ip : BitVec 128) (port : U16) (flowinfo scopeId : U32)
  deriving DecidableEq

namespace Str

def asBytes (s : String) : Bytes := s.toUTF8.data.toList.map fun x => x.toBitVec

def fromUtf8 (b : Bytes) : Option String :=
  String.fromUTF8? ⟨(b.map fun x => UInt8.ofBitVec x).toArray⟩

end Str

abbrev DashMap (κ β : Type) := AList fun _ : κ => β

namespace DashMap

variable {κ β : Type} [DecidableEq κ]

def values (m : DashMap κ β) : List β := m.entries.map fun e => e.2

theorem mem_values {m : DashMap κ β} {k : κ} {b : β} (h : m.lookup k = some b) :
    b ∈ values m := List.mem_map.mpr ⟨⟨k, b⟩, AList.mem_lookup_iff.mp h, rfl⟩

theorem exists_lookup_of_mem_values {m : DashMap κ β} {b : β} (h : b ∈ values m) :
    ∃ k, m.lookup k = some b := by
  obtain ⟨e, he, rfl⟩ := List.mem_map.mp h
  exact ⟨e.1, AList.mem_lookup_iff.mpr he⟩

theorem mem_iff_lookup {m : DashMap κ β} {k : κ} : k ∈ m ↔ ∃ b, m.lookup k = some b := by
  rw [← AList.lookup_isSome, Option.isSome_iff_exists]

theorem lookup_insert' (m : DashMap κ β) (k k' : κ) (b : β) :
    (m.insert k b).lookup k' = if k' = k then some b else m.lookup k' := by
  split
  · subst_vars
    exact AList.lookup_insert m
  · exact AList.lookup_insert_ne ‹_›

theorem lookup_erase' (m : DashMap κ β) (k k' : κ) :
    (m.erase k).lookup k' = if k' = k then none else m.lookup k' := by
  split
  · subst_vars
    exact AList.lookup_erase _ m
  · exact AList.lookup_erase_ne ‹_›

theorem lookup_erase_some {m : DashMap κ β} {k k' : κ} {b : β}
    (h : (m.erase k).lookup k' = some b) : m.lookup k' = some b := by
  rw [lookup_erase'] at h
  split at h
  · cases h
  · exact h

theorem lookup_erase_eq_some {m : DashMap κ β} {k k' : κ} {b : β} :
    (m.erase k).lookup k' = some b ↔ m.lookup k' = some b ∧ k' ≠ k := by
  rw [lookup_erase']
  split <;> simp [*]

/-- `entry(k).or_default().push(b)`. -/
def push (m : DashMap κ (List β)) (k : κ) (b : β) : DashMap κ (List β) :=
  m.insert k ((m.lookup k).getD [] ++ [b])

theorem lookup_foldl_push {α : Type} (key : α → κ) (xs : List α) (k : κ) :
    (xs.foldl (fun m x => push m (key x) x) ∅).lookup k =
      if xs.filter (fun x => key x = k) = [] then none
      else some (xs.filter fun x => key x = k) := by
  induction xs using List.reverseRecOn with
  | nil => simp
  | append_singleton xs x ih =>
    rw [List.foldl_append, List.foldl_cons, List.foldl_nil, push, lookup_insert',
      List.filter_append]
    by_cases hk : k = key x
    · subst hk
      have hold : ((xs.foldl (fun m x => push m (key x) x) ∅).lookup (key x)).getD [] =
          xs.filter fun y => key y = key x := by
        rw [ih]
        split <;> rename_i h
        · exact h.symm
        · rfl
      simp [hold]
    · rw [if_neg hk, ih]
      simp [Ne.symm hk]

end DashMap

end LightLivechat.Lib.Std
