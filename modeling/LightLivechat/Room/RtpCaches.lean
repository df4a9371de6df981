import LightLivechat.Lib.Serial
import LightLivechat.Room.Participant

/-! What a cache still has of the packets stored in it.  The slots go by remainder and
the sequence numbers by the circle, and the circle is a multiple of the cache, so a
window as long as the cache has a slot for each of its numbers. -/

namespace LightLivechat.Room

open LightLivechat.Lib LightLivechat.Lib.Bytes LightLivechat.Lib.Serial

/-- A packet with its header complete, stored under the number it carries. -/
structure Stored where
  seq : U16
  packet : Bytes
  complete : Config.rtpHeaderMinSize ≤ packet.length
  carries : be16 packet 2 = seq

namespace RtpCache

def after (xs : List Stored) : RtpCache := xs.foldl (fun c x => c.store x.seq x.packet) .new

theorem after_snoc (xs : List Stored) (x : Stored) :
    after (xs ++ [x]) = (after xs).store x.seq x.packet := List.foldl_append

theorem slot_eq_iff {s t : U16} :
    slot s = slot t ↔ s.toNat % Config.rtpCacheSize = t.toNat % Config.rtpCacheSize := Fin.ext_iff

theorem slots_after (xs : List Stored) (i : Fin Config.rtpCacheSize) :
    (after xs).slots i = (Ring.latest (fun x => slot x.seq = i) xs).map Stored.packet := by
  have hput : ∀ c : RtpCache, (xs.foldl (fun c x => c.store x.seq x.packet) c).slots =
      xs.foldl (fun slots x => Ring.put slots (slot x.seq) x.packet) c.slots := by
    induction xs with
    | nil => exact fun c => rfl
    | cons x xs ih => exact fun c => ih (c.store x.seq x.packet)
  rw [after, hput, Ring.foldl_put]
  exact Option.or_none

theorem get_after (xs : List Stored) (s : U16) :
    (after xs).get s = (Ring.latest (fun x => slot x.seq = slot s) xs).bind fun x =>
      if x.seq = s then some x.packet else none := by
  rw [get, slots_after]
  cases Ring.latest (fun x => decide (slot x.seq = slot s)) xs with
  | none => rfl
  | some x => simp [Option.filter_some, x.complete, x.carries]

/-- In a window the packet stored last in a slot is the one stored last under its number. -/
theorem latest_of_window {base : U16} (earlier : List Stored) {xs : List Stored}
    (hxs : ∀ x ∈ xs, InWindow base Config.rtpCacheSize x.seq) {x : Stored} (hx : x ∈ xs) :
    ∃ y, Ring.latest (fun y => y.seq = x.seq) xs = some y ∧
      Ring.latest (fun y => slot y.seq = slot x.seq) (earlier ++ xs) = some y := by
  have hsame : Ring.latest (fun y => decide (slot y.seq = slot x.seq)) xs =
      Ring.latest (fun y => decide (y.seq = x.seq)) xs := by
    refine Ring.latest_congr fun y hy => decide_eq_decide.mpr ⟨fun h => ?_, congrArg slot⟩
    exact (hxs y hy).eq_of_mod_eq (by decide) (hxs x hx) (slot_eq_iff.mp h)
  obtain ⟨y, hy⟩ := Ring.exists_latest (p := fun y => decide (y.seq = x.seq)) hx (by simp)
  exact ⟨y, hy, by rw [Ring.latest_append, hsame, hy, Option.some_or]⟩

/-- A number is answered with what was stored last in its slot, or not at all; and after
stores from one window, whatever came before them, all their numbers are answered. -/
theorem cache_holds_window :
    (∀ xs s, (after xs).get s =
      (Ring.latest (fun x => x.seq.toNat % Config.rtpCacheSize = s.toNat % Config.rtpCacheSize)
        xs).bind fun x => if x.seq = s then some x.packet else none) ∧
    ∀ earlier xs base, (∀ x ∈ xs, InWindow base Config.rtpCacheSize x.seq) → ∀ x ∈ xs,
      ∃ y, Ring.latest (fun y => y.seq = x.seq) xs = some y ∧
        (after (earlier ++ xs)).get x.seq = some y.packet := by
  refine ⟨fun xs s => ?_, fun earlier xs base hxs x hx => ?_⟩
  · rw [get_after]
    simp only [slot_eq_iff]
  · obtain ⟨y, hy, hslot⟩ := latest_of_window earlier hxs hx
    have hseq : y.seq = x.seq := of_decide_eq_true (Ring.latest_some hy).2
    refine ⟨y, hy, ?_⟩
    rw [get_after, hslot, Option.bind_some, if_pos hseq]

example : InWindow 65300#16 Config.rtpCacheSize 65535 ∧
    InWindow 65300#16 Config.rtpCacheSize 200 := by decide

end RtpCache

end LightLivechat.Room
