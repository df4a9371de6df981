import LightLivechat.Sfu.Activity
import LightLivechat.Sfu.Delivery

/-! Who has left is out for good.  Nothing more is taken from a participant that is in no room,
nothing more is queued for it, and no handshake of its is started; what waited may still be
sent. -/

namespace LightLivechat.Sfu

open LightLivechat.Config LightLivechat.Lib LightLivechat.Lib.Bytes LightLivechat.Lib.Std
open LightLivechat.Lib.Runs
open LightLivechat.Room (Heap Ref Participant PcType Room RoomHub EgressPacket)
open LightLivechat.Transport LightLivechat.Transport.Srtp
open LightLivechat.Transport.Udp (Handshake Instant)

namespace State

variable {P : Platform}

/-- The participant has been, and no room has it any more. -/
structure Departed (p : Ref) (s : State P) : Prop where
  lt : p < s.next
  nowhere : ∀ r, ¬ s.rooms.Member r p

section

variable {s s' : State P} {l : Label} {labels : List Label} {p : Ref}

theorem Departed.step (hd : Departed p s) (hinv : s.Inv) (h : s.step l = some s') :
    Departed p s' where
  lt := Nat.lt_of_lt_of_le hd.lt ((step_stepped h).kept hinv).le
  nowhere := fun r hm => hd.nowhere r (((step_stepped h).kept hinv).member hd.lt hm)

theorem Departed.unheard (hd : Departed p s) (hinv : s.Inv) {m : Media} (h : s.heard l = some m) :
    m.source.1 ≠ p := by
  rintro rfl
  cases l with
  | datagram =>
    obtain ⟨hroom, hp, -⟩ := hinv.member h
    exact hd.nowhere _ ⟨_, _, hroom, hp⟩
  | _ => cases h

theorem Departed.offers (hd : Departed p s) (hinv : s.Inv) : s.offers p l = [] := by
  cases h : s.heard l with
  | none => exact offers_eq_nil h
  | some m =>
    cases l with
    | datagram worker data remote now arrival =>
      have hnot : ∀ userId, ¬ Hears s.heap m.source.2.2 userId p := by
        rintro userId ⟨hp, -⟩
        obtain ⟨u, hu⟩ := DashMap.exists_lookup_of_mem_values hp
        exact hd.nowhere _ ⟨_, u, (hinv.member h).1, hu⟩
      have hsource := hd.unheard hinv h
      cases m with dsimp only [Media.source] at hnot hsource
      | rtp => simp only [State.offers, h, if_neg (hnot _)]
      | rtcp => simp only [State.offers, h, if_neg (hnot _), ite_self]
      | feedback => simp only [State.offers, h, if_neg (Ne.symm hsource)]
    | _ => cases h

theorem Departed.seen (hd : Departed p s) (hinv : s.Inv) : s.seen p l = [] :=
  seen_eq_nil fun _ h => (hinv.heardOf_member h).elim hd.nowhere

theorem Departed.queue (hd : Departed p s) (hinv : s.Inv) (h : s.step l = some s') :
    s.handed p l ++ (s'.heap p).egress = (s.heap p).egress := by
  have haccepted : Channel.accepted egressQueueSize (s.heap p).egress (s.egressOps p l) = [] := by
    cases l with
    | egress q =>
      unfold egressOps
      dsimp only
      split <;> rfl
    | _ => simp only [egressOps, hd.offers hinv, List.map_nil]; rfl
  rw [(step_stepped h).egress hinv p, ← taken_egressOps, Channel.taken_append_waiting, haccepted,
    List.append_nil]

end

end State

end LightLivechat.Sfu
