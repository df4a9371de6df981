import LightLivechat.Transport.Udp

/-! The open channels of a worker's DTLS map, and what the STUN and DTLS handlers do to them.
Whether a closed channel has been swept out already makes no difference to these. -/

namespace LightLivechat.Transport.Udp

open LightLivechat.Lib LightLivechat.Lib.Bytes LightLivechat.Lib.Std
open LightLivechat.Room (Ref PcType)
open LightLivechat.Transport.Stun (Primitives)

namespace DtlsSessionMap

/-- What has been put into the open channel of an address. -/
def opened (m : DtlsSessionMap) (addr : SocketAddr) : Option (List Bytes) :=
  (m.lookup addr).bind fun tx => if tx.closed then none else some tx.queue

variable {m : DtlsSessionMap} {addr : SocketAddr} {queue : List Bytes}

theorem opened_insert (m : DtlsSessionMap) (addr addr' : SocketAddr) (tx : DtlsPacketTx) :
    DtlsSessionMap.opened (m.insert addr tx) addr' =
      if addr' = addr then (if tx.closed then none else some tx.queue) else m.opened addr' := by
  unfold opened
  rw [DashMap.lookup_insert']
  split <;> rfl

theorem inject_eq (m : DtlsSessionMap) (addr : SocketAddr) (data : Bytes) :
    m.inject addr data = match m.opened addr with
      | some queue => (m.insert addr ⟨queue ++ [data], false⟩, true)
      | none => (m, false) := by
  unfold inject opened
  cases m.lookup addr with
  | none => rfl
  | some tx =>
    obtain ⟨queue, _ | _⟩ := tx <;> rfl

theorem has_eq_false : m.has addr = false ↔ m.lookup addr = none := by
  simp [has]

theorem removeStale_opened (m : DtlsSessionMap) (addr : SocketAddr) :
    m.removeStale.opened addr = m.opened addr := by
  refine List.foldlRecOn (motive := fun m' : DtlsSessionMap => m'.opened addr = m.opened addr) _ _
    rfl fun m' hm' e he => ?_
  obtain ⟨he, hclosed⟩ := List.mem_filter.mp he
  unfold opened
  rw [DashMap.lookup_erase']
  split
  · rename_i heq
    rw [heq, AList.mem_lookup_iff.mpr he]
    exact (if_pos hclosed).symm
  · exact hm'

end DtlsSessionMap

namespace Server

variable (s : Server) (worker : Nat) (remote : SocketAddr)

theorem handleStun_channels (c : Primitives) (buf : Bytes) (now : Nat) :
    ((s.handleStun c worker buf remote now).dtlsMap = s.dtlsMap ∧
        (s.handleStun c worker buf remote now).handshakes = s.handshakes) ∨
      ((s.dtlsMap worker).lookup remote = none ∧
        (s.handleStun c worker buf remote now).dtlsMap = Function.update s.dtlsMap worker
          ((s.dtlsMap worker).insert remote ⟨[], false⟩) ∧
        ∃ p pc, (s.handleStun c worker buf remote now).handshakes =
          s.handshakes ++ [⟨remote, p, pc⟩]) := by
  generalize hr : s.handleStun c worker buf remote now = r
  unfold handleStun at hr
  split at hr
  · exact .inl ⟨by rw [← hr], by rw [← hr]⟩
  · split at hr
    · exact .inl ⟨by rw [← hr], by rw [← hr]⟩
    · split at hr
      · exact .inl ⟨by rw [← hr], by rw [← hr]⟩
      · split at hr
        · exact .inl ⟨by rw [← hr], by rw [← hr]⟩
        · rename_i heap hub p pc hlatch
          dsimp only at hr
          split at hr
          · exact .inl ⟨by rw [← hr], by rw [← hr]⟩
          · split at hr
            · rename_i hstarts
              have hnone := DtlsSessionMap.has_eq_false.mp (Bool.eq_false_iff.mpr hstarts.2)
              exact .inr ⟨hnone, by rw [← hr]; rfl, p, pc, by rw [← hr]; rfl⟩
            · exact .inl ⟨by rw [← hr], by rw [← hr]⟩

/-- DTLS goes into the open channel, or into that of a handshake it starts if its sender is
known. -/
theorem handleDtls_channels (data : Bytes) :
    (∃ queue, (s.dtlsMap worker).opened remote = some queue ∧
      (s.handleDtls worker data remote).dtlsMap = Function.update s.dtlsMap worker
        ((s.dtlsMap worker).insert remote ⟨queue ++ [data], false⟩) ∧
      (s.handleDtls worker data remote).handshakes = s.handshakes) ∨
    ((s.dtlsMap worker).opened remote = none ∧ s.hub.findByAddr remote = none ∧
      s.handleDtls worker data remote = s) ∨
    ((s.dtlsMap worker).opened remote = none ∧
      (s.handleDtls worker data remote).dtlsMap = Function.update s.dtlsMap worker
        ((s.dtlsMap worker).insert remote ⟨[data], false⟩) ∧
      ∃ p pc room, s.hub.findByAddr remote = some (p, pc, room) ∧
        (s.handleDtls worker data remote).handshakes = s.handshakes ++ [⟨remote, p, pc⟩]) := by
  unfold handleDtls
  rw [DtlsSessionMap.inject_eq]
  cases hopen : (s.dtlsMap worker).opened remote with
  | some queue => exact .inl ⟨queue, rfl, rfl, rfl⟩
  | none =>
    cases hfind : s.hub.findByAddr remote with
    | none => exact .inr (.inl ⟨rfl, rfl, rfl⟩)
    | some found =>
      obtain ⟨p, pc, room⟩ := found
      refine .inr (.inr ⟨rfl, ?_, p, pc, room, rfl, rfl⟩)
      simp [startDtlsHandshake, setDtlsMap, DtlsSessionMap.inject_eq,
        DtlsSessionMap.opened_insert]

end Server

end LightLivechat.Transport.Udp
