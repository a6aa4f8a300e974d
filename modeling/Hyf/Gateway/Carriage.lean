import Hyf.Gateway.Mesh
import Hyf.Link.Carrier

/-!
# Packets of other networks in a mesh

A packet that is wrapped at one gateway and unwrapped at another is the same packet. What the mesh changes of
an envelope is its hop limit, which no carrier looks at, and so an envelope that is delivered is taken apart
just as the one that was submitted (`Mesh.carries_packets`).
-/

namespace Hyf

section

variable (envelope : HyfEnvelopeRef) (hopLimit : UInt8)

theorem Bitchat.unwrapBitchatPacket_withHopLimit :
    unwrapBitchatPacket { envelope with hopLimit } = unwrapBitchatPacket envelope :=
  Carrier.unwrap_withHopLimit _ _ fun _ => rfl

theorem Rns.unwrapRnsPacket_withHopLimit :
    unwrapRnsPacket { envelope with hopLimit } = unwrapRnsPacket envelope := by
  rw [unwrapRnsPacket_eq, unwrapRnsPacket_eq]
  exact Carrier.unwrap_withHopLimit _ _ fun _ => rfl

theorem Bridge.unwrapBridgeMessage_withHopLimit :
    unwrapBridgeMessage { envelope with hopLimit } = unwrapBridgeMessage envelope := by
  rw [unwrapBridgeMessage_eq, unwrapBridgeMessage_eq]
  exact Carrier.unwrap_withHopLimit _ _ fun _ => rfl

theorem Lxmf.unwrapLxmfMessage_withHopLimit :
    unwrapLxmfMessage { envelope with hopLimit } = unwrapLxmfMessage envelope :=
  Carrier.unwrap_withHopLimit _ _ fun _ => rfl

end

namespace Mesh

variable {ι : Type} {maxLinks maxSeen storeCapacity : ι → ℕ}

/-- **A mesh carries packets unchanged**, in every run. For every envelope that is delivered, one was
submitted before, and a carrier takes some bytes out of the delivered envelope exactly if it had put these
bytes into the submitted one. -/
theorem carries_packets [DecidableEq ι] {configs : ∀ node, GatewayConfig (maxLinks node)}
    {mesh : Mesh ι maxLinks maxSeen storeCapacity} (h : Run configs mesh)
    {before after : List (ι × MeshEvent)} {node : ι} {envelope : HyfEnvelopeRef}
    (hdelivered : mesh.history = before ++ (node, .delivered envelope) :: after) :
    ∃ source submitted, (source, .submitted submitted) ∈ before ∧
      (∀ raw, Bitchat.unwrapBitchatPacket envelope = .ok raw ↔
        ∃ params, Bitchat.wrapBitchatPacket raw params = .ok submitted) ∧
      (∀ raw, Rns.unwrapRnsPacket envelope = .ok raw ↔
        ∃ packet params, packet.raw = raw ∧ Rns.wrapRnsPacket packet params = .ok submitted) ∧
      (∀ raw, Bridge.unwrapBridgeMessage envelope = .ok raw ↔
        ∃ params, Bridge.wrapBridgeMessage raw params = .ok submitted) ∧
      ∀ raw, Lxmf.unwrapLxmfMessage envelope = .ok raw ↔
        ∃ params addressed, Lxmf.wrapLxmfMessage raw params = .ok addressed ∧
          submitted = { addressed with destination := submitted.destination } := by
  obtain ⟨source, submitted, _, _, hmem, -, hloses, -⟩ := h.accountable.exists_submitted hdelivered
  refine ⟨source, submitted, hmem, ?_, ?_, ?_, ?_⟩
  · intro raw
    rw [hloses.same, Bitchat.unwrapBitchatPacket_withHopLimit]
    exact Bitchat.unwrapBitchatPacket_eq_ok_iff
  · intro raw
    rw [hloses.same, Rns.unwrapRnsPacket_withHopLimit]
    exact Rns.unwrapRnsPacket_eq_ok_iff
  · intro raw
    rw [hloses.same, Bridge.unwrapBridgeMessage_withHopLimit]
    exact Bridge.unwrapBridgeMessage_eq_ok_iff
  · intro raw
    rw [hloses.same, Lxmf.unwrapLxmfMessage_withHopLimit]
    exact Lxmf.unwrapLxmfMessage_eq_ok_iff

theorem lineDelivered_carries_packet :
    ∃ source submitted, (source, .submitted submitted) ∈ lineDelivered.history.dropLast ∧
      ∃ packet params, packet.raw = linePacket ∧ Rns.wrapRnsPacket packet params = .ok submitted := by
  obtain ⟨source, submitted, hmem, -, hrns, -⟩ := carries_packets run_lineDelivered lineDelivered_history
  exact ⟨source, submitted, hmem, (hrns linePacket).mp (by decide +kernel)⟩

end Mesh

end Hyf
