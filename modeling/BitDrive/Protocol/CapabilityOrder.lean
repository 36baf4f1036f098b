import BitDrive.Protocol.Negotiation
import Mathlib.Data.List.Perm.Basic

set_option autoImplicit false

namespace BitDrive

theorem find_perm (first second : CapabilitySet) (distinct : first.NoDuplicates)
    (same : first.capabilities.Perm second.capabilities) (serviceId : String) :
    first.find serviceId = second.find serviceId :=
  Keyed.lookup_perm ServiceCapability.serviceId first.capabilities second.capabilities distinct same
    serviceId

theorem negotiateRemote_congr (first second : CapabilitySet)
    (same : ∀ serviceId, first.find serviceId = second.find serviceId)
    (remoteCap : ServiceCapability) :
    negotiateRemote first remoteCap = negotiateRemote second remoteCap := by
  simp only [negotiateRemote, same]

theorem Fulfils.perm {first second : CapabilitySet} {entries others : List NegotiatedCapability}
    (fulfils : Fulfils first entries) (same : first.capabilities.Perm second.capabilities)
    (shuffled : entries.Perm others) : Fulfils second others := by
  intro localCap member demanded
  have ⟨entry, inside, named, available⟩ := fulfils localCap (same.mem_iff.mpr member) demanded
  exact ⟨entry, shuffled.mem_iff.mp inside, named, available⟩

theorem negotiate_perm (first second : CapabilityNegotiator) (remote shuffled : CapabilitySet)
    (distinct : first.localCapabilities.NoDuplicates)
    (locals : first.localCapabilities.capabilities.Perm second.localCapabilities.capabilities)
    (remotes : remote.capabilities.Perm shuffled.capabilities)
    (entries : List NegotiatedCapability)
    (accepted : (first.negotiate remote).1 = .ok entries) :
    ∃ others, (second.negotiate shuffled).1 = .ok others ∧ entries.Perm others := by
  have ⟨answered, fulfils⟩ := (negotiate_ok_iff first remote entries).mp accepted
  have found := find_perm _ _ distinct locals
  have ⟨others, again, permuted⟩ := List.perm_comp_forall₂ remotes.symm answered
  have elsewhere : Answered second.localCapabilities shuffled.capabilities others :=
    again.imp fun remoteCap entry one =>
      (negotiateRemote_congr _ _ found remoteCap).symm.trans one
  exact ⟨others, (negotiate_ok_iff second shuffled others).mpr
    ⟨elsewhere, fulfils.perm locals permuted.symm⟩, permuted.symm⟩

theorem negotiation_order_irrelevant (first second : CapabilityNegotiator)
    (remote shuffled : CapabilitySet) (distinct : first.localCapabilities.NoDuplicates)
    (locals : first.localCapabilities.capabilities.Perm second.localCapabilities.capabilities)
    (remotes : remote.capabilities.Perm shuffled.capabilities) :
    ((∃ entries, (first.negotiate remote).1 = .ok entries) ↔
      ∃ others, (second.negotiate shuffled).1 = .ok others) ∧
    ∀ entries others, (first.negotiate remote).1 = .ok entries →
      (second.negotiate shuffled).1 = .ok others → entries.Perm others := by
  have secondDistinct : second.localCapabilities.NoDuplicates :=
    (locals.map ServiceCapability.serviceId).nodup_iff.mp distinct
  have forth := negotiate_perm first second remote shuffled distinct locals remotes
  have back := negotiate_perm second first shuffled remote secondDistinct locals.symm remotes.symm
  constructor
  next =>
    constructor
    next =>
      intro ⟨entries, accepted⟩
      have ⟨others, again, _⟩ := forth entries accepted
      exact ⟨others, again⟩
    next =>
      intro ⟨others, accepted⟩
      have ⟨entries, again, _⟩ := back others accepted
      exact ⟨entries, again⟩
  next =>
    intro entries others accepted again
    have ⟨found, same, permuted⟩ := forth entries accepted
    rw [again] at same
    rwa [Except.ok.inj same]

def twoServices (version : UInt32) : CapabilitySet :=
  ⟨[⟨"bpl.config", version, true, fun _ => none⟩, ⟨"bpl.shell", version, false, fun _ => none⟩]⟩

def CapabilitySet.reversed (set : CapabilitySet) : CapabilitySet :=
  ⟨set.capabilities.reverse⟩

theorem negotiation_order_irrelevant_reversed :
    ((∃ entries, ((CapabilityNegotiator.new.setLocalCapabilities (twoServices 1)).negotiate
        (twoServices 2)).1 = .ok entries) ↔
      ∃ others, ((CapabilityNegotiator.new.setLocalCapabilities
        (twoServices 1).reversed).negotiate (twoServices 2).reversed).1 = .ok others) ∧
    ∀ entries others, ((CapabilityNegotiator.new.setLocalCapabilities
        (twoServices 1)).negotiate (twoServices 2)).1 = .ok entries →
      ((CapabilityNegotiator.new.setLocalCapabilities (twoServices 1).reversed).negotiate
        (twoServices 2).reversed).1 = .ok others → entries.Perm others :=
  negotiation_order_irrelevant (CapabilityNegotiator.new.setLocalCapabilities (twoServices 1))
    (CapabilityNegotiator.new.setLocalCapabilities (twoServices 1).reversed) (twoServices 2)
    (twoServices 2).reversed (by simp [CapabilitySet.NoDuplicates, Keyed.Distinct,
      CapabilityNegotiator.setLocalCapabilities, twoServices])
    (List.reverse_perm _).symm (List.reverse_perm _).symm

end BitDrive
