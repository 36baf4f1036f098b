import BitDrive.Protocol.CapabilityOrder

set_option autoImplicit false

namespace BitDrive

def commonVersions (localSet remote : CapabilitySet) (serviceId : String) : List UInt32 :=
  (remote.capabilities.filter fun remoteCap =>
    remoteCap.serviceId = serviceId && commonVersion localSet remoteCap ≠ 0).map
      (commonVersion localSet)

def availableVersions (negotiated : List NegotiatedCapability) (serviceId : String) :
    List UInt32 :=
  (negotiated.filter fun entry => entry.serviceId = serviceId && entry.available).map
    (·.negotiatedVersion)

theorem Answered.versions {localSet : CapabilitySet} {remoteCaps : List ServiceCapability}
    {entries : List NegotiatedCapability} (answered : Answered localSet remoteCaps entries)
    (serviceId : String) :
    availableVersions entries serviceId = commonVersions localSet ⟨remoteCaps⟩ serviceId := by
  induction answered with
  | nil => rfl
  | @cons remoteCap entry remoteCaps entries one rest ih =>
    have ⟨named, version, available⟩ := negotiateRemote_eq localSet remoteCap entry one
    have same : (entry.serviceId = serviceId && entry.available) =
        (remoteCap.serviceId = serviceId && commonVersion localSet remoteCap ≠ 0 : Bool) := by
      rw [named, Bool.eq_iff_iff]
      simp [available]
    simp only [availableVersions, commonVersions, List.filter_cons, same] at ih ⊢
    split
    next => rw [List.map_cons, List.map_cons, version, ih]
    next => exact ih

namespace CapabilityNegotiator

theorem negotiate_negotiated (negotiator : CapabilityNegotiator) (remote : CapabilitySet)
    (entries : List NegotiatedCapability)
    (accepted : (negotiator.negotiate remote).1 = .ok entries) :
    (negotiator.negotiate remote).2.negotiated = entries := by
  revert accepted
  rw [negotiate]
  split
  next => simp
  next =>
    split
    next => simp
    next => simp

theorem isAvailable_iff (negotiator : CapabilityNegotiator) (serviceId : String) :
    negotiator.isAvailable serviceId = true ↔
      availableVersions negotiator.negotiated serviceId ≠ [] := by
  simp [isAvailable, availableVersions]

theorem getVersion_eq (negotiator : CapabilityNegotiator) (serviceId : String) :
    negotiator.getVersion serviceId =
      (availableVersions negotiator.negotiated serviceId).head? := by
  rw [getVersion, availableVersions, List.head?_map, List.head?_filter]

theorem isCapabilitySupported_iff (negotiator : CapabilityNegotiator) (serviceId : String)
    (requiredVersion : UInt32) :
    negotiator.isCapabilitySupported serviceId requiredVersion = true ↔
      ∃ version ∈ availableVersions negotiator.negotiated serviceId, requiredVersion ≤ version := by
  simp [isCapabilitySupported, availableVersions, and_assoc]

structure QueriesAgree (negotiator : CapabilityNegotiator) (serviceId : String) : Prop where
  available : negotiator.isAvailable serviceId = true ↔
    (negotiator.getVersion serviceId).isSome = true
  supported : ∀ requiredVersion, negotiator.isCapabilitySupported serviceId requiredVersion = true ↔
    ∃ version, negotiator.getVersion serviceId = some version ∧ requiredVersion ≤ version

theorem queriesAgree_iff (negotiator : CapabilityNegotiator) (serviceId : String) :
    negotiator.QueriesAgree serviceId ↔
      ∀ first others, availableVersions negotiator.negotiated serviceId = first :: others →
        ∀ version ∈ others, version ≤ first := by
  constructor
  next =>
    intro agree first others found version member
    have supported : negotiator.isCapabilitySupported serviceId version = true := by
      rw [isCapabilitySupported_iff, found]
      exact ⟨version, List.mem_cons_of_mem first member, UInt32.le_refl version⟩
    have ⟨front, taken, reached⟩ := (agree.supported version).mp supported
    rw [getVersion_eq, found] at taken
    rwa [← Option.some.inj taken] at reached
  next =>
    intro best
    constructor
    next =>
      rw [isAvailable_iff, getVersion_eq]
      simp
    next =>
      intro requiredVersion
      rw [isCapabilitySupported_iff, getVersion_eq]
      cases found : availableVersions negotiator.negotiated serviceId with
      | nil => simp
      | cons first others =>
        have below := best first others found
        simp only [List.head?_cons, Option.some.injEq, exists_eq_left', List.mem_cons]
        constructor
        next =>
          intro ⟨version, member, reached⟩
          rcases member with same | later
          next => rwa [← same]
          next => exact UInt32.le_trans reached (below version later)
        next =>
          intro reached
          exact ⟨first, .inl rfl, reached⟩

theorem queries_agree_iff (negotiator : CapabilityNegotiator) (remote : CapabilitySet)
    (entries : List NegotiatedCapability)
    (accepted : (negotiator.negotiate remote).1 = .ok entries) (serviceId : String) :
    (negotiator.negotiate remote).2.QueriesAgree serviceId ↔
      ∀ first others,
        commonVersions negotiator.localCapabilities remote serviceId = first :: others →
        ∀ version ∈ others, version ≤ first := by
  have ⟨answered, _⟩ := (negotiate_ok_iff negotiator remote entries).mp accepted
  rw [queriesAgree_iff, negotiate_negotiated negotiator remote entries accepted,
    answered.versions serviceId]

def listedTwice (first second : UInt32) : CapabilitySet :=
  ⟨(configService first false).capabilities ++ (configService second false).capabilities⟩

theorem queries_agree_iff_listed_twice :
    ((CapabilityNegotiator.new.setLocalCapabilities (configService 2 true)).negotiate
        (listedTwice 2 1)).2.QueriesAgree "bpl.config" ↔
      ∀ first others, commonVersions (configService 2 true) (listedTwice 2 1) "bpl.config" =
          first :: others →
        ∀ version ∈ others, version ≤ first :=
  queries_agree_iff (CapabilityNegotiator.new.setLocalCapabilities (configService 2 true))
    (listedTwice 2 1) _ rfl "bpl.config"

theorem second_entry_outranks_first :
    (∃ entries, ((CapabilityNegotiator.new.setLocalCapabilities (configService 2 true)).negotiate
        (listedTwice 1 2)).1 = .ok entries) ∧
      ¬ ((CapabilityNegotiator.new.setLocalCapabilities (configService 2 true)).negotiate
        (listedTwice 1 2)).2.QueriesAgree "bpl.config" := by
  constructor
  next => exact ⟨_, rfl⟩
  next =>
    intro agree
    have ⟨version, taken, reached⟩ := (agree.supported 2).mp rfl
    rw [← Option.some.inj taken] at reached
    contradiction

end CapabilityNegotiator

end BitDrive
