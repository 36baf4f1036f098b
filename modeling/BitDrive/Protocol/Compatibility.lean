import BitDrive.Protocol.CapabilityQueries

set_option autoImplicit false

namespace BitDrive

theorem version_min_eq_zero (left right : UInt32) :
    min left right = 0 ↔ left = 0 ∨ right = 0 := by
  change (if left ≤ right then left else right) = 0 ↔ _
  split
  next below =>
    constructor
    next => exact .inl
    next =>
      intro either
      rcases either with zero | zero
      next => exact zero
      next =>
        rw [zero] at below
        exact UInt32.le_antisymm below (UInt32.zero_le)
  next above =>
    constructor
    next => exact .inr
    next =>
      intro either
      rcases either with zero | zero
      next =>
        rw [zero] at above
        exact absurd UInt32.zero_le above
      next => exact zero

def ReportsCompatible (report : List VersionCompatibility) (serviceId : String) : Prop :=
  ∃ entry ∈ report, entry.serviceId = serviceId ∧ entry.compatible = true

def HasAvailable (negotiated : List NegotiatedCapability) (serviceId : String) : Prop :=
  ∃ entry ∈ negotiated, entry.serviceId = serviceId ∧ entry.available = true

def SameAnswer (localCap remoteCap : ServiceCapability) : Prop :=
  localCap.version = remoteCap.version ∧ localCap.version ≠ 0 ∨
    localCap.version ≠ remoteCap.version ∧ (localCap.version = 0 ∨ remoteCap.version = 0)

theorem sameAnswer_iff (localCap remoteCap : ServiceCapability) :
    SameAnswer localCap remoteCap ↔
      (localCap.version = remoteCap.version ↔ min localCap.version remoteCap.version ≠ 0) := by
  rw [SameAnswer, Ne, Ne, Ne, version_min_eq_zero]
  by_cases same : localCap.version = remoteCap.version
  next => simp [same]
  next => simp [same, or_iff_not_imp_left]

theorem checkCompatibility_iff (negotiator : CapabilityNegotiator) (remote : CapabilitySet)
    (distinct : negotiator.localCapabilities.NoDuplicates) (localCap : ServiceCapability)
    (member : localCap ∈ negotiator.localCapabilities.capabilities) :
    ReportsCompatible (negotiator.checkCompatibility remote) localCap.serviceId ↔
      ∃ remoteCap, remote.find localCap.serviceId = some remoteCap ∧
        localCap.version = remoteCap.version := by
  have unique (other : ServiceCapability)
      (inside : other ∈ negotiator.localCapabilities.capabilities)
      (named : other.serviceId = localCap.serviceId) : other = localCap := by
    have first := (find_eq_some _ distinct _ other).mpr ⟨inside, named⟩
    have second := (find_eq_some _ distinct _ localCap).mpr ⟨member, rfl⟩
    exact Option.some.inj (first.symm.trans second)
  have compatible : ((remote.find localCap.serviceId).elim false fun remoteCap =>
      decide (remoteCap.version = localCap.version)) = true ↔
      ∃ remoteCap, remote.find localCap.serviceId = some remoteCap ∧
        localCap.version = remoteCap.version := by
    cases remote.find localCap.serviceId with
    | none => simp
    | some remoteCap => simp [eq_comm]
  rw [← compatible]
  constructor
  next =>
    intro ⟨entry, reported, named, holds⟩
    have ⟨other, inside, made⟩ := List.mem_map.mp reported
    rw [← made] at named holds
    rw [← unique other inside named]
    exact holds
  next =>
    intro holds
    exact ⟨_, List.mem_map.mpr ⟨localCap, member, rfl⟩, rfl, holds⟩

theorem hasAvailable_iff (negotiator : CapabilityNegotiator) (remote : CapabilitySet)
    (distinct : negotiator.localCapabilities.NoDuplicates) (remoteDistinct : remote.NoDuplicates)
    (entries : List NegotiatedCapability)
    (accepted : (negotiator.negotiate remote).1 = .ok entries) (localCap : ServiceCapability)
    (member : localCap ∈ negotiator.localCapabilities.capabilities) :
    HasAvailable entries localCap.serviceId ↔
      ∃ remoteCap, remote.find localCap.serviceId = some remoteCap ∧
        min localCap.version remoteCap.version ≠ 0 := by
  obtain ⟨answered, _⟩ := (negotiate_ok_iff negotiator remote entries).mp accepted
  have available : HasAvailable entries localCap.serviceId ↔
      commonVersions negotiator.localCapabilities remote localCap.serviceId ≠ [] := by
    rw [← answered.versions localCap.serviceId]
    simp [HasAvailable, availableVersions]
  have found := (find_eq_some _ distinct _ localCap).mpr ⟨member, rfl⟩
  rw [available]
  simp only [commonVersions, ne_eq, List.map_eq_nil_iff, List.filter_eq_nil_iff, Bool.and_eq_true,
    decide_eq_true_eq, not_forall, not_not, find_eq_some remote remoteDistinct]
  constructor
  next =>
    rintro ⟨remoteCap, inside, named, positive⟩
    rw [commonVersion, named, found] at positive
    exact ⟨remoteCap, ⟨inside, named⟩, positive⟩
  next =>
    rintro ⟨remoteCap, ⟨inside, named⟩, positive⟩
    have common : ¬ commonVersion negotiator.localCapabilities remoteCap = 0 := by
      rwa [commonVersion, named, found]
    exact ⟨remoteCap, inside, named, common⟩

theorem report_agrees_iff (negotiator : CapabilityNegotiator) (remote : CapabilitySet)
    (distinct : negotiator.localCapabilities.NoDuplicates) (remoteDistinct : remote.NoDuplicates)
    (entries : List NegotiatedCapability)
    (accepted : (negotiator.negotiate remote).1 = .ok entries) (localCap : ServiceCapability)
    (member : localCap ∈ negotiator.localCapabilities.capabilities) :
    (ReportsCompatible (negotiator.checkCompatibility remote) localCap.serviceId ↔
        HasAvailable entries localCap.serviceId) ↔
      ∀ remoteCap ∈ remote.capabilities, remoteCap.serviceId = localCap.serviceId →
        SameAnswer localCap remoteCap := by
  rw [checkCompatibility_iff negotiator remote distinct localCap member,
    hasAvailable_iff negotiator remote distinct remoteDistinct entries accepted localCap member]
  cases found : remote.find localCap.serviceId with
  | none =>
    have absent := (find_eq_none remote localCap.serviceId).mp found
    have vacuous (remoteCap : ServiceCapability) (inside : remoteCap ∈ remote.capabilities)
        (named : remoteCap.serviceId = localCap.serviceId) : SameAnswer localCap remoteCap :=
      absurd named (absent remoteCap inside)
    exact iff_of_true (by simp) vacuous
  | some remoteCap =>
    have ⟨inside, named⟩ := (find_eq_some remote remoteDistinct _ remoteCap).mp found
    simp only [Option.some.injEq, exists_eq_left', ← sameAnswer_iff]
    constructor
    next =>
      intro same other member same_name
      have again := (find_eq_some remote remoteDistinct _ other).mpr ⟨member, same_name⟩
      rwa [Option.some.inj (again.symm.trans found)]
    next =>
      intro all
      exact all remoteCap inside named

theorem report_agrees_iff_phone :
    ∃ entries, ((CapabilityNegotiator.new.setLocalCapabilities desktopServices).negotiate
        phoneServices).1 = .ok entries ∧
      ((ReportsCompatible ((CapabilityNegotiator.new.setLocalCapabilities
            desktopServices).checkCompatibility phoneServices) "bpl.config" ↔
          HasAvailable entries "bpl.config") ↔
        ∀ remoteCap ∈ phoneServices.capabilities, remoteCap.serviceId = "bpl.config" →
          SameAnswer ⟨"bpl.config", 2, true, fun _ => none⟩ remoteCap) :=
  ⟨_, rfl, report_agrees_iff (CapabilityNegotiator.new.setLocalCapabilities desktopServices)
    phoneServices desktopServices_noDuplicates phoneServices_noDuplicates _ rfl
    ⟨"bpl.config", 2, true, fun _ => none⟩ (List.mem_cons_self)⟩

theorem newer_peer_reported_incompatible :
    (configService 1 true).NoDuplicates ∧ (configService 2 true).NoDuplicates ∧
    ∃ entries, ((CapabilityNegotiator.new.setLocalCapabilities (configService 1 true)).negotiate
        (configService 2 true)).1 = .ok entries ∧
      ¬ (ReportsCompatible ((CapabilityNegotiator.new.setLocalCapabilities
          (configService 1 true)).checkCompatibility (configService 2 true)) "bpl.config" ↔
        HasAvailable entries "bpl.config") := by
  refine ⟨configService_noDuplicates 1 true, configService_noDuplicates 2 true, _, rfl, ?_⟩
  intro same
  have ⟨entry, reported, _, compatible⟩ :=
    same.mpr ⟨_, List.mem_singleton_self _, rfl, rfl⟩
  rw [List.mem_singleton.mp reported] at compatible
  contradiction

end BitDrive
