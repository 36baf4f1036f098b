import BitDrive.Protocol.Negotiation

set_option autoImplicit false

namespace BitDrive

def sharedFeatures (localCap remoteCap : ServiceCapability) : String → Option String :=
  fun feature => if (remoteCap.metadata feature).isSome then localCap.metadata feature else none

def SameValues (first second : ServiceCapability) : Prop :=
  ∀ feature value other, first.metadata feature = some value →
    second.metadata feature = some other → value = other

theorem sharedFeatures_eq_some (localCap remoteCap : ServiceCapability) (feature value : String) :
    sharedFeatures localCap remoteCap feature = some value ↔
      localCap.metadata feature = some value ∧ ∃ other, remoteCap.metadata feature = some other := by
  cases there : remoteCap.metadata feature with
  | none => simp [sharedFeatures, there]
  | some other => simp [sharedFeatures, there]

theorem sharedFeatures_comm_iff (first second : ServiceCapability) :
    sharedFeatures first second = sharedFeatures second first ↔ SameValues first second := by
  constructor
  next =>
    intro same feature value other here there
    have kept : sharedFeatures first second feature = some value :=
      (sharedFeatures_eq_some first second feature value).mpr ⟨here, other, there⟩
    rw [same, sharedFeatures_eq_some, there] at kept
    exact (Option.some.inj kept.1).symm
  next =>
    intro same
    funext feature
    cases here : first.metadata feature with
    | none => simp [sharedFeatures, here]
    | some value =>
      cases there : second.metadata feature with
      | none => simp [sharedFeatures, here, there]
      | some other =>
        simp [sharedFeatures, here, there, same feature value other here there]

theorem negotiateSingle_features (localCap remoteCap : ServiceCapability)
    (available : (negotiateSingle localCap remoteCap).available = true) :
    (negotiateSingle localCap remoteCap).negotiatedFeatures =
      sharedFeatures localCap remoteCap := by
  have positive := (negotiateSingle_available localCap remoteCap).mp available
  simp only [negotiateSingle, if_neg positive]
  rfl

theorem Answered.question {localSet : CapabilitySet} {remoteCaps : List ServiceCapability}
    {entries : List NegotiatedCapability} (answered : Answered localSet remoteCaps entries)
    (entry : NegotiatedCapability) (member : entry ∈ entries) :
    ∃ remoteCap ∈ remoteCaps, negotiateRemote localSet remoteCap = .ok entry := by
  induction answered with
  | nil => contradiction
  | @cons remoteCap first remoteCaps others answer rest ih =>
    rcases List.mem_cons.mp member with rfl | inside
    next => exact ⟨remoteCap, List.mem_cons_self, answer⟩
    next =>
      have ⟨asked, there, same⟩ := ih inside
      exact ⟨asked, List.mem_cons_of_mem remoteCap there, same⟩

theorem available_features (negotiator : CapabilityNegotiator) (remote : CapabilitySet)
    (distinct : negotiator.localCapabilities.NoDuplicates)
    (entries : List NegotiatedCapability)
    (accepted : (negotiator.negotiate remote).1 = .ok entries) (entry : NegotiatedCapability)
    (member : entry ∈ entries) (available : entry.available = true) :
    ∃ localCap ∈ negotiator.localCapabilities.capabilities,
      ∃ remoteCap ∈ remote.capabilities,
        localCap.serviceId = entry.serviceId ∧ remoteCap.serviceId = entry.serviceId ∧
          entry.negotiatedFeatures = sharedFeatures localCap remoteCap := by
  obtain ⟨answered, _⟩ := (negotiate_ok_iff negotiator remote entries).mp accepted
  obtain ⟨remoteCap, there, answer⟩ := answered.question entry member
  obtain ⟨named, _, _⟩ := negotiateRemote_eq _ remoteCap entry answer
  rw [negotiateRemote] at answer
  cases found : negotiator.localCapabilities.find remoteCap.serviceId with
  | none =>
    cases demanded : remoteCap.required <;> simp [found, demanded] at answer
    rw [← answer] at available
    contradiction
  | some localCap =>
    obtain ⟨here, same⟩ := (find_eq_some _ distinct _ localCap).mp found
    simp only [found, Except.ok.injEq] at answer
    rw [← answer] at available
    have kept := negotiateSingle_features localCap remoteCap available
    rw [answer] at kept
    exact ⟨localCap, here, remoteCap, there, same.trans named.symm, named.symm, kept⟩

theorem unique_capability (set : CapabilitySet) (distinct : set.NoDuplicates)
    (first second : ServiceCapability) (here : first ∈ set.capabilities)
    (there : second ∈ set.capabilities) (same : first.serviceId = second.serviceId) :
    first = second := by
  have found := (find_eq_some set distinct second.serviceId first).mpr ⟨here, same⟩
  have again := (find_eq_some set distinct second.serviceId second).mpr ⟨there, rfl⟩
  exact Option.some.inj (found.symm.trans again)

theorem features_agree_iff (side other : CapabilitySet) (sideDistinct : side.NoDuplicates)
    (otherDistinct : other.NoDuplicates) (mine theirs : List NegotiatedCapability)
    (accepted : verdict side other = .ok mine) (accepted' : verdict other side = .ok theirs)
    (here there : NegotiatedCapability) (member : here ∈ mine) (member' : there ∈ theirs)
    (same : here.serviceId = there.serviceId) (available : here.available = true)
    (available' : there.available = true) :
    here.negotiatedFeatures = there.negotiatedFeatures ↔
      ∀ first ∈ side.capabilities, ∀ second ∈ other.capabilities,
        first.serviceId = here.serviceId → second.serviceId = here.serviceId →
          SameValues first second := by
  have ⟨first, inSide, second, inOther, named, named', kept⟩ :=
    available_features _ _ sideDistinct mine accepted here member available
  have ⟨second', inOther', first', inSide', renamed, renamed', kept'⟩ :=
    available_features _ _ otherDistinct theirs accepted' there member' available'
  have firstUnique (found : ServiceCapability) (inside : found ∈ side.capabilities)
      (name : found.serviceId = here.serviceId) : found = first :=
    unique_capability side sideDistinct found first inside inSide (name.trans named.symm)
  have secondUnique (found : ServiceCapability) (inside : found ∈ other.capabilities)
      (name : found.serviceId = here.serviceId) : found = second :=
    unique_capability other otherDistinct found second inside inOther (name.trans named'.symm)
  rw [firstUnique first' inSide' (renamed'.trans same.symm),
    secondUnique second' inOther' (renamed.trans same.symm)] at kept'
  rw [kept, kept', sharedFeatures_comm_iff]
  constructor
  next =>
    intro values found inside found' inside' name name'
    rwa [firstUnique found inside name, secondUnique found' inside' name']
  next =>
    intro values
    exact values first inSide second inOther named named'

def compressingService (level : String) : ServiceCapability where
  serviceId := "bpl.sync"
  version := 1
  required := false
  metadata feature := if feature = "compression" then some level else none

theorem compressingService_noDuplicates (level : String) :
    CapabilitySet.NoDuplicates ⟨[compressingService level]⟩ :=
  List.nodup_singleton _

def zstdServices : CapabilitySet where
  capabilities := [⟨"bpl.config", 1, true, fun _ => none⟩, compressingService "zstd"]

def gzipServices : CapabilitySet where
  capabilities := [compressingService "gzip", ⟨"bpl.config", 2, false, fun _ => none⟩]

theorem features_agree_iff_compression :
    ∃ mine theirs here there, verdict zstdServices gzipServices = .ok mine ∧
      verdict gzipServices zstdServices = .ok theirs ∧ here ∈ mine ∧ there ∈ theirs ∧
      (here.negotiatedFeatures = there.negotiatedFeatures ↔
        ∀ first ∈ zstdServices.capabilities, ∀ second ∈ gzipServices.capabilities,
          first.serviceId = here.serviceId → second.serviceId = here.serviceId →
            SameValues first second) := by
  have zstd : zstdServices.NoDuplicates := by
    simp [CapabilitySet.NoDuplicates, Keyed.Distinct, zstdServices, compressingService]
  have gzip : gzipServices.NoDuplicates := by
    simp [CapabilitySet.NoDuplicates, Keyed.Distinct, gzipServices, compressingService]
  exact ⟨_, _, _, _, rfl, rfl, List.mem_cons_self, List.mem_cons_of_mem _ List.mem_cons_self,
    features_agree_iff zstdServices gzipServices zstd gzip _ _ rfl rfl _ _
      List.mem_cons_self (List.mem_cons_of_mem _ List.mem_cons_self) rfl rfl rfl⟩

theorem compression_settings_differ :
    CapabilitySet.NoDuplicates ⟨[compressingService "zstd"]⟩ ∧
    CapabilitySet.NoDuplicates ⟨[compressingService "gzip"]⟩ ∧
    ∃ here there,
      verdict ⟨[compressingService "zstd"]⟩ ⟨[compressingService "gzip"]⟩ = .ok [here] ∧
      verdict ⟨[compressingService "gzip"]⟩ ⟨[compressingService "zstd"]⟩ = .ok [there] ∧
      here.serviceId = there.serviceId ∧ here.available = true ∧ there.available = true ∧
      here.negotiatedFeatures ≠ there.negotiatedFeatures := by
  refine ⟨compressingService_noDuplicates "zstd", compressingService_noDuplicates "gzip",
    _, _, rfl, rfl, rfl, rfl, rfl, ?_⟩
  intro same
  have level := congrFun same "compression"
  have differ : (some "zstd" : Option String) = some "gzip" := level
  simp at differ

end BitDrive
