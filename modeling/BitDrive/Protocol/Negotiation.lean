import BitDrive.Protocol.Capability
import Mathlib.Data.List.Forall2

set_option autoImplicit false

namespace BitDrive

def CapabilitySet.NoDuplicates (set : CapabilitySet) : Prop :=
  Keyed.Distinct ServiceCapability.serviceId set.capabilities

def Unmatched (side other : CapabilitySet) : Prop :=
  ∃ capability ∈ side.capabilities, capability.required = true ∧
    ∀ candidate ∈ other.capabilities, candidate.serviceId ≠ capability.serviceId

def Versionless (side other : CapabilitySet) : Prop :=
  ∃ capability ∈ side.capabilities, capability.required = true ∧
    ∃ candidate ∈ other.capabilities, candidate.serviceId = capability.serviceId ∧
      min capability.version candidate.version = 0

def Usable (side other : CapabilitySet) (serviceId : String) (version : UInt32) : Prop :=
  ∃ capability ∈ side.capabilities, ∃ candidate ∈ other.capabilities,
    capability.serviceId = serviceId ∧ candidate.serviceId = serviceId ∧
    min capability.version candidate.version = version ∧ version ≠ 0

def Available (negotiated : List NegotiatedCapability) (serviceId : String) (version : UInt32) :
    Prop :=
  ∃ entry ∈ negotiated, entry.available = true ∧ entry.serviceId = serviceId ∧
    entry.negotiatedVersion = version

theorem version_min_comm (left right : UInt32) : min left right = min right left := by
  change (if left ≤ right then left else right) = (if right ≤ left then right else left)
  by_cases below : left ≤ right
  · by_cases above : right ≤ left
    · rw [if_pos below, if_pos above]
      exact UInt32.le_antisymm below above
    · rw [if_pos below, if_neg above]
  · have above : right ≤ left := (UInt32.le_total left right).resolve_left below
    rw [if_neg below, if_pos above]

theorem Usable.symm (side other : CapabilitySet) (serviceId : String) (version : UInt32)
    (usable : Usable side other serviceId version) : Usable other side serviceId version := by
  obtain ⟨capability, member, candidate, member', named, named', lower, positive⟩ := usable
  exact ⟨candidate, member', capability, member, named', named,
    (version_min_comm _ _).trans lower, positive⟩

theorem find_eq_some (set : CapabilitySet) (distinct : set.NoDuplicates) (serviceId : String)
    (capability : ServiceCapability) :
    set.find serviceId = some capability ↔
      capability ∈ set.capabilities ∧ capability.serviceId = serviceId :=
  Keyed.lookup_eq_some ServiceCapability.serviceId set.capabilities distinct serviceId capability

theorem find_eq_none (set : CapabilitySet) (serviceId : String) :
    set.find serviceId = none ↔ ∀ capability ∈ set.capabilities, capability.serviceId ≠ serviceId := by
  simp [CapabilitySet.find]

theorem negotiateRemote_error (localSet : CapabilitySet) (remoteCap : ServiceCapability) :
    (∃ abort, negotiateRemote localSet remoteCap = .error abort) ↔
      remoteCap.required = true ∧
        ∀ capability ∈ localSet.capabilities, capability.serviceId ≠ remoteCap.serviceId := by
  rw [← find_eq_none, negotiateRemote]
  cases localSet.find remoteCap.serviceId <;> cases remoteCap.required <;> simp

def commonVersion (localSet : CapabilitySet) (remoteCap : ServiceCapability) : UInt32 :=
  (localSet.find remoteCap.serviceId).elim 0 fun localCap => min localCap.version remoteCap.version

theorem commonVersion_of_find (localSet : CapabilitySet) (remoteCap localCap : ServiceCapability)
    (found : localSet.find remoteCap.serviceId = some localCap) :
    commonVersion localSet remoteCap = min localCap.version remoteCap.version := by
  rw [commonVersion, found, Option.elim_some]

theorem commonVersion_ne_zero (localSet : CapabilitySet) (remoteCap : ServiceCapability) :
    commonVersion localSet remoteCap ≠ 0 ↔
      ∃ localCap, localSet.find remoteCap.serviceId = some localCap ∧
        min localCap.version remoteCap.version ≠ 0 := by
  cases found : localSet.find remoteCap.serviceId with
  | none => simp [commonVersion, found]
  | some localCap => simp [commonVersion, found]

theorem negotiateRemote_eq (localSet : CapabilitySet) (remoteCap : ServiceCapability)
    (entry : NegotiatedCapability) (answered : negotiateRemote localSet remoteCap = .ok entry) :
    entry.serviceId = remoteCap.serviceId ∧
      entry.negotiatedVersion = commonVersion localSet remoteCap ∧
      (entry.available = true ↔ commonVersion localSet remoteCap ≠ 0) := by
  rw [negotiateRemote] at answered
  cases found : localSet.find remoteCap.serviceId with
  | none =>
    cases demanded : remoteCap.required <;> simp [found, demanded] at answered
    rw [← answered]
    simp [commonVersion, found]
  | some localCap =>
    have named : localCap.serviceId = remoteCap.serviceId := by
      simpa using List.find?_some found
    simp only [found, Except.ok.injEq] at answered
    rw [← answered]
    rw [commonVersion_of_find localSet remoteCap localCap found]
    exact ⟨(negotiateSingle_serviceId localCap remoteCap).trans named,
      negotiateSingle_version localCap remoteCap, negotiateSingle_available localCap remoteCap⟩

theorem negotiateRemote_available (localSet : CapabilitySet) (distinct : localSet.NoDuplicates)
    (remoteCap : ServiceCapability) (entry : NegotiatedCapability) (serviceId : String)
    (version : UInt32) (negotiated : negotiateRemote localSet remoteCap = .ok entry) :
    (entry.available = true ∧ entry.serviceId = serviceId ∧ entry.negotiatedVersion = version) ↔
      ∃ capability ∈ localSet.capabilities, capability.serviceId = serviceId ∧
        remoteCap.serviceId = serviceId ∧ min capability.version remoteCap.version = version ∧
        version ≠ 0 := by
  have ⟨named, lower, available⟩ := negotiateRemote_eq localSet remoteCap entry negotiated
  rw [available, named, lower]
  constructor
  next =>
    rintro ⟨positive, rfl, rfl⟩
    have ⟨localCap, found, _⟩ := (commonVersion_ne_zero localSet remoteCap).mp positive
    have ⟨member, same⟩ := (find_eq_some localSet distinct _ localCap).mp found
    exact ⟨localCap, member, same, rfl,
      (commonVersion_of_find localSet remoteCap localCap found).symm, positive⟩
  next =>
    rintro ⟨capability, member, same, rfl, rfl, positive⟩
    have found := (find_eq_some localSet distinct _ capability).mpr ⟨member, same⟩
    have common := commonVersion_of_find localSet remoteCap capability found
    exact ⟨common ▸ positive, rfl, common⟩

theorem negotiateEach_error (localSet : CapabilitySet) (remoteCaps : List ServiceCapability) :
    (∃ abort, negotiateEach localSet remoteCaps = .error abort) ↔
      Unmatched ⟨remoteCaps⟩ localSet := by
  induction remoteCaps with
  | nil => simp [negotiateEach, Unmatched]
  | cons remoteCap remoteCaps ih =>
    have head := negotiateRemote_error localSet remoteCap
    simp only [Unmatched, List.exists_mem_cons_iff] at ih ⊢
    rw [← head, ← ih]
    cases first : negotiateRemote localSet remoteCap with
    | error abort => simp [negotiateEach, first, bind, Except.bind]
    | ok entry =>
      cases rest : negotiateEach localSet remoteCaps <;>
        simp [negotiateEach, first, rest, bind, Except.bind, pure, Except.pure]

theorem negotiateEach_matched (localSet : CapabilitySet) (remoteCaps : List ServiceCapability)
    (entries : List NegotiatedCapability)
    (each : negotiateEach localSet remoteCaps = .ok entries) :
    ¬ Unmatched ⟨remoteCaps⟩ localSet := by
  rw [← negotiateEach_error]
  rintro ⟨abort, failed⟩
  cases each.symm.trans failed

theorem negotiateEach_cons (localSet : CapabilitySet) (remoteCap : ServiceCapability)
    (remoteCaps : List ServiceCapability) (negotiated : List NegotiatedCapability)
    (accepted : negotiateEach localSet (remoteCap :: remoteCaps) = .ok negotiated) :
    ∃ entry entries, negotiateRemote localSet remoteCap = .ok entry ∧
      negotiateEach localSet remoteCaps = .ok entries ∧ negotiated = entry :: entries := by
  cases first : negotiateRemote localSet remoteCap with
  | error abort => simp [negotiateEach, first, bind, Except.bind] at accepted
  | ok entry =>
    cases rest : negotiateEach localSet remoteCaps with
    | error abort => simp [negotiateEach, first, rest, bind, Except.bind] at accepted
    | ok entries =>
      simp only [negotiateEach, first, rest, bind, Except.bind, pure, Except.pure] at accepted
      exact ⟨entry, entries, rfl, rfl, (Except.ok.inj accepted).symm⟩

def Answered (localSet : CapabilitySet) (remoteCaps : List ServiceCapability)
    (entries : List NegotiatedCapability) : Prop :=
  List.Forall₂ (fun remoteCap entry => negotiateRemote localSet remoteCap = .ok entry)
    remoteCaps entries

theorem negotiateEach_ok_iff (localSet : CapabilitySet) (remoteCaps : List ServiceCapability)
    (entries : List NegotiatedCapability) :
    negotiateEach localSet remoteCaps = .ok entries ↔ Answered localSet remoteCaps entries := by
  induction remoteCaps generalizing entries with
  | nil =>
    simp only [negotiateEach, Answered, Except.ok.injEq, List.forall₂_nil_left_iff]
    exact eq_comm
  | cons remoteCap remoteCaps ih =>
    simp only [Answered, List.forall₂_cons_left_iff] at ih ⊢
    constructor
    next =>
      intro accepted
      have ⟨entry, others, first, rest, both⟩ := negotiateEach_cons _ _ _ _ accepted
      exact ⟨entry, others, first, (ih others).mp rest, both⟩
    next =>
      intro ⟨entry, others, first, rest, both⟩
      simp only [negotiateEach, first, (ih others).mpr rest, both, bind, Except.bind, pure,
        Except.pure]

def Fulfils (localSet : CapabilitySet) (entries : List NegotiatedCapability) : Prop :=
  ∀ localCap ∈ localSet.capabilities, localCap.required = true →
    ∃ entry ∈ entries, entry.serviceId = localCap.serviceId ∧ entry.available = true

theorem negotiate_ok_iff (negotiator : CapabilityNegotiator) (remote : CapabilitySet)
    (entries : List NegotiatedCapability) :
    (negotiator.negotiate remote).1 = .ok entries ↔
      Answered negotiator.localCapabilities remote.capabilities entries ∧
        Fulfils negotiator.localCapabilities entries := by
  rw [← negotiateEach_ok_iff, CapabilityNegotiator.negotiate]
  cases each : negotiateEach negotiator.localCapabilities remote.capabilities with
  | error abort => simp
  | ok found =>
    have fulfils : (negotiator.localCapabilities.capabilities.find? fun localCap =>
        localCap.required && !found.any fun entry =>
          entry.serviceId = localCap.serviceId && entry.available) = none ↔
        Fulfils negotiator.localCapabilities found := by
      simp [List.find?_eq_none, Fulfils]
    dsimp only
    split
    next localCap unmet =>
      have missing : ¬ Fulfils negotiator.localCapabilities found := by
        rw [← fulfils, unmet]
        simp
      constructor
      next => simp
      next =>
        intro ⟨same, met⟩
        rw [← Except.ok.inj same] at met
        exact absurd met missing
    next met =>
      constructor
      next =>
        intro same
        rw [← Except.ok.inj same]
        exact ⟨rfl, fulfils.mp met⟩
      next =>
        intro ⟨same, _⟩
        rw [Except.ok.inj same]

theorem negotiateEach_available (localSet : CapabilitySet) (distinct : localSet.NoDuplicates)
    (remoteCaps : List ServiceCapability) (negotiated : List NegotiatedCapability)
    (accepted : negotiateEach localSet remoteCaps = .ok negotiated) (serviceId : String)
    (version : UInt32) :
    Available negotiated serviceId version ↔ Usable localSet ⟨remoteCaps⟩ serviceId version := by
  induction remoteCaps generalizing negotiated with
  | nil =>
    obtain rfl : [] = negotiated := Except.ok.inj accepted
    simp [Available, Usable]
  | cons remoteCap remoteCaps ih =>
    have ⟨entry, entries, first, rest, both⟩ := negotiateEach_cons _ _ _ _ accepted
    have head := negotiateRemote_available localSet distinct remoteCap entry serviceId version first
    have tail := ih entries rest
    simp only [both, Available, Usable, List.exists_mem_cons_iff] at tail ⊢
    rw [head, tail]
    constructor
    · rintro (⟨capability, member, here⟩ | ⟨capability, member, there⟩)
      · exact ⟨capability, member, .inl here⟩
      · exact ⟨capability, member, .inr there⟩
    · rintro ⟨capability, member, here | there⟩
      · exact .inl ⟨capability, member, here⟩
      · exact .inr ⟨capability, member, there⟩

theorem required_usable (side other : CapabilitySet) (sideDistinct : side.NoDuplicates)
    (otherDistinct : other.NoDuplicates) :
    (∀ capability ∈ side.capabilities, capability.required = true →
        ∃ version, Usable side other capability.serviceId version) ↔
      ¬ Unmatched side other ∧ ¬ Versionless side other := by
  constructor
  · intro usable
    constructor
    · intro ⟨capability, member, demanded, absent⟩
      obtain ⟨_, _, _, candidate, inside, _, named, _⟩ := usable capability member demanded
      exact absent candidate inside named
    · intro ⟨capability, member, demanded, candidate, inside, same, zero⟩
      obtain ⟨_, mine, here, theirs, there, named, named', rfl, positive⟩ :=
        usable capability member demanded
      -- No name occurs twice on a side, so this is the match at version 0.
      obtain rfl : mine = capability := Option.some.inj
        (((find_eq_some side sideDistinct _ mine).mpr ⟨here, named⟩).symm.trans
          ((find_eq_some side sideDistinct _ capability).mpr ⟨member, rfl⟩))
      obtain rfl : theirs = candidate := Option.some.inj
        (((find_eq_some other otherDistinct _ theirs).mpr ⟨there, named'⟩).symm.trans
          ((find_eq_some other otherDistinct _ candidate).mpr ⟨inside, same⟩))
      exact positive zero
  · intro ⟨matched, versioned⟩ capability member demanded
    by_contra unusable
    refine matched ⟨capability, member, demanded, fun candidate inside same => ?_⟩
    refine versioned ⟨capability, member, demanded, candidate, inside, same, ?_⟩
    by_contra positive
    exact unusable ⟨_, capability, member, candidate, inside, rfl, same, rfl, positive⟩

theorem negotiateEach_present (localSet : CapabilitySet) (localDistinct : localSet.NoDuplicates)
    (capabilities : List ServiceCapability) (entries : List NegotiatedCapability)
    (each : negotiateEach localSet capabilities = .ok entries) (serviceId : String) :
    (∃ entry ∈ entries, entry.serviceId = serviceId ∧ entry.available = true) ↔
      ∃ version, Usable localSet ⟨capabilities⟩ serviceId version := by
  have available := negotiateEach_available localSet localDistinct capabilities entries each
  simp only [← available, Available]
  constructor
  · intro ⟨entry, inside, named, ready⟩
    exact ⟨_, entry, inside, ready, named, rfl⟩
  · intro ⟨_, entry, inside, ready, named, _⟩
    exact ⟨entry, inside, named, ready⟩

theorem negotiate_ok (negotiator : CapabilityNegotiator) (remote : CapabilitySet)
    (localDistinct : negotiator.localCapabilities.NoDuplicates)
    (remoteDistinct : remote.NoDuplicates) :
    ((∃ negotiated, (negotiator.negotiate remote).1 = .ok negotiated) ↔
      ¬ Unmatched remote negotiator.localCapabilities ∧
        ¬ Unmatched negotiator.localCapabilities remote ∧
        ¬ Versionless negotiator.localCapabilities remote) ∧
    ∀ negotiated, (negotiator.negotiate remote).1 = .ok negotiated →
      ∀ serviceId version, Available negotiated serviceId version ↔
        Usable negotiator.localCapabilities remote serviceId version := by
  have refused := negotiateEach_error negotiator.localCapabilities remote.capabilities
  have present := negotiateEach_present negotiator.localCapabilities localDistinct
    remote.capabilities
  have usable := required_usable _ _ localDistinct remoteDistinct
  constructor
  next =>
    rw [← usable]
    constructor
    next =>
      intro ⟨entries, accepted⟩
      have ⟨answered, fulfils⟩ := (negotiate_ok_iff negotiator remote entries).mp accepted
      have each := (negotiateEach_ok_iff _ _ entries).mpr answered
      constructor
      next => exact negotiateEach_matched _ _ entries each
      next =>
        intro localCap member demanded
        exact (present entries each _).mp (fulfils localCap member demanded)
    next =>
      intro ⟨matched, ready⟩
      cases each : negotiateEach negotiator.localCapabilities remote.capabilities with
      | error abort => exact absurd (refused.mp ⟨abort, each⟩) matched
      | ok entries =>
        have fulfils : Fulfils negotiator.localCapabilities entries := by
          intro localCap member demanded
          exact (present entries each _).mpr (ready localCap member demanded)
        have answered := (negotiateEach_ok_iff _ _ entries).mp each
        exact ⟨entries, (negotiate_ok_iff negotiator remote entries).mpr ⟨answered, fulfils⟩⟩
  next =>
    intro entries accepted
    have ⟨answered, _⟩ := (negotiate_ok_iff negotiator remote entries).mp accepted
    exact negotiateEach_available negotiator.localCapabilities localDistinct remote.capabilities
      entries ((negotiateEach_ok_iff _ _ entries).mpr answered)

def verdict (mine theirs : CapabilitySet) : Outcome ProtocolError (List NegotiatedCapability) :=
  ((CapabilityNegotiator.new.setLocalCapabilities mine).negotiate theirs).1

structure SameVerdict (side other : CapabilitySet) : Prop where
  accepted : (∃ negotiated, verdict side other = .ok negotiated) ↔
    ∃ negotiated, verdict other side = .ok negotiated
  available : ∀ here there, verdict side other = .ok here → verdict other side = .ok there →
    ∀ serviceId version, Available here serviceId version ↔ Available there serviceId version

theorem same_verdict_iff (side other : CapabilitySet) (sideDistinct : side.NoDuplicates)
    (otherDistinct : other.NoDuplicates) :
    SameVerdict side other ↔ Unmatched side other ∨ Unmatched other side ∨
      (Versionless side other ↔ Versionless other side) := by
  obtain ⟨here, hereAvailable⟩ := negotiate_ok (CapabilityNegotiator.new.setLocalCapabilities side)
    other sideDistinct otherDistinct
  obtain ⟨there, thereAvailable⟩ := negotiate_ok
    (CapabilityNegotiator.new.setLocalCapabilities other) side otherDistinct sideDistinct
  have verdicts : ((∃ negotiated, verdict side other = .ok negotiated) ↔
      ∃ negotiated, verdict other side = .ok negotiated) ↔
      Unmatched side other ∨ Unmatched other side ∨
        (Versionless side other ↔ Versionless other side) := by
    rw [verdict, verdict, here, there]
    change (¬ Unmatched other side ∧ ¬ Unmatched side other ∧ ¬ Versionless side other ↔
      ¬ Unmatched side other ∧ ¬ Unmatched other side ∧ ¬ Versionless other side) ↔ _
    by_cases mine : Unmatched side other
    next => simp [mine]
    next =>
      by_cases theirs : Unmatched other side
      next => simp [theirs]
      next =>
        simp only [mine, theirs, not_false_eq_true, true_and, false_or]
        exact not_iff_not
  rw [← verdicts]
  constructor
  · exact SameVerdict.accepted
  · intro same
    refine ⟨same, fun mine theirs accepted accepted' serviceId version => ?_⟩
    rw [hereAvailable mine accepted, thereAvailable theirs accepted']
    exact ⟨Usable.symm _ _ _ _, Usable.symm _ _ _ _⟩

def configService (version : UInt32) (required : Bool) : CapabilitySet :=
  ⟨[⟨"bpl.config", version, required, fun _ => none⟩]⟩

theorem configService_noDuplicates (version : UInt32) (required : Bool) :
    (configService version required).NoDuplicates :=
  List.nodup_singleton _

def desktopServices : CapabilitySet where
  capabilities :=
    [⟨"bpl.config", 2, true, fun _ => none⟩, ⟨"bpl.sync", 1, false, fun _ => none⟩,
      ⟨"bpl.shell", 3, false, fun _ => none⟩]

def phoneServices : CapabilitySet where
  capabilities := [⟨"bpl.sync", 0, false, fun _ => none⟩, ⟨"bpl.config", 1, true, fun _ => none⟩]

theorem desktopServices_noDuplicates : desktopServices.NoDuplicates := by
  simp [CapabilitySet.NoDuplicates, Keyed.Distinct, desktopServices]

theorem phoneServices_noDuplicates : phoneServices.NoDuplicates := by
  simp [CapabilitySet.NoDuplicates, Keyed.Distinct, phoneServices]

theorem same_verdict_iff_phone :
    SameVerdict desktopServices phoneServices ↔
      Unmatched desktopServices phoneServices ∨ Unmatched phoneServices desktopServices ∨
        (Versionless desktopServices phoneServices ↔
          Versionless phoneServices desktopServices) :=
  same_verdict_iff desktopServices phoneServices desktopServices_noDuplicates
    phoneServices_noDuplicates

theorem version_zero_splits_verdict :
    (configService 0 false).NoDuplicates ∧ (configService 1 true).NoDuplicates ∧
      ¬ SameVerdict (configService 0 false) (configService 1 true) := by
  refine ⟨configService_noDuplicates 0 false, configService_noDuplicates 1 true, ?_⟩
  intro ⟨accepted, _⟩
  have failed : verdict (configService 1 true) (configService 0 false) =
      .error (.err (.requiredCapabilityMissing "bpl.config")) := rfl
  obtain ⟨negotiated, same⟩ := accepted.mp ⟨_, rfl⟩
  rw [failed] at same
  contradiction

end BitDrive
