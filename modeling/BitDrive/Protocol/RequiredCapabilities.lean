import BitDrive.Protocol.Negotiation
import BitDrive.Shared.Unsigned

set_option autoImplicit false

namespace BitDrive

def Demanded (set : CapabilitySet) (serviceId : String) : Prop :=
  ∃ capability ∈ set.capabilities, capability.serviceId = serviceId ∧ capability.required = true

def Matched (localSet remote : CapabilitySet) (serviceId : String) : Prop :=
  ∃ localCap, localSet.find serviceId = some localCap ∧
    ∃ remoteCap ∈ remote.capabilities, remoteCap.serviceId = serviceId ∧
      min localCap.version remoteCap.version ≠ 0

def Provides (negotiated : List NegotiatedCapability) (serviceId : String) : Prop :=
  ∃ entry ∈ negotiated, entry.serviceId = serviceId ∧ entry.available = true ∧
    1 ≤ entry.negotiatedVersion

def CapabilityNegotiator.Honours (negotiator : CapabilityNegotiator) (remote : CapabilitySet) :
    Prop :=
  ∀ negotiated, (negotiator.negotiate remote).1 = .ok negotiated → ∀ serviceId,
    Demanded negotiator.localCapabilities serviceId ∨ Demanded remote serviceId →
    Provides negotiated serviceId

theorem negotiateRemote_ready (localSet : CapabilitySet) (remoteCap : ServiceCapability)
    (entry : NegotiatedCapability) (negotiated : negotiateRemote localSet remoteCap = .ok entry) :
    (∀ serviceId, entry.serviceId = serviceId ∧ entry.available = true ↔
      remoteCap.serviceId = serviceId ∧ ∃ localCap, localSet.find serviceId = some localCap ∧
        min localCap.version remoteCap.version ≠ 0) ∧
      (entry.available = true → 1 ≤ entry.negotiatedVersion) := by
  have ⟨named, version, available⟩ := negotiateRemote_eq localSet remoteCap entry negotiated
  constructor
  next =>
    intro serviceId
    rw [named, available]
    apply and_congr_right
    rintro rfl
    exact commonVersion_ne_zero localSet remoteCap
  next =>
    intro ready
    rw [version]
    exact UInt32.one_le_of_ne_zero _ (available.mp ready)

theorem negotiateEach_ready (localSet : CapabilitySet) (remoteCaps : List ServiceCapability)
    (negotiated : List NegotiatedCapability)
    (accepted : negotiateEach localSet remoteCaps = .ok negotiated) :
    (∀ serviceId, (∃ entry ∈ negotiated, entry.serviceId = serviceId ∧ entry.available = true) ↔
      Matched localSet ⟨remoteCaps⟩ serviceId) ∧
      ∀ entry ∈ negotiated, entry.available = true → 1 ≤ entry.negotiatedVersion := by
  induction remoteCaps generalizing negotiated with
  | nil =>
    cases accepted
    simp [Matched]
  | cons remoteCap remoteCaps ih =>
    have ⟨entry, entries, first, rest, both⟩ := negotiateEach_cons _ _ _ _ accepted
    have ⟨ready, version⟩ := negotiateRemote_ready localSet remoteCap entry first
    have ⟨others, versions⟩ := ih entries rest
    rw [both]
    refine ⟨?_, List.forall_mem_cons.mpr ⟨version, versions⟩⟩
    intro serviceId
    rw [List.exists_mem_cons_iff, ready, others]
    simp only [Matched, List.exists_mem_cons_iff]
    constructor
    next =>
      intro either
      rcases either with ⟨same, localCap, known, usable⟩ | ⟨localCap, known, other⟩
      next => exact ⟨localCap, known, .inl ⟨same, usable⟩⟩
      next => exact ⟨localCap, known, .inr other⟩
    next =>
      intro ⟨localCap, known, either⟩
      cases either with
      | inl here => exact .inl ⟨here.1, localCap, known, here.2⟩
      | inr there => exact .inr ⟨localCap, known, there⟩

inductive Negotiates (negotiator : CapabilityNegotiator) (remote : CapabilitySet) : Prop where
  | unmatched (missing : Unmatched remote negotiator.localCapabilities)
      (failed : ∀ negotiated, (negotiator.negotiate remote).1 ≠ .ok negotiated)
  | unmet (serviceId : String) (demanded : Demanded negotiator.localCapabilities serviceId)
      (missing : ¬ Matched negotiator.localCapabilities remote serviceId)
      (failed : ∀ negotiated, (negotiator.negotiate remote).1 ≠ .ok negotiated)
  | accepted (entries : List NegotiatedCapability)
      (known : ¬ Unmatched remote negotiator.localCapabilities)
      (met : ∀ serviceId, Demanded negotiator.localCapabilities serviceId →
        Matched negotiator.localCapabilities remote serviceId)
      (provides : ∀ serviceId, Provides entries serviceId ↔
        Matched negotiator.localCapabilities remote serviceId)
      (returned : (negotiator.negotiate remote).1 = .ok entries)

theorem negotiate_negotiates (negotiator : CapabilityNegotiator) (remote : CapabilitySet) :
    Negotiates negotiator remote := by
  have refused := negotiateEach_error negotiator.localCapabilities remote.capabilities
  have accepts := negotiate_ok_iff negotiator remote
  simp only [← negotiateEach_ok_iff] at accepts
  cases each : negotiateEach negotiator.localCapabilities remote.capabilities with
  | error abort =>
    refine .unmatched (refused.mp ⟨abort, each⟩) ?_
    intro entries accepted
    cases each.symm.trans ((accepts entries).mp accepted).1
  | ok entries =>
    obtain ⟨ready, versions⟩ := negotiateEach_ready _ _ entries each
    have known : ¬ Unmatched remote negotiator.localCapabilities :=
      negotiateEach_matched _ _ entries each
    by_cases fulfils : Fulfils negotiator.localCapabilities entries
    next =>
      have met (serviceId : String) (required : Demanded negotiator.localCapabilities serviceId) :
          Matched negotiator.localCapabilities remote serviceId := by
        obtain ⟨localCap, member, named, demanded⟩ := required
        rw [← ready, ← named]
        exact fulfils localCap member demanded
      have provides (serviceId : String) : Provides entries serviceId ↔
          Matched negotiator.localCapabilities remote serviceId := by
        rw [← ready]
        constructor
        next =>
          rintro ⟨entry, inside, named, available, _⟩
          exact ⟨entry, inside, named, available⟩
        next =>
          rintro ⟨entry, inside, named, available⟩
          exact ⟨entry, inside, named, available, versions entry inside available⟩
      exact .accepted entries known met provides ((accepts entries).mpr ⟨each, fulfils⟩)
    next =>
      obtain ⟨localCap, member, demanded, missing⟩ : ∃ localCap ∈
          negotiator.localCapabilities.capabilities, localCap.required = true ∧
            ¬ ∃ entry ∈ entries, entry.serviceId = localCap.serviceId ∧ entry.available = true := by
        simpa only [Fulfils, not_forall, exists_prop] using fulfils
      rw [ready] at missing
      refine .unmet localCap.serviceId ⟨localCap, member, rfl, demanded⟩ missing ?_
      intro others accepted
      obtain ⟨again, met⟩ := (accepts others).mp accepted
      rw [Except.ok.inj (each.symm.trans again)] at fulfils
      exact fulfils met

theorem honours_iff (negotiator : CapabilityNegotiator) (remote : CapabilitySet) :
    negotiator.Honours remote ↔
      Unmatched remote negotiator.localCapabilities ∨
      (∃ serviceId, Demanded negotiator.localCapabilities serviceId ∧
        ¬ Matched negotiator.localCapabilities remote serviceId) ∨
      ∀ serviceId, Demanded remote serviceId →
        Matched negotiator.localCapabilities remote serviceId := by
  cases negotiate_negotiates negotiator remote with
  | unmatched missing failed =>
    have honours : negotiator.Honours remote := fun negotiated returned =>
      absurd returned (failed negotiated)
    exact iff_of_true honours (.inl missing)
  | unmet serviceId demanded missing failed =>
    have honours : negotiator.Honours remote := fun negotiated returned =>
      absurd returned (failed negotiated)
    exact iff_of_true honours (.inr (.inl ⟨serviceId, demanded, missing⟩))
  | accepted entries known met provides returned =>
    constructor
    next =>
      intro honours
      right
      right
      intro serviceId demanded
      exact (provides serviceId).mp (honours entries returned serviceId (.inr demanded))
    next =>
      intro condition negotiated same serviceId demanded
      rw [returned] at same
      cases same
      rw [provides]
      cases demanded with
      | inl mine => exact met serviceId mine
      | inr theirs =>
        rcases condition with missing | ⟨other, mine, missing⟩ | matched
        next => exact absurd missing known
        next => exact absurd (met other mine) missing
        next => exact matched serviceId theirs

theorem required_at_version_zero :
    ¬ (CapabilityNegotiator.new.setLocalCapabilities (configService 0 false)).Honours
      (configService 1 true) := by
  intro honours
  have ⟨entry, inside, _, available, _⟩ :=
    honours _ rfl "bpl.config" (.inr ⟨_, List.mem_singleton_self _, rfl, rfl⟩)
  rw [List.mem_singleton.mp inside] at available
  contradiction

end BitDrive
