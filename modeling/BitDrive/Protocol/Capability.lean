import BitDrive.Protocol.Types
import BitDrive.Shared.Keyed

set_option autoImplicit false

namespace BitDrive

-- Hash maps from strings to strings are functions.
structure ServiceCapability where
  serviceId : String
  version : UInt32
  required : Bool
  metadata : String → Option String

structure CapabilitySet where
  capabilities : List ServiceCapability

structure NegotiatedCapability where
  serviceId : String
  negotiatedVersion : UInt32
  negotiatedFeatures : String → Option String
  available : Bool
  unavailableReason : String

structure VersionCompatibility where
  serviceId : String
  localVersion : UInt32
  remoteVersion : UInt32
  compatible : Bool
  incompatibilityReason : String
  deriving DecidableEq

structure CapabilityNegotiator where
  localCapabilities : CapabilitySet
  negotiated : List NegotiatedCapability

def negotiateSingle (localCap remoteCap : ServiceCapability) : NegotiatedCapability :=
  let negotiatedVersion := min localCap.version remoteCap.version
  if negotiatedVersion = 0 then
    { serviceId := localCap.serviceId
      negotiatedVersion := 0
      negotiatedFeatures := fun _ => none
      available := false
      unavailableReason := "Version mismatch" }
  else
    { serviceId := localCap.serviceId
      negotiatedVersion := negotiatedVersion
      negotiatedFeatures := fun feature =>
        if (remoteCap.metadata feature).isSome then localCap.metadata feature else none
      available := true
      unavailableReason := "" }

theorem negotiateSingle_available (localCap remoteCap : ServiceCapability) :
    (negotiateSingle localCap remoteCap).available = true ↔
      min localCap.version remoteCap.version ≠ 0 := by
  rw [negotiateSingle]
  split
  next zero => simp [zero]
  next nonzero => simp [nonzero]

theorem negotiateSingle_serviceId (localCap remoteCap : ServiceCapability) :
    (negotiateSingle localCap remoteCap).serviceId = localCap.serviceId := by
  rw [negotiateSingle]
  split <;> rfl

theorem negotiateSingle_version (localCap remoteCap : ServiceCapability) :
    (negotiateSingle localCap remoteCap).negotiatedVersion =
      min localCap.version remoteCap.version := by
  rw [negotiateSingle]
  split
  next zero => exact zero.symm
  next => rfl

def CapabilitySet.find (set : CapabilitySet) (serviceId : String) : Option ServiceCapability :=
  set.capabilities.find? fun capability => capability.serviceId = serviceId

def negotiateRemote (localSet : CapabilitySet) (remoteCap : ServiceCapability) :
    Outcome ProtocolError NegotiatedCapability :=
  match localSet.find remoteCap.serviceId with
  | some localCap => .ok (negotiateSingle localCap remoteCap)
  | none =>
    if remoteCap.required then .error (.err (.requiredCapabilityMissing remoteCap.serviceId))
    else .ok
      { serviceId := remoteCap.serviceId
        negotiatedVersion := 0
        negotiatedFeatures := fun _ => none
        available := false
        unavailableReason := "Not supported locally" }

def negotiateEach (localSet : CapabilitySet) :
    List ServiceCapability → Outcome ProtocolError (List NegotiatedCapability)
  | [] => .ok []
  | remoteCap :: remoteCaps => do
    let negotiatedCap ← negotiateRemote localSet remoteCap
    let negotiated ← negotiateEach localSet remoteCaps
    return negotiatedCap :: negotiated

namespace CapabilityNegotiator

def new : CapabilityNegotiator where
  localCapabilities := ⟨[]⟩
  negotiated := []

def setLocalCapabilities (negotiator : CapabilityNegotiator) (capabilities : CapabilitySet) :
    CapabilityNegotiator :=
  { negotiator with localCapabilities := capabilities }

def negotiate (negotiator : CapabilityNegotiator) (remoteCapabilities : CapabilitySet) :
    Outcome ProtocolError (List NegotiatedCapability) × CapabilityNegotiator :=
  match negotiateEach negotiator.localCapabilities remoteCapabilities.capabilities with
  | .error abort => (.error abort, negotiator)
  | .ok negotiated =>
    -- The second pass looks at what is required here, not at what the peer requires.
    match negotiator.localCapabilities.capabilities.find? fun localCap =>
        localCap.required && !negotiated.any fun entry =>
          entry.serviceId = localCap.serviceId && entry.available with
    | some localCap => (.error (.err (.requiredCapabilityMissing localCap.serviceId)), negotiator)
    | none => (.ok negotiated, { negotiator with negotiated := negotiated })

def isCapabilitySupported (negotiator : CapabilityNegotiator) (serviceId : String)
    (requiredVersion : UInt32) : Bool :=
  negotiator.negotiated.any fun entry =>
    entry.serviceId = serviceId && entry.available && requiredVersion ≤ entry.negotiatedVersion

def isAvailable (negotiator : CapabilityNegotiator) (serviceId : String) : Bool :=
  negotiator.negotiated.any fun entry => entry.serviceId = serviceId && entry.available

def getVersion (negotiator : CapabilityNegotiator) (serviceId : String) : Option UInt32 :=
  (negotiator.negotiated.find? fun entry => entry.serviceId = serviceId && entry.available).map
    (·.negotiatedVersion)

def checkCompatibility (negotiator : CapabilityNegotiator) (remote : CapabilitySet) :
    List VersionCompatibility :=
  negotiator.localCapabilities.capabilities.map fun localCap =>
    let remoteCap := remote.find localCap.serviceId
    let compatible := remoteCap.elim false fun remoteCap => remoteCap.version = localCap.version
    { serviceId := localCap.serviceId
      localVersion := localCap.version
      remoteVersion := remoteCap.elim 0 (·.version)
      compatible := compatible
      incompatibilityReason := if compatible then "" else "Version mismatch" }

end CapabilityNegotiator

end BitDrive
