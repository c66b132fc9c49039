import FiveSpot.Model.Text

/-! # Constants of the controller (`src/constants.rs`) -/

namespace FiveSpot.Constants

set_option autoImplicit false

def apiVersionFull : String := "5spot.finos.org/v1beta1"
def spotScheduleApiGroup : String := "spotschedules.5spot.finos.org"
def kindScheduledMachine : String := "ScheduledMachine"
def finalizerScheduledMachine : String := "5spot.finos.org/scheduledmachine"

def httpAlreadyExists : Nat := 409
def httpNotFound : Nat := 404
def httpTooManyRequests : Nat := 429

def reclaimRequestedAnnotation : String := "5spot.finos.org/reclaim-requested"
def reclaimReasonAnnotation : String := "5spot.finos.org/reclaim-reason"
def reclaimRequestedAtAnnotation : String := "5spot.finos.org/reclaim-requested-at"
def reclaimRequestedValue : String := "true"
def reclaimAgentLabel : String := "5spot.finos.org/reclaim-agent"
def reclaimAgentLabelEnabled : String := "enabled"
def reclaimAgentNamespace : String := "5spot-system"
def reclaimAgentConfigmapStem : String := "reclaim-agent-"
def kataConfigLabel : String := "5spot.finos.org/kata-config"
def kataConfigLabelEnabled : String := "enabled"
def kataConfigRefAnnotation : String := "5spot.finos.org/kata-config-ref"
def kataConfigAppliedAnnotation : String := "5spot.finos.org/kata-config-applied"
def appliedTaintsAnnotation : String := "5spot.finos.org/applied-taints"
def defaultPollIntervalMs : Nat := 250

def reasonEmergencyReclaim : String := "EmergencyReclaim"
def reasonEmergencyReclaimDisabledSchedule : String := "EmergencyReclaimDisabledSchedule"
def reasonRapidReReclaim : String := "RapidReReclaim"
def reasonReconcileSucceeded : String := "ReconcileSucceeded"
def reasonScheduleActive : String := "ScheduleActive"
def reasonScheduleInactive : String := "ScheduleInactive"
def reasonMachineCreated : String := "MachineCreated"
def reasonMachineDeleted : String := "MachineDeleted"
def reasonKillSwitch : String := "KillSwitchActivated"
def reasonGracePeriod : String := "GracePeriodActive"
def reasonScheduleDisabled : String := "ScheduleDisabled"
def reasonSpotScheduleResolved : String := "Resolved"
def reasonSpotScheduleProviderCrdNotInstalled : String := "ProviderCRDNotInstalled"
def reasonSpotScheduleProviderNotFound : String := "ProviderNotFound"
def reasonSpotScheduleStatusActiveMissing : String := "StatusActiveMissing"
def reasonSpotScheduleProviderNotReady : String := "ProviderNotReady"
def conditionTypeReady : String := "Ready"
def conditionStatusTrue : String := "True"

def reasonTimeBasedWindowOpen : String := "WindowOpen"
def reasonTimeBasedWindowClosed : String := "WindowClosed"
def reasonCapitalMarketsSessionOpen : String := "SessionOpen"
def reasonCapitalMarketsSessionClosed : String := "SessionClosed"

def providerTransitionHorizonHours : Nat := 8 * 24
def providerFallbackRequeueSecs : Nat := 6 * 3600
def emergencyDrainTimeoutSecs : Nat := 60
def maxBackoffSecs : Nat := 300
def maxReconcileRetries : Nat := 10
def rapidReReclaimThreshold : Nat := 3
def rapidReReclaimWindowSecs : Nat := 600
def rapidReReclaimMaxTracked : Nat := 10
def errorRequeueSecs : Nat := 30
def timerRequeueSecs : Nat := 60
def finalizerCleanupTimeoutSecs : Nat := 600
def childClientCacheCap : Nat := 256
def maxDurationSecs : Nat := 86400
def maxClusterNameLen : Nat := 63
def maxKillIfCommandsCount : Nat := 100
def maxKillIfCommandLen : Nat := 256
def defaultInstanceId : Nat := 0

def capiGroup : String := "cluster.x-k8s.io"
def capiClusterNameLabel : String := "cluster.x-k8s.io/cluster-name"
def scheduledMachineLabel : String := "5spot.finos.org/scheduled-machine"
/-- `LABEL_SCHEDULED_MACHINE` of `src/labels.rs`, which the mappers and the watch selectors read. -/
def labelScheduledMachine : String := "5spot.eribourg.dev/scheduled-machine"
def capiResourceMachines : String := "machines"
def podEvictionGracePeriodSecs : Nat := 30
def rbacVerbCreate : String := "create"
def defaultKubeconfigSecretKey : String := "value"

def reservedLabelPrefixes : List String :=
  ["kubernetes.io/", "k8s.io/", "cluster.x-k8s.io/", "5spot.finos.org/"]
def allowedBootstrapApiGroups : List String := ["bootstrap.cluster.x-k8s.io", "k0smotron.io"]
def allowedInfrastructureApiGroups : List String := ["infrastructure.cluster.x-k8s.io", "k0smotron.io"]

end FiveSpot.Constants
