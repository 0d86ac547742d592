import Inqutum.AuditIndexProofs
import Inqutum.CanonicalGraphProofs
import Inqutum.CapabilityIssueProofs
import Inqutum.CapabilityRunProofs
import Inqutum.CheckpointRunProofs
import Inqutum.ConflictResolverProofs
import Inqutum.ConflictWinnerProofs
import Inqutum.CursorCodecProofs
import Inqutum.EmailCapProofs
import Inqutum.EmailSendProofs
import Inqutum.EvidenceFreshnessProofs
import Inqutum.ExactAmountProofs
import Inqutum.ExportPagingProofs
import Inqutum.ExternalReferenceProofs
import Inqutum.HysteresisProofs
import Inqutum.ImpersonationProofs
import Inqutum.ImportEncodingProofs
import Inqutum.ImportFrozenProofs
import Inqutum.ImportLineProofs
import Inqutum.ImportLookupProofs
import Inqutum.InvitationThrottleProofs
import Inqutum.JobFencingProofs
import Inqutum.MaintainerIntentProofs
import Inqutum.MonitorContractProofs
import Inqutum.NotificationProofs
import Inqutum.OperationRaceProofs
import Inqutum.OwnershipHandoffProofs
import Inqutum.PayerPrecheckProofs
import Inqutum.PaymentPageProofs
import Inqutum.PolicyDiffProofs
import Inqutum.ProjectionRepairProofs
import Inqutum.QueueDepthProofs
import Inqutum.ReferenceEvidenceProofs
import Inqutum.ReimportProofs
import Inqutum.RepairDryRunProofs
import Inqutum.RepairLeaseProofs
import Inqutum.ReplayVisibilityProofs
import Inqutum.RestoreRunProofs
import Inqutum.RetentionRaceProofs
import Inqutum.SanitizedTextProofs
import Inqutum.ScopeBindingProofs
import Inqutum.SettlementErrorProofs
import Inqutum.SigningEnvelopeProofs
import Inqutum.SlaPollingProofs
import Inqutum.VersionTokenProofs
import Inqutum.WebhookDedupProofs
import Inqutum.WebhookSigningProofs
import Inqutum.WorkloadCostProofs
import Inqutum.WriteParityRunProofs
