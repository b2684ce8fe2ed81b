import TelegramS3.Accounts
import TelegramS3.Multipart
import TelegramS3.Recovery
import TelegramS3.SendAttempts

namespace TelegramS3
open Relational Fallible
set_option autoImplicit true

/-- The methods of the store as the service calls them; a job, its object and its operation share
one id, and a part job publishes under the number it was opened with. -/
inductive StoreOp where
  | beginTransfer (objectId : Uuid) (bucket key : String) (now : Int)
  | reserveStaging (id : Uuid) (bytes budget : Nat) (now : Int)
  | renewReceiving (id : Uuid) (now : Int)
  | setTransferConditionals (id : Uuid) (c : Option TransferWriteConditionals) (now : Int)
  | queueTransfer (id : Uuid) (chunks : Nat) (now : Int)
  | failReception (id : Uuid) (filesRemoved : Bool) (message : String) (now : Int)
  | rejectTransferForQuota (id : Uuid) (message : String) (now : Int)
  | claimTransfer (now : Int) (lease : Uuid)
  | renewTransfer (id lease : Uuid) (now : Int)
  | enterCommitting (id lease : Uuid) (now : Int)
  | transferFailed (id lease : Uuid) (retryAfter : Option Nat) (message : String) (now : Int)
  | transferAction (id : Uuid) (action : String) (now : Int)
  | cleanupCompletedStaging (removed : Nat)
  | beginSendAttempt (id lease : Uuid) (order : Nat) (attempt : Uuid) (now : Int)
  | finishSendAttempt (id lease : Uuid) (order : Nat) (attempt : Uuid)
      (location : TelegramLocation) (now : Int)
  | markSendAttemptUnknown (id lease : Uuid) (order : Nat) (attempt : Uuid)
      (errorKind error : String) (now : Int)
  | markSendAttemptRetryable (id lease : Uuid) (order : Nat) (attempt : Uuid)
      (errorKind error : String) (now : Int)
  | resolveSendAttempt (id : Uuid) (order : Nat) (attempt : Uuid)
      (location : Option TelegramLocation) (error : Option String) (now : Int)
  | reclassifyFloodWaitAttempts (retryAfter : Nat) (now : Int)
  | queueAfterReconciliation (id : Uuid) (now : Int)
  | stageManifest (kind : OperationKind) (m : ObjectManifest) (now : OffsetDateTime)
  | commitManifest (operation : Uuid) (now : OffsetDateTime)
  | commitTransferManifest (id lease : Uuid) (published : ObjectManifest) (now : OffsetDateTime)
  | updateManifest (m : ObjectManifest)
  | updateManifestState (objectId : Uuid) (state : CommitState) (now : OffsetDateTime)
  | tombstoneManifest (objectId : Uuid) (reason : String) (c : DeleteConditionals)
      (now : OffsetDateTime)
  | tombstoneExpiredActiveManifests (now : OffsetDateTime)
  | deleteActiveKey (bucket key reason : String) (c : DeleteConditionals) (now : OffsetDateTime)
  | createMultipartSession (session : MultipartSession) (now : OffsetDateTime)
  | insertMultipartJob (row : MultipartJobRow)
  | finishPartJob (id lease : Uuid) (now : OffsetDateTime)
  | abortParts (upload : Uuid) (now : Int)
  | queueMultipartCompletion (job upload : Uuid) (now : OffsetDateTime)
  | beginConnectionRemoval (job : Uuid) (deleteUploadedFiles : Bool) (now : OffsetDateTime)
  | reopen (now : OffsetDateTime)
  | claimCleanup (now : Int) (lease : Uuid)
  | completeCleanup (id : Nat) (lease : Uuid) (location : Option TelegramLocation)
  | failCleanup (id : Nat) (lease : Uuid) (retryAfter now : Int) (message : String)
  | quarantineCleanup (id : Nat) (lease : Uuid) (message : String)
  | beginCleanupEvidenceAttempt (id : Nat) (lease objectId fresh : Uuid) (now : Int)
  | resolveCleanupEvidence (id : Nat) (location : TelegramLocation)
  | retryCleanupEvidence (id : Nat) (message : String) (now : Int)
  | makeCleanupDue (objectId : Uuid) (now : Int)
  | queueRechunk (id : Uuid) (bucket key : String) (newChunkSize : Nat) (now : Int)
  | claimRechunkJob (now : Int)
  | finishRechunk (id : Uuid) (state : RechunkState) (error : Option String) (now : Int)
  | insertReplicaLocation (row : ReplicaLocationRow)

/-- The store after a call that succeeded; a call that fails is rolled back and is no step. -/
def StoreOp.apply (fromStr : String → Option ETagCondition) (op : StoreOp) (s : MetadataStore) :
    Option MetadataStore :=
  match op with
  | .beginTransfer objectId bucket key now => after (s.beginTransfer objectId bucket key now)
  | .reserveStaging id bytes budget now => after (s.reserveStaging id bytes budget now)
  | .renewReceiving id now => some (s.renewReceiving id now)
  | .setTransferConditionals id c now => after (s.setTransferConditionals id c now)
  | .queueTransfer id chunks now => after (s.queueTransfer id id chunks now)
  | .failReception id filesRemoved message now => some (s.failReception id filesRemoved message now).2
  | .rejectTransferForQuota id message now => some (s.rejectTransferForQuota id message now).2
  | .claimTransfer now lease => some (s.claimTransfer now lease).2
  | .renewTransfer id lease now => some (s.renewTransfer id lease now)
  | .enterCommitting id lease now => after (s.enterCommitting id lease now)
  | .transferFailed id lease retryAfter message now =>
    some (s.transferFailed id lease retryAfter message now)
  | .transferAction id action now => some (s.transferAction id action now)
  | .cleanupCompletedStaging removed => some (s.cleanupCompletedStaging removed)
  | .beginSendAttempt id lease order attempt now =>
    after (s.beginSendAttempt id lease order attempt now)
  | .finishSendAttempt id lease order attempt location now =>
    after (s.finishSendAttempt id lease order attempt location now)
  | .markSendAttemptUnknown id lease order attempt errorKind error now =>
    after (s.markSendAttemptUnknown id lease order attempt errorKind error now)
  | .markSendAttemptRetryable id lease order attempt errorKind error now =>
    after (s.markSendAttemptRetryable id lease order attempt errorKind error now)
  | .resolveSendAttempt id order attempt location error now =>
    after (s.resolveSendAttempt id order attempt location error now)
  | .reclassifyFloodWaitAttempts retryAfter now => some (s.reclassifyFloodWaitAttempts retryAfter now)
  | .queueAfterReconciliation id now => some (s.queueAfterReconciliation id now)
  | .stageManifest kind m now => after (s.stageManifest kind m now)
  | .commitManifest operation now => after ((s.commitManifest fromStr operation now).map Prod.snd)
  | .commitTransferManifest id lease published now =>
    after ((s.commitTransferManifest fromStr id id lease published now).map Prod.snd)
  | .updateManifest m => some (s.updateManifest m)
  | .updateManifestState objectId state now =>
    after ((s.updateManifestState objectId state now).map Prod.snd)
  | .tombstoneManifest objectId reason c now =>
    after ((s.tombstoneManifestWithConditionals objectId reason c now).map Prod.snd)
  | .tombstoneExpiredActiveManifests now => some (s.tombstoneExpiredActiveManifests now)
  | .deleteActiveKey bucket key reason c now =>
    after ((s.deleteActiveKey bucket key reason c now).map Prod.snd)
  | .createMultipartSession session now => some (s.createMultipartSession session now)
  | .insertMultipartJob row => after (s.insertMultipartJob row)
  | .finishPartJob id lease now =>
    (s.multipartJob id).bind fun (upload, number) =>
      after (s.finishPartJob fromStr id lease upload number now)
  | .abortParts upload now => after (s.abortParts upload now)
  | .queueMultipartCompletion job upload now =>
    after (s.queueMultipartCompletion job job upload now)
  | .beginConnectionRemoval job deleteUploadedFiles now =>
    after (s.beginConnectionRemoval job deleteUploadedFiles now)
  | .reopen now => some (s.reopen now)
  | .claimCleanup now lease => some (s.claimCleanup now lease).2
  | .completeCleanup id lease location => some (s.completeCleanup id lease location).2
  | .failCleanup id lease retryAfter now message =>
    some (s.failCleanup id lease retryAfter now message)
  | .quarantineCleanup id lease message => some (s.quarantineCleanup id lease message)
  | .beginCleanupEvidenceAttempt id lease objectId fresh now =>
    after ((s.beginCleanupEvidenceAttempt id lease objectId fresh now).map Prod.snd)
  | .resolveCleanupEvidence id location => some (s.resolveCleanupEvidence id location)
  | .retryCleanupEvidence id message now =>
    some (s.retryCleanupEvidenceAfterReconciliation id message now)
  | .makeCleanupDue objectId now => some (s.makeCleanupDue objectId now)
  | .queueRechunk id bucket key newChunkSize now =>
    after (s.queueRechunk id bucket key newChunkSize now)
  | .claimRechunkJob now => some (s.claimRechunkJob now).2
  | .finishRechunk id state error now => some (s.finishRechunk id state error now)
  | .insertReplicaLocation row => some (s.insertReplicaLocation row)

def StoreStep (fromStr : String → Option ETagCondition) (op : StoreOp) (s s' : MetadataStore) :
    Prop :=
  op.apply fromStr s = some s'

end TelegramS3
