import ObjectLedger.Replication.Basic

/-! # Settings of the service

The settings of the commit service and of its block allocator. They pass validation if
the sizes, limits and counts that have to be positive are, and the default replication
is usable.
-/

namespace ObjectLedger

/-- The settings of the service. -/
structure Settings where
  /-- The size of an allocated block in bytes. -/
  blockSize : UInt64 := 268435456
  /-- The blocks allocated to a key that is opened without a size. -/
  preallocated : UInt64 := 1
  /-- The most blocks allocated to a key when it is opened. -/
  maxPreallocated : UInt64 := 64
  /-- The replication where neither the request nor the bucket names one. -/
  defaultReplication : Replication := .usual
  /-- Whether commits have to stay within the quotas of their bucket. -/
  enforceQuota : Bool := true
  /-- Whether a commit may take its report as it is. -/
  allowUnchecked : Bool := false
  /-- The number of containers that blocks are spread over. -/
  containers : UInt64 := 4
  /-- The attempts at updating the usage of a bucket. -/
  usageAttempts : UInt32 := 16
deriving DecidableEq, Repr

/-- Why settings are refused, or an operation under them. -/
inductive SettingsError where
  | notPositive (field : String)
  | replication (cause : ReplicationError)
  /-- The text does not give settings. -/
  | unreadable
  /-- A setting is too large to be written. -/
  | unwritable
  /-- Blocks have to be spread over a container. -/
  | noContainer
  /-- The allocator gave no block. -/
  | noBlock
  /-- The settings do not allow a commit without matching its report. -/
  | uncheckedCommit
  /-- A collaborator refused for a reason of its own. -/
  | refused (reason : String)
deriving DecidableEq, Repr

/-- Settings pass if every quantity that has to be positive is, and the default
replication is usable. -/
def Settings.validate (settings : Settings) : Except SettingsError Unit :=
  if settings.blockSize = 0 then .error (.notPositive "block_size")
  else if settings.maxPreallocated = 0 then .error (.notPositive "max_preallocate_blocks")
  else if settings.containers = 0 then .error (.notPositive "allocator_containers")
  else if settings.usageAttempts = 0 then .error (.notPositive "bucket_update_retries")
  else
    match settings.defaultReplication.validate with
    | .ok () => .ok ()
    | .error cause => .error (.replication cause)

end ObjectLedger
