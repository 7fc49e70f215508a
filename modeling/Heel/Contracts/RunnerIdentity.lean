import Heel.Contracts.OperationalRun

/-! The identity record Cloud keeps of a runner and `validate_runner_identity` of
`heel/canary_contracts.py`. -/
namespace Heel
open Lib.Checks
open Json (contractFail)

inductive IdentityState where
  | active | rotating | revoked | replaced
  deriving DecidableEq, Repr

def IdentityState.name : IdentityState → String
  | .active => "active"
  | .rotating => "rotating"
  | .revoked => "revoked"
  | .replaced => "replaced"

structure Revocation where
  revokedAtMs : Option Int := none
  revokedBy : Option String := none
  reasonCode : Option String := none
  deriving DecidableEq, Repr

def Revocation.present (r : Revocation) : List Bool :=
  [r.revokedAtMs.isSome, r.revokedBy.isSome, r.reasonCode.isSome]

structure RunnerIdentity where
  runnerId : String
  workspaceId : String
  keyId : String
  /-- The key in base 64, and the bytes it decodes to. -/
  publicKey : String
  fingerprint : String
  runnerVersion : String
  adapterVersions : List String
  pairedBy : String
  pairedAtMs : Int
  lastHeartbeatAtMs : Int
  state : IdentityState := .active
  previousKeyIds : List String := []
  rotatedAtMs : Option Int := none
  overlapEndsAtMs : Option Int := none
  revocation : Revocation := {}
  deriving DecidableEq, Repr

namespace RunnerIdentity

def schema : String := "heel.runner-identity.v1"

/-- `RUNNER_CAPABILITIES`. -/
def capabilities : List String :=
  ["runner_claim", "runner_heartbeat", "runner_progress", "runner_result"]

def unsignedFields (i : RunnerIdentity) : List (String × Json) :=
  [("schema_version", .str schema), ("runner_id", .str i.runnerId),
   ("workspace_id", .str i.workspaceId),
   ("public_key", .obj [("algorithm", .str "Ed25519"), ("key_id", .str i.keyId),
     ("public_key_b64", .str i.publicKey)]),
   ("fingerprint", .str i.fingerprint), ("runner_version", .str i.runnerVersion),
   ("adapter_versions", .arr (i.adapterVersions.map .str)),
   ("capabilities", .arr (capabilities.map .str)),
   ("pairing", .obj [("paired_by", .str i.pairedBy), ("paired_at_ms", .int i.pairedAtMs),
     ("fingerprint_confirmation", .str "confirmed"), ("phrase_confirmation", .str "confirmed")]),
   ("last_heartbeat_at_ms", .int i.lastHeartbeatAtMs), ("state", .str i.state.name),
   ("rotation", .obj [("previous_key_ids", .arr (i.previousKeyIds.map .str)),
     ("rotated_at_ms", Json.optional .int i.rotatedAtMs),
     ("verification_overlap_ends_at_ms", Json.optional .int i.overlapEndsAtMs)]),
   ("revocation", .obj [("revoked_at_ms", Json.optional .int i.revocation.revokedAtMs),
     ("revoked_by", Json.optional .str i.revocation.revokedBy),
     ("reason_code", Json.optional .str i.revocation.reasonCode)])]

def unsigned (i : RunnerIdentity) : Json := .obj i.unsignedFields

def digest (P : Platform) (i : RunnerIdentity) : Except Refusal String :=
  Json.canonicalDigest P i.unsigned

def record (i : RunnerIdentity) (digest : String) : Json :=
  .obj (i.unsignedFields ++ [("identity_digest", .str digest)])

/-- `validate_runner_identity` of the identity under its own digest. The closed field names and the
enumerations are the types of `RunnerIdentity`; `keyText` says whether a text is the canonical base
64 of 32 bytes. -/
def validate (P : Platform) (keyText : String → Bool) (i : RunnerIdentity) :
    Except Refusal Unit := do
  let digest ← i.digest P
  let bytes ← Json.canonicalBytes P (i.record digest)
  require (byteSize bytes ≤ 16 * 1024) (contractFail "contract exceeds size limit")
  [i.runnerId, i.workspaceId, i.runnerVersion, i.keyId, i.publicKey].forM fun s =>
    contractIdentifier s
  require (keyText i.publicKey) (contractFail "invalid base64")
  contractHash i.fingerprint
  contractSortedUnique i.adapterVersions
  i.adapterVersions.forM fun s => contractIdentifier s
  contractIdentifier i.pairedBy
  contractInteger i.pairedAtMs
  contractInteger i.lastHeartbeatAtMs
  contractSortedUnique i.previousKeyIds
  i.previousKeyIds.forM fun s => contractIdentifier s
  [i.rotatedAtMs, i.overlapEndsAtMs].reduceOption.forM fun m => contractInteger m
  let present := i.revocation.present
  require (present.any id → present.all id) (contractFail "inconsistent revocation")
  require (i.state = .active → ¬ present.any id) (contractFail "active runner revoked")
  require (i.state ∈ [IdentityState.revoked, .replaced] → present.all id)
    (contractFail "revocation required")
  i.revocation.revokedAtMs.forM fun m => contractInteger m
  [i.revocation.revokedBy, i.revocation.reasonCode].reduceOption.forM fun s => contractIdentifier s
  contractHash digest

end RunnerIdentity
end Heel
