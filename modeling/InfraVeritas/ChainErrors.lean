import InfraVeritas.V3

/-!
# Chain errors

`ChainErrorCode`, `ChainSubmissionError` and `mapChainError` of `chain/submit.ts`. A thrown value is
reduced to the fields `mapChainError` looks at.
-/

namespace InfraVeritas

inductive ChainErrorCode
  | DeviceNotActive
  | InvalidP256Signature
  | PayloadHashMismatch
  | InvalidZKProof
  | SessionKeyAlreadyUsed
  | EpochInFuture
  | InvalidTimestamp
  | InvalidPubkeyLength
  | InvalidSignatureLength
  | AccessControlUnauthorizedAccount
  | EnforcedPause
  | ReentrancyGuardReentrantCall
  | TX_REVERTED
  | UNKNOWN
deriving DecidableEq, Repr

namespace ChainErrorCode

def name : ChainErrorCode → String
  | DeviceNotActive => "DeviceNotActive"
  | InvalidP256Signature => "InvalidP256Signature"
  | PayloadHashMismatch => "PayloadHashMismatch"
  | InvalidZKProof => "InvalidZKProof"
  | SessionKeyAlreadyUsed => "SessionKeyAlreadyUsed"
  | EpochInFuture => "EpochInFuture"
  | InvalidTimestamp => "InvalidTimestamp"
  | InvalidPubkeyLength => "InvalidPubkeyLength"
  | InvalidSignatureLength => "InvalidSignatureLength"
  | AccessControlUnauthorizedAccount => "AccessControlUnauthorizedAccount"
  | EnforcedPause => "EnforcedPause"
  | ReentrancyGuardReentrantCall => "ReentrancyGuardReentrantCall"
  | TX_REVERTED => "TX_REVERTED"
  | UNKNOWN => "UNKNOWN"

end ChainErrorCode

/-- The codes whose names are in `KNOWN_ERROR_NAMES`. -/
def KNOWN_ERROR_NAMES : List ChainErrorCode :=
  [.DeviceNotActive, .InvalidP256Signature, .PayloadHashMismatch, .InvalidZKProof, .SessionKeyAlreadyUsed,
    .EpochInFuture, .InvalidTimestamp, .InvalidPubkeyLength, .InvalidSignatureLength,
    .AccessControlUnauthorizedAccount, .EnforcedPause, .ReentrancyGuardReentrantCall]

structure ChainSubmissionError where
  code : ChainErrorCode
  message : String
deriving DecidableEq, Repr

/-- A thrown JavaScript value: `cause.data.errorName`, `data.errorName`, `errorName`, `shortMessage`,
`message` where present, and its string form. -/
structure JsError where
  causeErrorName : Option String
  dataErrorName : Option String
  errorName : Option String
  shortMessage : Option String
  message : Option String
  text : String
deriving DecidableEq, Repr

def mapChainError (err : JsError) : ChainSubmissionError :=
  let errorName := err.causeErrorName <|> err.dataErrorName <|> err.errorName
  match errorName.bind fun n => KNOWN_ERROR_NAMES.find? fun c => c.name = n with
  | some code => ⟨code, "V3 revert: " ++ code.name⟩
  | none => ⟨.UNKNOWN, ((err.shortMessage <|> err.message).getD err.text)⟩

namespace V3Error

/-- The name under which the client library reports a revert of V3; raw revert data has none. -/
def errorName : V3Error → Option String
  | .deviceNotActive _ => some "DeviceNotActive"
  | .invalidTimestamp _ _ => some "InvalidTimestamp"
  | .sessionKeyAlreadyUsed _ => some "SessionKeyAlreadyUsed"
  | .invalidP256Signature => some "InvalidP256Signature"
  | .invalidZKProof => some "InvalidZKProof"
  | .payloadHashMismatch _ _ => some "PayloadHashMismatch"
  | .epochInFuture _ _ => some "EpochInFuture"
  | .invalidSignatureLength _ => some "InvalidSignatureLength"
  | .invalidPubkeyLength _ => some "InvalidPubkeyLength"
  | .zeroAddress => some "ZeroAddress"
  | .sameAddress => some "SameAddress"
  | .oz (.accessControlUnauthorizedAccount _ _) => some "AccessControlUnauthorizedAccount"
  | .oz .accessControlBadConfirmation => some "AccessControlBadConfirmation"
  | .oz .enforcedPause => some "EnforcedPause"
  | .oz .expectedPause => some "ExpectedPause"
  | .oz .reentrancyGuardReentrantCall => some "ReentrancyGuardReentrantCall"
  | .oz .invalidInitialization => some "InvalidInitialization"
  | .panic _ => some "Panic"
  | .bubbled _ => none

/-- The error a simulated call throws when V3 reverts. -/
def thrown (e : V3Error) : JsError := ⟨e.errorName, none, none, none, none, "execution reverted"⟩

end V3Error

end InfraVeritas
