import ObjectProcessor.Library.Json

/-!
# Configuration

The settings the modelled code reads.  Each structure also records what the
configuration loader checks of them.
-/

namespace ObjectProcessor

/-- Milliseconds since the epoch. -/
abbrev Time := Nat

/-- `outboxWorkerId`. -/
abbrev WorkerId := String

structure Config where
  /-- `messaging.outboxMaxAttempts` -/
  outboxMaxAttempts : Nat
  /-- `messaging.outboxClaimLeaseMs` -/
  outboxClaimLeaseMs : Nat
  /-- `mongo.outboxQueryLimit` -/
  outboxQueryLimit : Nat
  /-- `messaging.outboxSentTtlSeconds` -/
  outboxSentTtlSeconds : Nat
  /-- `mongo.statusQueryLimit` -/
  statusQueryLimit : Nat
  cdpUploaderDocumentTypes : List String
  cdpUploaderMimeTypes : List String
  publicApiBaseUrl : String
  /-- The rule Joi applies for `guid({ version: ['uuidv4'] })`. -/
  isUuidV4 : String → Bool

end ObjectProcessor
