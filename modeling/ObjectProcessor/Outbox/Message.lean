import ObjectProcessor.Library.Calendar
import ObjectProcessor.Library.JsonSchema
import ObjectProcessor.Outbox.Entry

/-!
# The message of an outbox entry

The event published for a document is built from its metadata, its file and its
messaging fields; the title joins the reference, the customer and the date.
-/

namespace ObjectProcessor

open Library

/-- The two readings of the clock a message is built from. -/
structure MessageClock where
  /-- In the zone of the process. -/
  now : CalendarTime
  /-- In universal time, somewhat later. -/
  sent : CalendarTime

/-- `dd/mm/yyyy` -/
def uploadDate (now : CalendarTime) : String :=
  .ofList (padStart 2 now.day ++ '/' :: (padStart 2 now.month ++ '/' :: Nat.toDigits 10 now.year))

/-- `${metadata.reference} - CRN ${metadata.crn} - ${uploadDate}` -/
def crmTitle (now : CalendarTime) (metadata : Json) : String :=
  Json.templateText (metadata.get? "reference") ++ " - CRN " ++
    Json.templateText (metadata.get? "crn") ++ " - " ++ uploadDate now

/-- `${baseUrl}/api/v1/blob/${file.fileId}` -/
def blobUrl (cfg : Config) (fileId : Json) : String :=
  cfg.publicApiBaseUrl ++ ("/api/v1/blob/" ++ fileId.text)

def buildDocumentUploadMessage (cfg : Config) (clock : MessageClock) (payload : MetadataDocument) :
    Json :=
  .ofProperties
    [ ("id", some payload.file.fileId),
      ("source", some (.str "fcp-sfd-object-processor")),
      ("specversion", some (.str "1.0")),
      ("type", some (.str "uk.gov.fcp.sfd.document.uploaded")),
      ("datacontenttype", some (.str "application/json")),
      ("time", some (.str (toISOString clock.sent))),
      ("data", some (.ofProperties
        [ ("crn", payload.metadata.get? "crn"),
          ("crm", some (.ofProperties
            [ ("caseType", payload.metadata.get? "type"),
              ("title", some (.str (crmTitle clock.now payload.metadata))) ])),
          ("correlationId", some (.str payload.messaging.correlationId)),
          ("filesInBatch", some (.int payload.messaging.filesInBatch)),
          ("file", some (.ofProperties
            [ ("fileId", some payload.file.fileId),
              ("fileName", payload.file.filename),
              ("contentType", payload.file.contentType),
              ("url", some (.str (blobUrl cfg payload.file.fileId))) ])),
          ("sbi", payload.metadata.get? "sbi"),
          ("sourceSystem", payload.metadata.get? "service"),
          ("submissionId", payload.metadata.get? "submissionId") ])) ]

/-- `buildDocumentUploadMessageBatch`: every message reads the clock anew. -/
def buildDocumentUploadMessageBatch (cfg : Config) (clock : Nat → MessageClock)
    (pendingMessages : List OutboxEntry) : List Json :=
  pendingMessages.zipIdx.map fun message =>
    buildDocumentUploadMessage cfg (clock message.2) message.1.payload

end ObjectProcessor
