import ObjectProcessor.Service.Invariant

/-!
# Where documents come from

Every stored document was built from a file of some accepted callback, and every
outbox entry carries such a document.  Later steps only date it.
-/

namespace ObjectProcessor

open Library Schema

/-- The document has the contents of one that an accepted callback has built. -/
def FromCallback (cfg : Config) (document : InboundDocument) : Prop :=
  ∃ env store body documents, Accepted cfg env store body documents ∧
    ∃ built ∈ documents, document.raw = built.raw ∧ document.metadata = built.metadata ∧
      document.file = built.file ∧ document.s3 = built.s3

variable {cfg : Config} {system next : System} {action : Action}

theorem fromCallback_of_committed {env : CallbackEnv} {store : Store} {body : Json}
    {documents : List InboundDocument} (accepted : Accepted cfg env store body documents)
    {document : MetadataDocument} (member : document ∈ withIds env.documentId documents) :
    FromCallback cfg document.toInboundDocument :=
  ⟨env, store, body, documents, accepted, document.toInboundDocument,
    inbound_of_mem_withIds member, rfl, rfl, rfl, rfl⟩

/-- Publishing changes nothing of what the callback has built. -/
theorem MetadataStep.fromCallback {fate : MetadataDocument → MetadataDocument}
    {new : List MetadataDocument} (spec : MetadataStep cfg system action next fate new)
    {document : MetadataDocument} (built : FromCallback cfg document.toInboundDocument) :
    FromCallback cfg (fate document).toInboundDocument := by
  rcases spec.each document with kept | ⟨time, published⟩
  · rwa [kept]
  · rw [published]
    exact built

/-- Documents and entries all come from callbacks. -/
structure Originated (cfg : Config) (system : System) : Prop where
  documents : ∀ document ∈ system.store.metadata, FromCallback cfg document.toInboundDocument
  entries : ∀ entry ∈ system.store.outbox, FromCallback cfg entry.payload.toInboundDocument

theorem Originated.callback {env : CallbackEnv} {body : Json} {after : Store}
    (originated : Originated cfg system)
    (effect : CallbackEffect cfg env system.store body after) (stored : next.store = after) :
    Originated cfg next := by
  cases effect with
  | unchanged => exact ⟨by rw [stored]; exact originated.documents,
      by rw [stored]; exact originated.entries⟩
  | failed => exact ⟨by rw [stored]; exact originated.documents,
      by rw [stored]; exact originated.entries⟩
  | committed documents accepted =>
      constructor
      · intro document member
        rw [stored] at member
        rcases List.mem_append.mp member with old | fresh
        · exact originated.documents document old
        · exact fromCallback_of_committed accepted fresh
      · intro entry member
        rw [stored] at member
        rcases List.mem_append.mp member with old | fresh
        · exact originated.entries entry old
        · obtain ⟨document, listed, _, same⟩ := mem_createOutboxEntries fresh
          rw [same]
          exact fromCallback_of_committed accepted listed

/-- A step that is no callback creates neither documents nor entries. -/
theorem originated_of_other (coherent : Coherent system) (originated : Originated cfg system)
    (edge : Edge cfg system action next) (other : ∀ env body, action ≠ .callback env body) :
    Originated cfg next := by
  constructor
  · intro document member
    obtain ⟨fate, new, spec⟩ := metadataStep_of_edge edge
    rw [spec.metadata_eq] at member
    rcases List.mem_append.mp member with old | fresh
    · obtain ⟨before, stored, rfl⟩ := List.mem_map.mp old
      exact spec.fromCallback (originated.documents before stored)
    · obtain ⟨_, env, body, acts⟩ := spec.created document fresh
      exact absurd acts (other env body)
  · intro entry member
    rcases edge.origin coherent.entryIds member with
      ⟨before, stored, change⟩ | ⟨env, body, _, acts, _⟩
    · rw [change.payload_eq]
      exact originated.entries before stored
    · exact absurd acts (other env body)

theorem originated_step (coherent : Coherent system) (originated : Originated cfg system)
    (edge : Edge cfg system action next) : Originated cfg next := by
  have isEdge := edge
  cases edge with
  | callback past distinct fresh result effect => exact originated.callback effect rfl
  | _ => exact originated_of_other coherent originated isEdge (by simp)

theorem Reachable.originated (reachable : Reachable cfg system) : Originated cfg system := by
  refine Reaches.induction (motive := Originated cfg) reachable ⟨?_, ?_⟩ ?_
  · simp [System.initial]
  · simp [System.initial]
  · intro before action after reached holds accepted
    exact originated_step (Reachable.coherent reached) holds (edge_of_step accepted)

/-! ## What that says of a document -/

theorem FromCallback.metadata_valid {document : InboundDocument}
    (built : FromCallback cfg document) : baseMetadataSchema cfg document.metadata = true := by
  obtain ⟨env, store, body, documents, accepted, inbound, member, _, same, _⟩ := built
  rw [same]
  exact metadata_of_formatted accepted.schema accepted.valid accepted.formatted member

/-- The file of a document is named by a text that is not empty. -/
theorem FromCallback.fileText {document : InboundDocument} (built : FromCallback cfg document) :
    ∃ text, document.file.fileId = .str text ∧ text ≠ "" := by
  obtain ⟨env, store, body, documents, accepted, inbound, member, _, _, file, _⟩ := built
  obtain ⟨text, named, nonempty, _⟩ := accepted.fileId member
  exact ⟨text, by rw [file, named], nonempty⟩

/-- A required integer converts to a text. -/
theorem canConvert_of_integer {metadata : Json} {name : String} {least greatest : Nat}
    (admitted : (required (integer least greatest)).admits (metadata.get? name) = true) :
    canConvert (metadata.get? name) = true := by
  obtain ⟨value, found, isInteger⟩ := admits_required admitted
  obtain ⟨number, rfl, _⟩ := integer_eq_true isInteger
  rw [found]
  rfl

/-- The accounts of a document can be built, and its customer reference masked. -/
theorem FromCallback.canConvert {document : InboundDocument} (built : FromCallback cfg document) :
    ObjectProcessor.canConvert (document.metadata.get? "sbi") = true ∧
      ObjectProcessor.canConvert (document.metadata.get? "crn") = true := by
  have valid := built.metadata_valid
  have sbi : (required (integer schemaConsts.SBI_MIN schemaConsts.SBI_MAX)).admits
      (document.metadata.get? "sbi") = true := object_key valid (by simp [baseMetadataKeys])
  have crn : (required (integer schemaConsts.CRN_MIN schemaConsts.CRN_MAX)).admits
      (document.metadata.get? "crn") = true := object_key valid (by simp [baseMetadataKeys])
  exact ⟨canConvert_of_integer sbi, canConvert_of_integer crn⟩

end ObjectProcessor
