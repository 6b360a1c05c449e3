import ObjectProcessor.Library.Keyset
import ObjectProcessor.Metadata.Document

/-!
# Pages of metadata

The documents of a business are read newest first, a page at a time.  The cursor is
the text of the last identifier of the page; a caller hands it back to read on, and
the store may change between two requests.
-/

namespace ObjectProcessor

open Library

structure NotFoundError where
  message : String
  deriving DecidableEq

def noDocumentsFoundError : String := "No documents found"

/-- A document as a page holds it: `_id`, `metadata` and `file`. -/
structure PageDocument where
  id : ObjectId
  metadata : Json
  file : DocumentFile
  deriving DecidableEq

def MetadataDocument.projected (document : MetadataDocument) : PageDocument where
  id := document.id
  metadata := document.metadata
  file := document.file

structure MetadataPage where
  documents : List PageDocument
  hasMore : Bool
  nextCursor : Option String
  deriving DecidableEq

/-- `'metadata.sbi': sbi` -/
def isOfSbi (sbi : Int) (document : MetadataDocument) : Bool :=
  document.metadata.get? "sbi" = some (.int sbi)

/-- `getMetadataPageBySbi`, over the documents the read sees. -/
def getMetadataPageBySbi (stored : List MetadataDocument) (sbi : Int) (pageSize : Nat)
    (after : Option ObjectId) : Except NotFoundError MetadataPage :=
  let found := stored.filter fun document =>
    isOfSbi sbi document && after.all fun cursor => decide (document.id < cursor)
  let results := ((found.map MetadataDocument.projected).insertionSort
    fun left right => right.id ≤ left.id).take (pageSize + 1)
  if results = [] ∧ after = none then .error { message := noDocumentsFoundError }
  else
    let hasMore := decide (pageSize < results.length)
    let documents := if hasMore then results.take pageSize else results
    .ok
      { documents, hasMore
        nextCursor :=
          if hasMore then documents.getLast?.map fun last => last.id.toHexString else none }

/-- The cursor of a request, unless its text makes the conversion throw. -/
def toCursor : Option String → Option (Option ObjectId)
  | none => some none
  | some text =>
      if text = "" then some none else (ObjectId.createFromHexString text).map some

/-! ## Following the cursor -/

/-- A request of a caller, with the documents stored at its moment. -/
structure PageRequest where
  stored : List MetadataDocument
  pageSize : Nat

structure PageVisit where
  request : PageRequest
  after : Option ObjectId
  response : Except NotFoundError MetadataPage

/-- The requests of a caller that hands every cursor back until nothing more is left. -/
def followCursor (sbi : Int) : Option String → List PageRequest → List PageVisit
  | _, [] => []
  | after, request :: rest =>
      match toCursor after with
      | none => []
      | some cursor =>
          let response := getMetadataPageBySbi request.stored sbi request.pageSize cursor
          { request, after := cursor, response } ::
            match response with
            | .ok page => if page.hasMore then followCursor sbi page.nextCursor rest else []
            | .error _ => []

/-- The documents of a response. -/
def PageVisit.documents (visit : PageVisit) : List PageDocument :=
  match visit.response with
  | .ok page => page.documents
  | .error _ => []

/-- The last page of the walk has been read. -/
def WalkCompleted (visits : List PageVisit) : Prop :=
  ∃ visit ∈ visits, ∃ page, visit.response = .ok page ∧ page.hasMore = false

/-- Documents are inserted and never deleted; what pages show of them stays. -/
def OnlyInserts (earlier later : PageRequest) : Prop :=
  ∀ document ∈ earlier.stored, document.projected ∈ later.stored.map MetadataDocument.projected

/-- No document of the business was inserted below the cursor of the later request. -/
def NoInsertsBelowCursor (sbi : Int) (earlier later : PageVisit) : Prop :=
  ∀ document ∈ later.request.stored, isOfSbi sbi document = true →
    (∀ cursor ∈ later.after, document.id < cursor) →
      document.projected ∈ earlier.request.stored.map MetadataDocument.projected

/-! ## Pages by key -/

section Keyset

/-- The documents of the business, as pages hold them. -/
def sbiDocuments (sbi : Int) (request : PageRequest) : List PageDocument :=
  (request.stored.filter (isOfSbi sbi)).map MetadataDocument.projected

def ofKeysetPage (page : Keyset.Page PageDocument ObjectId) : MetadataPage where
  documents := page.items
  hasMore := page.hasMore
  nextCursor := page.next.map ObjectId.toHexString

def ofKeysetVisit (visit : Keyset.Visit PageRequest PageDocument ObjectId) : PageVisit where
  request := visit.request
  after := visit.after
  response := .ok (ofKeysetPage visit.page)

variable {sbi : Int} {request : PageRequest} {after : Option ObjectId}

theorem below_sbiDocuments : Keyset.below PageDocument.id after (sbiDocuments sbi request) =
    (request.stored.filter fun document => isOfSbi sbi document &&
      after.all fun cursor => decide (document.id < cursor)).map MetadataDocument.projected := by
  rw [Keyset.below, sbiDocuments, List.filter_map, List.filter_filter]
  congr 2
  funext document
  exact Bool.and_comm ..

theorem ofKeysetPage_ofResults (size : Nat) (results : List PageDocument) :
    ofKeysetPage (Keyset.ofResults PageDocument.id size results) =
      let hasMore := decide (size < results.length)
      let documents := if hasMore then results.take size else results
      { documents, hasMore
        nextCursor :=
          if hasMore then documents.getLast?.map fun last => last.id.toHexString else none } := by
  by_cases more : size < results.length
  · simp [ofKeysetPage, Keyset.ofResults, more, Function.comp_def]
  · simp [ofKeysetPage, Keyset.ofResults, more]

theorem fetch_eq_nil {pageSize : Nat} {docs : List PageDocument} :
    ((Keyset.descending PageDocument.id docs).take (pageSize + 1) = []) ↔ docs = [] := by
  rw [List.take_eq_nil_iff, ← List.length_eq_zero_iff, Keyset.length_descending,
    List.length_eq_zero_iff]
  simp

/-- A request answers with the page by key, unless it is the first and finds nothing. -/
theorem getMetadataPageBySbi_eq : getMetadataPageBySbi request.stored sbi request.pageSize after =
    if sbiDocuments sbi request = [] ∧ after = none then
      .error { message := noDocumentsFoundError }
    else
      .ok (ofKeysetPage (Keyset.fetch PageDocument.id request.pageSize after
        (sbiDocuments sbi request))) := by
  have empty : ((Keyset.descending PageDocument.id (Keyset.below PageDocument.id after
      (sbiDocuments sbi request))).take (request.pageSize + 1) = [] ∧ after = none) ↔
      sbiDocuments sbi request = [] ∧ after = none := by
    refine and_congr_left fun first => ?_
    rw [fetch_eq_nil, first, Keyset.below_none]
  rw [Keyset.fetch, ofKeysetPage_ofResults]
  unfold getMetadataPageBySbi
  simp only [← below_sbiDocuments]
  exact if_congr empty rfl rfl

@[simp]
theorem toCursor_toHexString (after : Option ObjectId) :
    toCursor (after.map ObjectId.toHexString) = some after := by
  cases after with
  | none => rfl
  | some id =>
      have nonempty : id.toHexString ≠ "" := by
        intro empty
        have recovered := ObjectId.createFromHexString_toHexString id
        rw [empty] at recovered
        exact absurd recovered (by simp [ObjectId.createFromHexString])
      simp [toCursor, nonempty]

/-- A walk that finds something at its first request is the walk by key. -/
theorem followCursor_eq {requests : List PageRequest}
    (proper : Keyset.Proper PageDocument.id (sbiDocuments sbi) PageRequest.pageSize requests)
    (found : after = none → ∀ request ∈ requests.head?, sbiDocuments sbi request ≠ []) :
    followCursor sbi (after.map ObjectId.toHexString) requests =
      (Keyset.follow PageDocument.id (sbiDocuments sbi) PageRequest.pageSize after
        requests).map ofKeysetVisit := by
  induction requests generalizing after with
  | nil => rfl
  | cons request requests ih =>
      obtain ⟨⟨unique, size_pos⟩, later⟩ := List.forall_mem_cons.mp proper
      have finds : ¬ (sbiDocuments sbi request = [] ∧ after = none) := fun nothing =>
        found nothing.2 request rfl nothing.1
      simp only [followCursor, toCursor_toHexString, getMetadataPageBySbi_eq, if_neg finds,
        Keyset.follow, List.map_cons, ofKeysetVisit]
      congr 1
      by_cases more : (Keyset.fetch PageDocument.id request.pageSize after
          (sbiDocuments sbi request)).hasMore = true
      · obtain ⟨rest, front⟩ := Keyset.exists_isFront PageDocument.id request.pageSize after
          (sbiDocuments sbi request)
        obtain ⟨last, _, next, _⟩ := front.exists_next unique size_pos more
        simp only [ofKeysetPage, more, ↓reduceIte]
        exact ih later fun none => absurd next (by simp [none])
      · simp [ofKeysetPage, more]

theorem mem_sbiDocuments {shown : PageDocument} : shown ∈ sbiDocuments sbi request ↔
    ∃ document ∈ request.stored, isOfSbi sbi document = true ∧ document.projected = shown := by
  simp [sbiDocuments, and_assoc]

theorem unique_sbiDocuments (ids : UniqueBy MetadataDocument.id request.stored) :
    UniqueBy PageDocument.id (sbiDocuments sbi request) := by
  rw [UniqueBy, sbiDocuments, List.map_map]
  exact ids.filter _

/-- Documents of the business stay documents of the business. -/
theorem OnlyInserts.sbiDocuments {earlier later : PageRequest} (grows : OnlyInserts earlier later) :
    ∀ shown ∈ sbiDocuments sbi earlier, shown ∈ sbiDocuments sbi later := by
  intro shown member
  obtain ⟨document, stored, ofSbi, rfl⟩ := mem_sbiDocuments.mp member
  obtain ⟨after, stays, same⟩ := List.mem_map.mp (grows document stored)
  have metadata : after.metadata = document.metadata := congrArg PageDocument.metadata same
  exact mem_sbiDocuments.mpr ⟨after, stays, by rwa [isOfSbi, metadata], same⟩

end Keyset

/-! ## What a walk reads -/

/-- Every response of a walk is that of its request. -/
theorem mem_followCursor {sbi : Int} {after : Option String} {requests : List PageRequest}
    {visit : PageVisit} (member : visit ∈ followCursor sbi after requests) :
    visit.request ∈ requests ∧ visit.response =
      getMetadataPageBySbi visit.request.stored sbi visit.request.pageSize visit.after := by
  induction requests generalizing after with
  | nil => exact absurd member List.not_mem_nil
  | cons request requests ih =>
      simp only [followCursor] at member
      split at member
      · exact absurd member List.not_mem_nil
      · rcases List.mem_cons.mp member with rfl | further
        · exact ⟨List.mem_cons_self .., rfl⟩
        · split at further
          · split at further
            · exact ⟨List.mem_cons_of_mem _ (ih further).1, (ih further).2⟩
            · exact absurd further List.not_mem_nil
          · exact absurd further List.not_mem_nil

/-- The documents of all pages, in the order they are read. -/
def walkDocuments (visits : List PageVisit) : List PageDocument :=
  visits.flatMap PageVisit.documents

/-- A document of the business below the cursor that is older than the page. -/
def OlderExists (sbi : Int) (visit : PageVisit) (page : MetadataPage) : Prop :=
  ∃ document ∈ visit.request.stored, isOfSbi sbi document = true ∧
    (∀ cursor ∈ visit.after, document.id < cursor) ∧
      ∀ shown ∈ page.documents, document.id < shown.id

section Walk

variable {sbi : Int} {first : PageRequest} {later : List PageRequest} {visit : PageVisit}

/-- A page that has more is full, and has no more exactly when nothing older is left. -/
theorem page_of_response (ids : UniqueBy MetadataDocument.id visit.request.stored)
    {page : MetadataPage} (answered : getMetadataPageBySbi visit.request.stored sbi
      visit.request.pageSize visit.after = .ok page) :
    (page.hasMore = true → page.documents.length = visit.request.pageSize) ∧
      (page.hasMore = false ↔ ¬ OlderExists sbi visit page) := by
  rw [getMetadataPageBySbi_eq] at answered
  split at answered
  · cases answered
  · cases answered
    obtain ⟨rest, front⟩ := Keyset.exists_isFront PageDocument.id visit.request.pageSize
      visit.after (sbiDocuments sbi visit.request)
    have older := Keyset.hasMore_iff_older visit.request.pageSize visit.after
      (unique_sbiDocuments (ids : UniqueBy _ visit.request.stored) : UniqueBy PageDocument.id
        (sbiDocuments sbi visit.request))
    refine ⟨front.full, ?_⟩
    rw [← Bool.not_eq_true]
    refine not_congr (older.trans ?_)
    constructor
    · rintro ⟨shown, isBelow, olderThan⟩
      obtain ⟨member, under⟩ := Keyset.mem_below.mp isBelow
      obtain ⟨document, stored, ofSbi, rfl⟩ := mem_sbiDocuments.mp member
      exact ⟨document, stored, ofSbi, under, olderThan⟩
    · rintro ⟨document, stored, ofSbi, under, olderThan⟩
      have member := mem_sbiDocuments.mpr ⟨document, stored, ofSbi, rfl⟩
      exact ⟨document.projected, Keyset.mem_below.mpr ⟨member, under⟩, olderThan⟩

/-- Only the first request of a business without documents is answered with an error. -/
theorem notFound_iff (error : NotFoundError) :
    getMetadataPageBySbi visit.request.stored sbi visit.request.pageSize visit.after =
        .error error ↔
      error = { message := noDocumentsFoundError } ∧ visit.after = none ∧
        ∀ document ∈ visit.request.stored, isOfSbi sbi document = false := by
  have nothing : sbiDocuments sbi visit.request = [] ↔
      ∀ document ∈ visit.request.stored, isOfSbi sbi document = false := by
    simp [sbiDocuments]
  rw [getMetadataPageBySbi_eq, ← nothing]
  split
  · rename_i empty
    simp [empty, eq_comm]
  · rename_i some
    simp only [reduceCtorEq, false_iff, not_and]
    exact fun _ isFirst none => some ⟨none, isFirst⟩

/-- A business without documents ends the walk at once. -/
theorem followCursor_of_none (none : sbiDocuments sbi first = []) :
    followCursor sbi Option.none (first :: later) =
      [{ request := first, after := Option.none,
         response := .error { message := noDocumentsFoundError } }] := by
  simp [followCursor, toCursor, getMetadataPageBySbi_eq, none]

theorem walkDocuments_ofKeysetVisit
    (visits : List (Keyset.Visit PageRequest PageDocument ObjectId)) :
    walkDocuments (visits.map ofKeysetVisit) = Keyset.items visits := by
  rw [walkDocuments, List.flatMap_map]
  rfl

theorem walkCompleted_ofKeysetVisit
    (visits : List (Keyset.Visit PageRequest PageDocument ObjectId)) :
    WalkCompleted (visits.map ofKeysetVisit) ↔ Keyset.Completed visits := by
  simp [WalkCompleted, Keyset.Completed, ofKeysetVisit, ofKeysetPage]

/-- A walk is a single error, or the walk by key. -/
theorem followCursor_cases (proper : Keyset.Proper PageDocument.id (sbiDocuments sbi)
    PageRequest.pageSize (first :: later)) :
    (sbiDocuments sbi first = [] ∧ followCursor sbi none (first :: later) =
      [{ request := first, after := none,
         response := .error { message := noDocumentsFoundError } }]) ∨
    followCursor sbi none (first :: later) =
      (Keyset.follow PageDocument.id (sbiDocuments sbi) PageRequest.pageSize none
        (first :: later)).map ofKeysetVisit := by
  by_cases empty : sbiDocuments sbi first = []
  · exact Or.inl ⟨empty, followCursor_of_none empty⟩
  · have finds : (none : Option ObjectId) = none →
        ∀ request ∈ (first :: later).head?, sbiDocuments sbi request ≠ [] := by
      rintro _ request ⟨⟩
      exact empty
    exact Or.inr (followCursor_eq proper finds)

theorem walk_descending (proper : Keyset.Proper PageDocument.id (sbiDocuments sbi)
    PageRequest.pageSize (first :: later)) :
    (walkDocuments (followCursor sbi none (first :: later))).Pairwise
        (fun newer older => older.id < newer.id) ∧
      ∀ shown ∈ walkDocuments (followCursor sbi none (first :: later)),
        shown.metadata.get? "sbi" = some (.int sbi) := by
  rcases followCursor_cases proper with ⟨_, walk⟩ | walk
  · rw [walk]
    simp [walkDocuments, PageVisit.documents]
  · rw [walk, walkDocuments_ofKeysetVisit]
    refine ⟨Keyset.pairwise_items proper, fun shown member => ?_⟩
    obtain ⟨request, _, isBelow⟩ := Keyset.items_below proper member
    obtain ⟨document, _, ofSbi, rfl⟩ := mem_sbiDocuments.mp (Keyset.mem_below.mp isBelow).1
    simpa [isOfSbi, MetadataDocument.projected] using ofSbi

theorem walk_complete (proper : Keyset.Proper PageDocument.id (sbiDocuments sbi)
    PageRequest.pageSize (first :: later)) (grows : (first :: later).IsChain OnlyInserts)
    (completed : WalkCompleted (followCursor sbi none (first :: later)))
    {document : MetadataDocument} (stored : document ∈ first.stored)
    (ofSbi : isOfSbi sbi document = true) :
    document.projected ∈ walkDocuments (followCursor sbi none (first :: later)) := by
  have present := mem_sbiDocuments.mpr ⟨document, stored, ofSbi, rfl⟩
  rcases followCursor_cases proper with ⟨empty, _⟩ | walk
  · rw [empty] at present
    exact absurd present List.not_mem_nil
  · rw [walk] at completed ⊢
    rw [walkDocuments_ofKeysetVisit]
    refine Keyset.mem_items_of_completed proper (grows.imp fun _ _ inserts => inserts.sbiDocuments)
      ((walkCompleted_ofKeysetVisit _).mp completed) ?_
    rwa [Keyset.below_none]

theorem walk_length {pageSize : Nat} (proper : Keyset.Proper PageDocument.id (sbiDocuments sbi)
    PageRequest.pageSize (first :: later)) (grows : (first :: later).IsChain OnlyInserts)
    (constant : ∀ request ∈ first :: later, request.pageSize = pageSize)
    (quiet : (followCursor sbi none (first :: later)).IsChain (NoInsertsBelowCursor sbi))
    (some : 1 ≤ (first.stored.filter (isOfSbi sbi)).length)
    (enough : ((first.stored.filter (isOfSbi sbi)).length + pageSize - 1) / pageSize ≤
      (first :: later).length) :
    (followCursor sbi none (first :: later)).length =
        ((first.stored.filter (isOfSbi sbi)).length + pageSize - 1) / pageSize ∧
      WalkCompleted (followCursor sbi none (first :: later)) := by
  have count : (Keyset.below PageDocument.id none (sbiDocuments sbi first)).length =
      (first.stored.filter (isOfSbi sbi)).length := by
    rw [Keyset.below_none, sbiDocuments, List.length_map]
  rw [← count] at some enough ⊢
  rcases followCursor_cases proper with ⟨empty, _⟩ | walk
  · rw [empty] at some
    simp at some
  · rw [walk] at quiet ⊢
    rw [List.length_map, walkCompleted_ofKeysetVisit]
    refine Keyset.length_follow proper constant
      (grows.imp fun _ _ inserts => inserts.sbiDocuments) ?_ some enough
    refine ((List.isChain_map _).mp quiet).imp fun earlier later fresh shown member => ?_
    obtain ⟨inDocs, under⟩ := Keyset.mem_below.mp member
    obtain ⟨document, stored, ofSbi, rfl⟩ := mem_sbiDocuments.mp inDocs
    obtain ⟨before, wasStored, same⟩ := List.mem_map.mp (fresh document stored ofSbi under)
    have metadata : before.metadata = document.metadata := congrArg PageDocument.metadata same
    exact mem_sbiDocuments.mpr ⟨before, wasStored, by rwa [isOfSbi, metadata], same⟩

end Walk

/-- Following the cursor over a store that only grows reads every document once. -/
theorem cursor_walk_reads_each_once (sbi : Int) {first : PageRequest} {later : List PageRequest}
    (sizes : ∀ request ∈ first :: later, 1 ≤ request.pageSize)
    (ids : ∀ request ∈ first :: later, UniqueBy MetadataDocument.id request.stored)
    (grows : (first :: later).IsChain OnlyInserts) :
    let walk := followCursor sbi none (first :: later)
    let count := (first.stored.filter (isOfSbi sbi)).length
    -- The pages are strictly descending, and hold documents of the business.
    ((walkDocuments walk).Pairwise (fun newer older => older.id < newer.id) ∧
      ∀ shown ∈ walkDocuments walk, shown.metadata.get? "sbi" = some (.int sbi)) ∧
    -- A completed walk has read every document of the first moment, once.
    (WalkCompleted walk → ∀ document ∈ first.stored, isOfSbi sbi document = true →
      (walkDocuments walk).count document.projected = 1) ∧
    -- A page with more is full; a page has no more when nothing older exists.
    (∀ visit ∈ walk, ∀ page, visit.response = .ok page →
      (page.hasMore = true → page.documents.length = visit.request.pageSize) ∧
        (page.hasMore = false ↔ ¬ OlderExists sbi visit page)) ∧
    -- The error means a first page of a business without documents.
    (∀ visit ∈ walk, ∀ error, visit.response = .error error ↔
      error = { message := noDocumentsFoundError } ∧ visit.after = none ∧
        ∀ document ∈ visit.request.stored, isOfSbi sbi document = false) ∧
    -- With one page size and nothing inserted below the cursor, the walk ends.
    ∀ pageSize, (∀ request ∈ first :: later, request.pageSize = pageSize) →
      walk.IsChain (NoInsertsBelowCursor sbi) → 1 ≤ count →
      (count + pageSize - 1) / pageSize ≤ (first :: later).length →
        walk.length = (count + pageSize - 1) / pageSize ∧ WalkCompleted walk := by
  intro walk count
  have proper : Keyset.Proper PageDocument.id (sbiDocuments sbi) PageRequest.pageSize
      (first :: later) := fun request member =>
    ⟨unique_sbiDocuments (ids request member), sizes request member⟩
  have descending := walk_descending proper
  refine ⟨descending, fun completed document stored ofSbi => ?_,
    fun visit member page answered => ?_, fun visit member error => ?_,
    fun pageSize constant quiet some enough =>
      walk_length proper grows constant quiet some enough⟩
  · have nodup : (walkDocuments walk).Nodup := descending.1.imp fun older same => by
      rw [same] at older
      exact absurd older (lt_irrefl _)
    exact List.count_eq_one_of_mem nodup (walk_complete proper grows completed stored ofSbi)
  · obtain ⟨requested, response⟩ := mem_followCursor member
    exact page_of_response (ids visit.request requested) (response ▸ answered)
  · rw [(mem_followCursor member).2]
    exact notFound_iff error

namespace Sample

/-- A stored document with a small identifier. -/
def storedDocument (id : Fin 16) : MetadataDocument where
  raw := .null
  metadata := .obj [("sbi", .int 105000000)]
  file := { fileId := .str "file", filename := none, contentType := none, fileStatus := none }
  s3 := { key := none, bucket := none }
  messaging := { publishedAt := none, correlationId := "", filesInBatch := 1 }
  id := ⟨id, Nat.lt_of_lt_of_le id.isLt (by decide)⟩

def firstRequest : PageRequest where
  stored := [storedDocument 5, storedDocument 9, storedDocument 7]
  pageSize := 2

/-- A document was inserted above the cursor. -/
def secondRequest : PageRequest where
  stored := [storedDocument 5, storedDocument 9, storedDocument 7, storedDocument 8]
  pageSize := 2

end Sample

theorem cursor_walk_reads_each_once_sample :
    (followCursor 105000000 none [Sample.firstRequest, Sample.secondRequest]).length = 2 ∧
      ∀ document ∈ Sample.firstRequest.stored,
        (walkDocuments (followCursor 105000000 none
          [Sample.firstRequest, Sample.secondRequest])).count document.projected = 1 := by
  have grows : [Sample.firstRequest, Sample.secondRequest].IsChain OnlyInserts := by
    refine List.isChain_pair.mpr ?_
    unfold OnlyInserts
    decide
  have quiet : (followCursor 105000000 none
      [Sample.firstRequest, Sample.secondRequest]).IsChain (NoInsertsBelowCursor 105000000) := by
    unfold NoInsertsBelowCursor
    decide
  obtain ⟨_, once, _, _, ends⟩ := cursor_walk_reads_each_once 105000000 (by decide)
    (by unfold UniqueBy; decide) grows
  obtain ⟨count, completed⟩ := ends 2 (by decide) quiet (by decide) (by decide)
  exact ⟨count, fun document stored => once completed document stored (by
    have ofSbi : ∀ document ∈ Sample.firstRequest.stored,
        isOfSbi 105000000 document = true := by decide
    exact ofSbi document stored)⟩

end ObjectProcessor
