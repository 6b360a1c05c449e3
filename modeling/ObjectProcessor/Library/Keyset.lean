import Mathlib.Data.List.Sort
import Mathlib.Data.List.Chain
import Mathlib.Order.Lattice
import ObjectProcessor.Library.Collection

/-!
# Pages by key

A query lists the documents with a key below the cursor, the greatest key first,
one more than the page holds; the extra document tells whether there is a further
page, and the last document of the page is the next cursor.  Following the cursor
over a collection that changes between the queries reads every document that was
there at the first one.
-/

namespace ObjectProcessor.Library

namespace Keyset

variable {Doc Key Request : Type*} [LinearOrder Key]

structure Page (Doc Key : Type*) where
  items : List Doc
  hasMore : Bool
  next : Option Key

/-- The documents below the cursor, all of them without one. -/
def below (key : Doc → Key) (after : Option Key) (docs : List Doc) : List Doc :=
  docs.filter fun doc => after.all fun cursor => decide (key doc < cursor)

def descending (key : Doc → Key) (docs : List Doc) : List Doc :=
  docs.insertionSort fun left right => key right ≤ key left

/-- The page a query of `size + 1` documents is cut to. -/
def ofResults (key : Doc → Key) (size : Nat) (results : List Doc) : Page Doc Key :=
  let hasMore := decide (size < results.length)
  let items := if hasMore then results.take size else results
  { items, hasMore, next := if hasMore then items.getLast?.map key else none }

def fetch (key : Doc → Key) (size : Nat) (after : Option Key) (docs : List Doc) : Page Doc Key :=
  ofResults key size ((descending key (below key after docs)).take (size + 1))

section Query

variable {key : Doc → Key} {docs : List Doc} {after : Option Key} {size : Nat}

theorem mem_below {doc : Doc} :
    doc ∈ below key after docs ↔ doc ∈ docs ∧ ∀ cursor, after = some cursor → key doc < cursor := by
  rw [below, List.mem_filter]
  cases after <;> simp

@[simp]
theorem below_none : below key none docs = docs := by
  simp [below]

@[simp]
theorem mem_descending {doc : Doc} : doc ∈ descending key docs ↔ doc ∈ docs :=
  List.mem_insertionSort _

@[simp]
theorem length_descending : (descending key docs).length = docs.length :=
  List.length_insertionSort _ _

/-- Documents with different keys are listed in strict order. -/
theorem pairwise_descending (unique : UniqueBy key docs) :
    (descending key docs).Pairwise fun newer older => key older < key newer := by
  have total : Std.Total fun left right : Doc => key right ≤ key left :=
    ⟨fun left right => le_total (key right) (key left)⟩
  have transitive : IsTrans Doc fun left right => key right ≤ key left :=
    ⟨fun _ _ _ first second => le_trans second first⟩
  have sorted := List.pairwise_insertionSort (fun left right => key right ≤ key left) docs
  have distinct : (descending key docs).Pairwise fun left right => key left ≠ key right :=
    List.pairwise_map.mp
      (((List.perm_insertionSort _ docs).map key).nodup_iff.mpr unique)
  exact sorted.imp₂ (fun _ _ le ne => lt_of_le_of_ne le ne.symm) distinct

theorem fetch_of_more (more : size < (below key after docs).length) :
    fetch key size after docs =
      { items := (descending key (below key after docs)).take size
        hasMore := true
        next := ((descending key (below key after docs)).take size).getLast?.map key } := by
  have full : size < ((descending key (below key after docs)).take (size + 1)).length := by
    rw [List.length_take, length_descending]
    omega
  simp only [fetch, ofResults, full, decide_true, ↓reduceIte, List.take_take]
  rw [Nat.min_eq_left (Nat.le_succ size)]

theorem fetch_of_last (last : (below key after docs).length ≤ size) :
    fetch key size after docs =
      { items := descending key (below key after docs), hasMore := false, next := none } := by
  have all : (descending key (below key after docs)).take (size + 1) =
      descending key (below key after docs) := by
    refine List.take_of_length_le ?_
    rw [length_descending]
    omega
  have short : ¬ size < (descending key (below key after docs)).length := by
    rw [length_descending]
    omega
  simp only [fetch, ofResults, all, short, decide_false, Bool.false_eq_true, ↓reduceIte]

/-- What a page is: the front of the documents below the cursor, with the rest of
them below its own cursor. -/
structure IsFront (key : Doc → Key) (size : Nat) (after : Option Key) (docs : List Doc)
    (page : Page Doc Key) (rest : List Doc) : Prop where
  listed : descending key (below key after docs) = page.items ++ rest
  hasMore : page.hasMore = true ↔ rest ≠ []
  full : page.hasMore = true → page.items.length = size
  next : page.hasMore = true → page.next = page.items.getLast?.map key

theorem exists_isFront (key : Doc → Key) (size : Nat) (after : Option Key) (docs : List Doc) :
    ∃ rest, IsFront key size after docs (fetch key size after docs) rest := by
  by_cases more : size < (below key after docs).length
  · have left : (descending key (below key after docs)).drop size ≠ [] := by simpa using more
    rw [fetch_of_more more]
    refine ⟨_, (List.take_append_drop size _).symm, ⟨fun _ => left, fun _ => rfl⟩, fun _ => ?_,
      fun _ => rfl⟩
    rw [List.length_take, length_descending]
    omega
  · rw [fetch_of_last (Nat.le_of_not_lt more)]
    exact ⟨[], by simp, by simp, by simp, by simp⟩

namespace IsFront

variable {page : Page Doc Key} {rest : List Doc}

theorem mem (front : IsFront key size after docs page rest) {doc : Doc} :
    doc ∈ below key after docs ↔ doc ∈ page.items ∨ doc ∈ rest := by
  have listed : doc ∈ descending key (below key after docs) ↔ doc ∈ below key after docs :=
    mem_descending
  rw [← listed, front.listed, List.mem_append]

theorem pairwise (front : IsFront key size after docs page rest) (unique : UniqueBy key docs) :
    page.items.Pairwise (fun newer older => key older < key newer) ∧
      ∀ item ∈ page.items, ∀ doc ∈ rest, key doc < key item := by
  have distinct : UniqueBy key (below key after docs) := unique.filter _
  have sorted := pairwise_descending distinct
  rw [front.listed, List.pairwise_append] at sorted
  exact ⟨sorted.1, sorted.2.2⟩

/-- The cursor of a page that has more is the key of its last, least document. -/
theorem exists_next (front : IsFront key size after docs page rest) (unique : UniqueBy key docs)
    (size_pos : 1 ≤ size) (more : page.hasMore = true) :
    ∃ last ∈ page.items, page.next = some (key last) ∧
      ∀ item ∈ page.items, key last ≤ key item := by
  have nonempty : page.items ≠ [] := by
    intro empty
    have full := front.full more
    rw [empty, List.length_nil] at full
    omega
  refine ⟨page.items.getLast nonempty, List.getLast_mem nonempty, ?_, fun item member => ?_⟩
  · rw [front.next more, List.getLast?_eq_some_getLast nonempty, Option.map_some]
  · have sorted := (front.pairwise unique).1
    rw [← List.dropLast_append_getLast nonempty, List.pairwise_append] at sorted
    rw [← List.dropLast_append_getLast nonempty, List.mem_append, List.mem_singleton] at member
    rcases member with earlier | rfl
    · exact le_of_lt (sorted.2.2 item earlier _ (List.mem_singleton_self _))
    · exact le_refl _

/-- The rest is what the next cursor leaves. -/
theorem mem_rest (front : IsFront key size after docs page rest) (unique : UniqueBy key docs)
    (size_pos : 1 ≤ size) (more : page.hasMore = true) {doc : Doc} :
    doc ∈ rest ↔ doc ∈ below key page.next docs := by
  obtain ⟨last, isItem, next, least⟩ := front.exists_next unique size_pos more
  obtain ⟨inDocs, underCursor⟩ := mem_below.mp (front.mem.mpr (Or.inl isItem))
  rw [mem_below, next]
  constructor
  · intro member
    refine ⟨(mem_below.mp (front.mem.mpr (Or.inr member))).1, ?_⟩
    rintro cursor ⟨⟩
    exact (front.pairwise unique).2 last isItem doc member
  · rintro ⟨inDocs', under⟩
    have older := under _ rfl
    have isBelow : doc ∈ below key after docs := mem_below.mpr ⟨inDocs', fun cursor isCursor =>
      lt_trans older (underCursor cursor isCursor)⟩
    rcases front.mem.mp isBelow with item | member
    · exact absurd older (not_lt_of_ge (least doc item))
    · exact member

end IsFront

/-- A page has more exactly when a document below the cursor is older than the page. -/
theorem hasMore_iff_older (size : Nat) (after : Option Key) (unique : UniqueBy key docs) :
    (fetch key size after docs).hasMore = true ↔ ∃ doc ∈ below key after docs,
      ∀ item ∈ (fetch key size after docs).items, key doc < key item := by
  obtain ⟨rest, front⟩ := exists_isFront key size after docs
  rw [front.hasMore]
  constructor
  · intro left
    obtain ⟨doc, member⟩ := List.exists_mem_of_ne_nil _ left
    exact ⟨doc, front.mem.mpr (Or.inr member), fun item isItem =>
      (front.pairwise unique).2 item isItem doc member⟩
  · rintro ⟨doc, isBelow, older⟩
    rcases front.mem.mp isBelow with item | member
    · exact absurd (older doc item) (lt_irrefl _)
    · exact List.ne_nil_of_mem member

end Query

/-! ## Following the cursor -/

/-- A query of a walk, the cursor it started from and the page it got. -/
structure Visit (Request Doc Key : Type*) where
  request : Request
  after : Option Key
  page : Page Doc Key

/-- Query after query, each from the cursor of the last page, until a page has no
more.  Every request reads its own collection and has its own size. -/
def follow (key : Doc → Key) (docs : Request → List Doc) (size : Request → Nat) :
    Option Key → List Request → List (Visit Request Doc Key)
  | _, [] => []
  | after, request :: rest =>
      let page := fetch key (size request) after (docs request)
      { request, after, page } ::
        if page.hasMore then follow key docs size page.next rest else []

/-- The walk has come to a page without more. -/
def Completed (visits : List (Visit Request Doc Key)) : Prop :=
  ∃ visit ∈ visits, visit.page.hasMore = false

def items (visits : List (Visit Request Doc Key)) : List Doc :=
  visits.flatMap fun visit => visit.page.items

section Walk

variable {key : Doc → Key} {docs : Request → List Doc} {size : Request → Nat}
  {after : Option Key} {request : Request} {requests : List Request}

theorem completed_of_last (last : (below key after (docs request)).length ≤ size request) :
    (follow key docs size after (request :: requests)).length = 1 ∧
      Completed (follow key docs size after (request :: requests)) := by
  simp [follow, Completed, fetch_of_last last]

theorem follow_of_more
    (more : (fetch key (size request) after (docs request)).hasMore = true) :
    follow key docs size after (request :: requests) =
      { request, after, page := fetch key (size request) after (docs request) } ::
        follow key docs size (fetch key (size request) after (docs request)).next requests := by
  simp [follow, more]

theorem items_follow_cons : items (follow key docs size after (request :: requests)) =
    (fetch key (size request) after (docs request)).items ++
      if (fetch key (size request) after (docs request)).hasMore then
        items (follow key docs size (fetch key (size request) after (docs request)).next requests)
      else [] := by
  simp only [follow, items, List.flatMap_cons]
  split <;> rfl

theorem completed_follow_cons : Completed (follow key docs size after (request :: requests)) ↔
    (fetch key (size request) after (docs request)).hasMore = false ∨
      Completed (follow key docs size (fetch key (size request) after (docs request)).next
        requests) ∧ (fetch key (size request) after (docs request)).hasMore = true := by
  cases more : (fetch key (size request) after (docs request)).hasMore with
  | false => simp [Completed, follow, more]
  | true => simp [Completed, follow, more]

/-- Every query of a walk can tell the documents apart and asks for some. -/
def Proper (key : Doc → Key) (docs : Request → List Doc) (size : Request → Nat)
    (requests : List Request) : Prop :=
  ∀ request ∈ requests, UniqueBy key (docs request) ∧ 1 ≤ size request

/-- What a walk reads lies below the cursor it starts from. -/
theorem items_below (proper : Proper key docs size requests) {doc : Doc}
    (member : doc ∈ items (follow key docs size after requests)) :
    ∃ request ∈ requests, doc ∈ below key after (docs request) := by
  induction requests generalizing after with
  | nil => simp [follow, items] at member
  | cons request requests ih =>
      obtain ⟨⟨unique, size_pos⟩, later⟩ := List.forall_mem_cons.mp proper
      obtain ⟨rest, front⟩ := exists_isFront key (size request) after (docs request)
      rw [items_follow_cons, List.mem_append] at member
      rcases member with here | further
      · exact ⟨request, List.mem_cons_self .., front.mem.mpr (Or.inl here)⟩
      · split at further
        · rename_i more
          obtain ⟨other, isLater, isBelow⟩ := ih later further
          obtain ⟨last, isItem, next, _⟩ := front.exists_next unique size_pos more
          have underLast := (mem_below.mp (front.mem.mpr (Or.inl isItem))).2
          rw [next] at isBelow
          obtain ⟨inDocs, under⟩ := mem_below.mp isBelow
          refine ⟨other, List.mem_cons_of_mem _ isLater, mem_below.mpr ⟨inDocs, ?_⟩⟩
          exact fun cursor isCursor => lt_trans (under _ rfl) (underLast cursor isCursor)
        · exact absurd further List.not_mem_nil

/-- A walk reads in strictly descending order. -/
theorem pairwise_items (proper : Proper key docs size requests) :
    (items (follow key docs size after requests)).Pairwise
      fun newer older => key older < key newer := by
  induction requests generalizing after with
  | nil => exact List.Pairwise.nil
  | cons request requests ih =>
      obtain ⟨⟨unique, size_pos⟩, later⟩ := List.forall_mem_cons.mp proper
      obtain ⟨rest, front⟩ := exists_isFront key (size request) after (docs request)
      rw [items_follow_cons]
      split
      · rename_i more
        refine List.pairwise_append.mpr ⟨(front.pairwise unique).1, ih later, ?_⟩
        intro item isItem doc further
        obtain ⟨last, _, next, least⟩ := front.exists_next unique size_pos more
        obtain ⟨other, _, isBelow⟩ := items_below later further
        exact lt_of_lt_of_le ((mem_below.mp isBelow).2 _ next) (least item isItem)
      · rw [List.append_nil]
        exact (front.pairwise unique).1

/-- A completed walk over a growing collection misses nothing that was there. -/
theorem mem_items_of_completed (proper : Proper key docs size (request :: requests))
    (grows : (request :: requests).IsChain fun earlier later =>
      ∀ doc ∈ docs earlier, doc ∈ docs later)
    (completed : Completed (follow key docs size after (request :: requests))) {doc : Doc}
    (present : doc ∈ below key after (docs request)) :
    doc ∈ items (follow key docs size after (request :: requests)) := by
  induction requests generalizing after request with
  | nil =>
      obtain ⟨rest, front⟩ := exists_isFront key (size request) after (docs request)
      rcases completed_follow_cons.mp completed with last | ⟨⟨visit, member, _⟩, _⟩
      · have empty : rest = [] := by
          by_contra left
          rw [front.hasMore.mpr left] at last
          cases last
        rw [items_follow_cons, List.mem_append]
        exact Or.inl ((front.mem.mp present).resolve_right (by simp [empty]))
      · exact absurd member List.not_mem_nil
  | cons following requests ih =>
      obtain ⟨⟨unique, size_pos⟩, later⟩ := List.forall_mem_cons.mp proper
      obtain ⟨step, grows⟩ := List.isChain_cons_cons.mp grows
      obtain ⟨rest, front⟩ := exists_isFront key (size request) after (docs request)
      rw [items_follow_cons, List.mem_append]
      rcases front.mem.mp present with here | left
      · exact Or.inl here
      · have more := front.hasMore.mpr (List.ne_nil_of_mem left)
        rw [if_pos more]
        rcases completed_follow_cons.mp completed with last | ⟨completed, _⟩
        · rw [last] at more
          cases more
        · obtain ⟨inDocs, under⟩ := mem_below.mp ((front.mem_rest unique size_pos more).mp left)
          exact Or.inr (ih later grows completed (mem_below.mpr ⟨step doc inDocs, under⟩))

/-- The documents left for the next query, when nothing was inserted among them. -/
theorem length_below_next {following : Request} {page : Page Doc Key} {rest : List Doc}
    (front : IsFront key (size request) after (docs request) page rest)
    (unique : UniqueBy key (docs request)) (followingUnique : UniqueBy key (docs following))
    (size_pos : 1 ≤ size request) (more : page.hasMore = true)
    (step : ∀ doc ∈ docs request, doc ∈ docs following)
    (quiet : ∀ doc ∈ below key page.next (docs following), doc ∈ docs request) :
    (below key page.next (docs following)).length + size request =
      (below key after (docs request)).length := by
  have restUnique : UniqueBy key rest := by
    have belowUnique : UniqueBy key (descending key (below key after (docs request))) :=
      ((List.perm_insertionSort _ _).map key).nodup_iff.mpr (unique.filter _)
    rw [front.listed] at belowUnique
    exact belowUnique.sublist ((List.sublist_append_right _ _).map key)
  have same : (below key page.next (docs following)).length = rest.length := by
    refine UniqueBy.length_eq (followingUnique.filter _) restUnique fun doc => ?_
    rw [front.mem_rest unique size_pos more]
    constructor
    · intro member
      exact mem_below.mpr ⟨quiet doc member, (mem_below.mp member).2⟩
    · intro member
      obtain ⟨inDocs, under⟩ := mem_below.mp member
      exact mem_below.mpr ⟨step doc inDocs, under⟩
  have lengths := congrArg List.length front.listed
  rw [length_descending, List.length_append, front.full more] at lengths
  omega

theorem pages_of_last {count pageSize : Nat} (some : 1 ≤ count) (last : count ≤ pageSize) :
    (count + pageSize - 1) / pageSize = 1 :=
  Nat.div_eq_of_lt_le (by omega) (by omega)

theorem pages_of_more {count pageSize : Nat} (some : 1 ≤ count) (positive : 1 ≤ pageSize) :
    (count + pageSize + pageSize - 1) / pageSize = (count + pageSize - 1) / pageSize + 1 := by
  rw [Nat.sub_add_comm (by omega), Nat.add_div_right _ positive]

/-- With pages of one size, and nothing inserted below the cursor, a walk takes as
many queries as full pages are needed. -/
theorem length_follow {pageSize : Nat} (proper : Proper key docs size (request :: requests))
    (constant : ∀ other ∈ request :: requests, size other = pageSize)
    (grows : (request :: requests).IsChain fun earlier later =>
      ∀ doc ∈ docs earlier, doc ∈ docs later)
    (quiet : (follow key docs size after (request :: requests)).IsChain fun earlier later =>
      ∀ doc ∈ below key later.after (docs later.request), doc ∈ docs earlier.request)
    (some : 1 ≤ (below key after (docs request)).length)
    (enough : ((below key after (docs request)).length + pageSize - 1) / pageSize ≤
      (request :: requests).length) :
    (follow key docs size after (request :: requests)).length =
        ((below key after (docs request)).length + pageSize - 1) / pageSize ∧
      Completed (follow key docs size after (request :: requests)) := by
  induction requests generalizing after request with
  | nil =>
      obtain ⟨⟨_, size_pos⟩, _⟩ := List.forall_mem_cons.mp proper
      have isSize := constant request (List.mem_cons_self ..)
      have last : (below key after (docs request)).length ≤ size request := by
        have bound := Nat.lt_mul_of_div_lt (Nat.lt_of_le_of_lt enough (Nat.lt_succ_self _))
          (by omega : 0 < pageSize)
        simp only [List.length_singleton] at bound
        omega
      rw [pages_of_last some (isSize ▸ last)]
      exact completed_of_last last
  | cons following requests ih =>
      obtain ⟨⟨unique, size_pos⟩, later⟩ := List.forall_mem_cons.mp proper
      obtain ⟨isSize, constant⟩ := List.forall_mem_cons.mp constant
      subst isSize
      obtain ⟨step, grows⟩ := List.isChain_cons_cons.mp grows
      by_cases last : (below key after (docs request)).length ≤ size request
      · rw [pages_of_last some last]
        exact completed_of_last last
      · obtain ⟨rest, front⟩ := exists_isFront key (size request) after (docs request)
        have more : (fetch key (size request) after (docs request)).hasMore = true := by
          rw [fetch_of_more (Nat.lt_of_not_le last)]
        rw [follow_of_more more] at quiet
        obtain ⟨fresh, quiet⟩ := List.isChain_cons_cons.mp quiet
        obtain ⟨⟨followingUnique, _⟩, _⟩ := List.forall_mem_cons.mp later
        -- One full page is used up, and the rest is read by the walk that follows.
        have left := length_below_next front unique followingUnique size_pos more step fresh
        have someLeft : 1 ≤ (below key (fetch key (size request) after (docs request)).next
            (docs following)).length := by omega
        rw [← left, pages_of_more someLeft size_pos] at enough ⊢
        obtain ⟨count, completed⟩ := ih later constant grows quiet someLeft
          (Nat.le_of_succ_le_succ enough)
        rw [follow_of_more more, List.length_cons, count]
        obtain ⟨visit, member, noMore⟩ := completed
        exact ⟨rfl, visit, List.mem_cons_of_mem _ member, noMore⟩

end Walk

end Keyset

end ObjectProcessor.Library
