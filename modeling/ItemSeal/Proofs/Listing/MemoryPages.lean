import ItemSeal.Proofs.Listing.Transcripts
import ItemSeal.Proofs.Store.MirroredTables

/-!
Going through tables in memory. A page and what is listed after its last name are all that
is listed (`MemoryStore.namesAfter_eq_append`), so the pages of a listing bring every name
once and in order, whatever their size, and `TableListing.gives_listed` puts this beside
what holds of every store.
-/

namespace ItemSeal

namespace MemoryStore

variable {tables : MemoryStore}

/-- The names of the tables after that one, in order, or of all. -/
def namesAfter (tables : MemoryStore) (start : Option String) : List String :=
  tables.names.filter fun name =>
    match start with
    | none => true
    | some start => decide (start < name)

theorem pairwise_namesAfter (tables : MemoryStore) (start : Option String) :
    (tables.namesAfter start).Pairwise (· < ·) :=
  (List.pairwise_map.2 tables.pairwise_toList).filter _

theorem mem_namesAfter_some {start name : String} :
    name ∈ tables.namesAfter (some start) ↔ name ∈ tables.names ∧ start < name := by
  rw [namesAfter, List.mem_filter, decide_eq_true_eq]

/-- Of names that ascend, those after one of them are the ones that stand behind it. -/
theorem filter_lt_of_pairwise {front rest : List String} {last : String}
    (ascending : (front ++ last :: rest).Pairwise (· < ·)) :
    (front ++ last :: rest).filter (fun name => decide (last < name)) = rest := by
  obtain ⟨-, behind, before⟩ := List.pairwise_append.1 ascending
  have noneBefore : front.filter (fun name => decide (last < name)) = [] := by
    refine List.filter_eq_nil_iff.2 fun name member after => ?_
    exact String.lt_asymm (before name member last (List.mem_cons_self ..))
      (of_decide_eq_true after)
  have allBehind : rest.filter (fun name => decide (last < name)) = rest := by
    refine List.filter_eq_self.2 fun name member => ?_
    exact decide_eq_true (List.rel_of_pairwise_cons behind member)
  rw [List.filter_append, noneBefore, List.filter_cons_of_neg (by simp), allBehind,
    List.nil_append]

/-- What is listed after a name that is listed is what stands behind it. -/
theorem namesAfter_of_append {start : Option String} {front rest : List String} {last : String}
    (splits : tables.namesAfter start = front ++ last :: rest) :
    tables.namesAfter (some last) = rest := by
  have ascending := pairwise_namesAfter tables start
  have behind : (tables.namesAfter start).filter (fun name => decide (last < name)) =
      tables.namesAfter (some last) := by
    cases start with
    | none => rw [namesAfter, List.filter_true]; rfl
    | some start =>
        have follows : start < last := (mem_namesAfter_some.1 (by rw [splits]; simp)).2
        rw [namesAfter, namesAfter, List.filter_filter]
        refine List.filter_congr fun name member => ?_
        have both : last < name → start < name := String.lt_trans follows
        simpa using both
  rw [← behind, splits]
  rw [splits] at ascending
  exact filter_lt_of_pairwise ascending

/-- A page of a size that is not said or at least one has room for some number
of names, one at least. -/
theorem exists_pageOf_eq_take {size : Option Int}
    (positive : ∀ limit, size = some limit → 1 ≤ limit) :
    ∃ room, 0 < room ∧ ∀ names, pageOf size names = names.take room := by
  cases size with
  | none => exact ⟨100, by decide, fun names => rfl⟩
  | some limit =>
      have least := positive limit rfl
      refine ⟨limit.toNat, by omega, fun names => ?_⟩
      rw [pageOf, if_neg (by omega)]

/-- A page and what is listed after its last name are all that is listed after its start, and a
page without names is the last one. -/
theorem namesAfter_eq_append (tables : MemoryStore) {input : ListInput}
    (positive : ∀ size, input.limit = some size → 1 ≤ size) :
    ∃ page, (listPage tables input).names = some page ∧
      match (listPage tables input).last with
      | none => tables.namesAfter input.start = page
      | some last =>
          page ≠ [] ∧ tables.namesAfter input.start = page ++ tables.namesAfter (some last) := by
  obtain ⟨room, roomy, fits⟩ := exists_pageOf_eq_take positive
  generalize come : tables.namesAfter input.start = names
  have listed : listPage tables input =
      { names := some (names.take room)
        last :=
          if (names.take room).length < names.length then (names.take room).getLast?
          else none } := by
    rw [← come, ← fits]
    rfl
  refine ⟨_, congrArg ListOutput.names listed, ?_⟩
  rw [listed]
  by_cases short : room < names.length
  · have full : (names.take room).length = room := List.length_take_of_le (Nat.le_of_lt short)
    have parts := List.take_append_drop room names
    rcases List.eq_nil_or_concat (names.take room) with empty | ⟨front, last, page⟩
    · rw [empty] at full
      exact absurd full.symm (Nat.ne_of_gt roomy)
    · rw [List.concat_eq_append] at page
      rw [page] at parts full
      have behind :=
        namesAfter_of_append (come.trans (parts.symm.trans (List.append_cons front last _).symm))
      rw [page, full, if_pos short, List.getLast?_concat]
      refine ⟨by simp, ?_⟩
      rw [behind, parts]
  · have whole : names.take room = names := List.take_of_length_le (Nat.le_of_not_lt short)
    rw [whole, if_neg (Nat.lt_irrefl _)]

/-- The store tells pages without changing anything. -/
theorem runFrom_list (input : ListInput) (tables : MemoryStore) :
    (store.list input).runFrom tables = (.ok (listPage tables input), tables) := rfl

/-- So does describing a table. -/
theorem keeps_describe (property : MemoryStore → Prop) (name : String) :
    Act.Keeps property (store.describe name) :=
  (keeps_table property name).bind fun _ => .pure _

end MemoryStore

open ListingEvent (listed given yielded)

namespace TableQuery.Transcript

variable {sealed : SealedStore MemoryStore} {query : TableQuery}
  {events : List (ListingEvent MemoryStore)} {start after : Session MemoryStore}

/-- The calls of a listing change no table, and every page is the one that the tables give. -/
theorem pages_of_memory (inMemory : sealed.store = MemoryStore.store)
    (transcript : Transcript sealed query start events after) :
    after.world = start.world ∧
      ∀ input answer, .page input answer ∈ events →
        answer = .ok (MemoryStore.listPage start.world input) := by
  induction transcript with
  | start => exact ⟨rfl, fun input answer member => by cases member⟩
  | @next events between after event earlier due happens ih =>
      obtain ⟨world, pages⟩ := ih
      cases event with
      | table name result =>
          refine ⟨?_, fun input answer member => pages input answer (by simpa using member)⟩
          have describes : Act.Keeps (· = start.world) (sealed.store.describe name) := by
            rw [inMemory]
            exact MemoryStore.keeps_describe _ name
          have kept := sealed.keeps_world_table describes {} between world
          rw [happens] at kept
          exact kept
      | page asked answered =>
          have lists :
              (Session.call (MemoryStore.store.list asked)).runFrom between =
              (answered, after) := by
            rw [← inMemory]
            exact happens
          rw [Session.runFrom_call, MemoryStore.runFrom_list, world] at lists
          cases lists
          refine ⟨rfl, fun input answer member => ?_⟩
          rcases List.mem_append.1 member with before | here
          · exact pages input answer before
          · cases List.mem_singleton.1 here
            rfl

/-- A query for pages of at least one name asks for such pages. -/
theorem positive_of_due (positive : ∀ size, query.pageSize = some size → 1 ≤ size)
    {input : ListInput} {answer : Except Error ListOutput}
    (due : query.Due events (.page input answer)) :
    ∀ size, input.limit = some size → 1 ≤ size :=
  fun size said => positive size ((limit_of_nextPage? due.2.2).symm.trans said)

/-- What came and what is still to come are the names after the one that
the query begins after. -/
theorem namesAfter_eq (inMemory : sealed.store = MemoryStore.store)
    (positive : ∀ size, query.pageSize = some size → 1 ≤ size)
    (transcript : Transcript sealed query start events after) :
    start.world.namesAfter query.start =
      listed events ++ ((query.nextPage? events).elim [] fun input =>
        start.world.namesAfter input.start) := by
  induction transcript with
  | start => rfl
  | @next events between after event earlier due happens ih =>
      have pages := ((earlier.next due happens).pages_of_memory inMemory).2
      rw [nextPage?_concat]
      cases event with
      | table name result =>
          rw [ListingEvent.listed_concat_table]
          exact ih
      | page input answer =>
          cases pages input answer (by simp)
          obtain ⟨page, names, rest⟩ :=
            start.world.namesAfter_eq_append (positive_of_due positive due)
          rw [due.2.2, Option.elim_some] at ih
          rw [ListingEvent.listed_concat_ok, names, ih, pageAfter?, List.append_assoc]
          rcases last : (start.world.listPage input).last with _ | last <;> rw [last] at rest
          · exact congrArg _ (rest.trans (List.append_nil _).symm)
          · exact congrArg _ rest.2

/-- No two pages are asked for without a name given out between them. -/
theorem not_stalls (inMemory : sealed.store = MemoryStore.store)
    (positive : ∀ size, query.pageSize = some size → 1 ≤ size)
    (transcript : Transcript sealed query start events after) {steps : Nat} (enough : 2 ≤ steps) :
    ¬ Stalls steps events := by
  intro ⟨before, pages, splits, length, came⟩
  subst splits length
  rcases pages with _ | ⟨first, _ | ⟨second, later⟩⟩
  · exact absurd enough (by simp)
  · exact absurd enough (by simp)
  obtain ⟨input, output, rfl⟩ := came first (by simp)
  obtain ⟨nextInput, nextOutput, rfl⟩ := came second (by simp)
  obtain ⟨noNames, more⟩ := transcript.names_of_two_pages
  cases (transcript.pages_of_memory inMemory).2 input (.ok output) (by simp)
  obtain ⟨page, names, rest⟩ :=
    start.world.namesAfter_eq_append (positive_of_due positive transcript.due)
  rw [names] at noNames
  cases last : (start.world.listPage input).last with
  | none => exact more last
  | some stopped =>
      rw [last] at rest
      exact rest.1 noNames

/-- So a listing gives out the first names after the one that it begins after, as
many as it is asked for. -/
theorem given_eq_take (inMemory : sealed.store = MemoryStore.store)
    (positive : ∀ size, query.pageSize = some size → 1 ≤ size)
    (transcript : Transcript sealed query start events after) {count : Nat}
    (within : (yielded events).length ≤ count)
    (ends : (yielded events).length = count ∨ query.Complete events) :
    given events = (query.upTo (start.world.namesAfter query.start)).take count := by
  have names := transcript.namesAfter_eq inMemory positive
  have first := transcript.given_prefix_upTo ⟨_, names.symm⟩
  have answered := (transcript.pages_of_memory inMemory).2
  have asMany :=
    ListingEvent.length_yielded fun input error member => by cases answered input _ member
  rw [asMany] at within ends
  rcases ends with full | complete
  · rw [← full]
    exact List.prefix_iff_eq_take.1 first
  · have whole : given events = query.upTo (start.world.namesAfter query.start) := by
      rcases complete with reached | ⟨all, last⟩
      · refine first.eq_of_length_le ?_
        rw [upTo, reached]
        exact List.length_take_le _ _
      · rw [names, last, Option.elim_none, List.append_nil]
        exact transcript.given_eq_upTo (.inr ⟨all, last⟩)
    rw [← whole, List.take_of_length_le within]

end TableQuery.Transcript

namespace TableListing

/-- Going through the tables of a store loses, repeats and reorders nothing, whatever pages the
store gives. Of tables in memory, whatever the size of the pages, the first after the name that
the query begins after are given, in order. -/
theorem gives_listed :
    (∀ {σ : Type} (sealed : SealedStore σ) (query : TableQuery) (steps count : Nat)
      (session : Session σ),
      ∃ events after, Gives sealed query steps count session events after) ∧
    ∀ provider policy autoRefresh (query : TableQuery) (steps count : Nat)
      (session : Session MemoryStore),
      (∀ size, query.pageSize = some size → 1 ≤ size) → 2 ≤ steps →
      ∃ events after,
        Gives ⟨MemoryStore.store, provider, policy, autoRefresh⟩ query steps count session events
          after ∧
        (session.world.namesAfter query.start).Pairwise (· < ·) ∧
        given events = (query.upTo (session.world.namesAfter query.start)).take count := by
  refine ⟨fun sealed query steps count session => exists_gives sealed query steps count session,
    ?_⟩
  intro provider policy autoRefresh query steps count session positive enough
  obtain ⟨events, after, gives⟩ :=
    exists_gives ⟨MemoryStore.store, provider, policy, autoRefresh⟩ query steps count session
  refine ⟨events, after, gives, session.world.pairwise_namesAfter query.start, ?_⟩
  apply gives.transcript.given_eq_take rfl positive gives.within
  rcases gives.ends with full | complete | stalls
  · exact .inl full
  · exact .inr complete.1
  · exact (gives.transcript.not_stalls rfl positive enough stalls).elim

namespace Sample

def tables : MemoryStore :=
  .ofList [("Items", { keys := ⟨"ItemId", none⟩ }), ("Orders", { keys := ⟨"OrderId", none⟩ }),
    ("Users", { keys := ⟨"UserId", none⟩ })]

/-- All tables after the items, one name on each page. -/
def query : TableQuery := { start := some "Items", pageSize := some 1 }

end Sample

open Sample (tables query) in
theorem gives_listed_tables :
    (∀ size, query.pageSize = some size → 1 ≤ size) ∧ 2 ≤ 2 ∧
      ∃ events after,
        Gives ⟨MemoryStore.store, .ofKeys Item.SampleOrder.keys, Item.SampleOrder.policy,
          true⟩ query 2 5
          ⟨tables, ∅, []⟩ events after ∧
        given events = ["Orders", "Users"] := by
  have positive : ∀ size, query.pageSize = some size → 1 ≤ size := by
    intro size said
    cases said
    decide
  obtain ⟨events, after, gives, -, names⟩ :=
    gives_listed.2 (.ofKeys Item.SampleOrder.keys) Item.SampleOrder.policy true query 2 5
      ⟨tables, ∅, []⟩ positive
      (Nat.le_refl 2)
  have listed : tables.namesAfter query.start = ["Orders", "Users"] := by decide +kernel
  rw [listed] at names
  exact ⟨positive, Nat.le_refl 2, events, after, gives, names⟩

end TableListing

end ItemSeal
