import Mathlib.Data.List.Induction
import ItemSeal.Proofs.SealedStore.Resolution
import ItemSeal.TableListing

/-!
What happens while the tables of a store are gone through, whatever pages the store gives.
`TableQuery.Due` tells, from the calls so far, which call may come next: a page is asked for when
all names that came have been given out, from where the last page stopped, and the next name that
came is given out otherwise. A listing makes the calls that are due, gives out what they bring,
and stops when none is due any more (`TableListing.exists_runFrom_take`).
-/

namespace ItemSeal

/-- A call that is made while tables are gone through, and its answer. -/
inductive ListingEvent (σ : Type) where
  /-- A page of names is asked for. -/
  | page (input : ListInput) (answer : Except Error ListOutput)
  /-- A table is made a view of. -/
  | table (name : String) (result : Except Error (SealedTable σ))

variable {σ : Type}

namespace ListingEvent

/-- The names that an event brings. -/
def names : ListingEvent σ → List String
  | .page _ (.ok output) => output.names.getD []
  | .page _ (.error _) => []
  | .table _ _ => []

/-- The name that an event is about. -/
def name? : ListingEvent σ → Option String
  | .page _ _ => none
  | .table name _ => some name

/-- What is given out with an event: a table, why it cannot be had, or why a page cannot. -/
def yields? : ListingEvent σ → Option (Except Error (SealedTable σ))
  | .page _ (.ok _) => none
  | .page _ (.error error) => some (.error error)
  | .table _ result => some result

/-- The call gives that answer in the first session and leads to the second. -/
def Happens (sealed : SealedStore σ) (before : Session σ) (event : ListingEvent σ)
    (after : Session σ) : Prop :=
  match event with
  | .page input answer =>
      (Session.call (sealed.store.list input)).runFrom before = (answer, after)
  | .table name result => (sealed.table name {}).runFrom before = (result, after)

/-- All names that came, in the order in which they did. -/
def listed (events : List (ListingEvent σ)) : List String :=
  events.flatMap names

/-- All names that tables were asked for by. -/
def given (events : List (ListingEvent σ)) : List String :=
  events.filterMap name?

/-- All that was given out. -/
def yielded (events : List (ListingEvent σ)) : List (Except Error (SealedTable σ)) :=
  events.filterMap yields?

section Concat

variable (events : List (ListingEvent σ)) (name : String) (result : Except Error (SealedTable σ))
  (input : ListInput) (answer : Except Error ListOutput) (output : ListOutput) (error : Error)

@[simp] theorem given_concat_table :
    given (events ++ [.table name result]) = given events ++ [name] :=
  List.filterMap_append

@[simp] theorem given_concat_page : given (events ++ [.page input answer]) = given events :=
  List.filterMap_append.trans (List.append_nil _)

@[simp] theorem listed_concat_table : listed (events ++ [.table name result]) = listed events :=
  List.flatMap_append.trans (List.append_nil _)

@[simp] theorem listed_concat_ok :
    listed (events ++ [.page input (.ok output)]) = listed events ++ output.names.getD [] :=
  List.flatMap_append.trans (congrArg (listed events ++ ·) (List.append_nil _))

@[simp] theorem listed_concat_error :
    listed (events ++ [.page input (.error error)]) = listed events :=
  List.flatMap_append.trans (List.append_nil _)

end Concat

/-- Where every page could be had, a table was given out, or why it cannot
be had, for every name. -/
theorem length_yielded {events : List (ListingEvent σ)}
    (had : ∀ input error, .page input (.error error) ∉ events) :
    (yielded events).length = (given events).length := by
  induction events with
  | nil => rfl
  | cons event rest ih =>
      have restGiven :=
        ih fun input error member => had input error (List.mem_cons_of_mem _ member)
      cases event with
      | page input answer =>
          cases answer with
          | error error => exact (had input error (List.mem_cons_self ..)).elim
          | ok output => exact restGiven
      | table name result => exact congrArg (· + 1) restGiven

/-- Where nothing was given out there were pages only, and they came. -/
theorem eq_page_of_yielded_eq_nil {events : List (ListingEvent σ)}
    (nothing : yielded events = []) :
    ∀ event ∈ events, ∃ input output, event = .page input (.ok output) := by
  intro event member
  have silent := List.filterMap_eq_nil_iff.1 nothing event member
  rcases event with ⟨input, error | output⟩ | ⟨name, result⟩
  · cases silent
  · exact ⟨input, output, rfl⟩
  · cases silent

@[simp] theorem yielded_append (events more : List (ListingEvent σ)) :
    yielded (events ++ more) = yielded events ++ yielded more :=
  List.filterMap_append

end ListingEvent

namespace TableQuery

open ListingEvent (listed given yielded)

variable (query : TableQuery)

/-- The names that the query is about, of all names: as many as it is limited to. -/
def upTo (names : List String) : List String :=
  match query.limit with
  | none => names
  | some limit => names.take limit

/-- As many tables were asked for as the query is limited to. -/
def Reached (events : List (ListingEvent σ)) : Prop :=
  query.limit = some (given events).length

/-- What to ask for after an event: after a page, the page behind its last name, and nothing if it
names none or could not be had. -/
def pageAfter? (next : Option ListInput) : ListingEvent σ → Option ListInput
  | .page _ (.ok output) => output.last.map fun last => ⟨some last, query.pageSize⟩
  | .page _ (.error _) => none
  | .table _ _ => next

/-- The page to ask for next, if there is to be one: the first begins where the query does. -/
def nextPage? (events : List (ListingEvent σ)) : Option ListInput :=
  events.foldl query.pageAfter? (some ⟨query.start, query.pageSize⟩)

/-- A call that is to be made next, given the calls so far. A page is due when all names that came
were given out, and a table is due when its name is the next that came. -/
def Due (events : List (ListingEvent σ)) : ListingEvent σ → Prop
  | .page input _ =>
      ¬ query.Reached events ∧ given events = listed events ∧ query.nextPage? events = some input
  | .table name _ => ¬ query.Reached events ∧ given events ++ [name] <+: listed events

/-- All is given out that the query asks for, or all that there is. -/
def Complete (events : List (ListingEvent σ)) : Prop :=
  query.Reached events ∨ given events = listed events ∧ query.nextPage? events = none

/-- The calls are those that were due, one after the other, and nothing else was done from the
first session to the last. -/
inductive Transcript (sealed : SealedStore σ) (query : TableQuery) (start : Session σ) :
    List (ListingEvent σ) → Session σ → Prop where
  | start : Transcript sealed query start [] start
  | next {events : List (ListingEvent σ)} {between after : Session σ} {event : ListingEvent σ}
      (earlier : Transcript sealed query start events between) (due : query.Due events event)
      (happens : event.Happens sealed between after) :
        Transcript sealed query start (events ++ [event]) after

/-- The last calls, that many, were all for pages, and the pages came; so each but the last
was one without names. -/
def Stalls (steps : Nat) (events : List (ListingEvent σ)) : Prop :=
  ∃ earlier pages, events = earlier ++ pages ∧ pages.length = steps ∧
    ∀ event ∈ pages, ∃ input output, event = .page input (.ok output)

variable {query} {events : List (ListingEvent σ)} {event : ListingEvent σ}

theorem nextPage?_concat (events : List (ListingEvent σ)) (event : ListingEvent σ) :
    query.nextPage? (events ++ [event]) = query.pageAfter? (query.nextPage? events) event := by
  rw [nextPage?, nextPage?, List.foldl_append]
  rfl

/-- Every page that is asked for is of the size that the query says. -/
theorem limit_of_nextPage? {input : ListInput} (next : query.nextPage? events = some input) :
    input.limit = query.pageSize := by
  induction events using List.reverseRecOn with
  | nil =>
      cases next
      rfl
  | append_singleton events event ih =>
      rw [nextPage?_concat] at next
      cases event with
      | page asked answer =>
          cases answer with
          | error error => cases next
          | ok output =>
              obtain ⟨last, -, rfl⟩ := Option.map_eq_some_iff.1 next
              rfl
      | table name result => exact ih next

/-- When all is given out nothing is due. -/
theorem not_due_of_complete (complete : query.Complete events) (event : ListingEvent σ) :
    ¬ query.Due events event := by
  intro due
  rcases complete with reached | ⟨all, last⟩
  · cases event with
    | page => exact due.1 reached
    | table => exact due.1 reached
  · cases event with
    | page input answer =>
        rw [due.2.2] at last
        cases last
    | table name result =>
        have longer := due.2.length_le
        rw [← all, List.length_append, List.length_singleton] at longer
        omega

/-- A page that could not be had is the end. -/
theorem complete_of_due_error {input : ListInput} {error : Error}
    (due : query.Due events (.page input (.error error))) :
    query.Complete (events ++ [.page input (.error error)]) := by
  refine .inr ⟨?_, nextPage?_concat events _⟩
  rw [ListingEvent.given_concat_page, ListingEvent.listed_concat_error, due.2.1]

namespace Transcript

variable {sealed : SealedStore σ} {start after : Session σ}

/-- Each call was due after those before it. -/
theorem due {before later : List (ListingEvent σ)}
    (transcript : Transcript sealed query start (before ++ event :: later) after) :
    query.Due before event := by
  generalize whole : before ++ event :: later = events at transcript
  induction transcript generalizing later with
  | start => cases before <;> cases whole
  | @next events between after last earlier due happens ih =>
      rcases List.eq_nil_or_concat later with rfl | ⟨front, _, rfl⟩
      · obtain ⟨rfl, isLast⟩ := List.append_inj' whole rfl
        cases isLast
        exact due
      · rw [List.concat_eq_append, ← List.cons_append, ← List.append_assoc] at whole
        exact ih (List.append_inj' whole rfl).1

/-- Nothing comes after a page that could not be had. -/
theorem eq_nil_of_error {before later : List (ListingEvent σ)} {input : ListInput} {error : Error}
    (transcript :
      Transcript sealed query start (before ++ .page input (.error error) :: later) after) :
    later = [] := by
  cases later with
  | nil => rfl
  | cons event rest =>
      have complete := complete_of_due_error transcript.due
      rw [List.append_cons] at transcript
      exact (not_due_of_complete complete event transcript.due).elim

/-- Of two pages that are asked for one right after the other, the first has no names but
tells where it stopped. -/
theorem names_of_two_pages {before later : List (ListingEvent σ)} {input nextInput : ListInput}
    {output : ListOutput} {answer : Except Error ListOutput}
    (transcript : Transcript sealed query start
      (before ++ .page input (.ok output) :: .page nextInput answer :: later) after) :
    output.names.getD [] = [] ∧ output.last ≠ none := by
  have first := transcript.due
  rw [List.append_cons] at transcript
  have second := transcript.due
  have allGiven := second.2.1
  have next := second.2.2
  rw [ListingEvent.given_concat_page, ListingEvent.listed_concat_ok, first.2.1] at allGiven
  rw [nextPage?_concat] at next
  refine ⟨List.self_eq_append_right.1 allGiven, fun ended => ?_⟩
  obtain ⟨last, stopped, -⟩ := Option.map_eq_some_iff.1 next
  rw [ended] at stopped
  cases stopped

/-- Names are given out in the order in which they came. -/
theorem given_prefix (transcript : Transcript sealed query start events after) :
    given events <+: listed events := by
  induction transcript with
  | start => exact List.nil_prefix
  | @next events between after event earlier due happens ih =>
      cases event with
      | page input answer =>
          rw [ListingEvent.given_concat_page]
          exact ih.trans ⟨_, List.flatMap_append.symm⟩
      | table name result =>
          rw [ListingEvent.given_concat_table, ListingEvent.listed_concat_table]
          exact due.2

/-- No more tables are given out than the query asks for. -/
theorem length_given_le (transcript : Transcript sealed query start events after) {limit : Nat}
    (limited : query.limit = some limit) : (given events).length ≤ limit := by
  induction transcript with
  | start => exact Nat.zero_le limit
  | @next events between after event earlier due happens ih =>
      cases event with
      | page input answer =>
          rw [ListingEvent.given_concat_page]
          exact ih
      | table name result =>
          have room : (given events).length ≠ limit :=
            fun same => due.1 (limited.trans (congrArg some same.symm))
          rw [ListingEvent.given_concat_table, List.length_append]
          exact Nat.lt_of_le_of_ne ih room

/-- The names that are given out are the first of those that the query is about, if
more names come or not. -/
theorem given_prefix_upTo (transcript : Transcript sealed query start events after)
    {names : List String} (come : listed events <+: names) :
    given events <+: query.upTo names := by
  have first := transcript.given_prefix.trans come
  unfold upTo
  split
  · exact first
  · next limit limited => exact List.prefix_take_iff.2 ⟨first, transcript.length_given_le limited⟩

/-- When all is given out, all names were that the query is about. -/
theorem given_eq_upTo (transcript : Transcript sealed query start events after)
    (complete : query.Complete events) :
    given events = query.upTo (listed events) := by
  unfold upTo
  split
  · next unlimited =>
      rcases complete with reached | ⟨all, -⟩
      · cases unlimited.symm.trans reached
      · exact all
  · next limit limited =>
      rcases complete with reached | ⟨all, -⟩
      · cases limited.symm.trans reached
        exact List.prefix_iff_eq_take.1 transcript.given_prefix
      · rw [← all, List.take_of_length_le (transcript.length_given_le limited)]

end Transcript

end TableQuery

namespace TableListing

open ListingEvent (listed given yielded)
open TableQuery (Transcript Stalls)

variable {sealed : SealedStore σ} {query : TableQuery} {events : List (ListingEvent σ)}
  {listing : TableListing} {start session : Session σ}

/-- How far a listing has come when those calls were made. -/
structure Follows (query : TableQuery) (events : List (ListingEvent σ)) (listing : TableListing) :
    Prop where
  pageSize : listing.pageSize = query.pageSize
  within : ∀ {limit}, query.limit = some limit → (given events).length ≤ limit
  remaining : listing.remaining = query.limit.map (· - (given events).length)
  buffered : listed events = given events ++ listing.buffered
  nextPage : query.nextPage? events =
    if listing.exhausted then none else some ⟨listing.start, listing.pageSize⟩

/-- A listing starts with no calls made. -/
theorem follows_ofQuery (query : TableQuery) :
    Follows query ([] : List (ListingEvent σ)) (ofQuery query) where
  pageSize := rfl
  within _ := Nat.zero_le _
  remaining := by
    unfold ofQuery
    cases query.limit <;> rfl
  buffered := rfl
  nextPage := rfl

/-- Nothing remains when the limit is reached, and only then. -/
theorem Follows.remaining_eq_zero_iff (follows : Follows query events listing) :
    listing.remaining = some 0 ↔ query.Reached events := by
  rw [follows.remaining, TableQuery.Reached]
  cases limited : query.limit with
  | none => exact iff_of_false (by simp) (by simp)
  | some limit =>
      have within := follows.within limited
      simp only [Option.map_some, Option.some.injEq]
      omega

/-- A name is given out, whatever its table comes to. -/
theorem Follows.give {name : String} {rest : List String} (follows : Follows query events listing)
    (held : listing.buffered = name :: rest) (notReached : ¬ query.Reached events)
    (result : Except Error (SealedTable σ)) :
    Follows query (events ++ [.table name result])
      { listing with buffered := rest, remaining := listing.remaining.map (· - 1) } where
  pageSize := follows.pageSize
  within {limit} limited := by
    have room : (given events).length ≠ limit :=
      fun same => notReached (limited.trans (congrArg some same.symm))
    rw [ListingEvent.given_concat_table, List.length_append]
    exact Nat.lt_of_le_of_ne (follows.within limited) room
  remaining := by
    rw [follows.remaining, Option.map_map, ListingEvent.given_concat_table, List.length_append]
    rfl
  buffered := by
    rw [ListingEvent.listed_concat_table, ListingEvent.given_concat_table, follows.buffered, held,
      List.append_assoc]
    rfl
  nextPage := (TableQuery.nextPage?_concat events _).trans follows.nextPage

/-- A page comes when all names before it are given out. -/
theorem Follows.turn (follows : Follows query events listing) (held : listing.buffered = [])
    (input : ListInput) (output : ListOutput) :
    Follows query (events ++ [.page input (.ok output)]) (listing.withPage output) where
  pageSize := follows.pageSize
  within limited := by
    rw [ListingEvent.given_concat_page]
    exact follows.within limited
  remaining := by
    rw [ListingEvent.given_concat_page]
    exact follows.remaining
  buffered := by
    rw [ListingEvent.listed_concat_ok, ListingEvent.given_concat_page, follows.buffered, held,
      List.append_nil]
    rfl
  nextPage := by
    have next :
      query.pageAfter? (query.nextPage? events) (.page input (.ok output) : ListingEvent σ) =
        output.last.map fun last => ⟨some last, query.pageSize⟩ := rfl
    rw [TableQuery.nextPage?_concat, next, ← follows.pageSize]
    unfold withPage
    cases output.last <;> rfl

/-- A page cannot be had when all names before it are given out. -/
theorem Follows.fail (follows : Follows query events listing) (held : listing.buffered = [])
    (input : ListInput) (error : Error) :
    Follows query (events ++ [.page input (.error error)])
      { listing with buffered := [], exhausted := true } where
  pageSize := follows.pageSize
  within limited := by
    rw [ListingEvent.given_concat_page]
    exact follows.within limited
  remaining := by
    rw [ListingEvent.given_concat_page]
    exact follows.remaining
  buffered := by
    rw [ListingEvent.listed_concat_error, ListingEvent.given_concat_page, follows.buffered, held]
  nextPage := TableQuery.nextPage?_concat events _

/-- What a step brings that makes this call. -/
def Step.of (event : ListingEvent σ) (next : TableListing) : Step σ :=
  match event.yields? with
  | some result => .give result next
  | none => .turn next

/-- A step ends the listing when all is given out, and else it makes a call that is due. -/
theorem exists_runFrom_step (sealed : SealedStore σ) (follows : Follows query events listing)
    (session : Session σ) :
    (listing.step sealed).runFrom session = (.ok .finish, session) ∧ query.Complete events ∨
      ∃ event after next, query.Due events event ∧ event.Happens sealed session after ∧
        Follows query (events ++ [event]) next ∧
        (listing.step sealed).runFrom session = (.ok (.of event next), after) := by
  unfold step
  by_cases reached : listing.remaining = some 0
  · rw [if_pos reached]
    exact .inl ⟨rfl, .inl (follows.remaining_eq_zero_iff.1 reached)⟩
  have notReached : ¬ query.Reached events :=
    fun same => reached (follows.remaining_eq_zero_iff.2 same)
  rw [if_neg reached]
  have buffered := follows.buffered
  cases held : listing.buffered with
  | cons name rest =>
      rw [held, List.append_cons] at buffered
      exact .inr ⟨.table name _, _, _, ⟨notReached, rest, buffered.symm⟩, rfl,
        follows.give held notReached _, rfl⟩
  | nil =>
      rw [held, List.append_nil] at buffered
      have next := follows.nextPage
      cases last : listing.exhausted with
      | true =>
          rw [last, if_pos rfl] at next
          exact .inl ⟨rfl, .inr ⟨buffered.symm, next⟩⟩
      | false =>
          rw [last, if_neg Bool.false_ne_true] at next
          rcases asks :
              (Session.call (sealed.store.list ⟨listing.start, listing.pageSize⟩)).runFrom
              session with
            ⟨error | output, after⟩
          · refine .inr ⟨.page _ (.error error), after, _, ⟨notReached, buffered.symm, next⟩,
              asks, follows.fail held _ error, ?_⟩
            rw [if_neg Bool.false_ne_true, Act.runFrom_bind_of_ok (Act.runFrom_attempt _ _), asks]
            rfl
          · refine .inr ⟨.page _ (.ok output), after, _, ⟨notReached, buffered.symm, next⟩, asks,
              follows.turn held _ output, ?_⟩
            rw [if_neg Bool.false_ne_true, Act.runFrom_bind_of_ok (Act.runFrom_attempt _ _), asks]
            rfl

/-- The next table is looked for until it is found, all is given out, or the steps are used up. -/
theorem exists_runFrom_next? (sealed : SealedStore σ) (steps : Nat)
    (transcript : Transcript sealed query start events session)
    (follows : Follows query events listing) :
    ∃ outcome more after, (listing.next? sealed steps).runFrom session = (.ok outcome, after) ∧
      Transcript sealed query start (events ++ more) after ∧
      match outcome with
      | some (result, next) => yielded more = [result] ∧ Follows query (events ++ more) next
      | none => yielded more = [] ∧ (query.Complete (events ++ more) ∨ more.length = steps) := by
  induction steps generalizing events session listing with
  | zero => exact ⟨none, [], session, rfl, by rwa [List.append_nil], rfl, .inr rfl⟩
  | succ steps ih =>
      rw [next?]
      rcases exists_runFrom_step sealed follows session with ⟨runs, complete⟩ |
        ⟨event, after, next, due, happens, more⟩
      · refine ⟨none, [], session, Act.runFrom_bind_of_ok runs, ?_, rfl, .inl ?_⟩ <;>
          rwa [List.append_nil]
      · obtain ⟨followsNext, runs⟩ := more
        have transcriptNext := transcript.next due happens
        rw [Act.runFrom_bind_of_ok runs]
        unfold Step.of
        cases yields : event.yields? with
        | some result =>
            have one : yielded [event] = [result] := by
              rw [yielded, List.filterMap_cons_some yields, List.filterMap_nil]
            exact ⟨some (result, next), [event], after, rfl, transcriptNext, one, followsNext⟩
        | none =>
            obtain ⟨outcome, more, last, runsOn, whole, comes⟩ := ih transcriptNext followsNext
            rw [← List.append_cons] at whole comes
            refine ⟨outcome, event :: more, last, runsOn, whole, ?_⟩
            have same : yielded (event :: more) = yielded more := List.filterMap_cons_none yields
            rw [same]
            cases outcome with
            | some given => exact comes
            | none => exact ⟨comes.1, comes.2.imp_right (congrArg (· + 1))⟩

/-- A listing makes the calls that are due and gives out what they bring: as much as it is asked
for, or all there is, if it is not stalled by pages without names. -/
theorem exists_runFrom_take (sealed : SealedStore σ) (steps count : Nat)
    (transcript : Transcript sealed query start events session)
    (follows : Follows query events listing) :
    ∃ more after, (listing.take sealed steps count).runFrom session =
      (.ok (yielded more), after) ∧
      Transcript sealed query start (events ++ more) after ∧ (yielded more).length ≤ count ∧
      ((yielded more).length = count ∨ query.Complete (events ++ more) ∨
        Stalls steps (events ++ more)) := by
  induction count generalizing events session listing with
  | zero => exact ⟨[], session, rfl, by rwa [List.append_nil], Nat.le_refl 0, .inl rfl⟩
  | succ count ih =>
      rw [take]
      obtain ⟨outcome, more, after, runs, transcriptNext, comes⟩ :=
        exists_runFrom_next? sealed steps transcript follows
      rw [Act.runFrom_bind_of_ok runs]
      cases outcome with
      | none =>
          obtain ⟨nothing, ends⟩ := comes
          refine ⟨more, after, ?_, transcriptNext, ?_, .inr (ends.imp_right fun stalls => ?_)⟩
          · rw [nothing]
            rfl
          · rw [nothing]
            exact Nat.zero_le _
          · exact ⟨events, more, rfl, stalls, ListingEvent.eq_page_of_yielded_eq_nil nothing⟩
      | some found =>
          obtain ⟨result, next⟩ := found
          obtain ⟨one, followsNext⟩ := comes
          obtain ⟨rest, last, runsOn, whole, length, ends⟩ := ih transcriptNext followsNext
          have yields : yielded (more ++ rest) = result :: yielded rest := by
            rw [ListingEvent.yielded_append, one, List.singleton_append]
          rw [List.append_assoc] at whole ends
          refine ⟨more ++ rest, last, ?_, whole, ?_, ?_⟩
          · rw [yields]
            exact Act.runFrom_bind_of_ok runsOn
          · rw [yields]
            exact Nat.succ_le_succ length
          · rw [yields]
            exact ends.imp_left (congrArg (· + 1))

/-- What taking that many tables of a query comes to, these being the calls that are made for
it. -/
structure Gives (sealed : SealedStore σ) (query : TableQuery) (steps count : Nat)
    (session : Session σ) (events : List (ListingEvent σ)) (after : Session σ) : Prop where
  /-- What the calls bring is given out in order, and nothing else. -/
  runs : ((ofQuery query).take sealed steps count).runFrom session = (.ok (yielded events), after)
  /-- Each call was due after the ones before it, and there were no others. -/
  transcript : Transcript sealed query session events after
  /-- Names are given out in the order in which they came. -/
  inOrder : given events <+: listed events
  /-- No more tables are given out than the query asks for, those that
  cannot be had among them. -/
  limited : ∀ limit, query.limit = some limit → (given events).length ≤ limit
  /-- A page that could not be had is the end. -/
  failed : ∀ before input error later, events = before ++ .page input (.error error) :: later →
    later = []
  within : (yielded events).length ≤ count
  /-- As many are given out as are taken, or all that there are, up to the limit; if pages without
  names do not use up the steps. -/
  ends :
    (yielded events).length = count ∨
    query.Complete events ∧ given events = query.upTo (listed events) ∨
    Stalls steps events

theorem exists_gives (sealed : SealedStore σ) (query : TableQuery) (steps count : Nat)
    (session : Session σ) :
    ∃ events after, Gives sealed query steps count session events after := by
  have starts : Transcript sealed query session [] session := .start
  obtain ⟨events, after, runs, transcript, within, ends⟩ :=
    exists_runFrom_take sealed steps count starts (follows_ofQuery query)
  refine ⟨events, after, runs, transcript, transcript.given_prefix,
    fun limit => transcript.length_given_le, ?_, within,
    ends.imp_right (Or.imp_left fun complete => ⟨complete, transcript.given_eq_upTo complete⟩)⟩
  intro before input error later splits
  rw [List.nil_append, splits] at transcript
  exact transcript.eq_nil_of_error

end TableListing

end ItemSeal
