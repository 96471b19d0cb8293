import ItemSeal.SealedStore

/-!
Going through the tables of a store, page by page. A listing asks for a page only when it has
given out all names that came before; it ends with the store's list, at its limit, or after a
page that could not be had.
-/

namespace ItemSeal

/-- Which tables are gone through. -/
structure TableQuery where
  /-- The name to begin after. -/
  start : Option String := none
  /-- The number of tables to give at most. -/
  limit : Option Nat := none
  /-- The number of names to ask for at a time. -/
  pageSize : Option Int := none
  deriving DecidableEq, Repr

/-- How far a listing has come. -/
structure TableListing where
  pageSize : Option Int
  /-- The number of tables that may still be given. -/
  remaining : Option Nat
  /-- The names that came and are not given yet. -/
  buffered : List String := []
  /-- The name that the next page begins after. -/
  start : Option String
  /-- No further page is asked for. -/
  exhausted : Bool := false
  deriving DecidableEq, Repr

namespace TableListing

variable {σ : Type}

/-- The listing before its first page. -/
def ofQuery (query : TableQuery) : TableListing where
  pageSize := query.pageSize
  remaining := query.limit
  start := query.start

/-- What a step of a listing brings. -/
inductive Step (σ : Type) where
  /-- A table, or why it cannot be had, and the listing that goes on. -/
  | give (result : Except Error (SealedTable σ)) (next : TableListing)
  /-- A page, and the listing that goes on. -/
  | turn (next : TableListing)
  /-- Nothing more. -/
  | finish

/-- The listing with one more page in it. -/
def withPage (listing : TableListing) (page : ListOutput) : TableListing :=
  { listing with
    buffered := page.names.getD []
    start := page.last
    exhausted := page.last.isNone }

/-- One step: gives the next name that came, or asks for a page if all are given. -/
def step (sealed : SealedStore σ) (listing : TableListing) : Act (Session σ) (Step σ) :=
  if listing.remaining = some 0 then return .finish
  else
    match listing.buffered with
    | name :: rest => do
        let result ← (sealed.table name {}).attempt
        return .give result
          { listing with buffered := rest, remaining := listing.remaining.map (· - 1) }
    | [] =>
        if listing.exhausted then return .finish
        else do
          match ←
            (Session.call (sealed.store.list ⟨listing.start, listing.pageSize⟩)).attempt with
          | .ok page => return .turn (listing.withPage page)
          | .error error => return .give (.error error) { listing with exhausted := true }

/-- The next table, within a number of steps. -/
def next? (sealed : SealedStore σ) : (steps : Nat) → TableListing →
    Act (Session σ) (Option (Except Error (SealedTable σ) × TableListing))
  | 0, _ => return none
  | steps + 1, listing => do
      match ← listing.step sealed with
      | .give result next => return some (result, next)
      | .turn next => next? sealed steps next
      | .finish => return none

/-- The next tables, `count` at most, each within a number of steps. -/
def take (sealed : SealedStore σ) (steps : Nat) : (count : Nat) → TableListing →
    Act (Session σ) (List (Except Error (SealedTable σ)))
  | 0, _ => return []
  | count + 1, listing => do
      match ← listing.next? sealed steps with
      | none => return []
      | some (result, next) => return result :: (← take sealed steps count next)

end TableListing

end ItemSeal
