import ItemSeal.ServiceFailure
import Mathlib.Data.List.Infix

/-!
Which kind of error a failed call is. `ServiceFailure.category` is what a failure is apart from
its words: how far the call came and, where the service refused, with which code. Two failures of
one category are errors of one kind, with whatever words and about whatever tables, unless the
calls could not be built: the reasons of those are searched for credentials, and the ones that
name them are told from the others (`ServiceFailure.kind_eq_iff_of_category`).
-/

namespace ItemSeal

/-! ## Words in a text -/

namespace Text

theorem occursWithin_iff {part chars : List Char} :
    occursWithin part chars = true ↔ part <:+: chars := by
  induction chars with
  | nil => simp [occursWithin]
  | cons c rest ih =>
      rw [occursWithin, Bool.or_eq_true, List.isPrefixOf_iff_prefix, ih, List.infix_cons_iff]

theorem occursIn_iff {part text : String} :
    occursIn part text = true ↔ part.toList <:+: text.toList :=
  occursWithin_iff

section Separated

variable {word front back : List Char} {separator : Char}

/-- A word at the start ends before a character that it does not have. -/
theorem prefix_append_cons_iff (apart : separator ∉ word) :
    word <+: front ++ separator :: back ↔ word <+: front := by
  induction front generalizing word with
  | nil =>
      cases word with
      | nil => simp
      | cons c rest =>
          have different : c ≠ separator := fun same => apart (same ▸ List.mem_cons_self)
          simp [List.cons_prefix_cons, different]
  | cons first front ih =>
      cases word with
      | nil => simp
      | cons c rest =>
          rw [List.cons_append, List.cons_prefix_cons, List.cons_prefix_cons,
            ih fun member => apart (List.mem_cons_of_mem c member)]

/-- A word lies on one side of a character that it does not have. -/
theorem infix_append_cons_iff (apart : separator ∉ word) :
    word <:+: front ++ separator :: back ↔ word <:+: front ∨ word <:+: back := by
  induction front with
  | nil =>
      have start : word <+: [] ++ separator :: back ↔ word <+: [] := prefix_append_cons_iff apart
      rw [List.nil_append] at start ⊢
      rw [List.infix_cons_iff, start, List.prefix_nil, List.infix_nil]
  | cons first front ih =>
      have start : word <+: (first :: front) ++ separator :: back ↔ word <+: first :: front :=
        prefix_append_cons_iff apart
      rw [List.cons_append] at start ⊢
      rw [List.infix_cons_iff, start, ih, List.infix_cons_iff, or_assoc]

end Separated

end Text

namespace ServiceFailure

/-! ## Categories -/

/-- What a failed call is apart from its words. -/
inductive Category where
  | unbuilt
  | timedOut
  | undelivered (fault : DeliveryFault)
  | unreadable
  | refused (code : Option String)
  deriving DecidableEq, Repr

def category : ServiceFailure → Category
  | .unbuilt _ => .unbuilt
  | .timedOut => .timedOut
  | .undelivered fault => .undelivered fault
  | .unreadable _ => .unreadable
  | .refused refusal => .refused refusal.code

/-- The request could not be built, for a reason that has the word in small
letters or with a capital. -/
def NamesCredentials : ServiceFailure → Prop
  | .unbuilt reason =>
      "credentials".toList <:+: reason.toList ∨ "Credentials".toList <:+: reason.toList
  | _ => False

/-! ## Calls that could not be built -/

theorem toList_unbuiltText (reason : String) :
    (unbuiltText reason).toList =
      "ConstructionFailure \x7b source:".toList ++ ' ' ::
        (reason.toList ++ ' ' :: "\x7d".toList) := by
  have front : "ConstructionFailure \x7b source: ".toList =
      "ConstructionFailure \x7b source:".toList ++ [' '] := rfl
  have back : " \x7d".toList = ' ' :: "\x7d".toList := rfl
  unfold unbuiltText
  -- The words get names first: rewriting would look into their characters.
  generalize "ConstructionFailure \x7b source: " = opening at front ⊢
  generalize " \x7d" = closing at back ⊢
  rw [String.toList_append, String.toList_append, front, back, List.append_assoc,
    List.append_assoc, List.singleton_append]

/-- A word without blanks occurs in the report if it does in the reason, or
in the words around it. -/
theorem occursIn_unbuiltText_iff {word reason : String} (blankless : ' ' ∉ word.toList)
    (notBefore : ¬ word.toList <:+: "ConstructionFailure \x7b source:".toList)
    (notAfter : ¬ word.toList <:+: "\x7d".toList) :
    Text.occursIn word (unbuiltText reason) = true ↔ word.toList <:+: reason.toList := by
  rw [Text.occursIn_iff, toList_unbuiltText, Text.infix_append_cons_iff blankless,
    Text.infix_append_cons_iff blankless, or_iff_right notBefore, or_iff_left notAfter]

/-- Such a call is an error of the service, unless its reason names credentials. -/
theorem kind_unbuiltError (reason : String) :
    (unbuilt reason).NamesCredentials ∧ (unbuiltError reason).kind = .credentials ∨
      ¬ (unbuilt reason).NamesCredentials ∧ (unbuiltError reason).kind = .service := by
  have searched : (Text.occursIn "credentials" (unbuiltText reason) ||
      Text.occursIn "Credentials" (unbuiltText reason)) = true ↔
        (unbuilt reason).NamesCredentials := by
    rw [Bool.or_eq_true, occursIn_unbuiltText_iff (by decide) (by decide) (by decide),
      occursIn_unbuiltText_iff (by decide) (by decide) (by decide), NamesCredentials]
  unfold unbuiltError
  split
  · next found => exact .inl ⟨searched.1 found, rfl⟩
  · next missing => exact .inr ⟨fun named => missing (searched.2 named), rfl⟩

/-! ## Refusals -/

section Refusals

variable {left right : Refusal}

/-- A common code makes errors of one kind, and else none. -/
theorem kind_commonError?_congr (same : left.code = right.code) (service : Service) :
    (commonError? service left).map Error.kind = (commonError? service right).map Error.kind := by
  unfold commonError?
  rw [same]
  split <;> rfl

theorem kind_storeRefusal_congr (same : left.code = right.code)
    (leftTable rightTable : Option String) :
    (storeRefusal leftTable left).kind = (storeRefusal rightTable right).kind := by
  unfold storeRefusal
  rw [same]
  -- A code about a table words its error with the table's name, if there is one.
  split
  case h_1 => cases leftTable <;> cases rightTable <;> rfl
  case h_2 => cases leftTable <;> cases rightTable <;> rfl
  all_goals rfl

theorem kind_keyRefusal_congr (same : left.code = right.code) (use : KeyUse) :
    (keyRefusal use left).kind = (keyRefusal use right).kind := by
  unfold keyRefusal
  rw [same]
  cases use <;> split <;> rfl

end Refusals

/-! ## Failed calls -/

section Calls

variable {left right : ServiceFailure}

/-- The kind of error of a failed call hangs on its category and on whether its reason names
credentials, if that of the service's own codes hangs on the code. -/
theorem kind_errorBy_eq_iff {leftRefusal rightRefusal : Refusal → Error}
    (own : ∀ {first second : Refusal}, first.code = second.code →
      (leftRefusal first).kind = (rightRefusal second).kind)
    (same : left.category = right.category) (service : Service) :
    (left.errorBy service leftRefusal).kind = (right.errorBy service rightRefusal).kind ↔
      (left.NamesCredentials ↔ right.NamesCredentials) := by
  cases left with
  | unbuilt reason =>
      cases right with
      | unbuilt other =>
          unfold errorBy
          rcases kind_unbuiltError reason with ⟨named, kind⟩ | ⟨named, kind⟩ <;>
            rcases kind_unbuiltError other with ⟨otherNamed, otherKind⟩ |
              ⟨otherNamed, otherKind⟩ <;>
            simp [named, kind, otherNamed, otherKind]
      | _ => cases same
  | timedOut =>
      cases right with
      | timedOut => exact iff_of_true rfl Iff.rfl
      | _ => cases same
  | undelivered fault =>
      cases right with
      | undelivered _ =>
          cases same
          exact iff_of_true rfl Iff.rfl
      | _ => cases same
  | unreadable reason =>
      cases right with
      | unreadable _ => exact iff_of_true rfl Iff.rfl
      | _ => cases same
  | refused refusal =>
      cases right with
      | refused other =>
          have codes : refusal.code = other.code := Category.refused.inj same
          refine iff_of_true ?_ Iff.rfl
          unfold errorBy
          rw [← Option.getD_map Error.kind, ← Option.getD_map Error.kind,
            kind_commonError?_congr codes, own codes]
      | _ => cases same

/-- Two failures of one category are errors of one kind, of the store whatever the tables and of
the key service for one use, unless one could not be built for a reason that names credentials and
the other for a reason that does not. -/
theorem kind_eq_iff_of_category (same : left.category = right.category) :
    (∀ leftTable rightTable,
      (left.storeError leftTable).kind = (right.storeError rightTable).kind ↔
        (left.NamesCredentials ↔ right.NamesCredentials)) ∧
    ∀ use, (left.keyError use).kind = (right.keyError use).kind ↔
      (left.NamesCredentials ↔ right.NamesCredentials) := by
  constructor
  · intro leftTable rightTable
    exact kind_errorBy_eq_iff (fun codes => kind_storeRefusal_congr codes leftTable rightTable)
      same .dynamoDB
  · intro use
    exact kind_errorBy_eq_iff (fun codes => kind_keyRefusal_congr codes use) same .kms

end Calls

namespace Sample

-- Two calls that could not be built, and two refusals with one code in different words.
def withoutCredentials : ServiceFailure := .unbuilt "\"no credentials here\""

def withoutHost : ServiceFailure := .unbuilt "\"no host here\""

def missingTable : ServiceFailure :=
  .refused
    { code := some "ResourceNotFoundException", message := some "Requested resource not found" }

def missingIndex : ServiceFailure :=
  .refused { code := some "ResourceNotFoundException", known := some "no credentials here" }

end Sample

open Sample in
/-- The reason of a call that could not be built decides the kind of its error; the
words of a refusal do not. -/
theorem kind_eq_iff_of_category_unbuilt :
    (withoutCredentials.category = withoutHost.category ∧
      (withoutCredentials.storeError (some "Orders")).kind ≠
        (withoutHost.storeError (some "Orders")).kind ∧
      (withoutCredentials.keyError .decrypting).kind ≠ (withoutHost.keyError .decrypting).kind) ∧
    missingTable.category = missingIndex.category ∧
      (missingTable.storeError (some "Orders")).kind = (missingIndex.storeError none).kind := by
  have unbuilt : withoutCredentials.category = withoutHost.category := rfl
  have refused : missingTable.category = missingIndex.category := rfl
  have named : withoutCredentials.NamesCredentials := .inl (by decide)
  have unnamed : ¬ withoutHost.NamesCredentials := by
    rintro (small | capital)
    · exact absurd small (by decide)
    · exact absurd capital (by decide)
  obtain ⟨ofStore, ofKeys⟩ := kind_eq_iff_of_category unbuilt
  have differ : ¬ (withoutCredentials.NamesCredentials ↔ withoutHost.NamesCredentials) := by
    intro agree
    exact unnamed (agree.1 named)
  refine ⟨⟨unbuilt, fun kinds => differ ((ofStore _ _).1 kinds),
    fun kinds => differ ((ofKeys _).1 kinds)⟩, refused, ?_⟩
  exact ((kind_eq_iff_of_category refused).1 _ _).2 Iff.rfl

end ServiceFailure

end ItemSeal
