import CardGate.Card.FieldName
import CardGate.Card.Number
import CardGate.Json.Basic
import CardGate.Token.Format

/-!
# Substitution in a document

Going into the vault's care, a card number is a string that is the value of a card field, has the
shape of a card number and is no token yet.  Such a string may stand at any depth; `tokenized`
replaces them all, in the order of the document, by the tokens of a given sequence, and lists
what it replaced.

On the way back any string may be a token, wherever it stands: `restored` looks every string up
and replaces those that are found.  Names of members are left alone in both directions.
-/

namespace CardGate

/-- A token issued for a card number. -/
structure Issue where
  token : String
  card : String
  deriving DecidableEq, Repr

namespace Json

/-- The card number that is to be replaced in a member, if it is one. -/
def cardIn? (format : TokenFormat) (name : String) : Json → Option String
  | str s =>
    if Card.isFieldName name && Card.looksLikeNumber s && !format.marks s then some s else none
  | _ => none

mutual

/-- A document with its card numbers replaced by the tokens `tokens next`, `tokens (next + 1)`
and so on, and the tokens issued. -/
def tokenized (format : TokenFormat) (tokens : Nat → String) (next : Nat) : Json → Json × List Issue
  | arr items =>
    let (items, issues) := tokenizedItems format tokens next items
    (arr items, issues)
  | obj members =>
    let (members, issues) := tokenizedMembers format tokens next members
    (obj members, issues)
  | null => (null, [])
  | bool b => (bool b, [])
  | num digits => (num digits, [])
  | str s => (str s, [])

/-- The same for the items of an array. -/
def tokenizedItems (format : TokenFormat) (tokens : Nat → String) (next : Nat) :
    List Json → List Json × List Issue
  | [] => ([], [])
  | item :: more =>
    let (item, first) := tokenized format tokens next item
    let (more, rest) := tokenizedItems format tokens (next + first.length) more
    (item :: more, first ++ rest)

/-- The same for the members of an object. -/
def tokenizedMembers (format : TokenFormat) (tokens : Nat → String) (next : Nat) :
    List (String × Json) → List (String × Json) × List Issue
  | [] => ([], [])
  | (name, value) :: more =>
    let (value, first) :=
      match cardIn? format name value with
      | some card => (str (tokens next), [Issue.mk (tokens next) card])
      | none => tokenized format tokens next value
    let (more, rest) := tokenizedMembers format tokens (next + first.length) more
    ((name, value) :: more, first ++ rest)

end

mutual

/-- A document with every string replaced that `card?` knows, and whether there was one. -/
def restored (card? : String → Option String) : Json → Json × Bool
  | str s =>
    match card? s with
    | some card => (str card, true)
    | none => (str s, false)
  | arr items =>
    let (items, found) := restoredItems card? items
    (arr items, found)
  | obj members =>
    let (members, found) := restoredMembers card? members
    (obj members, found)
  | null => (null, false)
  | bool b => (bool b, false)
  | num digits => (num digits, false)

/-- The same for the items of an array. -/
def restoredItems (card? : String → Option String) : List Json → List Json × Bool
  | [] => ([], false)
  | item :: more =>
    let (item, here) := restored card? item
    let (more, there) := restoredItems card? more
    (item :: more, here || there)

/-- The same for the members of an object. -/
def restoredMembers (card? : String → Option String) :
    List (String × Json) → List (String × Json) × Bool
  | [] => ([], false)
  | (name, value) :: more =>
    let (value, here) := restored card? value
    let (more, there) := restoredMembers card? more
    ((name, value) :: more, here || there)

end

end Json

end CardGate
