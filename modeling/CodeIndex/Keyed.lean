/-!
# Keyed lists

Lists in which at most one element has a given key, and the removal of duplicates.

`put` keeps the place of a key that is there already and appends a new one. `dedupByKey` keeps one
element for each key: the last one, at the place of the first. It goes over the list once, with the
keys in the order in which they come and a table of the latest elements, and then takes the elements
out of the table in that order.
-/

namespace CodeIndex.Keyed

variable {α : Type}

/-! ### Putting -/

/-- Replaces the element with the key of `x` by `x`, or appends `x`. -/
def put (key : α → String) (x : α) : List α → List α
  | [] => [x]
  | y :: ys => if key y = key x then x :: ys else y :: put key x ys

/-- Applies `f` to the element with key `k`, or appends `x`. -/
def alter (key : α → String) (k : String) (f : α → α) (x : α) : List α → List α
  | [] => [x]
  | y :: ys => if key y = k then f y :: ys else y :: alter key k f x ys

/-- The element with a key. -/
def lookUp (key : α → String) (k : String) (xs : List α) : Option α :=
  xs.find? fun x => key x == k

/-- Takes the elements with a key out. -/
def erase (key : α → String) (k : String) (xs : List α) : List α :=
  xs.filter fun x => key x != k

/-! ### Duplicates -/

/-- What is known of the elements met so far. -/
structure Met (α : Type) where
  /-- The keys, in the order in which they were met first. -/
  order : List String
  /-- The element that was met last under each key. -/
  latest : List (String × α)
  deriving DecidableEq, Repr

namespace Met

/-- No element was met. -/
def empty : Met α := ⟨[], []⟩

/-- Meets one more element. Its key goes to the end of the order unless the table has it. -/
def add (key : α → String) (m : Met α) (x : α) : Met α :=
  let k := key x
  { order := if (lookUp (·.1) k m.latest).isNone then m.order ++ [k] else m.order
    latest := put (·.1) (k, x) m.latest }

/-- The elements of a table under some keys. Each one is taken out when its key comes. -/
def takeOut : List String → List (String × α) → List α
  | [], _ => []
  | k :: ks, latest =>
    let others := takeOut ks (erase (·.1) k latest)
    match lookUp (·.1) k latest with
    | some entry => entry.2 :: others
    | none => others

end Met

/-- One element for each key: the last one, in the order in which the keys come first. -/
def dedupByKey (key : α → String) (xs : List α) : List α :=
  let met := xs.foldl (Met.add key) .empty
  Met.takeOut met.order met.latest

end CodeIndex.Keyed
