import Treewalk.Document.Basic

/-!
# The order of sets

The members of a set lie in the slots of a table and are listed slot by slot. A number has a home
slot, by its value modulo a prime, so that equal numbers have one home whether they are integers or
not. A member whose home is taken looks at the slots behind it, if there are enough of them, and
otherwise goes on to another slot, which depends on more bits of its value. The table has more than
twice as many slots as members, or eight slots for up to four members, and so a free slot is found.

Only numbers have a home. A set with other members keeps the order in which they came.
-/

namespace Treewalk.Document

open Number

/-- The prime modulo which numbers are placed, `2^61 - 1`. -/
def placingPrime : Nat := 0x1FFFFFFFFFFFFFFF

/-- The place of a number, given its magnitude modulo the prime; minus one shares the place of minus
two. -/
def signedPlace (negative : Bool) (magnitude : Nat) : UInt64 :=
  let n : Int := if negative then -(magnitude : Int) else magnitude
  UInt64.ofInt (if n = -1 then -2 else n)

/-- The place of a document that is a number. -/
def place? (d : Document) : Option UInt64 :=
  match d.numeric? with
  | none => none
  | some (.inl n) => some (signedPlace (n < 0) (n.natAbs % placingPrime))
  | some (.inr x) =>
    if x.isNaN then none
    else if x.isInfinite then some (signedPlace x.isNegative 314159)
    else
      -- two to the power 61 is one modulo the prime
      let (m, e) := x.parts
      some (signedPlace x.isNegative (m * Nat.pow 2 (e % 61).toNat % placingPrime))

/-- The first free slot that is found from a slot on; `bits` are those that choose where the search
goes on, and the first argument bounds how often it does. -/
def freeSlot (size : Nat) (isFree : Nat → Bool) : Nat → Nat → UInt64 → Nat
  | 0, slot, _ => slot
  | tries + 1, slot, bits =>
    let near := if slot + 9 < size then 10 else 1
    match (List.range' slot near).find? isFree with
    | some free => free
    | none =>
      let bits := bits >>> 5
      freeSlot size isFree tries ((slot * 5 + 1 + bits.toNat) % size) bits

/-- The number of slots for a number of members: a power of two. -/
def slotCount (members : Nat) : Nat :=
  if members ≤ 4 then 8 else Nat.pow 2 ((2 * members).log2 + 1)

/-- Puts a member with a place into the table. -/
def putInSlot (table : Array (Option Document)) (place : UInt64) (member : Document) :
    Array (Option Document) :=
  let size := table.size
  let isFree (slot : Nat) : Bool := (table.getD slot none).isNone
  -- the bits are used up after thirteen tries, and then each slot comes up once
  let slot := freeSlot size isFree (size + 13) (place.toNat % size) place
  table.setIfInBounds slot (some member)

/-- The members of a set in the order in which they are listed. -/
def inSlotOrder (members : List Document) : List Document :=
  match members.mapM fun d => d.place?.map (·, d) with
  | none => members
  | some placed =>
    let start : Array (Option Document) := .replicate (slotCount members.length) none
    (placed.foldl (fun table (place, d) => putInSlot table place d) start).toList.filterMap id

end Treewalk.Document
