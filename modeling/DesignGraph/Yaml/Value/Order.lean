import DesignGraph.Yaml.Value

/-! # The order of a set

The elements of a set have no order of their own. Numbers are shown as they lie in a table of places
(`Atom.shownOrder`): each has a code, which is the same for equal numbers, and takes the first free place of
a sequence that its code determines. The order of other elements is the one in which they are written. -/

namespace DesignGraph.Yaml

/-- The modulus of codes. Two to the power of sixty-one is one by it, so powers of two with negative
exponents have codes as well. -/
def codeModulus : Nat := Nat.pow 2 61 - 1

/-- The code of `m * 2 ^ q` with a sign. Minus one has the code of minus two. -/
def numberCode (negative : Bool) (m : Nat) (q : Int) : Int :=
  let r := m * Nat.pow 2 (q % 61).toNat % codeModulus
  if !negative then r else if r = 1 then -2 else -r

/-- The size of the code of what is larger than any number. -/
def infinityCode : Nat := 314159

namespace Atom

/-- The code of a number or truth value. -/
def code? : Atom → Option Int
  | bool b => some (if b then 1 else 0)
  | int n => some (numberCode (n < 0) n.natAbs 0)
  | float x =>
    if x.isUnbounded then some (numberCode x.isNegative infinityCode 0)
    else some (numberCode x.isNegative x.significand x.exponent)
  | _ => none

/-- The size of a table: a power of two, and more than twice the number of elements if they are many. -/
def tableSize (count : Nat) : Nat := if count < 5 then 8 else Nat.pow 2 ((2 * count).log2 + 1)

/-- How many places behind the one that is asked for are tried before another one is asked for. -/
def reach : Nat := 9

/-- The first free place; at most `n` times a place is asked for. The next one follows from the place
asked for and from a part of the code that shrinks. -/
def freePlace (size : Nat) (taken : List Nat) : Nat → (place part : Nat) → Nat
  | 0, place, _ => place
  | n + 1, place, part =>
    let near := if place + reach < size then List.range' place (reach + 1) else [place]
    match near.find? fun p => !taken.contains p with
    | some p => p
    | none =>
      let part := part / 32
      freePlace size taken n ((5 * place + 1 + part) % size) part

/-- The places of codes in a table. -/
def places (size : Nat) (codes : List Int) : List Nat :=
  let taken := codes.foldl (fun taken code =>
    let word := (code % Int.ofNat (Nat.pow 2 64)).toNat
    freePlace size taken (size + 64) (word % size) word :: taken) []
  taken.reverse

/-- The elements of a set in the order in which they are shown. -/
def shownOrder (elements : List Atom) : List Atom :=
  match elements.mapM code? with
  | none => elements
  | some codes =>
    let placed := (places (tableSize codes.length) codes).zip elements
    (placed.mergeSort fun a b => a.1 ≤ b.1).map (·.2)

end Atom

end DesignGraph.Yaml
