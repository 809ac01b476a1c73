import Slideshow.Scalar

/-!
# Progress

How far an encode has come, as a fraction of its expected length that never falls.

* `Progress.observe` takes an elapsed time and tells the new fraction if it is a larger one
  (`observe`).
* `Progress.finish` makes it one (`finish`).
-/

namespace Slideshow

open Scalar

/-- The expected length and the largest fraction so far. -/
structure Progress where
  total : Float
  fraction : Float := 0

namespace Progress

/-- Nothing done yet. -/
def ofTotal (total : Float) : Progress := { total := total }

/-- The fraction of the expected length that a time is, between zero and one; none without a length
or a time. -/
def fractionAt? (p : Progress) (elapsed : Float) : Option Float :=
  if isPositive p.total && elapsed.isFinite then some (clamp (elapsed / p.total) 0 1) else none

/-- Moves on to a fraction if it is a larger one, and tells it then. -/
def advance (p : Progress) (fraction : Float) : Option Float × Progress :=
  if fraction > p.fraction then (some fraction, { p with fraction := fraction }) else (none, p)

/-- Takes an elapsed time. -/
def observe (p : Progress) (elapsed : Float) : Option Float × Progress :=
  match p.fractionAt? elapsed with
  | some fraction => p.advance fraction
  | none => (none, p)

/-- Takes the end. -/
def finish (p : Progress) : Option Float × Progress := p.advance 1

end Progress

end Slideshow
