/-! # Sets of code points, given by ranges -/

namespace CalendarRules.Text

/-- The ranges hold both of their ends. -/
def inRanges (ranges : List (Nat × Nat)) (c : Char) : Bool :=
  ranges.any fun r => r.1 ≤ c.toNat && c.toNat ≤ r.2

/-- Every `step`-th code point from `first` to `last`, each with the partner `shift` further on. -/
structure ShiftRun where
  first : Nat
  last : Nat
  step : Nat
  shift : Int

namespace ShiftRun

def covers (run : ShiftRun) (n : Nat) : Bool :=
  run.first ≤ n && n ≤ run.last && (n - run.first) % run.step == 0

/-- The partner of the code point `n`. -/
def target (run : ShiftRun) (n : Nat) : Nat := (n + run.shift).toNat

end ShiftRun

end CalendarRules.Text
