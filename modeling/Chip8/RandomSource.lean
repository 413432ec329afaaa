/-!
# Random sources

A sequence of integers and the number of those already drawn from it.
-/

namespace Chip8

structure RandomSource where
  value : Nat → Int
  drawn : Nat

namespace RandomSource

def draw (r : RandomSource) : Int × RandomSource :=
  (r.value r.drawn, { r with drawn := r.drawn + 1 })

/-- The listed values over and over; zeros if there are none. -/
def cycling (values : List Int) : RandomSource where
  value k := values[k % values.length]?.getD 0
  drawn := 0

end RandomSource

end Chip8
