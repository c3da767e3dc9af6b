/-
  Keys with a time to live.

  A key holds a value and may have a time at which it goes; from that time on it is as if it were not there.  Storing
  a value under a key replaces its time as well.  Times are of any linear order.
-/
import TideBot.Lib.Dict

namespace Lib

/-- Keys with their values and the times at which they go; `none`: never. -/
abbrev Timed (κ α T : Type*) := Dict κ (α × Option T)

namespace Timed

variable {κ α T : Type*} [DecidableEq κ] [LinearOrder T] {s : Timed κ α T} {k : κ} {v : α} {ends : Option T} {now : T}

/-- The time has not come yet. -/
def Before (now : T) (ends : Option T) : Prop := ∀ e ∈ ends, now < e

instance : Decidable (Before now ends) := inferInstanceAs (Decidable (∀ e ∈ ends, now < e))

/-- The value of a key at a time. -/
def live (s : Timed κ α T) (now : T) (k : κ) : Option α :=
  (s.get k).bind fun e => if Before now e.2 then some e.1 else none

theorem not_before : ¬ Before now ends ↔ ∃ e, ends = some e ∧ e ≤ now := by
  simp [Before]

theorem live_of_get (hget : s.get k = some (v, ends)) : live s now k = if Before now ends then some v else none := by
  rw [live, hget, Option.bind_some]

end Timed

end Lib
