import TrellisTagger.State
import TrellisTagger.Table

/-!
# Interning states

An interner hands out one copy per state. Copies are told apart by serial numbers: two copies are
the same one when their numbers agree, and of equal states that were made apart each has its own.

## Main definitions

* `TrellisTagger.Copy` — a state with the serial number of this copy of it.
* `TrellisTagger.Interner` — the copies held, and how many copies have been made so far.
* `TrellisTagger.Interner.intern` — exchange a copy for the one held.
* `TrellisTagger.Interner.request` — ask for the copy of a state.
-/

namespace TrellisTagger

/-- One copy of a state. -/
structure Copy where
  /-- The number of this copy. -/
  serial : Nat
  /-- The state. -/
  state : State
  deriving DecidableEq

/-- A store of one copy per state. -/
structure Interner where
  /-- The serial number of the copy held for each state. -/
  held : Table State Nat := ∅
  /-- The number of copies made so far, held or not. -/
  made : Nat := 0

namespace Interner

/-- Make a new copy of a state without holding it. -/
def make (i : Interner) (s : State) : Copy × Interner :=
  (⟨i.made, s⟩, { i with made := i.made + 1 })

/-- Exchange a copy for the one held. Where none is held, the given one is from now on. -/
def intern (i : Interner) (c : Copy) : Copy × Interner :=
  match i.held.get? c.state with
  | some serial => (⟨serial, c.state⟩, i)
  | none => (c, { i with held := i.held.insert c.state c.serial })

/-- The copy of a state that the interner holds, a new one if there was none. -/
def request (i : Interner) (s : State) : Copy × Interner :=
  let (c, i) := i.make s
  i.intern c

/-- Forget all copies that are held. -/
def clear (i : Interner) : Interner := { i with held := ∅ }

/-- The number of states for which a copy is held. -/
def size (i : Interner) : Nat := i.held.size

/-- The text of an interner. -/
def text (i : Interner) : String := "StateInterner(size=" ++ toString i.size ++ ")"

end Interner

end TrellisTagger
