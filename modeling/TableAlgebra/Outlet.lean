/-!
A sink of limited room behind a buffer. Bytes are held back until the buffer has
no space for the next piece; a piece as large as the buffer goes past it.
-/
namespace TableAlgebra

structure Outlet where
  held : Nat
  room : Nat
deriving DecidableEq, Repr

namespace Outlet

def bufferSize : Nat := 8192

def new (room : Nat) : Outlet := ⟨0, room⟩

/-- Hands over what is held. What the sink does not take stays held, and the
answer is then false. -/
def flush (outlet : Outlet) : Outlet × Bool :=
  (⟨outlet.held - outlet.room, outlet.room - outlet.held⟩, outlet.held ≤ outlet.room)

def put (outlet : Outlet) (size : Nat) : Outlet × Bool :=
  let (outlet, flushed) :=
    if bufferSize < outlet.held + size then outlet.flush else (outlet, true)
  if !flushed then (outlet, false)
  else if size < bufferSize then (⟨outlet.held + size, outlet.room⟩, true)
  else (⟨outlet.held, outlet.room - size⟩, size ≤ outlet.room)

def putAll (outlet : Outlet) : List Nat → Outlet × Bool
  | [] => (outlet, true)
  | size :: rest =>
    match outlet.put size with
    | (outlet, true) => outlet.putAll rest
    | failed => failed

/-- The room that is left after the last byte; none, if a held byte does not fit. -/
def close? (outlet : Outlet) : Option Nat :=
  match outlet.flush with
  | (outlet, true) => some outlet.room
  | _ => none

end Outlet
end TableAlgebra
