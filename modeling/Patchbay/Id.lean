import Patchbay.Uuid

/-!
# Names of nodes, pins and links, and where fresh ones come from

Three wrappers keep the identifiers of nodes, pins and links apart. A `Supply` is an unending
sequence of identifiers with a position in it; whoever makes a node, a pin or a link takes the next
one. Nothing here says that the sequence avoids repetition or identifiers that are in use: that is a
property of the sequence chosen by the host, and statements that need it say so.
-/

namespace Patchbay

structure NodeId where
  uuid : Uuid
  deriving DecidableEq, Inhabited

structure PinId where
  uuid : Uuid
  deriving DecidableEq, Inhabited

structure LinkId where
  uuid : Uuid
  deriving DecidableEq, Inhabited

/-- A node identifier is written as its bare number. -/
def NodeId.toText (n : NodeId) : String := n.uuid.toText

/-- A node identifier with its wrapper, as lists of nodes show it. -/
def NodeId.wrapped (n : NodeId) : String := "NodeId(" ++ n.uuid.toText ++ ")"

def PinId.wrapped (p : PinId) : String := "PinId(" ++ p.uuid.toText ++ ")"

def LinkId.wrapped (l : LinkId) : String := "LinkId(" ++ l.uuid.toText ++ ")"

/-- A list of nodes in square brackets, with their wrappers. -/
def NodeId.listText (ns : List NodeId) : String :=
  "[" ++ ", ".intercalate (ns.map NodeId.wrapped) ++ "]"

/-- An unending sequence of identifiers and the position of the next one. -/
structure Supply where
  /-- The identifier at each position. -/
  draw : Nat → Uuid
  /-- The position of the next identifier. -/
  next : Nat

namespace Supply

def take (s : Supply) : Uuid × Supply :=
  (s.draw s.next, { s with next := s.next + 1 })

def takeNode (s : Supply) : NodeId × Supply :=
  let (u, s) := s.take
  (⟨u⟩, s)

def takePin (s : Supply) : PinId × Supply :=
  let (u, s) := s.take
  (⟨u⟩, s)

def takeLink (s : Supply) : LinkId × Supply :=
  let (u, s) := s.take
  (⟨u⟩, s)

/-- The identifier of the random kind (version 4) that carries the lowest 122 bits of `n`. -/
def randomKind (n : Nat) : Uuid :=
  Uuid.ofNat
    (n / Nat.pow 2 74 % Nat.pow 2 48 * Nat.pow 2 80 + 4 * Nat.pow 2 76 +
      n / Nat.pow 2 62 % Nat.pow 2 12 * Nat.pow 2 64 + 2 * Nat.pow 2 62 + n % Nat.pow 2 62)

/-- Identifiers of the random kind that count upwards from `seed`. -/
def countingFrom (seed : Nat) : Supply :=
  { draw := fun k => randomKind (seed + k), next := 0 }

end Supply

end Patchbay
