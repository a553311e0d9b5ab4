import IsolatedSolving.Failure.Error

/-! Named segments of memory.

A segment is a block of bytes of fixed size under a name. Whoever creates it owns the name and gives
it back on release; everyone who has it mapped keeps the block, whatever becomes of the name. A
creation that fails leaves the names as they were. The system keeps names without the slashes in front
of them, so names that differ only there are the same name. -/
namespace IsolatedSolving.Segment

/-- What the system keeps for a name. It is given the name behind a slash, and leaves out all slashes in
front. -/
@[irreducible] def key (name : String) : String := String.ofList (('/' :: name.toList).dropWhile (· == '/'))

/-- The names in use, as the system keeps them, with the numbers of their blocks, and the blocks. The
system takes names shorter than the first limit, and maps blocks smaller than the second one. -/
structure Store where
  names : List (String × Nat)
  blocks : List (List UInt8)
  nameLimit : Nat
  limit : Nat
deriving DecidableEq, Repr

/-- A block in use, with the name it was found under. -/
structure Mapping where
  name : String
  block : Nat
  owner : Bool
deriving DecidableEq, Repr

namespace Store

/-- A store without segments. Names have at most 253 bytes in it. -/
def empty (limit : Nat) : Store := ⟨[], [], 254, limit⟩

/-- The block under a name. -/
def find? (s : Store) (name : String) : Option Nat := s.names.lookup (key name)

/-- Whether a name is in use. -/
def holds (s : Store) (name : String) : Bool := (s.find? name).isSome

/-- The bytes of a block. -/
def bytes (s : Store) (m : Mapping) : List UInt8 := s.blocks.getD m.block []

/-- The store with the bytes of a block replaced. -/
def write (s : Store) (m : Mapping) (bytes : List UInt8) : Store :=
  { s with blocks := s.blocks.set m.block bytes }

/-- Whether the system takes a name: what it would keep is a single path component, neither empty nor
too long. -/
def takes (s : Store) (name : String) : Bool :=
  key name != "" && !(key name).toList.contains '/' && !name.toList.contains '\x00' &&
    decide ((key name).utf8ByteSize < s.nameLimit)

/-- The failure of an operation on a name, for a reason of the system. -/
def refused (operation name : String) (number : Int) : SegmentError :=
  .system operation name (.system number)

/-- The store with one more block under a name. -/
def add (s : Store) (name : String) (bytes : List UInt8) : Store :=
  { s with names := s.names ++ [(key name, s.blocks.length)], blocks := s.blocks ++ [bytes] }

/-- Creates a segment of zeros under a name that is free. -/
def create (s : Store) (name : String) (size : Nat) : Except SegmentError Mapping × Store :=
  if size = 0 then (.error (.empty name), s)
  else if !s.takes name then (.error (refused "create" name SystemError.invalidArgument), s)
  else if s.holds name then (.error (.alreadyExists name), s)
  else if 1 <<< 63 ≤ size then
    (.error (.system "resize" name (.other "out of range integral type conversion attempted")), s)
  else if s.limit ≤ size then (.error (refused "mmap" name SystemError.cannotAllocate), s)
  else
    (.ok ⟨name, s.blocks.length, true⟩, s.add name (List.replicate size 0))

/-- Maps the segment under a name. There is nothing to map in an empty one. -/
def openNamed (s : Store) (name : String) : Except SegmentError Mapping :=
  if !s.takes name then .error (refused "open" name SystemError.invalidArgument)
  else
    match s.find? name with
    | none => .error (.notFound name)
    | some block =>
      if (s.blocks.getD block []).isEmpty then .error (.empty name) else .ok ⟨name, block, false⟩

/-- Gives up a mapping. The owner takes the name away. -/
def release (s : Store) (m : Mapping) : Store :=
  if m.owner then { s with names := s.names.filter fun (other, _) => other != key m.name } else s

end Store

end IsolatedSolving.Segment
