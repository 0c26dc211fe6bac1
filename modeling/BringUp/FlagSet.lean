import BringUp.Word

/-!
Bytes of flags.

A `FlagSet ι` is a byte in which some bits stand for members of `ι`. The
other bits are kept but name nothing.
-/

namespace BringUp

/-- Each member of `ι` has a bit of its own in a byte. -/
class Flag (ι : Type) where
  position : ι → Fin 8

/-- A byte that names members of `ι` by their bits. -/
structure FlagSet (ι : Type) where
  bits : Byte
  deriving DecidableEq, Repr

namespace FlagSet

variable {ι : Type} [Flag ι]

/-- The set names `i`. -/
def names (s : FlagSet ι) (i : ι) : Bool :=
  s.bits.getLsbD (Flag.position i)

/-- The set that names exactly the listed members. -/
def ofList (members : List ι) : FlagSet ι :=
  ⟨members.foldl (fun bits i => bits ||| BitVec.twoPow 8 (Flag.position i)) 0⟩

end FlagSet

end BringUp
