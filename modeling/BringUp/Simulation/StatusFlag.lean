import BringUp.Register

/-!
Status flags that follow control bits.

* `StatusFlag`: the flags of the part.
* `StatusFlag.register`, `control`, `distance`: where the control bits are and
  how far above them the status bits.
* `StatusFlag.wanted`, `shown`, `settle`: the status that the control bits ask
  for, the status that a word shows, and the word once they agree.
-/

namespace BringUp

/-- Status flags that follow control bits of the same register. -/
inductive StatusFlag where
  | hsi
  | hse
  | pll
  | lsi
  | lse
  /-- The source that the system clock runs from. -/
  | sysclk
  | prefetch
  deriving DecidableEq, Repr

namespace StatusFlag

instance : Enumerated StatusFlag where
  size := 7
  index
    | .hsi => 0
    | .hse => 1
    | .pll => 2
    | .lsi => 3
    | .lse => 4
    | .sysclk => 5
    | .prefetch => 6
  member
    | 0 => .hsi
    | 1 => .hse
    | 2 => .pll
    | 3 => .lsi
    | 4 => .lse
    | 5 => .sysclk
    | 6 => .prefetch
  member_index f := by cases f <;> rfl
  index_member := by decide

/-- The register that the flag is in. -/
def register : StatusFlag → Register
  | .hsi | .hse | .pll => .cr
  | .lsi => .csr
  | .lse => .bdcr
  | .sysclk => .cfgr
  | .prefetch => .acr

/-- The control bits that the flag follows. -/
def control : StatusFlag → Word
  | .hsi | .lsi | .lse => 0x00000001
  | .hse => 0x00010000
  | .pll => 0x01000000
  | .sysclk => 0x00000003
  | .prefetch => 0x00000010

/-- How far the status bits are above the control bits. -/
def distance : StatusFlag → Nat
  | .sysclk => 2
  | _ => 1

/-- The status bits. -/
def status (f : StatusFlag) : Word :=
  f.control <<< f.distance

/-- The status that the control bits of a word ask for. -/
def wanted (f : StatusFlag) (w : Word) : Word :=
  (w &&& f.control) <<< f.distance

/-- The status that a word shows. -/
def shown (f : StatusFlag) (w : Word) : Word :=
  w &&& f.status

/-- The word once its status agrees with its control bits. -/
def settle (f : StatusFlag) (w : Word) : Word :=
  (w &&& ~~~f.status) ||| f.wanted w

/-- The flags of a register, in the order in which they react. -/
def ofRegister : Register → List StatusFlag
  | .cr => [.hsi, .hse, .pll]
  | .csr => [.lsi]
  | .bdcr => [.lse]
  | .cfgr => [.sysclk]
  | .acr => [.prefetch]
  | _ => []

/-- The status bits of all flags of a register. -/
def statusOf (r : Register) : Word :=
  (ofRegister r).foldl (fun bits f => bits ||| f.status) 0

theorem mem_ofRegister (f : StatusFlag) (r : Register) :
    f ∈ ofRegister r ↔ f.register = r := by
  cases f <;> cases r <;> simp [ofRegister, register]

end StatusFlag

end BringUp
