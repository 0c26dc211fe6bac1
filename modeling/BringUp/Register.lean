import BringUp.Usart

/-!
The registers of the part that the board support touches.

* `Register`: one constructor for each, the ports and the USARTs with their
  blocks of six.
* `Register.name`, `Register.ofName?`: their names.
* `RegisterFile`: a word for every register.
-/

namespace BringUp

/-- The registers of a port. -/
inductive PortRegister where
  | crl
  | crh
  | idr
  | odr
  | bsrr
  | brr
  deriving DecidableEq, Repr

/-- The registers of a USART. -/
inductive UsartRegister where
  | sr
  | dr
  | brr
  | cr1
  | cr2
  | cr3
  deriving DecidableEq, Repr

/-- A register of the part. -/
inductive Register where
  /-- Clock control: oscillators and the PLL. -/
  | cr
  /-- Clock configuration. -/
  | cfgr
  /-- Clock interrupts. -/
  | cir
  | apb2rstr
  | apb1rstr
  | ahbenr
  | apb2enr
  | apb1enr
  /-- Backup domain control. -/
  | bdcr
  /-- Clock status: the low-speed internal oscillator. -/
  | csr
  /-- Flash access control. -/
  | acr
  /-- Power control. -/
  | pwr
  /-- The address of the vector table. -/
  | vtor
  /-- Interrupt priority grouping and system reset. -/
  | aircr
  | port (port : Port) (register : PortRegister)
  | usart (usart : Usart) (register : UsartRegister)
  deriving DecidableEq, Repr

namespace PortRegister

def name : PortRegister → String
  | .crl => "CRL"
  | .crh => "CRH"
  | .idr => "IDR"
  | .odr => "ODR"
  | .bsrr => "BSRR"
  | .brr => "BRR"

def all : List PortRegister := [.crl, .crh, .idr, .odr, .bsrr, .brr]

/-- The position within the port's block. -/
def number : PortRegister → Fin 6
  | .crl => 0
  | .crh => 1
  | .idr => 2
  | .odr => 3
  | .bsrr => 4
  | .brr => 5

end PortRegister

namespace UsartRegister

def name : UsartRegister → String
  | .sr => "SR"
  | .dr => "DR"
  | .brr => "BRR"
  | .cr1 => "CR1"
  | .cr2 => "CR2"
  | .cr3 => "CR3"

def all : List UsartRegister := [.sr, .dr, .brr, .cr1, .cr2, .cr3]

/-- The position within the USART's block. -/
def number : UsartRegister → Fin 6
  | .sr => 0
  | .dr => 1
  | .brr => 2
  | .cr1 => 3
  | .cr2 => 4
  | .cr3 => 5

end UsartRegister

namespace Register

/-- The registers outside the ports and USARTs, in order of their numbers. -/
def system : List Register :=
  [.cr, .cfgr, .cir, .apb2rstr, .apb1rstr, .ahbenr, .apb2enr, .apb1enr, .bdcr,
    .csr, .acr, .pwr, .vtor, .aircr]

/-- All registers, in order of their numbers. -/
def all : List Register :=
  system ++ (Enumerated.all Port).flatMap (fun p => PortRegister.all.map (.port p)) ++
    (Enumerated.all Usart).flatMap (fun u => UsartRegister.all.map (.usart u))

/-- The position of a register in the file. -/
def number : Register → Nat
  | .cr => 0
  | .cfgr => 1
  | .cir => 2
  | .apb2rstr => 3
  | .apb1rstr => 4
  | .ahbenr => 5
  | .apb2enr => 6
  | .apb1enr => 7
  | .bdcr => 8
  | .csr => 9
  | .acr => 10
  | .pwr => 11
  | .vtor => 12
  | .aircr => 13
  | .port p r => 14 + 6 * p.number + r.number
  | .usart u r => 38 + 6 * u.number + r.number

theorem number_lt (r : Register) : r.number < 56 := by
  cases r with
  | port p r => cases p <;> cases r <;> decide
  | usart u r => cases u <;> cases r <;> decide
  | _ => decide

instance : Enumerated Register where
  size := 56
  index r := ⟨r.number, r.number_lt⟩
  member n := all.get n
  member_index r := by
    cases r with
    | port p r => cases p <;> cases r <;> rfl
    | usart u r => cases u <;> cases r <;> rfl
    | _ => rfl
  index_member := by decide

/-- The register's name. -/
def name : Register → String
  | .cr => "RCC_CR"
  | .cfgr => "RCC_CFGR"
  | .cir => "RCC_CIR"
  | .apb2rstr => "RCC_APB2RSTR"
  | .apb1rstr => "RCC_APB1RSTR"
  | .ahbenr => "RCC_AHBENR"
  | .apb2enr => "RCC_APB2ENR"
  | .apb1enr => "RCC_APB1ENR"
  | .bdcr => "RCC_BDCR"
  | .csr => "RCC_CSR"
  | .acr => "FLASH_ACR"
  | .pwr => "PWR_CR"
  | .vtor => "SCB_VTOR"
  | .aircr => "SCB_AIRCR"
  | .port p r => "GPIO" ++ p.letter ++ "_" ++ r.name
  | .usart u r => u.name ++ "_" ++ r.name

/-- The register of a name. -/
def ofName? (s : String) : Option Register :=
  all.find? (·.name == s)

/-- The enable register of a bus. -/
def enable : Clock.Bus → Register
  | .ahb => .ahbenr
  | .apb1 => .apb1enr
  | .apb2 => .apb2enr

/-- The reset register of a bus; the AHB has no reset lines. -/
def reset? : Clock.Bus → Option Register
  | .ahb => none
  | .apb1 => some .apb1rstr
  | .apb2 => some .apb2rstr

end Register

/-- A word for every register. -/
abbrev RegisterFile := Table Register Word

end BringUp
