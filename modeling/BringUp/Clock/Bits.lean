import BringUp.Word

/-!
The bits and fields of the clock control registers.

* `Cr`: oscillators and the PLL. * `Cfgr`: the clock configuration.
* `Bdcr`: the backup domain. * `Csr`: the low-speed internal oscillator.
-/

namespace BringUp.Clock

namespace Cr

def hsiOn : Word := 0x00000001
def hsiReady : Word := 0x00000002
def hseOn : Word := 0x00010000
def hseReady : Word := 0x00020000
def hseBypass : Word := 0x00040000
def securityOn : Word := 0x00080000
def pllOn : Word := 0x01000000
def pllReady : Word := 0x02000000

/-- All bits of the register that have a name here. -/
def named : Word :=
  hsiOn ||| hsiReady ||| hseOn ||| hseReady ||| hseBypass ||| securityOn |||
    pllOn ||| pllReady

end Cr

namespace Cfgr

/-- The requested source of the system clock. -/
def sw : Field := { mask := 0x00000003, shift := 0 }

/-- The source that the system clock runs from. -/
def sws : Field := { mask := 0x0000000C, shift := 2 }

/-- The divider of the core clock. -/
def hpre : Field := { mask := 0x000000F0, shift := 4 }

/-- The divider of the first peripheral bus. -/
def ppre1 : Field := { mask := 0x00000700, shift := 8 }

/-- The divider of the second peripheral bus. -/
def ppre2 : Field := { mask := 0x00003800, shift := 11 }

/-- The divider of the converter's clock. -/
def adcpre : Field := { mask := 0x0000C000, shift := 14 }

/-- The PLL is fed by the external oscillator. -/
def pllSource : Word := 0x00010000

/-- The external oscillator is halved in front of the PLL. -/
def pllHalved : Word := 0x00020000

/-- The multiplier of the PLL, less 2. -/
def pllMultiplier : Field := { mask := 0x003C0000, shift := 18 }

/-- Everything that sets the PLL. -/
def pll : Word :=
  pllSource ||| pllHalved ||| pllMultiplier.mask

end Cfgr

namespace Bdcr

def lseOn : Word := 0x00000001
def lseReady : Word := 0x00000002
def lseBypass : Word := 0x00000004
def rtcOn : Word := 0x00008000
def domainReset : Word := 0x00010000

/-- The source of the real-time clock. -/
def rtcSource : Field := { mask := 0x00000300, shift := 8 }

/-- The bits that decide how the crystal is operated. -/
def lseMode : Word :=
  lseOn ||| lseBypass

/-- All single bits of the register that have a name here. -/
def named : Word :=
  lseOn ||| lseReady ||| lseBypass ||| rtcOn ||| domainReset

end Bdcr

namespace Csr

def lsiOn : Word := 0x00000001
def lsiReady : Word := 0x00000002

/-- All bits of the register that have a name here. -/
def named : Word :=
  lsiOn ||| lsiReady

end Csr

end BringUp.Clock
