import BringUp.Proofs.Pll

/-!
Plans in register words, and register words as plans.

* `Plan.EncodedIn`: the fields of a pair of register words hold the codes of a
  plan.
* `AhbDivider.ofCode`, `ApbDivider.ofCode`, `AdcDivider.ofCode`,
  `RtcSource.ofCode`: the setting that a code stands for, for every code.
* `Plan.ofRegisters`: a plan for any pair of words.

Main statement: reading the rates back from the words undoes encoding a plan,
and there is a plan for every pair of words (`evaluate_ofRegisters_encoded`).

Several codes stand for one setting: all codes of a bus divider below its first
proper one, the unused code of the source, and the largest code of the
multiplier. So words are not determined by a plan that has their rates, but
their clock chain is.
-/

namespace BringUp.Clock

/-! ## From a plan to words -/

/-- The fields of the two words hold the codes of the plan. The PLL's fields
only count while the system clock runs from the PLL. -/
structure Plan.EncodedIn (p : Plan) (cfgr bdcr : Word) : Prop where
  sysclk : Cfgr.sws.get cfgr = p.buses.sysclk.code
  ahb : Cfgr.hpre.get cfgr = p.buses.ahb.code
  apb1 : Cfgr.ppre1.get cfgr = p.buses.apb1.code
  apb2 : Cfgr.ppre2.get cfgr = p.buses.apb2.code
  adc : Cfgr.adcpre.get cfgr = p.peripherals.adc.code
  rtc : Bdcr.rtcSource.get bdcr = p.peripherals.rtc.code
  pll : p.buses.sysclk = .pll → ∀ s, p.oscillators.pll = some s →
    s.encode p.oscillators.hseDivider = .ok (cfgr &&& Cfgr.pll)

/-- A multiplier in range has a code. -/
theorem PllSetting.encode_eq_ok {s : PllSetting} (hs : s.inRange = true)
    (divider : HseDivider) : s.encode divider = .ok (s.code divider) := by
  rw [encode, Checked.sub_of_le (s.inRange_iff.mp hs).1]
  rfl

theorem AdcDivider.divisor_eq (d : AdcDivider) : 2 * (d.code.toNat + 1) = d.divisor := by
  cases d <;> rfl

theorem RtcSource.rtcHz_eq {bdcr : Word} {s : RtcSource}
    (h : Bdcr.rtcSource.get bdcr = s.code) : Bdcr.rtcHz bdcr = s.hz := by
  unfold Bdcr.rtcHz
  rw [h]
  cases s <;> rfl

/-- The source that the words run from is the planned one, with the planned
factor. -/
theorem Plan.EncodedIn.source_eq {p : Plan} {cfgr bdcr : Word} (h : p.EncodedIn cfgr bdcr)
    (hpll : p.buses.sysclk ≠ .pll ∨ ∃ s, p.oscillators.pll = some s ∧ s.inRange = true) :
    Cfgr.source cfgr = p.source := by
  have hrunning : SysclkSource.ofCode (Cfgr.sws.get cfgr) = p.buses.sysclk := by
    rw [h.sysclk, SysclkSource.ofCode_code]
  unfold Cfgr.source Plan.source
  rw [hrunning]
  cases hsource : p.buses.sysclk with
  | hsi => rfl
  | hse => rfl
  | pll =>
      obtain ⟨s, hs, hrange⟩ := hpll.resolve_left (not_not_intro hsource)
      have hcode : cfgr &&& Cfgr.pll = s.code p.oscillators.hseDivider := by
        have hencoded := h.pll hsource s hs
        rw [PllSetting.encode_eq_ok hrange] at hencoded
        injection hencoded with heq
        exact heq.symm
      simp only [hs, Cfgr.pllInputHz_of_code hcode, Cfgr.pllFactor_of_code hcode hrange]

/-- Words that hold the codes of a plan set up the plan's clock chain. -/
theorem Plan.EncodedIn.chain_eq {p : Plan} {cfgr bdcr : Word} (h : p.EncodedIn cfgr bdcr)
    (hpll : p.buses.sysclk ≠ .pll ∨ ∃ s, p.oscillators.pll = some s ∧ s.inRange = true) :
    Chain.ofRegisters cfgr bdcr = p.chain := by
  unfold Chain.ofRegisters Plan.chain
  rw [h.source_eq hpll, h.ahb, h.apb1, h.apb2, h.adc, ahbDivisor_code, apbDivisor_code,
    apbDivisor_code, AdcDivider.divisor_eq, RtcSource.rtcHz_eq h.rtc]

/-! ## From words to a plan -/

/-- The divider that a code stands for. -/
def AhbDivider.ofCode (code : Word) : AhbDivider :=
  match code.toNat with
  | 8 => .div2
  | 9 => .div4
  | 10 => .div8
  | 11 => .div16
  | 12 => .div64
  | 13 => .div128
  | 14 => .div256
  | 15 => .div512
  | _ => .div1

/-- The divider that a code stands for. -/
def ApbDivider.ofCode (code : Word) : ApbDivider :=
  match code.toNat with
  | 4 => .div2
  | 5 => .div4
  | 6 => .div8
  | 7 => .div16
  | _ => .div1

/-- The divider that a code stands for. -/
def AdcDivider.ofCode (code : Word) : AdcDivider :=
  match code.toNat with
  | 0 => .div2
  | 1 => .div4
  | 2 => .div6
  | _ => .div8

/-- The source that a code stands for. -/
def RtcSource.ofCode (code : Word) : RtcSource :=
  match code.toNat with
  | 1 => .lse
  | 2 => .lsi
  | 3 => .hseDiv128
  | _ => .none

theorem AhbDivider.divisor_ofCode (code : Word) :
    (ofCode code).divisor = ahbDivisor code := by
  unfold ofCode ahbDivisor
  split <;> simp only [divisor, *]

theorem ApbDivider.divisor_ofCode (code : Word) :
    (ofCode code).divisor = apbDivisor code := by
  unfold ofCode apbDivisor
  split <;> simp only [divisor, *]

/-- A field of two bits holds one of four codes. -/
theorem Cfgr.adcpre_get_le (cfgr : Word) : (adcpre.get cfgr).toNat ≤ 3 :=
  adcpre.toNat_get_le cfgr

theorem AdcDivider.divisor_ofCode {code : Word} (h : code.toNat ≤ 3) :
    (ofCode code).divisor = 2 * (code.toNat + 1) := by
  unfold ofCode
  split
  · next hcode => rw [hcode]; rfl
  · next hcode => rw [hcode]; rfl
  · next hcode => rw [hcode]; rfl
  · next h0 h1 h2 =>
    have hcode : code.toNat = 3 := by
      have h0 : code.toNat ≠ 0 := h0
      have h1 : code.toNat ≠ 1 := h1
      have h2 : code.toNat ≠ 2 := h2
      omega
    rw [hcode]
    rfl

theorem RtcSource.hz_ofCode (bdcr : Word) :
    (ofCode (Bdcr.rtcSource.get bdcr)).hz = Bdcr.rtcHz bdcr := by
  unfold ofCode Bdcr.rtcHz
  split <;> simp only [hz, *]

/-- The setting of the PLL in a configuration word. -/
def Cfgr.pllSetting (cfgr : Word) : PllSetting where
  source := pllInput cfgr
  multiplier := BitVec.ofNat 8 (pllFactor cfgr)

/-- The divider in front of the PLL in a configuration word. -/
def Cfgr.hseDivider (cfgr : Word) : HseDivider :=
  if cfgr.has pllHalved then .div2 else .div1

/-- A plan with the rates of two register words. What the words do not
determine is as on the board. -/
def Plan.ofRegisters (cfgr bdcr : Word) : Plan where
  oscillators := { Plan.board.oscillators with
    hseDivider := Cfgr.hseDivider cfgr
    pll := some (Cfgr.pllSetting cfgr) }
  buses := { Plan.board.buses with
    sysclk := Cfgr.running cfgr
    ahb := .ofCode (Cfgr.hpre.get cfgr)
    apb1 := .ofCode (Cfgr.ppre1.get cfgr)
    apb2 := .ofCode (Cfgr.ppre2.get cfgr) }
  peripherals := { Plan.board.peripherals with
    rtc := .ofCode (Bdcr.rtcSource.get bdcr)
    adc := .ofCode (Cfgr.adcpre.get cfgr) }

theorem Cfgr.pllSetting_multiplier (cfgr : Word) :
    (pllSetting cfgr).multiplier.toNat = pllFactor cfgr := by
  have hle : pllFactor cfgr ≤ 16 := Nat.min_le_right _ _
  show (BitVec.ofNat 8 (pllFactor cfgr)).toNat = _
  rw [BitVec.toNat_ofNat, Nat.mod_eq_of_lt (by omega)]

/-- Whatever the word, the multiplier is one that the PLL has. -/
theorem Cfgr.pllSetting_inRange (cfgr : Word) : (pllSetting cfgr).inRange = true := by
  rw [PllSetting.inRange_iff, pllSetting_multiplier]
  unfold pllFactor
  omega

theorem Cfgr.pllSetting_hz (cfgr : Word) :
    (pllSetting cfgr).source.hz (hseDivider cfgr) = pllInputHz cfgr := by
  unfold pllSetting pllInput hseDivider pllInputHz
  cases cfgr.has pllSource <;> cases cfgr.has pllHalved <;> rfl

/-- The plan of two words runs from the source that the words run from. -/
theorem Plan.source_ofRegisters (cfgr bdcr : Word) :
    (ofRegisters cfgr bdcr).source = Cfgr.source cfgr := by
  have hrunning : (ofRegisters cfgr bdcr).buses.sysclk =
      SysclkSource.ofCode (Cfgr.sws.get cfgr) := rfl
  unfold source Cfgr.source
  rw [hrunning]
  cases SysclkSource.ofCode (Cfgr.sws.get cfgr) with
  | hsi => rfl
  | hse => rfl
  | pll =>
      show ((Cfgr.pllSetting cfgr).source.hz (Cfgr.hseDivider cfgr),
        (Cfgr.pllSetting cfgr).multiplier.toNat) = _
      rw [Cfgr.pllSetting_hz, Cfgr.pllSetting_multiplier]

/-- The plan of two words has their clock chain. -/
theorem Plan.chain_ofRegisters (cfgr bdcr : Word) :
    (ofRegisters cfgr bdcr).chain = Chain.ofRegisters cfgr bdcr := by
  unfold chain Chain.ofRegisters
  rw [source_ofRegisters]
  simp only [ofRegisters, AhbDivider.divisor_ofCode, ApbDivider.divisor_ofCode,
    AdcDivider.divisor_ofCode (Cfgr.adcpre_get_le cfgr), RtcSource.hz_ofCode]

/-! ## Both ways -/

/-- Decoding undoes encoding. Take any plan that does not run from the PLL, or
sets the PLL with a multiplier that it has, and any two words whose fields hold
the plan's codes, with all other bits arbitrary: the rates read from the words
are those of the plan. And for any two words there is a plan, with a multiplier
that the PLL has, whose rates are those read from the words. No computation of
rates faults. -/
theorem evaluate_ofRegisters_encoded :
    (∀ (p : Plan) (cfgr bdcr : Word),
      (p.buses.sysclk ≠ .pll ∨ ∃ s, p.oscillators.pll = some s ∧
        2 ≤ s.multiplier.toNat ∧ s.multiplier.toNat ≤ 16) →
      p.EncodedIn cfgr bdcr →
      ∃ rates, p.chain.evaluate = .ok rates ∧
        (Chain.ofRegisters cfgr bdcr).evaluate = .ok rates) ∧
    (∀ cfgr bdcr : Word, ∃ (p : Plan) (rates : Rates),
      (∃ s, p.oscillators.pll = some s ∧
        2 ≤ s.multiplier.toNat ∧ s.multiplier.toNat ≤ 16) ∧
      p.chain.evaluate = .ok rates ∧
      (Chain.ofRegisters cfgr bdcr).evaluate = .ok rates) := by
  constructor
  · intro p cfgr bdcr hpll h
    have hrange : p.buses.sysclk ≠ .pll ∨
        ∃ s, p.oscillators.pll = some s ∧ s.inRange = true := by
      refine hpll.imp_right ?_
      rintro ⟨s, hs, hmultiplier⟩
      exact ⟨s, hs, s.inRange_iff.mpr hmultiplier⟩
    refine ⟨p.rates, p.evaluate_eq_ok, ?_⟩
    rw [h.chain_eq hrange, p.evaluate_eq_ok]
  · intro cfgr bdcr
    have hchain := Plan.chain_ofRegisters cfgr bdcr
    refine ⟨.ofRegisters cfgr bdcr, Plan.rates (.ofRegisters cfgr bdcr),
      ⟨Cfgr.pllSetting cfgr, rfl, ?_⟩, Plan.evaluate_eq_ok _, ?_⟩
    · exact (Cfgr.pllSetting cfgr).inRange_iff.mp (Cfgr.pllSetting_inRange cfgr)
    · rw [← hchain, Plan.evaluate_eq_ok]

/-- The board's plan in words whose other bits are all set. -/
theorem evaluate_ofRegisters_board :
    Plan.board.EncodedIn 0xFFDD840B 0xFFFFFDFF ∧
    ∃ rates, Plan.board.chain.evaluate = .ok rates ∧
      (Chain.ofRegisters 0xFFDD840B 0xFFFFFDFF).evaluate = .ok rates := by
  have hencoded : Plan.board.EncodedIn 0xFFDD840B 0xFFFFFDFF := by
    refine ⟨by decide, by decide, by decide, by decide, by decide, by decide, ?_⟩
    rintro - s ⟨⟩
    rfl
  exact ⟨hencoded, evaluate_ofRegisters_encoded.1 .board _ _
    (.inr ⟨⟨.hse, 9⟩, rfl, by decide, by decide⟩) hencoded⟩

end BringUp.Clock
