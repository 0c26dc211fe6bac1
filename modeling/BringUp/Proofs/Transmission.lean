import BringUp.Hardware.Console
import BringUp.Proofs.AtRest
import BringUp.Proofs.Journals

/-!
The console loses and reorders nothing.

* `Console.Sent bytes sent`: what goes out for these bytes, with one carriage
  return in front of each line feed; `Console.unwire` takes them out again.
* `Device.Transmits d usart Ready`: the transmitter empties after some reads of
  its status, again and again.
* `Console.Sends d usart bytes events`: the events are the transmission of these
  bytes, each one right after a read that saw the transmitter empty.
* `Completes d x s events t`: with enough patience the driver `x` comes from `s`
  to `t`, through these events.

Main statement: on any transmitter a text is sent, byte by byte, and nothing else
is written (`Console.write_transmits`). Every simulated part is a transmitter
(`Part.transmits`).

How many reads the transmitter takes is not fixed: it may be another number for
each byte. So the induction over the bytes carries a bound for the waits so far,
and a wait that has seen the transmitter empty is the same under any larger one.
-/

namespace BringUp

open Hardware

/-! ## Polls that accept -/

namespace Device

variable {σ : Type} {d : Device σ} {r : Register} {accept : Word → Bool} {budget more : Nat}
  {s : σ}

/-- A poll that accepted a value does not use a larger budget. -/
theorem poll_of_le (h : (d.poll r accept budget s).1 = true) (hle : budget ≤ more) :
    d.poll r accept more s = d.poll r accept budget s ∧
      d.pollHistory r accept more s = d.pollHistory r accept budget s := by
  induction budget generalizing s more with
  | zero => cases h
  | succ budget ih =>
      obtain ⟨more, rfl⟩ : ∃ n, more = n + 1 := ⟨more - 1, by omega⟩
      simp only [poll, pollHistory] at h ⊢
      split
      · exact ⟨rfl, rfl⟩
      · next hno =>
        rw [if_neg hno] at h
        obtain ⟨hpoll, hevents⟩ := ih h (Nat.le_of_succ_le_succ hle)
        exact ⟨hpoll, by rw [hevents]⟩

/-- Its last read is the one that saw the value. -/
theorem pollHistory_of_accepted (h : (d.poll r accept budget s).1 = true) :
    ∃ waits u, d.pollHistory r accept budget s =
        waits ++ [⟨u, .read r, (d.poll r accept budget s).2⟩] ∧
      (∀ e ∈ waits, e.access = .read r) ∧ accept (d.read r u).1 = true ∧
      (d.poll r accept budget s).2 = (d.read r u).2 := by
  induction budget generalizing s with
  | zero => cases h
  | succ budget ih =>
      simp only [poll, pollHistory] at h ⊢
      by_cases hyes : accept (d.read r s).1 = true
      · refine ⟨[], s, ?_⟩
        simp [hyes]
      · rw [if_neg hyes] at h
        obtain ⟨waits, u, hevents, hwaits, haccept, hend⟩ := ih h
        refine ⟨⟨s, .read r, (d.read r s).2⟩ :: waits, u, ?_, ?_, haccept, ?_⟩
        · simp [hyes, hevents]
        · exact List.forall_mem_cons.mpr ⟨rfl, hwaits⟩
        · simp [hyes, hend]

end Device

/-! ## Runs with enough patience -/

/-- With enough patience, the driver comes from `s` to `t` through these
events. -/
def Completes {σ : Type} (d : Device σ) (x : Driver Unit) (s : σ) (events : List (Event σ))
    (t : σ) : Prop :=
  ∃ bound, ∀ patience, bound ≤ patience →
    x.run (d.handler patience) s = ⟨.ok (), t, []⟩ ∧ x.history d patience s = events

namespace Completes

variable {σ : Type} {d : Device σ} {s t u : σ} {events later : List (Event σ)}

theorem done : Completes d (Proc.done ()) s [] s :=
  ⟨0, fun _ _ => ⟨rfl, rfl⟩⟩

/-- The patience that is enough for both parts is enough for the sequence. -/
theorem bind {x y : Driver Unit} (hx : Completes d x s events t) (hy : Completes d y t later u) :
    Completes d (x >>= fun _ => y) s (events ++ later) u := by
  obtain ⟨bound, hx⟩ := hx
  obtain ⟨bound', hy⟩ := hy
  refine ⟨max bound bound', fun patience hle => ?_⟩
  obtain ⟨hrun, hevents⟩ := hx patience (Nat.le_trans (Nat.le_max_left _ _) hle)
  obtain ⟨hrun', hlater⟩ := hy patience (Nat.le_trans (Nat.le_max_right _ _) hle)
  refine ⟨Proc.run_bind_of_run hrun hrun', ?_⟩
  rw [Proc.history_bind_of_run hrun, hevents, hlater]

/-- A wait for a status that shows after some reads. -/
theorem awaitSet {r : Register} {mask : Word} {reads : Nat}
    (h : (d.poll r (·.has mask) reads s).1 = true) :
    Completes d (Driver.awaitSet r mask) s (d.pollHistory r (·.has mask) reads s)
      (d.poll r (·.has mask) reads s).2 := by
  refine ⟨reads, fun patience hle => ?_⟩
  obtain ⟨hpoll, hevents⟩ := Device.poll_of_le h hle
  have hrespond : (d.handler patience).respond (.await r (·.has mask)) s =
      (.ok (), (d.poll r (·.has mask) reads s).2) := by
    simp only [Device.handler, hpoll]
    split
    · next t ht => rw [ht]
    · next t ht => simp [ht] at h
  refine ⟨?_, ?_⟩
  · simp only [Driver.awaitSet, Proc.request, Proc.run, hrespond]
  · simp only [Driver.awaitSet, Proc.request, Proc.history, hrespond, List.append_nil]
    exact hevents

theorem write (r : Register) (v : Word) :
    Completes d (Driver.write r v) s [⟨s, .write r v, d.write r v s⟩] (d.write r v s) :=
  ⟨0, fun _ _ => ⟨rfl, rfl⟩⟩

end Completes

/-! ## Transmitters -/

/-- From a ready state, the transmitter empties after some reads of its status,
and whatever byte is then written, the state is ready again. -/
def Device.Transmits {σ : Type} (d : Device σ) (usart : Usart) (Ready : σ → Prop) : Prop :=
  ∀ s, Ready s → ∃ reads,
    (d.poll (.usart usart .sr) (·.has Console.transmitEmpty) reads s).1 = true ∧
    ∀ byte : Byte, Ready (d.write (.usart usart .dr) (byte.setWidth 32)
      (d.poll (.usart usart .sr) (·.has Console.transmitEmpty) reads s).2)

namespace Hardware.Console

/-! ## Bytes on the wire -/

/-- What goes out for these bytes: one carriage return in front of each line
feed, and else the bytes as they are. -/
inductive Sent : List Byte → List Byte → Prop
  | nil : Sent [] []
  | lineFeed {bytes sent : List Byte} : Sent bytes sent →
      Sent (0x0A :: bytes) (0x0D :: 0x0A :: sent)
  | byte {b : Byte} {bytes sent : List Byte} : b ≠ 0x0A → Sent bytes sent →
      Sent (b :: bytes) (b :: sent)

/-- The bytes without the carriage returns that are directly in front of a line
feed. -/
def unwire : List Byte → List Byte
  | [] => []
  | b :: rest => if b = 0x0D ∧ rest.head? = some 0x0A then unwire rest else b :: unwire rest

theorem wire_lineFeed (bytes : List Byte) : wire (0x0A :: bytes) = 0x0D :: 0x0A :: wire bytes :=
  rfl

theorem wire_cons_of_ne {b : Byte} (hb : b ≠ 0x0A) (bytes : List Byte) :
    wire (b :: bytes) = b :: wire bytes := by
  rw [wire, List.flatMap_cons, if_neg hb]
  rfl

theorem unwire_lineFeed (rest : List Byte) :
    unwire (0x0D :: 0x0A :: rest) = 0x0A :: unwire rest :=
  rfl

theorem unwire_cons_of_ne {rest : List Byte} (h : rest.head? ≠ some 0x0A) (b : Byte) :
    unwire (b :: rest) = b :: unwire rest :=
  if_neg fun hb => h hb.2

theorem sent_wire (bytes : List Byte) : Sent bytes (wire bytes) := by
  induction bytes with
  | nil => exact .nil
  | cons b bytes ih =>
      by_cases hb : b = 0x0A
      · subst hb
        exact .lineFeed ih
      · rw [wire_cons_of_ne hb]
        exact .byte hb ih

/-- What goes out never starts with a line feed. -/
theorem Sent.head_ne {bytes sent : List Byte} (h : Sent bytes sent) : sent.head? ≠ some 0x0A := by
  cases h with
  | nil => simp
  | lineFeed _ => simp
  | byte hb _ => simpa using hb

/-- Without the carriage returns that were put in, the bytes are there again,
also those of a text that has carriage returns of its own. -/
theorem Sent.unwire_eq {bytes sent : List Byte} (h : Sent bytes sent) : unwire sent = bytes := by
  induction h with
  | nil => rfl
  | lineFeed _ ih => rw [unwire_lineFeed, ih]
  | byte _ hsent ih => rw [unwire_cons_of_ne hsent.head_ne, ih]

/-- There is one way to send bytes. -/
theorem Sent.eq_wire {bytes sent : List Byte} (h : Sent bytes sent) : sent = wire bytes := by
  induction h with
  | nil => rfl
  | lineFeed _ ih => rw [wire_lineFeed, ih]
  | byte hb _ ih => rw [wire_cons_of_ne hb, ih]

/-! ## Texts -/

theorem toList_loop (bytes : ByteArray) (i : Nat) (front : List UInt8) :
    ByteArray.toList.loop bytes i front = front.reverse ++ bytes.data.toList.drop i := by
  fun_induction ByteArray.toList.loop bytes i front with
  | case1 i front hlt ih =>
      have hindex : i < bytes.data.toList.length := by simpa using hlt
      rw [ih, List.drop_eq_getElem_cons hindex]
      simp [ByteArray.get!, hlt]
  | case2 i front hge =>
      rw [List.drop_eq_nil_of_le (by simpa using hge), List.append_nil]

/-- The bytes of a text made of two parts are those of the parts. -/
theorem utf8_append (a b : String) : utf8 (a ++ b) = utf8 a ++ utf8 b := by
  have hlist : ∀ bytes : ByteArray, bytes.toList = bytes.data.toList := fun bytes => by
    simp [ByteArray.toList, toList_loop]
  simp [utf8, hlist]

/-- To send two texts is to send them as one. -/
theorem write_append (usart : Usart) (a b : String) :
    write usart (a ++ b) = write usart a >>= fun _ => write usart b := by
  rw [write, utf8_append, wire_append]
  exact List.forM_append

/-! ## Bytes over time -/

/-- The events are the transmission of these bytes: for each byte some reads of
the status, the last of which saw the transmitter empty, and then the write of
the byte. -/
inductive Sends {σ : Type} (d : Device σ) (usart : Usart) : List Byte → List (Event σ) → Prop
  | nil : Sends d usart [] []
  | cons {byte : Byte} {bytes : List Byte} {waits events : List (Event σ)} {u v w : σ} :
      (∀ e ∈ waits, e.access = .read (.usart usart .sr)) →
      (d.read (.usart usart .sr) u).1.has transmitEmpty = true →
      Sends d usart bytes events →
      Sends d usart (byte :: bytes) (waits ++ [⟨u, .read (.usart usart .sr), v⟩] ++
        (⟨v, .write (.usart usart .dr) (byte.setWidth 32), w⟩ :: events))

variable {σ : Type} {d : Device σ} {usart : Usart} {Ready : σ → Prop} {s : σ}

/-- The writes of a transmission are its bytes. -/
theorem Sends.journal_eq {bytes : List Byte} {events : List (Event σ)}
    (h : Sends d usart bytes events) :
    journal events = bytes.map fun byte => (.usart usart .dr, byte.setWidth 32) := by
  induction h with
  | nil => rfl
  | @cons byte bytes waits events u v w hwaits _ _ ih =>
      have hsilent : journal waits = [] := by
        refine List.filterMap_eq_nil_iff.mpr fun e he => ?_
        rw [hwaits e he]
        rfl
      have hread : journal [(⟨u, .read (.usart usart .sr), v⟩ : Event σ)] = [] := rfl
      have hwrite : journal ((⟨v, .write (.usart usart .dr) (byte.setWidth 32), w⟩ : Event σ) ::
          events) = (.usart usart .dr, byte.setWidth 32) :: journal events := rfl
      rw [journal_append, journal_append, hsilent, hread, hwrite, ih]
      rfl

/-- Bytes are sent one by one, and the transmitter is ready for the next one. -/
theorem forM_put (hd : d.Transmits usart Ready) (bytes : List Byte) (hs : Ready s) :
    ∃ events t, Completes d (bytes.forM (put usart)) s events t ∧ Sends d usart bytes events ∧
      Ready t := by
  induction bytes generalizing s with
  | nil => exact ⟨[], s, .done, .nil, hs⟩
  | cons byte bytes ih =>
      obtain ⟨reads, hempty, hready⟩ := hd s hs
      obtain ⟨events, t, hrest, hsends, ht⟩ := ih (hready byte)
      obtain ⟨waits, u, hhistory, hwaits, hseen, -⟩ := Device.pollHistory_of_accepted hempty
      have hput := (Completes.awaitSet hempty).bind
        (Completes.write (.usart usart .dr) (byte.setWidth 32))
      refine ⟨_, t, hput.bind hrest, ?_, ht⟩
      rw [hhistory, List.append_assoc _ [_], List.singleton_append]
      exact .cons hwaits hseen hsends

end Hardware.Console

/-! ## Simulated transmitters -/

namespace Part

open Console (transmitEmpty)

variable {t : Temper} {u : Usart} {p : Part}

/-- The transmitter is empty, or a byte is on its way out. -/
def CanSend (u : Usart) (p : Part) : Prop :=
  (p.peek (.usart u .sr)).has transmitEmpty = true ∨ 0 < p.sending.get u

/-- A read leaves the flag where it shows, and raises it if it is the last one
that the byte takes. -/
theorem transmitEmpty_tick :
    ((p.tick (.usart u .sr)).peek (.usart u .sr)).has transmitEmpty = true ↔
      (p.peek (.usart u .sr)).has transmitEmpty = true ∨ p.sending.get u = 1 := by
  show ((p.countDownSending u).peek (.usart u .sr)).has transmitEmpty = true ↔ _
  unfold countDownSending
  split
  · next hsending => simp [hsending]
  · next hsending =>
    simp only [hsending, or_true, iff_true, peek, Table.get_set_self]
    exact Word.has_or_of_subset _ (by decide) (by decide)
  · next n hsending => simp [hsending, peek]

/-- While a byte is on its way out, each read brings the flag closer. -/
theorem canSend_tick (h : p.CanSend u) : (p.tick (.usart u .sr)).CanSend u := by
  obtain hempty | hsending := h
  · exact .inl (transmitEmpty_tick.mpr (.inl hempty))
  · by_cases hlast : p.sending.get u = 1
    · exact .inl (transmitEmpty_tick.mpr (.inr hlast))
    · right
      rw [sending_tick_self]
      omega

/-- A byte that is written to an empty transmitter is on its way out, or has
left at once. -/
theorem canSend_write (h : (p.peek (.usart u .sr)).has transmitEmpty = true) (v : Word) :
    (p.write t (.usart u .dr) v).CanSend u := by
  have hsr : Register.usart u .sr ≠ .usart u .dr := by simp
  show (startSending t (p.poke (.usart u .dr) (stored t _ (p.peek _) v)) u).CanSend u
  unfold startSending
  split
  · left
    rw [peek_poke_of_ne p hsr]
    exact h
  · next hdelay =>
    right
    simpa using Nat.pos_of_ne_zero hdelay

/-- As many reads as the byte takes are enough, and one that sees the flag. -/
theorem poll_of_canSend (h : p.CanSend u) :
    ((simulated t).poll (.usart u .sr) (·.has transmitEmpty) (p.sending.get u + 1) p).1 = true := by
  induction hn : p.sending.get u generalizing p with
  | zero =>
      have hempty : (p.peek (.usart u .sr)).has transmitEmpty = true :=
        h.resolve_right (by omega)
      exact congrArg Prod.fst (if_pos hempty)
  | succ n ih =>
      have hcount := p.sending_tick_self u
      rw [hn, Nat.add_sub_cancel] at hcount
      rw [Device.poll]
      split
      next value q hread =>
      split
      · rfl
      · obtain rfl : p.tick (.usart u .sr) = q := congrArg Prod.snd hread
        exact ih (canSend_tick h) hcount

/-- Every simulated part is a transmitter. -/
theorem transmits (t : Temper) (u : Usart) : (simulated t).Transmits u (CanSend u) := by
  intro p hp
  have hempty := poll_of_canSend (t := t) hp
  refine ⟨_, hempty, fun byte => ?_⟩
  obtain ⟨_, q, -, -, hseen, hend⟩ := Device.pollHistory_of_accepted hempty
  rw [hend]
  exact canSend_write (transmitEmpty_tick.mpr (.inl hseen)) _

end Part

/-! ## The console -/

/-- The console loses and reorders nothing.

On any transmitter that is ready, the write of a text comes to its end, given
enough patience. What is sent are the bytes of the text, with one carriage return
in front of each line feed: each is written right after a read that saw the
transmitter empty, and nothing else is written. Without these carriage returns
the bytes of the text are there again. And to write two texts is to write them as
one. -/
theorem Hardware.Console.write_transmits {σ : Type} {d : Device σ} {usart : Usart}
    {Ready : σ → Prop} (hd : d.Transmits usart Ready) (text : String) {s : σ} (hs : Ready s) :
    (∃ t events sent,
      Completes d (Console.write usart text) s events t ∧ Ready t ∧
      Sent (utf8 text) sent ∧ Sends d usart sent events ∧
      journal events = sent.map (fun byte => (.usart usart .dr, byte.setWidth 32)) ∧
      unwire sent = utf8 text) ∧
    ∀ a b : String, Console.write usart (a ++ b) =
      Console.write usart a >>= fun _ => Console.write usart b := by
  obtain ⟨events, t, hrun, hsends, ht⟩ := forM_put hd (wire (utf8 text)) hs
  have hsent := sent_wire (utf8 text)
  refine ⟨⟨t, events, _, hrun, ht, hsent, hsends, hsends.journal_eq, hsent.unwire_eq⟩, ?_⟩
  exact write_append usart

/-- A part that takes three reads for each byte. -/
def Temper.slowSender : Temper :=
  { Temper.prompt with transmitDelay := 3 }

/-- A text with a carriage return of its own goes out with one more. -/
theorem Hardware.Console.write_transmits_slowSender :
    (simulated Temper.slowSender).Transmits .usart1 (Part.CanSend .usart1) ∧
    (Part.powerOn fun _ => 0).CanSend .usart1 ∧
    ∃ t events,
      Completes (simulated Temper.slowSender) (Console.write .usart1 "a\r\n")
        (Part.powerOn fun _ => 0) events t ∧
      journal events = [(.usart .usart1 .dr, 0x61), (.usart .usart1 .dr, 0x0D),
        (.usart .usart1 .dr, 0x0D), (.usart .usart1 .dr, 0x0A)] := by
  have hslow := Part.transmits Temper.slowSender .usart1
  have hready : (Part.powerOn fun _ => 0).CanSend .usart1 := .inl (by decide +kernel)
  obtain ⟨⟨t, events, sent, hrun, -, hsent, -, hjournal, -⟩, -⟩ :=
    write_transmits hslow "a\r\n" hready
  have hbytes : utf8 "a\r\n" = [0x61, 0x0D, 0x0A] := by decide +kernel
  rw [hsent.eq_wire, hbytes] at hjournal
  exact ⟨hslow, hready, t, events, hrun, hjournal⟩

end BringUp
