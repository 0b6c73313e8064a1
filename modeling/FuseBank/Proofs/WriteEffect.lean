import FuseBank.Device
import FuseBank.Proofs.MacroRuns
import FuseBank.Proofs.WordWriteTraffic

/-!
What a word write does to the emulated macro. The loop over the missing bits leaves the row with all
of them set but the stuck ones, whatever the macro held before; from it come the whole macro after a
row, after a word, and after a write on the device (`write_effect`).
-/

namespace FuseBank
open Routine Operation

def maskOf (bits : List Nat) : Word := bits.foldr (fun bit w => 1#32 <<< (bit % 32) ||| w) 0

theorem getLsbD_bit {bit : Nat} (below : bit < 32) (i : Nat) :
    (1#32 <<< bit).getLsbD i = decide (i = bit) := by
  by_cases same : i = bit
  · simp [same, below]
  · rw [BitVec.getLsbD_shiftLeft, decide_eq_false same]
    by_cases lower : i < bit
    · simp [lower]
    · have positive : i - bit ≠ 0 := by omega
      simp [positive]

theorem getLsbD_maskOf {bits : List Nat} (h : ∀ bit ∈ bits, bit < 32) (i : Nat) :
    (maskOf bits).getLsbD i = decide (i ∈ bits) := by
  induction bits with
  | nil => simp [maskOf]
  | cons bit bits ih =>
    have below : bit < 32 := h bit (by simp)
    have rest := ih fun b hb => h b (List.mem_cons_of_mem _ hb)
    change (1#32 <<< (bit % 32) ||| maskOf bits).getLsbD i = _
    rw [BitVec.getLsbD_or, rest, Nat.mod_eq_of_lt below, getLsbD_bit below]
    simp

theorem maskOf_bits (w : Word) : maskOf w.bits = w := by
  have below : ∀ bit ∈ w.bits, bit < 32 := by
    intro bit hb
    exact BitVec.lt_of_getLsbD ((w.mem_bits bit).1 hb)
  apply BitVec.eq_of_getLsbD_eq
  intro i hi
  rw [getLsbD_maskOf below]
  simp [w.mem_bits]

namespace FuseMacro

variable {g : Gate FuseMacro} {m : FuseMacro} {c : Controller}

def afterPulses (m : FuseMacro) (word : Word) (row : Row) (bits : List Nat) : FuseMacro :=
  { m with
    pulses := m.pulses ++ bits.map fun bit => Address.compose word (BitVec.ofNat 32 bit) row
    rows := m.rows.put (Address.rowOf word row) (m.rows.get (Address.rowOf word row) |||
      maskOf bits &&& ~~~m.stuck.get (Address.rowOf word row)) }

theorem afterPulses_cons (m : FuseMacro) (word : Word) (row : Row) (bit : Nat) (bits : List Nat)
    (address busy : Word) :
    { m.afterPulses word row (bit :: bits) with address := address, busyRemaining := busy } =
    { (m.afterPulse word (BitVec.ofNat 32 bit) row).afterPulses word row bits with
      address := address, busyRemaining := busy } := by
  have shift : (BitVec.ofNat 32 bit).toNat % 32 = bit % 32 := by
    rw [BitVec.toNat_ofNat]
    omega
  have mask : maskOf (bit :: bits) = 1#32 <<< (bit % 32) ||| maskOf bits := rfl
  simp only [afterPulses, afterPulse, shift, mask, BitVec.and_or_distrib_right, List.map_cons,
    List.append_assoc, List.singleton_append, Rows.put_put, Rows.get_put_self, BitVec.or_assoc]

theorem yields_pulses (idle : m.hang = false) (short : m.busyPolls.toNat < c.pollLimit)
    (ready : m.busyRemaining.toNat < c.pollLimit) (powered : m.powered = true) (word : Word)
    (row : Row) (bits : List Nat) : ∃ address busy, Yields ⟨bus, g⟩
      (forM bits fun bit => c.programBit word (BitVec.ofNat 32 bit) row).run m (.ok ())
      { m.afterPulses word row bits with address := address, busyRemaining := busy } := by
  induction bits generalizing m with
  | nil =>
    refine ⟨m.address, m.busyRemaining, ?_⟩
    have same : ({ m.afterPulses word row [] with
        address := m.address, busyRemaining := m.busyRemaining } : FuseMacro) = m := by
      simp [afterPulses, maskOf]
    rw [same]
    exact yields_done _ m
  | cons bit bits ih =>
    have first : Yields ⟨bus, g⟩ (c.programBit word (BitVec.ofNat 32 bit) row).run m (.ok ())
        (m.afterPulse word (BitVec.ofNat 32 bit) row) :=
      yields_programBit idle ready powered word _ row
    obtain ⟨address, busy, rest⟩ :=
      ih (m := m.afterPulse word (BitVec.ofNat 32 bit) row) idle short short powered
    rw [← afterPulses_cons] at rest
    rw [List.forM_cons]
    exact ⟨address, busy, yields_andThen first rest⟩

def written (m : FuseMacro) (row : Fin 128) (value : Word) : Word :=
  m.rows.get row ||| (value &&& ~~~m.stuck.get row)

theorem or_missing (old value stuck : Word) :
    old ||| (value &&& ~~~old) &&& ~~~stuck = old ||| (value &&& ~~~stuck) := by
  -- Pulses for the missing bits alone leave the row as pulses for all requested bits would.
  apply BitVec.eq_of_getLsbD_eq
  intro i hi
  simp only [BitVec.getLsbD_or, BitVec.getLsbD_and, BitVec.getLsbD_not, hi, decide_true]
  cases old.getLsbD i <;> simp

theorem afterPulses_missing (m : FuseMacro) (word value : Word) (row : Row) :
    m.afterPulses word row (value &&& ~~~m.rows.get (Address.rowOf word row)).bits = { m with
      pulses := m.pulses ++ missing word value row (m.rows.get (Address.rowOf word row))
      rows := m.rows.put (Address.rowOf word row) (m.written (Address.rowOf word row) value) } := by
  unfold afterPulses
  rw [maskOf_bits, or_missing]
  rfl

def afterRow (m : FuseMacro) (word value : Word) (row : Row) : FuseMacro :=
  { m with
    powered := true, address := Address.physicalWord word row, busyRemaining := 0
    readData := m.written (Address.rowOf word row) value &&& ~~~m.weak.get (Address.rowOf word row)
    pulses := m.pulses ++ missing word value row (m.rows.get (Address.rowOf word row))
    rows := m.rows.put (Address.rowOf word row) (m.written (Address.rowOf word row) value) }

def rowReport (m : FuseMacro) (word value : Word) (row : Row) : RowReport :=
  .of value (m.rows.get (Address.rowOf word row))
    (m.written (Address.rowOf word row) value &&& ~~~m.weak.get (Address.rowOf word row))

theorem yields_writeRow (idle : m.hang = false) (short : m.busyPolls.toNat < c.pollLimit)
    (word value : Word) (row : Row) (failed : Nat) :
    Yields ⟨bus, g⟩ (c.writeRow word value row failed).run m (.ok (m.rowReport word value row))
      (m.afterRow word value row) := by
  have selected := Address.readRow_physicalWord word row
  have limit : (0 : Word).toNat < c.pollLimit := c.pollLimit_pos
  let opened : FuseMacro := { m with
    powered := true, address := Address.physicalWord word row, busyRemaining := 0
    readData := m.rows.get (Address.rowOf word row) }
  have read : Yields ⟨bus, g⟩ (c.readPhysical (Address.physicalWord word row) .array).run m
      (.ok (m.rows.get (Address.rowOf word row))) opened := by
    have array := yields_readPhysical (g := g) idle short (Address.physicalWord word row) .array
    rw [selected] at array
    exact array
  obtain ⟨address, busy, sent⟩ := yields_pulses (g := g) (c := c) (m := opened) idle short
    limit rfl word row (value &&& ~~~opened.rows.get (Address.rowOf word row)).bits
  have checked : Yields ⟨bus, g⟩ (c.readPhysical (Address.physicalWord word row) .margin).run
      { opened.afterPulses word row (value &&& ~~~opened.rows.get (Address.rowOf word row)).bits with
        address := address, busyRemaining := busy }
      (.ok (m.rowReport word value row).margin) (m.afterRow word value row) := by
    rw [afterPulses_missing]
    have margin := yields_readPhysical (g := g) (c := c) (m := { opened with
      pulses := m.pulses ++ missing word value row (m.rows.get (Address.rowOf word row))
      rows := m.rows.put (Address.rowOf word row) (m.written (Address.rowOf word row) value)
      address := address, busyRemaining := busy }) idle short (Address.physicalWord word row) .margin
    rw [selected] at margin
    simp only [sensed, Rows.get_put_self] at margin
    exact margin
  unfold Controller.writeRow
  refine yields_andThen (yields_lift (yields_note _ _ _ _)) ?_
  refine yields_andThen read ?_
  refine yields_andThen sent ?_
  refine yields_andThen checked ?_
  refine yields_andThen (yields_lift (yields_note _ _ _ _)) ?_
  dsimp only
  split
  · exact yields_andThen (yields_lift (yields_note _ _ _ _)) (yields_done _ _)
  · exact yields_done _ _

theorem rowOf_ne (word : Word) {row row' : Row} (h : row ≠ row') :
    Address.rowOf word row ≠ Address.rowOf word row' := by
  rw [ne_eq, Fin.ext_iff, Address.rowOf_val, Address.rowOf_val]
  cases row <;> cases row' <;> simp only [Row.index, ne_eq, not_true_eq_false] at h ⊢ <;> omega

theorem afterRow_rows_other (m : FuseMacro) (word value : Word) {row row' : Row} (h : row ≠ row') :
    (m.afterRow word value row).rows.get (Address.rowOf word row') =
      m.rows.get (Address.rowOf word row') := by
  rw [afterRow, Rows.get_put, if_neg (rowOf_ne word h)]

theorem rowReport_afterRow (m : FuseMacro) (word value : Word) {row row' : Row} (h : row ≠ row') :
    (m.afterRow word value row).rowReport word value row' = m.rowReport word value row' := by
  unfold rowReport written
  rw [afterRow_rows_other m word value h]
  rfl

def afterRows (m : FuseMacro) (word value : Word) : FuseMacro :=
  (m.afterRow word value .low).afterRow word value .high

theorem afterRows_row (m : FuseMacro) (word value : Word) (i : Fin 128) :
    (m.afterRows word value).rows.get i =
      if i.val / 2 = word.toNat % 64 then m.written i value else m.rows.get i := by
  have low := Address.rowOf_val word .low
  have high := Address.rowOf_val word .high
  simp only [Row.index] at low high
  have highWritten : (m.afterRow word value .low).written (Address.rowOf word .high) value =
      m.written (Address.rowOf word .high) value := by
    unfold written
    rw [afterRow_rows_other m word value (by decide)]
    rfl
  change ((m.rows.put (Address.rowOf word .low) _).put (Address.rowOf word .high) _).get i = _
  rw [highWritten, Rows.get_put, Rows.get_put]
  by_cases isHigh : Address.rowOf word .high = i
  · subst isHigh
    rw [if_pos rfl, if_pos (by omega)]
  by_cases isLow : Address.rowOf word .low = i
  · subst isLow
    rw [if_neg isHigh, if_pos rfl, if_pos (by omega)]
  · have aside : ¬ i.val / 2 = word.toNat % 64 := by
      rw [Fin.ext_iff] at isHigh isLow
      omega
    rw [if_neg isHigh, if_neg isLow, if_neg aside]

theorem afterRows_own (m : FuseMacro) (word value : Word) (row : Row) :
    (m.afterRows word value).rows.get (Address.rowOf word row) =
      m.written (Address.rowOf word row) value := by
  have own : (Address.rowOf word row).val / 2 = word.toNat % 64 := by
    have small := row.index_lt
    rw [Address.rowOf_val]
    omega
  rw [afterRows_row, if_pos own]

theorem rowReport_verified (m : FuseMacro) (word value : Word) (row : Row) :
    (m.rowReport word value row).verified = true ↔
      ((m.afterRows word value).rows.get (Address.rowOf word row) &&&
        ~~~m.weak.get (Address.rowOf word row)).Covers value := by
  rw [afterRows_own]
  exact decide_eq_true_iff

theorem afterRows_pulses (m : FuseMacro) (word value : Word) : (m.afterRows word value).pulses =
    m.pulses ++ missing word value .low (m.rows.get (Address.rowOf word .low)) ++
      missing word value .high (m.rows.get (Address.rowOf word .high)) := by
  have other : (m.afterRow word value .low).rows.get (Address.rowOf word .high) =
      m.rows.get (Address.rowOf word .high) := afterRow_rows_other m word value (by decide)
  change (m.pulses ++ _) ++ missing word value .high
    ((m.afterRow word value .low).rows.get (Address.rowOf word .high)) = _
  rw [other]

theorem yields_writeWord (idle : m.hang = false) (short : m.busyPolls.toNat < c.pollLimit)
    (word value : Word) : Yields ⟨bus, g⟩ (c.writeWord word value).run m
      (wordOutcome word value (m.rowReport word value .low) (m.rowReport word value .high))
      { m.afterRows word value with
        busyRemaining := m.busyPolls, shadow := (m.afterRows word value).rows.words } := by
  have high : Yields ⟨bus, g⟩ (c.writeRow word value .high
      (if (m.rowReport word value .low).verified then 0 else 1)).run (m.afterRow word value .low)
      (.ok (m.rowReport word value .high)) (m.afterRows word value) := by
    have row := yields_writeRow (g := g) (c := c) (m := m.afterRow word value .low) idle short word
      value .high (if (m.rowReport word value .low).verified then 0 else 1)
    rw [rowReport_afterRow m word value (by decide)] at row
    exact row
  unfold Controller.writeWord
  refine yields_andThen (yields_writeRow idle short word value .low 0) ?_
  refine yields_andThen high ?_
  refine yields_andThen (yields_lift yields_refresh) ?_
  unfold wordOutcome
  dsimp only
  split
  · exact yields_done _ _
  · exact yields_done _ _

theorem yields_clocked (idle : m.hang = false) (short : m.busyPolls.toNat < c.pollLimit)
    (word value : Word) : Yields ⟨bus, g⟩ (Device.clockedWrite c word value).run m
      (wordOutcome word value (m.rowReport word value .low) (m.rowReport word value .high))
      { m.afterRows word value with
        busyRemaining := 0, shadow := (m.afterRows word value).rows.words } := by
  refine yields_andThen (yields_attempt (yields_writeWord idle short word value)) ?_
  refine yields_andThen (yields_lift (yields_note _ _ _ _)) ?_
  refine yields_andThen (yields_lift yields_powerUp) ?_
  refine yields_andThen (yields_lift yields_refresh) ?_
  refine yields_andThen (yields_attempt (yields_waitReady idle short)) ?_
  cases wordOutcome word value (m.rowReport word value .low) (m.rowReport word value .high) with
  | ok report => exact yields_done _ _
  | error e => exact yields_done _ _

/-- The macro after a write on the device, but for the clock. -/
def afterWrite (m : FuseMacro) (word value : Word) (clock : MacroClock) : FuseMacro :=
  { m.afterRows word value with
    busyRemaining := 0, shadow := (m.afterRows word value).rows.words, clock := clock }

end FuseMacro

/-- The clock can be switched on and off: it is the macro's own, not failing and with its counters
below their limit, or there is none. -/
def ClockReady (hw : Hardware FuseMacro) (m : FuseMacro) : Prop :=
  hw = FuseMacro.ungated ∨
  hw = FuseMacro.hardware ∧ m.clock.failing = false ∧
    m.clock.enableCount ≠ BitVec.allOnes 32 ∧ m.clock.disableCount ≠ BitVec.allOnes 32

theorem ClockReady.switches {hw : Hardware FuseMacro} {m : FuseMacro} (ready : ClockReady hw m) :
    hw.bus = FuseMacro.bus ∧ (hw.gate.enable m).result = .ok (.ok ()) ∧
    ∃ on, (hw.gate.enable m).state = { m with clock := on } ∧
      ∀ m' : FuseMacro, m'.clock = on → (hw.gate.disable m').result = .ok () ∧
        ∃ off, (hw.gate.disable m').state = { m' with clock := off } := by
  obtain rfl | ⟨rfl, working, enables, disables⟩ := ready
  · exact ⟨rfl, rfl, m.clock, rfl, fun m' _ => ⟨rfl, m'.clock, rfl⟩⟩
  · obtain ⟨returned, on⟩ := FuseMacro.enableClock_on working enables
    refine ⟨rfl, returned, m.clock.switchedOn, on, ?_⟩
    intro m' now
    have below : m'.clock.disableCount ≠ BitVec.allOnes 32 := by
      rw [now]
      exact disables
    obtain ⟨returned, off⟩ := FuseMacro.disableClock_off below
    exact ⟨returned, _, off⟩

theorem ClockReady.yields_withClock {α : Type} {hw : Hardware FuseMacro} {m : FuseMacro}
    (ready : ClockReady hw m) {body : Operation α} {r : Except DeviceError α}
    (final : MacroClock → FuseMacro)
    (untouched : ∀ clock clock', { final clock with clock := clock' } = final clock')
    (h : ∀ clock, Yields ⟨FuseMacro.bus, hw.gate⟩ body.run { m with clock := clock } r (final clock)) :
    ∃ clock, Yields hw (Controller.withClock body).run m r (final clock) := by
  obtain ⟨bus, g⟩ := hw
  obtain ⟨rfl, on, clock, onState, off⟩ := ready.switches
  have held : (final clock).clock = clock := by rw [← untouched clock clock]
  obtain ⟨switchedOff, clock', offState⟩ := off (final clock) held
  have bracketed : Yields ⟨FuseMacro.bus, g⟩ (Controller.withClock body).run m r
      (g.disable (final clock)).state := by
    refine Operation.yields_withClock on ?_ switchedOff
    rw [onState]
    exact h clock
  rw [offState, untouched] at bracketed
  exact ⟨clock', bracketed⟩

theorem Device.yields_permitted {σ : Type} {hw : Hardware σ} {s : σ} {d : Device}
    (enabled : d.programmingEnabled = true) : Yields hw d.checkProgramming.run s (.ok ()) s := by
  unfold Device.checkProgramming
  rw [enabled]
  exact yields_done _ s

theorem ClockReady.yields_write_of {hw : Hardware FuseMacro} {m : FuseMacro} (ready : ClockReady hw m)
    {d : Device} (enabled : d.programmingEnabled = true) {addr : Word}
    (valid : Controller.ValidAddress addr) (value : Word) {r : Except DeviceError WriteReport}
    (final : MacroClock → FuseMacro)
    (untouched : ∀ clock clock', { final clock with clock := clock' } = final clock')
    (h : ∀ clock, Yields ⟨FuseMacro.bus, hw.gate⟩
      (Device.clockedWrite d.controller (addr / 4) value).run { m with clock := clock } r (final clock)) :
    ∃ clock, Yields hw (d.write addr value).run m r (final clock) := by
  obtain ⟨clock, bracketed⟩ := ready.yields_withClock final untouched h
  have checked : Yields hw (Controller.checkAddress addr).run m (.ok ()) m := by
    unfold Controller.checkAddress
    rw [if_pos valid]
    exact yields_done _ m
  refine ⟨clock, ?_⟩
  rw [Device.write_eq]
  refine yields_andThen (yields_lift (yields_note _ _ _ _)) ?_
  refine yields_andThen (Device.yields_permitted enabled) ?_
  exact yields_andThen checked bracketed

theorem yields_write {hw : Hardware FuseMacro} {m : FuseMacro} (ready : ClockReady hw m)
    {d : Device} (enabled : d.programmingEnabled = true) {addr : Word}
    (valid : Controller.ValidAddress addr) (idle : m.hang = false)
    (short : m.busyPolls.toNat < d.controller.pollLimit) (value : Word) :
    ∃ clock, Yields hw (d.write addr value).run m
      (wordOutcome (addr / 4) value (m.rowReport (addr / 4) value .low)
        (m.rowReport (addr / 4) value .high))
      (m.afterWrite (addr / 4) value clock) := by
  refine ready.yields_write_of enabled valid value (m.afterWrite (addr / 4) value)
    (fun _ _ => by simp only [FuseMacro.afterWrite]) fun clock => ?_
  unfold FuseMacro.afterWrite
  exact FuseMacro.yields_clocked (m := { m with clock := clock }) idle short (addr / 4) value

/-- A write on the device sets the requested bits of both rows of its word but the stuck ones, with
one pulse for each bit that was missing, and leaves the macro powered up with all shadow registers
reloaded. It fails its check only if both rows lack a requested bit under the margin read. -/
theorem write_effect {hw : Hardware FuseMacro} {m : FuseMacro} (ready : ClockReady hw m)
    {d : Device} (enabled : d.programmingEnabled = true) {addr : Word}
    (valid : Controller.ValidAddress addr) (idle : m.hang = false)
    (short : m.busyPolls.toNat < d.controller.pollLimit) (value : Word) :
    let r := run hw (d.write addr value).run m
    let w := addr / 4
    let holds (row : Row) : Prop :=
      (r.state.rows.get (Address.rowOf w row) &&& ~~~m.weak.get (Address.rowOf w row)).Covers value
    (∀ i : Fin 128, r.state.rows.get i =
      if i.val / 2 = addr.toNat / 4 then m.rows.get i ||| (value &&& ~~~m.stuck.get i)
      else m.rows.get i) ∧
    r.state.pulses = m.pulses ++ missing w value .low (m.rows.get (Address.rowOf w .low)) ++
      missing w value .high (m.rows.get (Address.rowOf w .high)) ∧
    r.state.powered = true ∧
    (∀ i : Fin 64, r.state.shadow[i] = r.state.rows[2 * i.val] ||| r.state.rows[2 * i.val + 1]) ∧
    r.state.stuck = m.stuck ∧ r.state.weak = m.weak ∧
    (r.result = .ok (.error (.verifyFailed w 2)) ↔ ∀ row, ¬ holds row) ∧
    ((∃ row, holds row) → ∃ report, r.result = .ok (.ok report) ∧ report.word = w ∧
      report.value = value ∧ ∀ x ∈ report.rows, x.2.before = m.rows.get (Address.rowOf w x.1)) := by
  intro r w holds
  obtain ⟨clock, returned, state⟩ := yields_write ready enabled valid idle short value
  have final : r.state = m.afterWrite w value clock := state
  have word : w.toNat % 64 = addr.toNat / 4 := by
    have below : addr.toNat < 256 := valid.1
    have quotient : w.toNat = addr.toNat / 4 := BitVec.toNat_udiv
    omega
  have verified : ∀ row, (m.rowReport w value row).verified = true ↔ holds row := by
    intro row
    simp only [holds, final]
    exact m.rowReport_verified w value row
  have missed : ∀ row, (m.rowReport w value row).verified = false ↔ ¬ holds row := by
    intro row
    rw [← verified, Bool.not_eq_true]
  have result : r.result = .ok (wordOutcome w value (m.rowReport w value .low)
      (m.rowReport w value .high)) := returned
  have outcome := wordOutcome_cases w value (m.rowReport w value .low) (m.rowReport w value .high)
  refine ⟨?_, ?_, ?_, ?_, ?_, ?_, ?_, ?_⟩
  · intro i
    rw [final, ← word]
    exact m.afterRows_row w value i
  · rw [final]
    exact m.afterRows_pulses w value
  · rw [final]
    rfl
  · intro i
    rw [final]
    simp [FuseMacro.afterWrite, Rows.words]
  · rw [final]
    rfl
  · rw [final]
    rfl
  · rw [result, Row.forall_iff, ← missed, ← missed]
    obtain ⟨low, high, failed⟩ | ⟨low | high, passed, -⟩ := outcome
    · simp [failed, low, high]
    · simp [passed, low]
    · simp [passed, high]
  · rintro ⟨row, h⟩
    obtain ⟨low, high, -⟩ | ⟨-, passed, -⟩ := outcome
    · have unset : ∀ row, (m.rowReport w value row).verified = false := Row.forall_iff.2 ⟨low, high⟩
      exact absurd h ((missed row).1 (unset row))
    · refine ⟨_, result.trans (congrArg Except.ok passed), rfl, rfl, ?_⟩
      exact WriteReport.forall_rows.2 ⟨rfl, rfl⟩

def FuseMacro.worn : FuseMacro :=
  { FuseMacro.blank with
    stuck := FuseMacro.blank.stuck.set 6 1
    powered := false, address := 0xabc, busyPolls := 2, busyRemaining := 9 }

theorem write_effect_worn :
    ClockReady FuseMacro.hardware FuseMacro.worn ∧ Controller.ValidAddress 12 ∧
    FuseMacro.worn.hang = false ∧ FuseMacro.worn.busyPolls.toNat < (Controller.ofLimit 3).pollLimit ∧
    let r := run FuseMacro.hardware (Device.write ⟨.ofLimit 3, true⟩ 12 5).run FuseMacro.worn
    r.state.rows.get 6 = 4 ∧ r.state.rows.get 7 = 5 ∧
    r.state.pulses = [0x006, 0x106, 0x007, 0x107] ∧ r.state.powered = true := by
  have ready : ClockReady FuseMacro.hardware FuseMacro.worn :=
    .inr ⟨rfl, rfl, by decide, by decide⟩
  have valid : Controller.ValidAddress 12 := by decide
  have short : FuseMacro.worn.busyPolls.toNat < (Controller.ofLimit 3).pollLimit := by decide
  refine ⟨ready, valid, rfl, short, ?_⟩
  obtain ⟨rows, pulses, powered, -⟩ := write_effect (d := ⟨.ofLimit 3, true⟩) ready rfl valid rfl
    short 5
  refine ⟨(rows 6).trans ?_, (rows 7).trans ?_, pulses.trans ?_, powered⟩
  · decide +kernel
  · decide +kernel
  · decide +kernel

end FuseBank
