import FuseBank.Proofs.WriteEffect

/-!
Handshakes that cannot be met. A hung macro, or one that stays busy for as many polls as the driver
makes, fails the first handshake of a write, before any row is read or pulsed; every other macro meets
all of them, since each command starts the busy count anew (`write_timesOutIff`). A single pulse waits only for
what earlier commands have left of the count (`programBit_timesOutIff`).
-/

namespace FuseBank
open Routine Operation

variable {σ α β : Type}

namespace Operation

variable {hw : Hardware σ} {s s' : σ} {e : DeviceError}

theorem yields_failed {op : Operation α} {f : α → Operation β}
    (h : Yields hw op.run s (.error e) s') : Yields hw (op >>= f).run s (.error e) s' := by
  rw [ExceptT.run_bind]
  exact h.bind (yields_done _ _)

end Operation

namespace FuseMacro

variable {g : Gate FuseMacro} {m : FuseMacro} {c : Controller}

def waited (m : FuseMacro) (polls : Nat) : FuseMacro :=
  { m with busyRemaining := if m.hang then m.busyRemaining
      else m.busyRemaining - BitVec.ofNat 32 polls }

theorem waited_zero (m : FuseMacro) : m.waited 0 = m := by
  have none : m.busyRemaining - BitVec.ofNat 32 0 = m.busyRemaining := BitVec.sub_zero _
  unfold waited
  rw [none, ite_self]

def StaysBusy (m : FuseMacro) (polls : Nat) : Prop := m.hang = true ∨ polls ≤ m.busyRemaining.toNat

theorem status_busy {polls : Nat} (busy : m.StaysBusy (polls + 1)) :
    ∃ m', m.status = (Status.busy, m') ∧ m'.StaysBusy polls ∧ m'.waited polls = m.waited (polls + 1) := by
  unfold status
  by_cases hung : m.hang = true
  · refine ⟨m, if_pos hung, .inl hung, ?_⟩
    unfold waited
    rw [if_pos hung, if_pos hung]
  · have left : polls + 1 ≤ m.busyRemaining.toNat := busy.resolve_left hung
    have unsettled : m.busyRemaining ≠ 0 := by
      intro settled
      rw [settled] at left
      exact Nat.not_succ_le_zero polls left
    have fewer : (m.busyRemaining - 1).toNat = m.busyRemaining.toNat - 1 := by
      apply BitVec.toNat_sub_of_le
      rw [BitVec.le_def]
      exact Nat.one_le_iff_ne_zero.2 fun zero => unsettled (BitVec.eq_of_toNat_eq zero)
    have counted : m.busyRemaining - 1 - BitVec.ofNat 32 polls =
        m.busyRemaining - BitVec.ofNat 32 (polls + 1) := by
      rw [BitVec.sub_sub, Nat.add_comm polls, BitVec.ofNat_add]
      rfl
    refine ⟨{ m with busyRemaining := m.busyRemaining - 1 }, ?_, .inr ?_, ?_⟩
    · rw [if_neg hung, if_neg unsettled]
    · change polls ≤ (m.busyRemaining - 1).toNat
      omega
    · unfold waited
      dsimp only
      rw [if_neg hung, if_neg hung, counted]

theorem yields_poll_timeout {limit polls : Nat} (busy : m.StaysBusy polls) :
    Yields ⟨bus, g⟩ (Controller.poll limit polls).run m (.error (.timeout limit)) (m.waited polls) := by
  induction polls generalizing m with
  | zero =>
    rw [Controller.poll_zero, waited_zero]
    exact ⟨rfl, rfl⟩
  | succ polls ih =>
    obtain ⟨m', polled, still, waits⟩ := status_busy busy
    rw [Controller.poll_succ, ← waits]
    apply yields_status
    rw [polled]
    dsimp only
    rw [if_pos (by decide)]
    exact ih still

theorem yields_waitReady_timeout (busy : m.StaysBusy c.pollLimit) :
    Yields ⟨bus, g⟩ c.waitReady.run m (.error (.timeout c.pollLimit)) (m.waited c.pollLimit) :=
  yields_poll_timeout busy

theorem not_staysBusy {polls : Nat} :
    ¬ m.StaysBusy polls ↔ m.hang = false ∧ m.busyRemaining.toNat < polls := by
  unfold StaysBusy
  rw [not_or, Bool.not_eq_true, Nat.not_le]

/-- No command is done within so many polls. -/
def Stalls (m : FuseMacro) (polls : Nat) : Prop := m.hang = true ∨ polls ≤ m.busyPolls.toNat

theorem not_stalls {polls : Nat} : ¬ m.Stalls polls ↔ m.hang = false ∧ m.busyPolls.toNat < polls := by
  unfold Stalls
  rw [not_or, Bool.not_eq_true, Nat.not_le]

def timedOut (m : FuseMacro) (polls : Nat) : FuseMacro :=
  { m with powered := true, busyRemaining := m.busyPolls }.waited polls

theorem timedOut_rows (m : FuseMacro) (polls : Nat) : (m.timedOut polls).rows = m.rows := rfl

theorem timedOut_pulses (m : FuseMacro) (polls : Nat) :
    (m.timedOut polls).pulses = m.pulses := rfl

theorem yields_readPhysical_timeout (stalls : m.Stalls c.pollLimit) (index : Word) (mode : ReadMode) :
    Yields ⟨bus, g⟩ (c.readPhysical index mode).run m (.error (.timeout c.pollLimit))
      (m.timedOut c.pollLimit) :=
  yields_andThen (yields_lift yields_powerUp) (yields_failed (yields_waitReady_timeout stalls))

theorem yields_writeRow_timeout (stalls : m.Stalls c.pollLimit) (word value : Word) (row : Row)
    (failed : Nat) : Yields ⟨bus, g⟩ (c.writeRow word value row failed).run m
      (.error (.timeout c.pollLimit)) (m.timedOut c.pollLimit) := by
  unfold Controller.writeRow
  refine yields_andThen (yields_lift (yields_note _ _ _ _)) ?_
  exact yields_failed (yields_readPhysical_timeout stalls _ _)

theorem yields_writeWord_timeout (stalls : m.Stalls c.pollLimit) (word value : Word) :
    Yields ⟨bus, g⟩ (c.writeWord word value).run m (.error (.timeout c.pollLimit))
      (m.timedOut c.pollLimit) :=
  yields_failed (yields_writeRow_timeout stalls word value .low 0)

theorem yields_clocked_timeout (stalls : m.Stalls c.pollLimit) (word value : Word) : Yields ⟨bus, g⟩
      (Device.clockedWrite c word value).run m
      (.error (.timeout c.pollLimit)) ({ m with shadow := m.rows.words }.timedOut c.pollLimit) := by
  -- The refresh at the end of a write is carried out on a stalled macro too, and waited for in
  -- vain.
  refine yields_andThen (yields_attempt (yields_writeWord_timeout stalls word value)) ?_
  refine yields_andThen (yields_lift (yields_note _ _ _ _)) ?_
  refine yields_andThen (yields_lift yields_powerUp) ?_
  refine yields_andThen (yields_lift yields_refresh) ?_
  refine yields_andThen (yields_attempt (yields_waitReady_timeout stalls)) ?_
  exact yields_failed (yields_done _ _)

def afterWriteWord (m : FuseMacro) (word value : Word) (clock : MacroClock) : FuseMacro :=
  { m.afterRows word value with
    busyRemaining := m.busyPolls, shadow := (m.afterRows word value).rows.words, clock := clock }

def afterDroppedPulse (m : FuseMacro) (word bit : Word) (row : Row) : FuseMacro :=
  { m with
    address := Address.compose word bit row, busyRemaining := m.busyPolls
    pulses := m.pulses ++ [Address.compose word bit row] }

theorem yields_programBit_dropped (idle : m.hang = false)
    (short : m.busyRemaining.toNat < c.pollLimit) (unpowered : m.powered = false)
    (word bit : Word) (row : Row) : Yields ⟨bus, g⟩ (c.programBit word bit row).run m (.ok ())
      (m.afterDroppedPulse word bit row) := by
  let addressed : FuseMacro := { m with address := Address.compose word bit row, busyRemaining := 0 }
  have sent : (addressed.command (Mode.program ||| Mode.execute)).1 =
      m.afterDroppedPulse word bit row := by
    change ({ addressed with busyRemaining := m.busyPolls } : FuseMacro).pulse.1 = _
    unfold pulse
    dsimp only
    rw [if_neg (by simp [addressed, unpowered]), Address.compose_and]
    rfl
  unfold Controller.programBit
  refine yields_andThen (yields_waitReady idle short) ?_
  refine yields_andThen (yields_lift (Routine.yields_write rfl (yields_done _ _))) ?_
  exact yields_lift (yields_command (m := addressed) sent)

theorem yields_programBit_timeout (busy : m.StaysBusy c.pollLimit) (word bit : Word) (row : Row) :
    Yields ⟨bus, g⟩ (c.programBit word bit row).run m (.error (.timeout c.pollLimit))
      (m.waited c.pollLimit) :=
  yields_failed (yields_waitReady_timeout busy)

end FuseMacro

/-- A call that returns, with a timeout after `polls` polls just if the macro `stalls`; a call that times
out has changed no row and sent no pulse. -/
structure TimesOutIff {α : Type} (m : FuseMacro) (polls : Nat) (stalls : Prop)
    (r : Run FuseMacro (Except DeviceError α)) : Prop where
  returns : ∃ outcome, r.result = .ok outcome
  timeout : ∀ n, r.result = .ok (.error (.timeout n)) ↔ n = polls ∧ stalls
  untouched : stalls → r.state.rows = m.rows ∧ r.state.pulses = m.pulses

section Calls

variable {hw : Hardware FuseMacro} {m m' : FuseMacro} {polls : Nat} {stalls : Prop}
  {op : Operation α}

theorem TimesOutIff.of_timeout (h : Yields hw op.run m (.error (.timeout polls)) m') (holds : stalls)
    (rows : m'.rows = m.rows) (pulses : m'.pulses = m.pulses) :
    TimesOutIff m polls stalls (run hw op.run m) where
  returns := ⟨_, h.1⟩
  timeout n := by
    rw [h.1]
    constructor
    · rintro ⟨⟩
      exact ⟨rfl, holds⟩
    · rintro ⟨rfl, -⟩
      rfl
  untouched _ := by
    rw [h.2]
    exact ⟨rows, pulses⟩

theorem TimesOutIff.of_other {outcome : Except DeviceError α} (h : Yields hw op.run m outcome m')
    (fails : ¬ stalls) (other : ∀ n, outcome ≠ .error (.timeout n)) :
    TimesOutIff m polls stalls (run hw op.run m) where
  returns := ⟨_, h.1⟩
  timeout n := by
    rw [h.1]
    refine iff_of_false ?_ fun holds => fails holds.2
    intro same
    exact other n (Except.ok.inj same)
  untouched holds := absurd holds fails

theorem wordOutcome_ne_timeout (word value : Word) (low high : RowReport) (n : Nat) :
    wordOutcome word value low high ≠ .error (.timeout n) := by
  obtain ⟨-, -, outcome⟩ | ⟨-, outcome, -⟩ := wordOutcome_cases word value low high
  · rw [outcome]
    simp
  · rw [outcome]
    simp

variable (ready : ClockReady hw m) {d : Device} (enabled : d.programmingEnabled = true)
include ready enabled

theorem write_timesOutIff {addr : Word} (valid : Controller.ValidAddress addr) (value : Word) :
    TimesOutIff m d.controller.pollLimit (m.Stalls d.controller.pollLimit)
      (run hw (d.write addr value).run m) := by
  by_cases stalls : m.Stalls d.controller.pollLimit
  · obtain ⟨_, failed⟩ := ready.yields_write_of enabled valid value
      (fun clock => { m with shadow := m.rows.words, clock := clock }.timedOut d.controller.pollLimit)
      (fun _ _ => rfl) fun clock =>
        FuseMacro.yields_clocked_timeout (m := { m with clock := clock }) stalls (addr / 4) value
    exact .of_timeout failed stalls (by simp only [FuseMacro.timedOut_rows])
      (by simp only [FuseMacro.timedOut_pulses])
  · obtain ⟨idle, short⟩ := FuseMacro.not_stalls.1 stalls
    obtain ⟨_, finished⟩ := yields_write ready enabled valid idle short value
    exact .of_other finished stalls (wordOutcome_ne_timeout _ _ _ _)

theorem writeWord_timesOutIff (word value : Word) :
    TimesOutIff m d.controller.pollLimit (m.Stalls d.controller.pollLimit)
      (run hw (d.writeWord word value).run m) := by
  have permitted : Yields hw d.checkProgramming.run m (.ok ()) m := Device.yields_permitted enabled
  by_cases stalls : m.Stalls d.controller.pollLimit
  · obtain ⟨_, failed⟩ := ready.yields_withClock
      (fun clock => { m with clock := clock }.timedOut d.controller.pollLimit)
      (fun _ _ => rfl) fun clock =>
        FuseMacro.yields_writeWord_timeout (m := { m with clock := clock }) stalls word value
    exact .of_timeout (yields_andThen permitted failed) stalls rfl rfl
  · obtain ⟨idle, short⟩ := FuseMacro.not_stalls.1 stalls
    have finishing (clock : MacroClock) : Yields ⟨FuseMacro.bus, hw.gate⟩
        (d.controller.writeWord word value).run { m with clock := clock }
        (wordOutcome word value (m.rowReport word value .low) (m.rowReport word value .high))
        (m.afterWriteWord word value clock) :=
      FuseMacro.yields_writeWord (m := { m with clock := clock }) idle short word value
    obtain ⟨_, finished⟩ := ready.yields_withClock (m.afterWriteWord word value)
      (fun _ _ => by simp only [FuseMacro.afterWriteWord]) finishing
    exact .of_other (yields_andThen permitted finished) stalls (wordOutcome_ne_timeout _ _ _ _)

theorem programBit_timesOutIff (word bit : Word) (row : Row) :
    TimesOutIff m d.controller.pollLimit (m.StaysBusy d.controller.pollLimit)
      (run hw (d.programBit word bit row).run m) := by
  have permitted : Yields hw d.checkProgramming.run m (.ok ()) m := Device.yields_permitted enabled
  by_cases busy : m.StaysBusy d.controller.pollLimit
  · obtain ⟨_, failed⟩ := ready.yields_withClock
      (fun clock => { m with clock := clock }.waited d.controller.pollLimit)
      (fun _ _ => rfl) fun clock =>
        FuseMacro.yields_programBit_timeout (m := { m with clock := clock }) busy word bit row
    exact .of_timeout (yields_andThen permitted failed) busy rfl rfl
  · obtain ⟨idle, short⟩ := FuseMacro.not_staysBusy.1 busy
    -- without power the pulse is dropped, but the call does not see that
    have taken : ∃ m', Yields hw (Controller.withClock (d.controller.programBit word bit row)).run m
        (.ok ()) m' := by
      cases powered : m.powered with
      | true =>
        obtain ⟨_, taken⟩ := ready.yields_withClock
          (fun clock => { m with clock := clock }.afterPulse word bit row)
          (fun _ _ => rfl) fun clock =>
            FuseMacro.yields_programBit (m := { m with clock := clock }) idle short powered word bit row
        exact ⟨_, taken⟩
      | false =>
        obtain ⟨_, taken⟩ := ready.yields_withClock
          (fun clock => { m with clock := clock }.afterDroppedPulse word bit row)
          (fun _ _ => rfl) fun clock =>
            FuseMacro.yields_programBit_dropped (m := { m with clock := clock }) idle short powered word
              bit row
        exact ⟨_, taken⟩
    obtain ⟨_, taken⟩ := taken
    exact .of_other (yields_andThen permitted taken) busy nofun

end Calls

/-- A write times out just if the macro hangs or is busy for as many polls as the limit allows, whatever
busy count is left from before, and then before the first pulse. A single pulse times out just if the
macro hangs or that many polls are left, and then it is not sent. -/
theorem timeouts_all_or_nothing {hw : Hardware FuseMacro} {m : FuseMacro} (ready : ClockReady hw m)
    (limit : Word) {addr : Word} (valid : Controller.ValidAddress addr) (word bit : Word) (row : Row)
    (value : Word) :
    let d : Device := ⟨.ofLimit limit, true⟩
    let polls := max limit.toNat 1
    let stalls := m.hang = true ∨ polls ≤ m.busyPolls.toNat
    TimesOutIff m polls stalls (run hw (d.write addr value).run m) ∧
    TimesOutIff m polls stalls (run hw (d.writeWord word value).run m) ∧
    TimesOutIff m polls (m.hang = true ∨ polls ≤ m.busyRemaining.toNat)
      (run hw (d.programBit word bit row).run m) := by
  intro d polls stalls
  have enabled : d.programmingEnabled = true := rfl
  exact ⟨write_timesOutIff ready enabled valid value, writeWord_timesOutIff ready enabled word value,
    programBit_timesOutIff ready enabled word bit row⟩

theorem timeouts_all_or_nothing_worn :
    ClockReady FuseMacro.hardware FuseMacro.worn ∧ Controller.ValidAddress 12 ∧
    let outcome (limit : Word) :=
      (run FuseMacro.hardware (Device.write ⟨.ofLimit limit, true⟩ 12 5).run FuseMacro.worn).result
    let pulse := run FuseMacro.hardware (Device.programBit ⟨.ofLimit 3, true⟩ 3 0 .low).run FuseMacro.worn
    (∀ n, outcome 3 ≠ .ok (.error (.timeout n))) ∧ outcome 2 = .ok (.error (.timeout 2)) ∧
    pulse.result = .ok (.error (.timeout 3)) ∧ pulse.state.pulses = [] := by
  -- Two busy polls a command and nine left: a limit of three is enough for a write but not for a
  -- single pulse, and a limit of two for neither.
  have ready : ClockReady FuseMacro.hardware FuseMacro.worn :=
    .inr ⟨rfl, rfl, by decide, by decide⟩
  have valid : Controller.ValidAddress 12 := by decide
  obtain ⟨long, -, dropped⟩ := timeouts_all_or_nothing ready 3 valid 3 0 .low 5
  obtain ⟨short, -⟩ := timeouts_all_or_nothing ready 2 valid 3 0 .low 5
  refine ⟨ready, valid, fun n timeout => ?_, ?_, ?_, ?_⟩
  · have stalls := ((long.timeout n).1 timeout).2
    exact absurd stalls (by decide)
  · exact (short.timeout 2).2 (by decide)
  · exact (dropped.timeout 3).2 (by decide)
  · exact (dropped.untouched (by decide)).2

end FuseBank
