import FuseBank.Proofs.DisabledProgramming
import FuseBank.Proofs.StalledMacro
import FuseBank.Proofs.WriteSequence

/-!
The two ways to write a word on the emulated macro, by its byte address and by its number. The first
goes on with a power-up, a refresh and a wait where the second stops. Once the word is written they
change no more than the busy count, and before that only on a macro that stalls, where both time out
(`clockedWrite_like_writeWord`). So the calls come to the same, whatever the clock does
(`writes_interchange`).
-/

namespace FuseBank
open Routine Operation

section Clock

variable {σ α : Type} {hw : Hardware σ} {s t : σ}

theorem Routine.run_disable_result (a : α) (s : σ) :
    (run hw (disable (done a)) s).result = (hw.gate.disable s).result.map fun _ => a := by
  rw [run_disable]
  cases answer : (hw.gate.disable s).result with
  | error fault => exact (Reply.andThen_error _ answer).1
  | ok _ => exact (Reply.andThen_ok _ answer).1

theorem Operation.run_withClock_off (off : (hw.gate.enable s).result ≠ .ok (.ok ()))
    (body body' : Operation α) :
    run hw (Controller.withClock body).run s = run hw (Controller.withClock body').run s := by
  change run hw (enable _) s = run hw (enable _) s
  rw [run_enable, run_enable]
  cases answer : (hw.gate.enable s).result with
  | error fault => simp only [Run.andThen, Reply.toRun, answer]
  | ok given =>
    cases given with
    | error e => simp only [Run.andThen, Reply.toRun, answer]
    | ok _ => exact absurd answer off

theorem Operation.run_withClock_on {body : Operation α} {r : Except DeviceError α}
    (on : (hw.gate.enable s).result = .ok (.ok ()))
    (h : Yields hw body.run (hw.gate.enable s).state r t) :
    (run hw (Controller.withClock body).run s).result = (hw.gate.disable t).result.map (fun _ => r) ∧
    (run hw (Controller.withClock body).run s).state = (hw.gate.disable t).state := by
  have traced : Traces hw body.run (hw.gate.enable s).state r _ t := ⟨h.1, rfl, h.2⟩
  obtain ⟨earlier, -, opened⟩ := run_withClock_ok on body
  rw [opened, traced.run_bind]
  exact ⟨run_disable_result r t, run_disable_state r t⟩

end Clock

structure ClockCall {β : Type} (call : FuseMacro → Reply FuseMacro β) : Prop where
  alone : ∀ m, (call m).state = { m with clock := (call m).state.clock }
  answer : ∀ m m' : FuseMacro, m'.clock = m.clock →
    (call m').result = (call m).result ∧ (call m').state.clock = (call m).state.clock

/-- A clock of the macro's, however it behaves. -/
structure Gate.OnClock (g : Gate FuseMacro) : Prop where
  enable : ClockCall g.enable
  disable : ClockCall g.disable

namespace FuseMacro

private theorem onMacro_hardware : OnMacro hardware := .inr rfl

theorem onClock_gate : gate.OnClock where
  enable := by
    constructor
    · intro m
      obtain ⟨_, _, state⟩ := onMacro_hardware.enable_state m
      change (gate.enable m).state = _ at state
      rw [state]
    · intro m m' same
      change (enableClock m').result = (enableClock m).result ∧
        (enableClock m').state.clock = (enableClock m).state.clock
      unfold enableClock
      dsimp only
      rw [same]
      split
      · exact ⟨rfl, same⟩
      · split
        · exact ⟨rfl, rfl⟩
        · exact ⟨rfl, rfl⟩
  disable := by
    constructor
    · intro m
      obtain ⟨_, _, state⟩ := onMacro_hardware.disable_state m
      change (gate.disable m).state = _ at state
      rw [state]
    · intro m m' same
      change (disableClock m').result = (disableClock m).result ∧
        (disableClock m').state.clock = (disableClock m).state.clock
      unfold disableClock
      dsimp only
      rw [same]
      split
      · exact ⟨rfl, rfl⟩
      · exact ⟨rfl, rfl⟩

end FuseMacro

theorem OnMacro.onClock {hw : Hardware FuseMacro} (h : OnMacro hw) : hw.gate.OnClock := by
  obtain rfl | rfl := h
  · exact ⟨⟨fun _ => rfl, fun _ _ same => ⟨rfl, same⟩⟩, ⟨fun _ => rfl, fun _ _ same => ⟨rfl, same⟩⟩⟩
  · exact FuseMacro.onClock_gate

namespace FuseMacro

variable {g : Gate FuseMacro}

/-- The same fuses behind a macro with the same power and clock; the shadow registers and what a command
leaves in the address, data and busy registers may differ. -/
structure Alike (m m' : FuseMacro) : Prop where
  rows : m'.rows = m.rows
  pulses : m'.pulses = m.pulses
  powered : m'.powered = m.powered
  clock : m'.clock = m.clock

theorem Alike.refl (m : FuseMacro) : Alike m m := ⟨rfl, rfl, rfl, rfl⟩

theorem timedOut_alike (m : FuseMacro) (shadow : Vector Word 64) (polls : Nat) :
    Alike ({ m with shadow := shadow }.timedOut polls) (m.timedOut polls) := ⟨rfl, rfl, rfl, rfl⟩

theorem clockedWrite_like_writeWord (c : Controller) (word value : Word) (m : FuseMacro) :
    ∃ outcome t t', Yields ⟨bus, g⟩ (Device.clockedWrite c word value).run m outcome t ∧
      Yields ⟨bus, g⟩ (c.writeWord word value).run m outcome t' ∧ t.Alike t' ∧
      (t'.shadow = t.shadow ∨ m.Stalls c.pollLimit ∧ outcome = .error (.timeout c.pollLimit)) := by
  -- While the clock is held. Once the word is written, the rest of a write by address ends at once
  -- and changes nothing but the busy count; on a stalled macro both time out, and only the refresh
  -- tells them apart.
  by_cases stalls : m.Stalls c.pollLimit
  · exact ⟨_, _, _, yields_clocked_timeout stalls word value, yields_writeWord_timeout stalls word value,
      timedOut_alike m m.rows.words c.pollLimit, .inr ⟨stalls, rfl⟩⟩
  · obtain ⟨idle, short⟩ := not_stalls.1 stalls
    exact ⟨_, _, _, yields_clocked idle short word value, yields_writeWord idle short word value,
      ⟨rfl, rfl, rfl, rfl⟩, .inl rfl⟩

end FuseMacro

theorem ClockCall.alike {β : Type} {call : FuseMacro → Reply FuseMacro β} (own : ClockCall call)
    {t t' : FuseMacro} (h : t.Alike t') :
    (call t').result = (call t).result ∧ (call t).state.Alike (call t').state := by
  obtain ⟨answer, clock⟩ := own.answer t t' h.clock
  rw [own.alone t, own.alone t']
  exact ⟨answer, h.rows, h.pulses, h.powered, clock⟩

theorem Gate.OnClock.clockedWrite_like_writeWord {g : Gate FuseMacro} (own : g.OnClock) (c : Controller)
    (word value : Word) (m : FuseMacro) :
    let whole := run ⟨FuseMacro.bus, g⟩ (Controller.withClock (Device.clockedWrite c word value)).run m
    let part := run ⟨FuseMacro.bus, g⟩ (Controller.withClock (c.writeWord word value)).run m
    part.result = whole.result ∧ whole.state.Alike part.state ∧
    (part.state.shadow = whole.state.shadow ∨ m.Stalls c.pollLimit ∧
      ∀ outcome, whole.result = .ok outcome → outcome = .error (.timeout c.pollLimit)) := by
  intro whole part
  by_cases on : (g.enable m).result = .ok (.ok ())
  · obtain ⟨outcome, t, t', wrote, wrote', alike, shadow⟩ :=
      FuseMacro.clockedWrite_like_writeWord (g := g) c word value (g.enable m).state
    obtain ⟨result, state⟩ : whole.result = _ ∧ whole.state = _ := run_withClock_on on wrote
    obtain ⟨result', state'⟩ : part.result = _ ∧ part.state = _ := run_withClock_on on wrote'
    obtain ⟨answer, left⟩ := own.disable.alike alike
    refine ⟨?_, ?_, ?_⟩
    · rw [result, result']
      exact congrArg (Except.map fun _ => outcome) answer
    · rw [state, state']
      exact left
    · obtain same | ⟨stalls, failed⟩ := shadow
      · rw [state, state']
        refine .inl ?_
        change (g.disable t').state.shadow = (g.disable t).state.shadow
        rw [own.disable.alone t, own.disable.alone t']
        exact same
      · rw [own.enable.alone m] at stalls
        refine .inr ⟨stalls, fun outcome' returned => ?_⟩
        rw [result] at returned
        change (g.disable t).result.map (fun _ => outcome) = _ at returned
        cases off : (g.disable t).result with
        | error fault =>
          rw [off] at returned
          cases returned
        | ok _ =>
          rw [off] at returned
          cases returned
          exact failed
  · have same : part = whole := run_withClock_off on _ _
    rw [same]
    exact ⟨rfl, .refl _, .inl rfl⟩

theorem Controller.validAddress_of_word {word : Word} (within : word.toNat < 64) :
    Controller.ValidAddress (4 * word) ∧ 4 * word / 4 = word := by
  have place : (4 * word).toNat = 4 * word.toNat := by
    rw [BitVec.toNat_mul]
    exact Nat.mod_eq_of_lt (by change 4 * word.toNat < 2 ^ 32; omega)
  constructor
  · unfold ValidAddress fuseBytes
    omega
  · apply BitVec.eq_of_toNat_eq
    rw [BitVec.toNat_udiv, place]
    exact Nat.mul_div_cancel_left _ (by decide)

/-- A write of a word by its address and one by its number come to the same result, be it a failure of the
clock's or a fault, and leave the same rows, pulses, power and clock. Their shadow registers are the same
too, unless the macro stalls, in which case a call that returns has timed out. -/
theorem writes_interchange {g : Gate FuseMacro} (own : g.OnClock) (m : FuseMacro) (d : Device)
    {word : Word} (within : word.toNat < 64) (value : Word) :
    let byAddress := run ⟨FuseMacro.bus, g⟩ (d.write (4 * word) value).run m
    let byNumber := run ⟨FuseMacro.bus, g⟩ (d.writeWord word value).run m
    byNumber.result = byAddress.result ∧ byAddress.state.Alike byNumber.state ∧
    (byNumber.state.shadow = byAddress.state.shadow ∨ m.Stalls d.controller.pollLimit ∧
      ∀ outcome, byAddress.result = .ok outcome → outcome = .error (.timeout d.controller.pollLimit)) := by
  intro byAddress byNumber
  obtain ⟨valid, numbered⟩ := Controller.validAddress_of_word within
  cases enabled : d.programmingEnabled with
  | false =>
    -- both are answered before the hardware is asked anything
    obtain ⟨result, -, state⟩ := run_of_unaided ⟨FuseMacro.bus, g⟩ m
      (Device.write_disabled enabled (4 * word) value)
    obtain ⟨result', -, state'⟩ := run_of_unaided ⟨FuseMacro.bus, g⟩ m
      (Device.guarded_disabled enabled fun _ => Controller.withClock (d.controller.writeWord word value))
    have left : byAddress.state = m := state
    have left' : byNumber.state = m := state'
    rw [left, left']
    exact ⟨result'.trans result.symm, .refl m, .inl rfl⟩
  | true =>
    have seen : byAddress.seen = _ := Device.seen_write enabled valid value
    have seen' : byNumber.seen = _ :=
      Operation.seen_guarded (Device.checkProgramming_enabled enabled) _
    simp only [Run.seen, Prod.mk.injEq, numbered] at seen seen'
    rw [seen.1, seen.2.2, seen'.1, seen'.2.2]
    exact own.clockedWrite_like_writeWord d.controller word value m

theorem writes_interchange_hung :
    let d : Device := ⟨.ofLimit 3, true⟩
    let byAddress (g : Gate FuseMacro) (m : FuseMacro) := run ⟨FuseMacro.bus, g⟩ (d.write (4 * 3) 5).run m
    let byNumber (g : Gate FuseMacro) (m : FuseMacro) := run ⟨FuseMacro.bus, g⟩ (d.writeWord 3 5).run m
    FuseMacro.gate.OnClock ∧ (Gate.alwaysOn FuseMacro).OnClock ∧ (3 : Word).toNat < 64 ∧
    (byNumber FuseMacro.gate FuseMacro.worn).result = (byAddress FuseMacro.gate FuseMacro.worn).result ∧
    (byAddress FuseMacro.gate FuseMacro.worn).state.Alike (byNumber FuseMacro.gate FuseMacro.worn).state ∧
    (byNumber FuseMacro.gate FuseMacro.worn).state.shadow =
      (byAddress FuseMacro.gate FuseMacro.worn).state.shadow ∧
    (byNumber (.alwaysOn FuseMacro) FuseMacro.hung).result = .ok (.error (.timeout 3)) ∧
    (byAddress (.alwaysOn FuseMacro) FuseMacro.hung).state.shadow.get 3 = 1 ∧
    (byNumber (.alwaysOn FuseMacro) FuseMacro.hung).state.shadow.get 3 = 0 := by
  -- On a worn macro with its own clock the two writes come to the same. On a hung one without a
  -- clock they time out, and only that by address has loaded a row that was programmed since the
  -- last refresh.
  intro d byAddress byNumber
  have own : FuseMacro.gate.OnClock := OnMacro.onClock (.inr rfl)
  have none : (Gate.alwaysOn FuseMacro).OnClock := OnMacro.onClock (.inl rfl)
  have within : (3 : Word).toNat < 64 := by decide
  obtain ⟨result, alike, shadow⟩ := writes_interchange own FuseMacro.worn d within 5
  obtain ⟨failed, -⟩ := writes_interchange none FuseMacro.hung d within 5
  have settles : ¬ FuseMacro.worn.Stalls d.controller.pollLimit :=
    FuseMacro.not_stalls.2 ⟨rfl, by decide⟩
  refine ⟨own, none, within, result, alike,
    shadow.resolve_right fun stalled => settles stalled.1, failed.trans ?_, ?_, ?_⟩
  · decide +kernel
  · decide +kernel
  · decide +kernel

end FuseBank
