import FuseBank.Mapped.Window
import FuseBank.Proofs.PulseOrder

/-!
Commands over a whole history of calls and shutdowns, on any bus. The power writes repeat the bits
that they read from the mode register, so on a bus that keeps the last command they repeat that too;
`history_commands` says that nothing else gives a program command or powers the macro down that the
step at hand has not asked for.
-/

namespace FuseBank
open Routine Operation Traffic

variable {σ : Type}

inductive Step where
  | call (call : Call)
  | restart (config : Config)

namespace Session

def step (session : Session) : Step → Routine Session
  | .call call => do
    let (_, session) ← session.perform call
    return session
  | .restart config => do
    Device.shutdown
    return { device := ← Device.start config }

/-- All that a sequence of steps sends. After a fault the session is as before the step, and the next
step finds the hardware as the fault left it. -/
def history (hw : Hardware σ) : Session → σ → List Step → List Event
  | _, _, [] => []
  | session, s, step :: steps =>
    let r := run hw (session.step step) s
    r.traffic ++ history hw (r.result.toOption.getD session) r.state steps

end Session

/-- A program command is a pulse's own, directly after the address, or a power write's that repeats
the program bit it has just read. -/
def MayProgram (prev : Option Event) (e : Event) : Prop :=
  e.isProgram = true →
    (∃ word bit row, prev = some (.write Offset.address (Address.compose word bit row)) ∧
      e = .write Offset.mode (Mode.program ||| Mode.execute)) ∨
    ∃ m, prev = some (.read Offset.mode m) ∧ m &&& Mode.program ≠ 0 ∧
      (e = .write Offset.mode (m ||| Mode.execute) ∨
        e = .write Offset.mode (m ||| (Mode.powerDown ||| Mode.execute)))

def Event.isPowerDown : Event → Bool
  | write o v => o = Offset.mode ∧ v &&& Mode.powerDown ≠ 0
  | _ => false

def MayPowerDown (downs : Prop) (prev : Option Event) (e : Event) : Prop :=
  e.isPowerDown = true → ∃ m, prev = some (.read Offset.mode m) ∧
    (m &&& Mode.powerDown ≠ 0 ∧ e = .write Offset.mode (m ||| Mode.execute) ∨
      downs ∧ e = .write Offset.mode (m ||| (Mode.powerDown ||| Mode.execute)))

section Admitted

variable {pulsed : Word → Prop} {clocks downs : Prop} {prev : Option Event} {e : Event}

theorem Admitted.mayProgram (h : Admitted pulsed clocks downs prev e) : MayProgram prev e := by
  intro hp
  obtain ⟨word, bit, row, -, own⟩ | ⟨m, read, shown, up | ⟨-, down⟩⟩ := h.program_cases hp
  · exact .inl ⟨word, bit, row, own⟩
  · exact .inr ⟨m, read, shown, .inl up⟩
  · exact .inr ⟨m, read, shown, .inr down⟩

theorem Admitted.mayPowerDown (h : Admitted pulsed clocks downs prev e) :
    MayPowerDown downs prev e := by
  intro hp
  cases h with
  | pulse => cases hp
  | rowRead index mode => cases mode <;> cases hp
  | refresh => cases hp
  | powerUp m =>
    have asked : (m ||| Mode.execute) &&& Mode.powerDown ≠ 0 := by simpa [Event.isPowerDown] using hp
    rw [BitVec.and_or_distrib_right] at asked
    exact ⟨m, rfl, .inl ⟨by simpa [Mode.execute, Mode.powerDown] using asked, rfl⟩⟩
  | powerDown m allowed => exact ⟨m, rfl, .inr ⟨allowed, rfl⟩⟩
  | address _ v => simp [Event.isPowerDown, Offset.address, Offset.mode] at hp
  | control => cases hp
  | shadow => cases hp
  | clock _ _ _ call => cases e <;> first | cases hp | cases call

end Admitted

namespace Session

theorem keeps_step (session : Session) {downs : Prop} {step : Step}
    (allowed : ∀ config, step = .restart config → downs) :
    (session.step step).Keeps (Admitted (fun _ => True) True downs) := by
  cases step with
  | call call => exact (keeps_perform session (fun _ => trivial) call).bind fun _ => keeps_done _
  | restart config =>
    refine (Device.keeps_shutdown (allowed config rfl)).bind fun _ => ?_
    exact (Device.keeps_start config).bind fun _ => keeps_done _

theorem history_chained (hw : Hardware σ) (session : Session) (s : σ) {steps : List Step}
    {downs : Prop} (allowed : ∀ config, .restart config ∈ steps → downs) (prev : Option Event) :
    Chained (Admitted (fun _ => True) True downs) prev (session.history hw s steps) := by
  induction steps generalizing session s prev with
  | nil => trivial
  | cons step steps ih =>
    have first : (session.step step).Keeps (Admitted (fun _ => True) True downs) :=
      keeps_step session fun config h => allowed config (by simp [h])
    refine ((first prev).chained (sends_run hw _ s)).append fun last => ?_
    exact ih _ _ (fun config h => allowed config (List.mem_cons_of_mem _ h)) last

end Session

theorem pulses_eq_nil (hw : Hardware σ) (s : σ) {α : Type} {p : Routine α} {clocks downs : Prop}
    (h : p.Keeps (Admitted (fun _ => False) clocks downs)) :
    pulses none (run hw p s).traffic = [] := by
  rw [List.eq_nil_iff_forall_not_mem]
  intro a ha
  obtain ⟨word, bit, row, never, -⟩ := mem_pulses (h.chained hw s) ha
  exact never

theorem count_pulses {hw : Hardware σ} {c : Controller} {word value : Word} {s : σ}
    {outcome : Except DeviceError WriteReport}
    (returned : (run hw (c.writeWord word value).run s).result = .ok outcome)
    (complete : outcome ≠ .error (.timeout c.pollLimit)) (row : Row) :
    let es := (run hw (c.writeWord word value).run s).accesses
    ∃ before, rowValue word row .array (readings none none es) = some before ∧
      ∀ bit < 32, (pulses none es).count (Address.compose word (BitVec.ofNat 32 bit) row) =
        if (value &&& ~~~before).getLsbD bit then 1 else 0 := by
  intro es
  obtain ⟨ps, traffic, sent⟩ := writeWord_returned c word value s returned
  obtain ⟨owed, rows⟩ := traffic.of_complete complete
  obtain ⟨before, read⟩ := rows row
  rw [sent, owed]
  exact ⟨before, read, fun bit hb => count_owedPulses read hb⟩

/-- Whatever the steps before, a program command is a pulse's own or repeats what the mode register
has just shown, and so does a power-down that is not a shutdown's. A word write that runs to its end
gives each requested, missing bit of a row one pulse; physical reads, power-up, refresh and shutdown
give none. -/
theorem history_commands (hw : Hardware σ) (session : Session) (s : σ) (steps : List Step) :
    Chained MayProgram none (session.history hw s steps) ∧
    Chained (MayPowerDown (∃ config, .restart config ∈ steps)) none (session.history hw s steps) ∧
    Chained (MayPowerDown False) none (run hw (Controller.power true) s).traffic ∧
    (∀ (c : Controller) (word value : Word) (outcome : Except DeviceError WriteReport),
      (run hw (c.writeWord word value).run s).result = .ok outcome →
      outcome ≠ .error (.timeout c.pollLimit) →
      ∀ row, let es := (run hw (c.writeWord word value).run s).accesses
        ∃ before, rowValue word row .array (readings none none es) = some before ∧
          ∀ bit < 32, (pulses none es).count (Address.compose word (BitVec.ofNat 32 bit) row) =
            if (value &&& ~~~before).getLsbD bit then 1 else 0) ∧
    (∀ (d : Device) (index : Word) (mode : ReadMode),
      pulses none (run hw (d.readPhysical index mode).run s).traffic = []) ∧
    ∀ p ∈ [Controller.power true, Controller.refresh, Device.shutdown],
      pulses none (run hw p s).traffic = [] := by
  have chained : Chained (Admitted (fun _ => True) True (∃ config, .restart config ∈ steps)) none
      (session.history hw s steps) :=
    session.history_chained hw s (fun config h => ⟨config, h⟩) none
  have up : (Controller.power true).Keeps (Admitted (fun _ => False) False False) :=
    Controller.keeps_powerUp
  refine ⟨chained.imp fun _ _ h => h.mayProgram, chained.imp fun _ _ h => h.mayPowerDown,
    (up.chained hw s).imp fun _ _ h => h.mayPowerDown, ?_, ?_, ?_⟩
  · intro c word value outcome returned complete row
    exact count_pulses returned complete row
  · intro d index mode
    have quiet : (d.readPhysical index mode).run.Keeps (Admitted (fun _ => False) True False) :=
      Device.keeps_readPhysical d index mode
    exact pulses_eq_nil hw s quiet
  · have refresh : Controller.refresh.Keeps (Admitted (fun _ => False) False False) :=
      Controller.keeps_refresh
    have down : Device.shutdown.Keeps (Admitted (fun _ => False) False True) :=
      Device.keeps_shutdown trivial
    intro p hp
    simp only [List.mem_cons, List.not_mem_nil, or_false] at hp
    obtain rfl | rfl | rfl := hp
    · exact pulses_eq_nil hw s up
    · exact pulses_eq_nil hw s refresh
    · exact pulses_eq_nil hw s down

theorem history_commands_blank :
    (run FuseMacro.ungated ((Controller.ofLimit 1).writeWord 0 1).run FuseMacro.blank).result =
      .ok (.ok ⟨0, 1, .of 1 0 1, .of 1 0 1⟩) ∧
    (pulses none (run FuseMacro.ungated ((Controller.ofLimit 1).writeWord 0 1).run
      FuseMacro.blank).accesses).count (Address.compose 0 0 .low) = 1 := by
  have returned : (run FuseMacro.ungated ((Controller.ofLimit 1).writeWord 0 1).run
      FuseMacro.blank).result = .ok (.ok ⟨0, 1, .of 1 0 1, .of 1 0 1⟩) := by
    decide +kernel
  have unset : rowValue 0 .low .array (readings none none (run FuseMacro.ungated
      ((Controller.ofLimit 1).writeWord 0 1).run FuseMacro.blank).accesses) = some 0 := by
    decide +kernel
  refine ⟨returned, ?_⟩
  obtain ⟨-, -, -, complete, -⟩ :=
    history_commands FuseMacro.ungated ⟨⟨.ofLimit 1, true⟩, []⟩ FuseMacro.blank []
  obtain ⟨before, read, count⟩ := complete _ 0 1 _ returned (by simp) .low
  rw [unset] at read
  cases read
  exact count 0 (by decide)

def MappedController.plain : MappedController := ⟨⟨defaultBase, defaultWindowSize.toNat, 4096⟩, none⟩

theorem command_repeated_plain :
    (¬ ∀ p ∈ programs none (Session.history MappedController.plain.hardware
        ⟨⟨.ofLimit 1, true⟩, []⟩ {} [.call (.programBit 0 0 .low), .call (.readPhysical 0 0)]),
      ∃ word bit row, p = some (Address.compose word bit row)) ∧
    ¬ ∀ e ∈ (run MappedController.plain.hardware (Controller.power true)
        (run MappedController.plain.hardware Device.shutdown {}).state).traffic,
      e.isPowerDown = false := by
  -- Over plain memory the mode register keeps the last command, and the next power-up repeats it: a
  -- pulse at whatever address stands there, and after a shutdown the power-down.
  have sent : programs none (Session.history MappedController.plain.hardware
      ⟨⟨.ofLimit 1, true⟩, []⟩ {} [.call (.programBit 0 0 .low), .call (.readPhysical 0 0)]) =
      [some 0, none] := by
    cbv
  have powered : (run MappedController.plain.hardware (Controller.power true)
      (run MappedController.plain.hardware Device.shutdown {}).state).traffic =
      [.read Offset.mode 0x18, .write Offset.mode 0x18] := by
    cbv
  rw [sent, powered]
  constructor
  · intro own
    obtain ⟨word, bit, row, h⟩ := own none (by simp)
    cases h
  · intro up
    cases up (.write Offset.mode 0x18) (by simp)

end FuseBank
