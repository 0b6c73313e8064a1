import FuseBank.Proofs.DisabledProgramming
import FuseBank.Proofs.MacroSettings
import FuseBank.Proofs.VerifiedWrites

/-!
Which pulses take. The handshake of a pulse is met with and without power, so a single pulse succeeds
on a macro that is powered down, which drops it. A restart powers the macro down; the physical reads and
the writes power it up before anything else, and no other call looks at the power at all. So what came
before a pulse decides whether it takes (`pulses_take_when_powered`).
-/

namespace FuseBank
open Routine Operation

variable {σ α β : Type}

def Call.powersUp : Call → Bool
  | .readPhysical _ _ | .writeWord _ _ | .write _ _ | .onFile _ (.write _) => true
  | .onFile _ (.control request _) => request = writeRequest
  | _ => false

/-- Whether the macro has power after a step, from whether it had before and what the step did. -/
def poweredAfterStep {σ : Type} (powered : Bool) : Step × Served σ → Bool
  | (.restart _, _) => false
  | (.call call, served) => powered || (call.powersUp && served.traffic.any Event.isAccess)

def poweredAfter {σ : Type} (powered : Bool) (log : List (Step × Served σ)) : Bool :=
  log.foldl poweredAfterStep powered

def OnlyPulses (_ : Option Event) (e : Event) : Prop :=
  ∀ command, e = .write Offset.mode command → command = Mode.program ||| Mode.execute

theorem OnlyPulses.of_ne {prev : Option Event} {e : Event} (h : ∀ v, e ≠ .write Offset.mode v) :
    OnlyPulses prev e :=
  fun v same => absurd same (h v)

theorem OnlyPulses.of_clockCall {prev : Option Event} {e : Event} (call : e.isClockCall) :
    OnlyPulses prev e := by
  refine .of_ne ?_
  rintro _ rfl
  cases call

theorem OnlyPulses.of_read (prev : Option Event) (o : Nat) (v : Word) : OnlyPulses prev (.read o v) :=
  .of_ne nofun

theorem Device.keeps_programBit_only (d : Device) (word bit : Word) (row : Row) :
    (d.programBit word bit row).run.Keeps OnlyPulses := by
  refine keeps_andThen (keeps_of_unaided d.checkProgramming_unaided) fun _ => ?_
  refine Controller.keeps_withClock_of (fun _ _ => .of_clockCall) ?_
  unfold Controller.programBit
  refine keeps_andThen (Controller.keeps_poll_of (fun prev v => .of_read prev _ v) _ _) fun _ => ?_
  refine keeps_andThen (keeps_lift fun _ => ⟨.of_ne ?_, trivial⟩) fun _ => ?_
  · rintro _ ⟨⟩
  · refine keeps_lift fun _ => ⟨?_, trivial⟩
    rintro _ ⟨⟩
    rfl

theorem Session.keeps_perform_only (session : Session) {call : Call} (still : call.powersUp = false) :
    (session.perform call).Keeps OnlyPulses := by
  cases call with
  | programmingEnabled => exact keeps_done _
  | openFile => exact keeps_done _
  | readShadow addr =>
    exact (Controller.keeps_readShadow_of (fun _ _ => .of_clockCall) OnlyPulses.of_read addr).bind
      fun _ => keeps_done _
  | readBuffer addr buffer =>
    exact (Controller.keeps_readBuffer_of (fun _ _ => .of_clockCall) OnlyPulses.of_read addr buffer).bind
      fun _ => keeps_done _
  | programBit word bit row =>
    exact (session.device.keeps_programBit_only word bit row).bind fun _ => keeps_done _
  | onFile number call =>
    cases call with
    | tell => exact keeps_done _
    | seek target => exact keeps_done _
    | read buffer =>
      exact (OpenFile.keeps_read_of (fun _ _ => .of_clockCall) OnlyPulses.of_read _ buffer).bind
        fun _ => keeps_done _
    | write data => cases still
    | control request argument =>
      have other : request ≠ writeRequest := of_decide_eq_false still
      refine Keeps.bind ?_ fun _ => keeps_done _
      unfold OpenFile.control
      split
      · exact keeps_done _
      split
      · refine Keeps.bind
          (Controller.keeps_readShadow_of (fun _ _ => .of_clockCall) OnlyPulses.of_read _) fun x => ?_
        split <;> exact keeps_done _
      exact (keeps_note _ _ _).bind fun _ => keeps_done _
  | _ => cases still

namespace FuseMacro

variable {hw : Hardware FuseMacro}

theorem relates_onlyPulses (h : OnMacro hw) :
    Relates hw OnlyPulses fun m m' : FuseMacro => m'.powered = m.powered :=
  h.relates (fun _ => rfl) (fun _ _ _ first second => second.trans first) (fun _ _ _ _ _ => rfl) (by
    intro prev o v m _ admitted
    obtain ⟨rfl, state⟩ | ⟨_, _, state⟩ := writeRegister_cases o v m
    · rw [state, admitted v rfl]
      change ({ m with busyRemaining := m.busyPolls } : FuseMacro).pulse.1.powered = _
      rw [pulse_eq]
    · rw [state])

theorem relates_staysPowered (h : OnMacro hw) {pulsed : Word → Prop} {clocks : Prop} :
    Relates hw (Admitted pulsed clocks False) fun m m' : FuseMacro =>
      m.powered = true → m'.powered = true :=
  h.relates (fun _ => id) (fun _ _ _ first second => second ∘ first) (fun _ _ _ _ _ => id) (by
    intro prev o v m given admitted powered
    obtain ⟨rfl, state⟩ | ⟨_, _, state⟩ := writeRegister_cases o v m
    · rw [state]
      have refreshed : (m.command Mode.refreshCommand).1 =
        { m with busyRemaining := m.busyPolls, shadow := m.rows.words } := rfl
      have poweredUp : (m.command (0 ||| Mode.execute)).1 =
        { m with busyRemaining := m.busyPolls, powered := true } := rfl
      cases admitted with
      | pulse =>
        change ({ m with busyRemaining := m.busyPolls } : FuseMacro).pulse.1.powered = _
        rw [pulse_eq]
        exact powered
      | rowRead _ mode =>
        rw [command_read powered]
        exact powered
      | refresh =>
        rw [refreshed]
        exact powered
      | powerUp shown =>
        obtain ⟨m', answer⟩ := given _ _ rfl
        rw [h.bus_eq] at answer
        have zero : shown = 0 := (Except.ok.inj answer).symm
        rw [zero, poweredUp]
      | powerDown _ allowed => exact allowed.elim
      | clock _ _ _ call => cases call
    · rw [state]
      exact powered)

end FuseMacro

/-- The first access is a power-up; a routine may end without one if `idle` holds. -/
def Routine.PowersFirst (idle : Prop) : Routine α → Prop
  | done _ => idle
  | halt _ => True
  | read o next => o = Offset.mode ∧ ∀ v, ∃ rest, next v = write Offset.mode (v ||| Mode.execute) rest
  | write _ _ _ | disable _ => False
  | enable next => ∀ answer, (next answer).PowersFirst idle
  | log _ next => next.PowersFirst idle

namespace Routine

theorem PowersFirst.bind {idle idle' : Prop} {p : Routine α} {f : α → Routine β}
    (hp : p.PowersFirst idle) (hf : idle → ∀ a, (f a).PowersFirst idle') :
    (p >>= f).PowersFirst idle' := by
  induction p with
  | done a => exact hf hp a
  | halt fault => trivial
  | read o next =>
    refine ⟨hp.1, fun v => ?_⟩
    obtain ⟨rest, same⟩ := hp.2 v
    exact ⟨rest >>= f, congrArg (· >>= f) same⟩
  | write => exact hp.elim
  | disable => exact hp.elim
  | enable next ih => exact fun answer => ih answer (hp answer)
  | log e next ih => exact ih hp

theorem powersFirst_of_unaided {p : Routine α} {a : α} (h : p.unaided? = some a) : p.PowersFirst True := by
  induction p with
  | done b => trivial
  | log e next ih => exact ih h
  | _ => cases h

end Routine

namespace Operation

theorem powersFirst_power (f : Unit → Operation α) :
    ((liftM (Controller.power true) : Operation Unit) >>= f).run.PowersFirst False :=
  ⟨rfl, fun _ => ⟨_, rfl⟩⟩

theorem powersFirst_guarded {guard : Operation α} {r : Except DeviceError α} {f : α → Operation β}
    (passed : guard.run.unaided? = some r) (hf : ∀ a, (f a).run.PowersFirst True) :
    (guard >>= f).run.PowersFirst True := by
  rw [ExceptT.run_bind]
  refine (powersFirst_of_unaided passed).bind fun _ outcome => ?_
  cases outcome with
  | ok a => exact hf a
  | error e => trivial

theorem powersFirst_withClock {body : Operation α} (h : body.run.PowersFirst False) :
    (Controller.withClock body).run.PowersFirst True := by
  intro answer
  cases answer with
  | error e => trivial
  | ok _ => exact h.bind (f := fun result => disable (done result)) nofun

theorem powersFirst_andThen {op : Operation α} {f : α → Operation β} (h : op.run.PowersFirst False) :
    (op >>= f).run.PowersFirst False := by
  rw [ExceptT.run_bind]
  exact h.bind nofun

theorem powersFirst_attempt {op : Operation α} (h : op.run.PowersFirst False) :
    (Operation.attempt op).run.PowersFirst False := by
  change (Except.ok <$> op.run).PowersFirst False
  rw [map_eq_pure_bind]
  exact h.bind nofun

end Operation

namespace Controller

theorem readPhysical_powersFirst (c : Controller) (index : Word) (mode : ReadMode) :
    (c.readPhysical index mode).run.PowersFirst False := powersFirst_power _

theorem writeWord_powersFirst (c : Controller) (word value : Word) :
    (c.writeWord word value).run.PowersFirst False := by
  have row : (c.writeRow word value .low 0).run.PowersFirst False := by
    unfold writeRow
    rw [ExceptT.run_bind, ExceptT.run_liftM, bind_map_left]
    exact powersFirst_andThen (c.readPhysical_powersFirst _ _)
  exact powersFirst_andThen row

end Controller

namespace Device

variable (d : Device)

theorem readPhysical_powersFirst (index : Word) (mode : ReadMode) :
    (d.readPhysical index mode).run.PowersFirst True :=
  powersFirst_withClock (d.controller.readPhysical_powersFirst index mode)

theorem writeWord_powersFirst (word value : Word) : (d.writeWord word value).run.PowersFirst True :=
  powersFirst_guarded d.checkProgramming_unaided fun _ =>
    powersFirst_withClock (d.controller.writeWord_powersFirst word value)

theorem write_powersFirst (addr value : Word) : (d.write addr value).run.PowersFirst True := by
  rw [write_eq]
  refine powersFirst_guarded (r := .ok ()) rfl fun _ => ?_
  refine powersFirst_guarded d.checkProgramming_unaided fun _ => ?_
  refine powersFirst_guarded (Controller.checkAddress_unaided addr) fun _ => ?_
  exact powersFirst_withClock
    (powersFirst_andThen (powersFirst_attempt (d.controller.writeWord_powersFirst _ _)))

end Device

theorem Session.perform_powersFirst (session : Session) {call : Call} (powers : call.powersUp = true) :
    (session.perform call).PowersFirst True := by
  have ended {γ δ : Type} {p : Routine γ} {f : γ → δ} (h : p.PowersFirst True) :
      (p >>= fun a => done (f a)).PowersFirst True := h.bind fun _ _ => trivial
  cases call with
  | readPhysical index mode =>
    exact ended (powersFirst_guarded (ReadMode.ofWord_unaided mode) fun mode =>
      session.device.readPhysical_powersFirst index mode)
  | writeWord word value => exact ended (session.device.writeWord_powersFirst word value)
  | write addr value => exact ended (session.device.write_powersFirst addr value)
  | onFile number call =>
    cases call with
    | write data =>
      refine ended ?_
      unfold OpenFile.write
      split
      · refine (Device.write_powersFirst _ _ _).bind fun _ outcome => ?_
        cases outcome with
        | error e => trivial
        | ok report =>
          dsimp only
          unfold OpenFile.written
          split
          · trivial
          · trivial
      · trivial
    | control request argument =>
      have asked : request = writeRequest := of_decide_eq_true powers
      refine ended ?_
      unfold OpenFile.control
      split
      · trivial
      rw [if_neg (by rw [asked]; decide), if_pos asked]
      refine (Device.write_powersFirst _ _ _).bind fun _ outcome => ?_
      cases outcome <;> trivial
    | _ => cases powers
  | _ => cases powers

namespace FuseMacro

variable {hw : Hardware FuseMacro}

theorem run_powerUp (h : OnMacro hw) {next : Word → Routine α} {rest : Routine α}
    (power : next 0 = write Offset.mode (0 ||| Mode.execute) rest) (m : FuseMacro) :
    ∃ earlier, (earlier.filter Event.isTraffic).any Event.isAccess = true ∧
      run hw (read Offset.mode next) m =
        (run hw rest { m with busyRemaining := m.busyPolls, powered := true }).after earlier := by
  have shown : (hw.bus.read Offset.mode m).result = .ok 0 ∧ (hw.bus.read Offset.mode m).state = m := by
    rw [h.bus_eq]
    exact ⟨rfl, rfl⟩
  have taken : (hw.bus.write Offset.mode (0 ||| Mode.execute) m).result = .ok () ∧
      (hw.bus.write Offset.mode (0 ||| Mode.execute) m).state =
        { m with busyRemaining := m.busyPolls, powered := true } := by
    rw [h.bus_eq]
    exact ⟨rfl, rfl⟩
  obtain ⟨reading, read, first⟩ := run_read_ok shown.1 next
  obtain ⟨writing, written, second⟩ := run_write_ok taken.1 rest
  refine ⟨reading ++ writing, ?_, ?_⟩
  · rw [List.filter_append, read]
    rfl
  · rw [first, power, shown.2, second, taken.2]
    exact Run.after_after _ _ _

theorem powered_run (h : OnMacro hw) {pulsed : Word → Prop} {Q : α → Option Event → Prop}
    {prev : Option Event} {p : Routine α} (first : p.PowersFirst True)
    (hp : p.Along (Admitted pulsed True False) Q prev) (m : FuseMacro) :
    (run hw p m).state.powered = (m.powered || (run hw p m).traffic.any Event.isAccess) := by
  induction p generalizing prev m with
  | done a => simp [Run.traffic]
  | halt fault => simp [Run.traffic]
  | read o next =>
    obtain ⟨rfl, powers⟩ := first
    obtain ⟨rest, power⟩ := powers 0
    obtain ⟨earlier, accessed, goesOn⟩ := run_powerUp h power m
    -- from the power-up on nothing takes the power away again
    have onward := (hp 0).2
    rw [power] at onward
    have stays := onward.2.related (relates_staysPowered h) (answered_of_ne (by simp))
      { m with busyRemaining := m.busyPolls, powered := true } _ (state_mem_visits rest _) rfl
    rw [goesOn, Run.traffic_after, List.any_append, accessed, Bool.true_or, Bool.or_true]
    exact stays
  | write => exact first.elim
  | disable => exact first.elim
  | enable next ih =>
    obtain ⟨_, _, state⟩ := h.enable_state m
    have same : (hw.gate.enable m).state.powered = m.powered := by rw [state]
    cases answered : (hw.gate.enable m).result with
    | error fault =>
      obtain ⟨-, traffic, state⟩ := Reply.andThen_error
        (fun a s => (run hw (next a) s).after [.ofEnable a]) answered
      rw [run_enable, traffic, state, same]
      simp
    | ok answer =>
      obtain ⟨earlier, sent, goesOn⟩ := run_enable_ok answered next
      have call : [Event.ofEnable answer].any Event.isAccess = false := by
        cases answer <;> rfl
      rw [goesOn, Run.traffic_after, sent, List.any_append, call, Bool.false_or, ← same]
      exact ih answer (first answer) (hp answer).2 _
  | log e next ih =>
    rw [run_log, Run.traffic_after]
    exact ih first hp m

theorem yields_restart (h : OnMacro hw) (session : Session) (config : Config) (m : FuseMacro) :
    Yields hw (session.answer (.restart config)) m (none, { device := .ofConfig config })
      { m with busyRemaining := m.busyPolls, powered := false } := by
  obtain ⟨bus, g⟩ := hw
  obtain rfl : bus = FuseMacro.bus := h.bus_eq
  have down : Yields ⟨FuseMacro.bus, g⟩ (Controller.power false) m ()
      { m with busyRemaining := m.busyPolls, powered := false } :=
    yields_read rfl (Routine.yields_write rfl (yields_done _ _))
  refine (down.bind (yields_note _ _ _ _)).bind ?_
  refine Yields.bind (a := .ofConfig config) ?_ (yields_done _ _)
  unfold Device.start
  split
  · exact (yields_note _ _ _ _).bind (yields_done _ _)
  · exact yields_done _ _

end FuseMacro

namespace Session

variable {hw : Hardware FuseMacro}

theorem serve_powered (h : OnMacro hw) (session : Session) (m : FuseMacro) (step : Step) :
    (session.serve hw m step).state.powered =
      poweredAfterStep m.powered (step, session.serve hw m step) := by
  cases step with
  | restart config =>
    have down := FuseMacro.yields_restart h session config m
    exact congrArg FuseMacro.powered down.2
  | call call =>
    rw [serve_call]
    dsimp only [poweredAfterStep]
    cases powers : call.powersUp with
    | true =>
      have keeps : (session.perform call).Keeps (Admitted (fun _ => True) True False) :=
        session.keeps_perform (fun _ => trivial) call
      exact FuseMacro.powered_run h (session.perform_powersFirst powers) (keeps none) m
    | false =>
      have same := (session.keeps_perform_only powers).related (FuseMacro.relates_onlyPulses h) m
      rw [same, Bool.false_and, Bool.or_false]

theorem after_powered (h : OnMacro hw) (session : Session) (m : FuseMacro) (steps : List Step) :
    (session.after hw m steps).2.powered = poweredAfter m.powered (session.transcript hw m steps) := by
  induction steps generalizing session m with
  | nil => rfl
  | cons step steps ih =>
    refine (ih (session.serve hw m step).session (session.serve hw m step).state).trans ?_
    rw [serve_powered h]
    rfl

end Session

namespace FuseMacro

def pulsedRows (m : FuseMacro) (word bit : Word) (row : Row) : Rows :=
  m.rows.put (Address.rowOf word row) (m.rows.get (Address.rowOf word row) |||
    if m.powered then 1#32 <<< (bit.toNat % 32) &&& ~~~m.stuck.get (Address.rowOf word row) else 0)

theorem command_pulsed (m : FuseMacro) (word bit : Word) (row : Row)
    (addressed : m.address = Address.compose word bit row) :
    (m.command (Mode.program ||| Mode.execute)).1.rows = m.pulsedRows word bit row := by
  change ({ m with busyRemaining := m.busyPolls } : FuseMacro).pulse.1.rows = _
  rw [pulse_eq]
  dsimp only
  rw [addressed, Address.rowIndex_compose, Address.mask_compose]
  rfl

theorem pulsedRows_unpowered {m : FuseMacro} (down : m.powered = false) (word bit : Word) (row : Row) :
    m.pulsedRows word bit row = m.rows := by
  have nothing : m.rows.get (Address.rowOf word row) ||| 0 = m.rows.get (Address.rowOf word row) :=
    BitVec.or_zero
  unfold pulsedRows
  rw [down, if_neg Bool.false_ne_true, nothing, Rows.put_get]

theorem pulsedRows_set {m : FuseMacro} (powered : m.powered = true) (word : Word) {bit : Word}
    (within : bit.toNat < 32) (row : Row)
    (free : (m.stuck.get (Address.rowOf word row)).getLsbD bit.toNat = false) :
    ((m.pulsedRows word bit row).get (Address.rowOf word row)).getLsbD bit.toNat = true := by
  have asked : (1#32 <<< bit.toNat).getLsbD bit.toNat = true := by
    rw [getLsbD_bit within, decide_eq_true rfl]
  unfold pulsedRows
  rw [Rows.get_put_self, if_pos powered, Nat.mod_eq_of_lt within, BitVec.getLsbD_or, BitVec.getLsbD_and,
    BitVec.getLsbD_not, asked, free]
  simp [within]

theorem pulsedRows_other (m : FuseMacro) (word : Word) {bit : Word} (within : bit.toNat < 32)
    (row : Row) {i : Fin 128} {b : Nat} (other : i ≠ Address.rowOf word row ∨ b ≠ bit.toNat) :
    ((m.pulsedRows word bit row).get i).getLsbD b = (m.rows.get i).getLsbD b := by
  unfold pulsedRows
  rw [Rows.get_put]
  split
  · subst i
    have unasked : (1#32 <<< bit.toNat).getLsbD b = false := by
      rw [getLsbD_bit within, decide_eq_false (other.resolve_left (· rfl))]
    rw [Nat.mod_eq_of_lt within, BitVec.getLsbD_or]
    split
    · rw [BitVec.getLsbD_and, unasked, Bool.false_and, Bool.or_false]
    · have nothing : (0 : Word).getLsbD b = false := BitVec.getLsbD_zero
      rw [nothing, Bool.or_false]
  · rfl

variable {hw : Hardware FuseMacro}

theorem succeeds_programBit (h : OnMacro hw) (d : Device) (word bit : Word) (row : Row) (m : FuseMacro) :
    Succeeds hw (d.programBit word bit row) (fun _ t => t.rows = m.pulsedRows word bit row) m := by
  obtain ⟨bus, g⟩ := hw
  obtain rfl : bus = FuseMacro.bus := h.bus_eq
  have checked : Ensures ⟨FuseMacro.bus, g⟩ d.checkProgramming.run (fun _ t => t = m) m :=
    fun _ _ => (run_of_unaided _ m d.checkProgramming_unaided).2.2
  unfold Device.programBit
  refine Succeeds.andThen (P := fun _ t => t = m) (checked.imp fun _ _ same _ _ => same) ?_
  intro _ t same
  rw [same]
  refine succeeds_withClock fun _ => ?_
  obtain ⟨enabled, count, on⟩ := h.enable_state m
  rw [on]
  unfold Controller.programBit
  refine (succeeds_waitReady _).andThen ?_
  rintro _ _ ⟨busy, rfl⟩
  refine .of_yields (Routine.yields_write rfl (yields_done _ _)) ?_
  refine succeeds_lift ((yields_command rfl).ensures ?_)
  obtain ⟨_, _, off⟩ := h.disable_state _
  rw [off]
  exact command_pulsed _ word bit row rfl

end FuseMacro

theorem Session.serve_programBit {hw : Hardware FuseMacro} (h : OnMacro hw) (session : Session)
    (m : FuseMacro) (word bit : Word) (row : Row) {response : Response} {answer : Answer}
    (returned : (session.serve hw m (.call (.programBit word bit row))).response = some response)
    (succeeded : response.result = .ok answer) :
    (session.serve hw m (.call (.programBit word bit row))).state.rows = m.pulsedRows word bit row := by
  have pulses : Ensures hw (session.perform (.programBit word bit row))
      (fun x t => ∀ answer, x.1.result = .ok answer → t.rows = m.pulsedRows word bit row) m :=
    (FuseMacro.succeeds_programBit h session.device word bit row m).bind
      (fun _ _ => ensures_done nofun) fun _ _ rows => ensures_done fun _ _ => rows
  obtain ⟨_, left⟩ := serve_ensures pulses returned
  exact left answer succeeded

/-- After any steps, restarts among them, the macro has power just if a call that powers up has reached
it since the last restart, or there was no restart and it had power at the start. A single pulse that is
answered with success then takes, unless its bit is stuck; without power it changes no row. It never
changes another bit. -/
theorem pulses_take_when_powered {hw : Hardware FuseMacro} (onMacro : OnMacro hw) (session : Session)
    (m : FuseMacro) (steps : List Step) {word bit : Word} {row : Row} {target : Fin 128}
    (place : target.val = 2 * word.toNat + row.index) (within : bit.toNat < 32) :
    let reached := session.after hw m steps
    let before := reached.2
    let served := reached.1.serve hw before (.call (.programBit word bit row))
    before.powered = poweredAfter m.powered (session.transcript hw m steps) ∧
    ∀ response answer, served.response = some response → response.result = .ok answer →
      (before.powered = true → (before.stuck.get target).getLsbD bit.toNat = false →
        (served.state.rows.get target).getLsbD bit.toNat = true) ∧
      (before.powered = false → served.state.rows = before.rows) ∧
      ∀ (i : Fin 128) (b : Nat), i ≠ target ∨ b ≠ bit.toNat →
        (served.state.rows.get i).getLsbD b = (before.rows.get i).getLsbD b := by
  intro reached before served
  refine ⟨Session.after_powered onMacro session m steps, fun response answer returned succeeded => ?_⟩
  have named : target = Address.rowOf word row := by
    have small := row.index_lt
    have bound := target.isLt
    apply Fin.ext
    rw [place, Address.rowOf_val, Nat.mod_eq_of_lt (by omega)]
  have pulsed : served.state.rows = before.pulsedRows word bit row :=
    reached.1.serve_programBit onMacro before word bit row returned succeeded
  rw [pulsed, named]
  refine ⟨fun powered free => ?_, fun down => ?_, fun i b other => ?_⟩
  · exact FuseMacro.pulsedRows_set powered word within row free
  · exact FuseMacro.pulsedRows_unpowered down word bit row
  · exact before.pulsedRows_other word within row other

theorem pulse_lost_after_restart :
    let config : Config := { programmingEnabled := true }
    let reached := Session.after FuseMacro.hardware { device := .ofConfig config }
      FuseMacro.blank.attachClock [.restart config]
    let served := reached.1.serve FuseMacro.hardware reached.2 (.call (.programBit 0 0 .low))
    served.response.any (·.result.isOk) = true ∧
    (reached.2.stuck.get 0).getLsbD 0 = false ∧ (served.state.rows.get 0).getLsbD 0 = false := by
  -- A device made new after a shutdown answers a pulse with success, and the pulse is lost.
  decide +kernel

theorem pulses_take_when_powered_read :
    let config : Config := { programmingEnabled := true }
    let steps : List Step := [.restart config, .call (.readPhysical 9 0)]
    let reached := Session.after FuseMacro.hardware { device := .ofConfig config }
      FuseMacro.blank.attachClock steps
    let served := reached.1.serve FuseMacro.hardware reached.2 (.call (.programBit 3 4 .high))
    (7 : Fin 128).val = 2 * (3 : Word).toNat + Row.high.index ∧ (4 : Word).toNat < 32 ∧
    reached.2.powered = true ∧ (served.state.rows.get 7).getLsbD 4 = true ∧
    ∀ i : Fin 128, i ≠ 7 → (served.state.rows.get i).getLsbD 4 = false := by
  intro config steps reached served
  have place : (7 : Fin 128).val = 2 * (3 : Word).toNat + Row.high.index := by decide
  have within : (4 : Word).toNat < 32 := by decide
  obtain ⟨power, takes⟩ := pulses_take_when_powered (.inr rfl) { device := .ofConfig config }
    FuseMacro.blank.attachClock steps place within
  have powered : reached.2.powered = true := power.trans (by decide +kernel)
  have answered : ∃ response answer, served.response = some response ∧ response.result = .ok answer := by
    have succeeds : served.response.any (·.result.isOk) = true := by decide +kernel
    obtain ⟨response, returned, succeeds⟩ := (Option.any_eq_true _ _).1 succeeds
    cases result : response.result with
    | ok answer => exact ⟨response, answer, returned, result⟩
    | error e => simp [result, Except.isOk, Except.toBool] at succeeds
  obtain ⟨response, answer, returned, succeeded⟩ := answered
  obtain ⟨set, -, others⟩ := takes response answer returned succeeded
  refine ⟨place, within, powered, set powered (by decide +kernel), fun i other => ?_⟩
  have untouched : ∀ i : Fin 128, (reached.2.rows.get i).getLsbD 4 = false := by decide +kernel
  exact (others i 4 (.inl other)).trans (untouched i)

end FuseBank
