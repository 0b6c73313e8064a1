import FuseBank.Proofs.MacroSettings

/-!
The array under arbitrary traffic. What a run does to rows, pulse record and shadow registers is
decided by the commands it writes to the mode register, each looked at together with the macro that it
finds (`Routine.commands`): a command refreshes, sends a pulse, or does nothing to them
(`command_decode`). One command is `Burnt`, two runs of them in turn are again, and so is every run
(`burnt_run`).
-/

namespace FuseBank
open Routine

variable {σ α β γ : Type}

namespace Mode

/-- A command word that sends a program pulse: a refresh or a power-down in it would come first. -/
def Pulses (v : Word) : Prop :=
  v &&& execute ≠ 0 ∧ v &&& program ≠ 0 ∧ v &&& refresh = 0 ∧ v &&& powerDown = 0

def Refreshes (v : Word) : Prop := v &&& execute ≠ 0 ∧ v &&& refresh ≠ 0

instance (v : Word) : Decidable (Pulses v) := inferInstanceAs (Decidable (_ ∧ _))

instance (v : Word) : Decidable (Refreshes v) := inferInstanceAs (Decidable (_ ∧ _))

end Mode

structure Command where
  found : FuseMacro
  value : Word

namespace Command

/-- The command sends a pulse to bit `b` of row `i`, and the macro is powered. -/
def Hits (c : Command) (i b : Nat) : Prop :=
  Mode.Pulses c.value ∧ c.found.powered = true ∧
    c.found.address.toNat % 128 = i ∧ c.found.address.toNat / 128 % 32 = b

def load (shadow : Vector Word 64) (c : Command) : Vector Word 64 :=
  if Mode.Refreshes c.value then c.found.rows.words else shadow

def recorded? (c : Command) : Option Word :=
  if Mode.Pulses c.value then some (c.found.address &&& 0xfff) else none

end Command

def Reply.later (r : Reply σ α) (next : α → σ → List γ) : List γ :=
  match r.result with
  | .error _ => []
  | .ok a => next a r.state

def Routine.commands (hw : Hardware FuseMacro) : Routine α → FuseMacro → List Command
  | done _, _ | halt _, _ => []
  | read offset next, m => (hw.bus.read offset m).later fun v t => commands hw (next v) t
  | write offset value next, m =>
    (if offset = Offset.mode then [⟨m, value⟩] else []) ++
      (hw.bus.write offset value m).later fun _ t => commands hw next t
  | enable next, m => (hw.gate.enable m).later fun answer t => commands hw (next answer) t
  | disable next, m => (hw.gate.disable m).later fun _ t => commands hw next t
  | log _ next, m => commands hw next m

theorem Row.index_ofBit (b : BitVec 1) : (ofBit b).index = b.toNat := by
  revert b
  decide

theorem Address.rowIndex_fields (a : Word) : ((fields a).rowIndex).val = a.toNat % 128 := by
  simp only [fields, FuseBit.rowIndex, Row.index_ofBit, BitVec.extractLsb'_toNat,
    Nat.shiftRight_eq_div_pow]
  omega

theorem Address.mask_eq (a : Word) : (fields a).mask = 1#32 <<< (a.toNat / 128 % 32) := by
  simp only [FuseBit.mask, fields, BitVec.extractLsb'_toNat, Nat.shiftRight_eq_div_pow]

theorem Address.mask_fields (a : Word) (b : Nat) :
    (fields a).mask.getLsbD b = true ↔ a.toNat / 128 % 32 = b := by
  simp only [mask_eq, BitVec.getLsbD_shiftLeft, BitVec.getLsbD_one, Bool.and_eq_true,
    Bool.not_eq_true', decide_eq_true_eq, decide_eq_false_iff_not]
  omega

namespace FuseMacro

variable {m m' m'' : FuseMacro} {cs cs' : List Command} {hw : Hardware FuseMacro}

theorem command_decode (m : FuseMacro) (v : Word) :
    (Mode.Refreshes v ∧
      (m.command v).1 = { m with busyRemaining := m.busyPolls, shadow := m.rows.words }) ∨
    (Mode.Pulses v ∧ (m.command v).1 = ({ m with busyRemaining := m.busyPolls } : FuseMacro).pulse.1) ∨
    (¬ Mode.Refreshes v ∧ ¬ Mode.Pulses v ∧ ∃ busy data powered,
      (m.command v).1 = { m with busyRemaining := busy, readData := data, powered := powered }) := by
  unfold Mode.Refreshes Mode.Pulses
  generalize same : m.command v = done
  simp only [command] at same
  split at same
  · rename_i idle
    subst same
    have none : v &&& Mode.execute = 0 := by simpa using idle
    exact .inr (.inr ⟨by simp [none], by simp [none], _, _, _, rfl⟩)
  rename_i executed
  have executed : v &&& Mode.execute ≠ 0 := by simpa using executed
  split at same
  · rename_i refreshed
    subst same
    exact .inl ⟨⟨executed, of_decide_eq_true refreshed⟩, rfl⟩
  rename_i unrefreshed
  have unrefreshed : v &&& Mode.refresh = 0 := by simpa using unrefreshed
  split at same
  · rename_i down
    subst same
    have down : v &&& Mode.powerDown ≠ 0 := of_decide_eq_true down
    exact .inr (.inr ⟨by simp [unrefreshed], fun pulses => down pulses.2.2.2, _, _, _, rfl⟩)
  rename_i up
  have up : v &&& Mode.powerDown = 0 := by simpa using up
  split at same
  · rename_i programs
    subst same
    exact .inr (.inl ⟨⟨executed, of_decide_eq_true programs, unrefreshed, up⟩, rfl⟩)
  rename_i reads
  have reads : v &&& Mode.program = 0 := by simpa using reads
  have neither : ¬ (v &&& Mode.execute ≠ 0 ∧ v &&& Mode.refresh ≠ 0) ∧
      ¬ (v &&& Mode.execute ≠ 0 ∧ v &&& Mode.program ≠ 0 ∧ v &&& Mode.refresh = 0 ∧
        v &&& Mode.powerDown = 0) := by
    simp [unrefreshed, reads]
  refine .inr (.inr ⟨neither.1, neither.2, ?_⟩)
  split at same
  · subst same
    exact ⟨_, _, _, rfl⟩
  split at same
  · subst same
    exact ⟨_, _, _, rfl⟩
  · subst same
    exact ⟨_, _, _, rfl⟩

theorem pulse_bit (m : FuseMacro) (i : Fin 128) (b : Nat) :
    (m.pulse.1.rows.get i).getLsbD b = true ↔ (m.rows.get i).getLsbD b = true ∨
      (m.powered = true ∧ m.address.toNat % 128 = i.val ∧ m.address.toNat / 128 % 32 = b) ∧
        (m.stuck.get i).getLsbD b = false := by
  have index := Address.rowIndex_fields m.address
  rw [pulse_eq]
  dsimp only
  rw [Rows.get_put]
  split
  · rename_i same
    subst same
    rw [BitVec.getLsbD_or, Bool.or_eq_true]
    refine or_congr_right ?_
    cases m.powered with
    | false => simp
    | true =>
      simp only [if_pos, BitVec.getLsbD_and, BitVec.getLsbD_not, Bool.and_eq_true, decide_eq_true_eq,
        Bool.not_eq_true', Address.mask_fields, index, true_and]
      constructor
      · rintro ⟨named, -, free⟩
        exact ⟨named, free⟩
      · rintro ⟨named, free⟩
        exact ⟨named, by omega, free⟩
  · rename_i other
    have elsewhere : m.address.toNat % 128 ≠ i.val := fun same => other (Fin.ext (index.trans same))
    simp [elsewhere]

/-- What commands make of the macro `m`: each bit that a pulse hit and that is not stuck is set, every
pulse is recorded, and every refresh loads the shadow registers. -/
structure Burnt (m : FuseMacro) (cs : List Command) (m' : FuseMacro) : Prop where
  rows : ∀ (i : Fin 128) (b : Nat), (m'.rows.get i).getLsbD b = true ↔
    (m.rows.get i).getLsbD b = true ∨ (∃ c ∈ cs, c.Hits i b) ∧ (m.stuck.get i).getLsbD b = false
  pulses : m'.pulses = m.pulses ++ cs.filterMap Command.recorded?
  shadow : m'.shadow = cs.foldl Command.load m.shadow
  stuck : m'.stuck = m.stuck

theorem Burnt.of_eq (rows : m'.rows = m.rows) (pulses : m'.pulses = m.pulses)
    (shadow : m'.shadow = m.shadow) (stuck : m'.stuck = m.stuck) : Burnt m [] m' where
  rows := by simp [rows]
  pulses := by simp [pulses]
  shadow := shadow
  stuck := stuck

theorem Burnt.append (h : Burnt m cs m') (h' : Burnt m' cs' m'') : Burnt m (cs ++ cs') m'' where
  rows i b := by
    rw [h'.rows, h.rows, h.stuck]
    simp only [List.mem_append]
    grind
  pulses := by rw [h'.pulses, h.pulses, List.filterMap_append, List.append_assoc]
  shadow := by rw [h'.shadow, h.shadow, List.foldl_append]
  stuck := h'.stuck.trans h.stuck

theorem burnt_command (m : FuseMacro) (v : Word) : Burnt m [⟨m, v⟩] (m.command v).1 := by
  obtain ⟨refreshes, state⟩ | ⟨pulses, state⟩ | ⟨unrefreshed, quiet, _, _, _, state⟩ :=
    command_decode m v
  · have quiet : ¬ Mode.Pulses v := fun pulses => refreshes.2 pulses.2.2.1
    rw [state]
    constructor
    · simp [Command.Hits, quiet]
    · simp [Command.recorded?, quiet]
    · simp [Command.load, refreshes]
    · rfl
  · have unrefreshed : ¬ Mode.Refreshes v := fun refreshes => refreshes.2 pulses.2.2.1
    rw [state]
    constructor
    · intro i b
      rw [pulse_bit]
      simp [Command.Hits, pulses]
    · rw [pulse_eq]
      simp [Command.recorded?, pulses]
    · rw [pulse_eq]
      simp [Command.load, unrefreshed]
    · rw [pulse_eq]
  · rw [state]
    constructor
    · simp [Command.Hits, quiet]
    · simp [Command.recorded?, quiet]
    · simp [Command.load, unrefreshed]
    · rfl

theorem burnt_write (o : Nat) (v : Word) (m : FuseMacro) :
    Burnt m (if o = Offset.mode then [⟨m, v⟩] else []) (writeRegister o v m).state := by
  by_cases mode : o = Offset.mode
  · subst mode
    exact burnt_command m v
  · obtain ⟨same, -⟩ | ⟨_, _, state⟩ := writeRegister_cases o v m
    · exact absurd same mode
    · rw [if_neg mode, state]
      exact .of_eq rfl rfl rfl rfl

theorem Burnt.request {r : Reply FuseMacro β} {next : β → FuseMacro → List Command}
    {rest : β → FuseMacro → Run FuseMacro α} (first : Burnt m cs r.state)
    (later : ∀ a, r.result = .ok a → Burnt r.state (next a r.state) (rest a r.state).state) :
    Burnt m (cs ++ r.later next) (r.toRun.andThen rest).state := by
  cases h : r.result with
  | error f =>
    obtain ⟨-, -, state⟩ := Reply.andThen_error rest h
    rw [state, Reply.later, h, List.append_nil]
    exact first
  | ok a =>
    obtain ⟨-, -, state⟩ := Reply.andThen_ok rest h
    rw [state, Reply.later, h]
    exact first.append (later a h)

theorem burnt_run (h : OnMacro hw) (p : Routine α) (m : FuseMacro) :
    Burnt m (commands hw p m) (run hw p m).state := by
  induction p generalizing m with
  | done a => exact .of_eq rfl rfl rfl rfl
  | halt fault => exact .of_eq rfl rfl rfl rfl
  | read o next ih =>
    have shown : Burnt m [] (hw.bus.read o m).state := by
      rw [h.bus_eq]
      change Burnt m [] (readRegister o m).state
      obtain ⟨_, state⟩ := readRegister_cases o m
      rw [state]
      exact .of_eq rfl rfl rfl rfl
    rw [run_read]
    exact shown.request fun v _ => ih v _
  | write o v next ih =>
    have written : Burnt m (if o = Offset.mode then [⟨m, v⟩] else []) (hw.bus.write o v m).state := by
      rw [h.bus_eq]
      exact burnt_write o v m
    rw [run_write, Run.after_andThen]
    exact written.request fun _ _ => ih _
  | enable next ih =>
    have switched : Burnt m [] (hw.gate.enable m).state := by
      obtain ⟨_, _, state⟩ := h.enable_state m
      rw [state]
      exact .of_eq rfl rfl rfl rfl
    rw [run_enable]
    exact switched.request fun answer _ => ih answer _
  | disable next ih =>
    have switched : Burnt m [] (hw.gate.disable m).state := by
      obtain ⟨_, _, state⟩ := h.disable_state m
      rw [state]
      exact .of_eq rfl rfl rfl rfl
    rw [run_disable]
    exact switched.request fun _ _ => ih _
  | log e next ih =>
    rw [run_log]
    exact ih m

theorem bus_answers : bus.Answers where
  read o m := by
    change ∃ v, (readRegister o m).result = .ok v
    unfold readRegister
    split
    · exact ⟨_, rfl⟩
    split
    · exact ⟨_, rfl⟩
    split
    · exact ⟨_, rfl⟩
    split
    · exact ⟨_, rfl⟩
    split
    · exact ⟨_, rfl⟩
    split
    · split
      · exact ⟨_, rfl⟩
      · exact ⟨_, rfl⟩
    · exact ⟨_, rfl⟩
  write o v m := by
    change (writeRegister o v m).result = .ok ()
    unfold writeRegister
    split
    · rfl
    split
    · rfl
    split
    · rfl
    · rfl

theorem enableClock_served (m : FuseMacro) (room : m.clock.enableCount.toNat + 1 < 2 ^ 32) :
    ∃ answer, (enableClock m).result = .ok answer ∧
      (enableClock m).state.clock.enableCount.toNat ≤ m.clock.enableCount.toNat + 1 ∧
      (enableClock m).state.clock.disableCount = m.clock.disableCount := by
  have below := MacroClock.count_ne_full room
  unfold enableClock
  split
  · exact ⟨_, rfl, Nat.le_succ _, rfl⟩
  · dsimp only
    rw [if_neg below]
    exact ⟨_, rfl, Nat.le_of_eq (toNat_succ below), rfl⟩

theorem disableClock_served (m : FuseMacro) (room : m.clock.disableCount.toNat + 1 < 2 ^ 32) :
    (disableClock m).result = .ok () ∧
      (disableClock m).state.clock.disableCount.toNat ≤ m.clock.disableCount.toNat + 1 ∧
      (disableClock m).state.clock.enableCount = m.clock.enableCount := by
  have below := MacroClock.count_ne_full room
  obtain ⟨returned, off⟩ := disableClock_off below
  rw [off]
  exact ⟨returned, Nat.le_of_eq (toNat_succ below), rfl⟩

end FuseMacro

inductive RawCall where
  | read (offset : Nat)
  | write (offset : Nat) (value : Word)
  | setBits (offset : Nat) (mask : Word)
  | enable
  | disable
deriving DecidableEq

namespace RawCall
open FuseMacro

def routine : RawCall → Routine Unit
  | read offset => do let _ ← readRegister offset
  | write offset value => writeRegister offset value
  | setBits offset mask => Routine.setBits offset mask
  | enable => .enable fun _ => done ()
  | disable => .disable (done ())

theorem served (call : RawCall) (m : FuseMacro)
    (enables : m.clock.enableCount.toNat + [call].count .enable < 2 ^ 32)
    (disables : m.clock.disableCount.toNat + [call].count .disable < 2 ^ 32) :
    ∃ m', Yields hardware call.routine m () m' ∧
      m'.clock.enableCount.toNat ≤ m.clock.enableCount.toNat + [call].count .enable ∧
      m'.clock.disableCount.toNat ≤ m.clock.disableCount.toNat + [call].count .disable := by
  have unclocked (m' : FuseMacro) (same : m'.clock = m.clock) :
      m'.clock.enableCount.toNat ≤ m.clock.enableCount.toNat + [call].count .enable ∧
      m'.clock.disableCount.toNat ≤ m.clock.disableCount.toNat + [call].count .disable := by
    rw [same]
    exact ⟨Nat.le_add_right _ _, Nat.le_add_right _ _⟩
  cases call with
  | read offset =>
    obtain ⟨v, shown⟩ := bus_answers.read offset m
    exact ⟨_, yields_read shown (yields_done _ _), unclocked _ (readRegister_clock offset m)⟩
  | write offset value =>
    exact ⟨_, Routine.yields_write (bus_answers.write offset value m) (yields_done _ _),
      unclocked _ (writeRegister_clock offset value m)⟩
  | setBits offset mask =>
    obtain ⟨v, shown⟩ := bus_answers.read offset m
    refine ⟨_, yields_read shown (Routine.yields_write (bus_answers.write offset _ _) (yields_done _ _)),
      unclocked _ ?_⟩
    exact (writeRegister_clock offset _ _).trans (readRegister_clock offset m)
  | enable =>
    obtain ⟨answer, served, counted, other⟩ := enableClock_served m enables
    refine ⟨(enableClock m).state, ?_, counted, Nat.le_of_eq (congrArg BitVec.toNat other)⟩
    have step : (hardware.gate.enable m).result = .ok answer := served
    rw [Yields, routine, run_enable, Run.andThen, Reply.toRun, step]
    exact ⟨rfl, rfl⟩
  | disable =>
    obtain ⟨served, counted, other⟩ := disableClock_served m disables
    refine ⟨(disableClock m).state, ?_, Nat.le_of_eq (congrArg BitVec.toNat other), counted⟩
    have step : (hardware.gate.disable m).result = .ok () := served
    rw [Yields, routine, run_disable, Run.andThen, Reply.toRun, step]
    exact ⟨rfl, rfl⟩

theorem all_served (calls : List RawCall) (m : FuseMacro)
    (enables : m.clock.enableCount.toNat + calls.count .enable < 2 ^ 32)
    (disables : m.clock.disableCount.toNat + calls.count .disable < 2 ^ 32) :
    ∃ m', Yields hardware (calls.forM routine) m () m' := by
  induction calls generalizing m with
  | nil => exact ⟨m, yields_done () m⟩
  | cons call calls ih =>
    have split (other : RawCall) :
        ([call] ++ calls).count other = [call].count other + calls.count other :=
      List.count_append
    rw [← List.singleton_append] at enables disables
    rw [split] at enables disables
    obtain ⟨m', first, enabled, disabled⟩ := call.served m (by omega) (by omega)
    obtain ⟨m'', rest⟩ := ih m' (by omega) (by omega)
    exact ⟨m'', first.bind rest⟩

end RawCall

/-- Any calls at all on the registers and the clock of the macro come to their end, as long as the
clock's counters keep their range. Rows only gain bits, and a row gains a bit exactly if one of the
commands hit it while the macro was powered and it is not stuck; the record of pulses grows by one entry
for each command that sends one, powered or not; and the shadow registers change at refreshes only, to
the union of the two rows behind each word. -/
theorem raw_traffic_burns (m : FuseMacro) (calls : List RawCall)
    (enables : m.clock.enableCount.toNat + calls.count .enable < 2 ^ 32)
    (disables : m.clock.disableCount.toNat + calls.count .disable < 2 ^ 32) :
    let r := run FuseMacro.hardware (calls.forM RawCall.routine) m
    let cs := commands FuseMacro.hardware (calls.forM RawCall.routine) m
    r.result = .ok () ∧ (∀ i, (r.state.rows.get i).Covers (m.rows.get i)) ∧
      FuseMacro.Burnt m cs r.state := by
  intro r cs
  obtain ⟨_, returned, -⟩ := RawCall.all_served calls m enables disables
  have burnt : FuseMacro.Burnt m cs r.state := FuseMacro.burnt_run (.inr rfl) _ m
  refine ⟨returned, fun i => Word.covers_iff.2 fun b held => ?_, burnt⟩
  exact (burnt.rows i b).2 (.inl held)

theorem raw_traffic_burns_mixed :
    let m : FuseMacro := { FuseMacro.blank with stuck := (Vector.replicate 128 0).set 3 0x20 }
    let calls : List RawCall := [.enable, .write Offset.address 0xf283, .setBits Offset.mode 0x14,
      .write Offset.address 0x306, .write Offset.mode 0x17, .write Offset.mode 0x1c,
      .write Offset.mode 0x14, .write Offset.mode 0x34, .read 0x103, .disable]
    let r := run FuseMacro.hardware (calls.forM RawCall.routine) m
    r.result = .ok () ∧ r.state.pulses = [0x283, 0x306, 0x306] ∧
    (r.state.rows.get 3, r.state.rows.get 6, r.state.shadow.get 3) = (0, 0x40, 0x40) := by
  -- Of these commands the first meets a stuck bit, the second also asks for reads, the third for a
  -- power-down, the fourth comes without power, and the last also asks for a refresh.
  intro m calls r
  obtain ⟨returned, -, burnt⟩ := raw_traffic_burns m calls (by decide) (by decide)
  refine ⟨returned, burnt.pulses.trans ?_, ?_⟩
  · decide +kernel
  · decide +kernel

end FuseBank
