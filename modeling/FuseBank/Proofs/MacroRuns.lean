import Mathlib.Algebra.Group.Nat.Defs
import FuseBank.Emulation.FuseMacro
import FuseBank.Proofs.ControllerTraffic

/-!
Runs on the emulated macro. `Yields hw p s a s'` says that `p` gives `a` and leads from `s` to `s'`;
each of the controller's sequences has one such lemma, with the whole macro before and after. What a
sequence leaves in the address, data and busy registers is part of it, so that what comes after can
start from any residue.
-/

namespace FuseBank

namespace Routine

variable {σ α β : Type} {hw : Hardware σ} {s s' s'' : σ} {a : α} {b : β}

def Yields (hw : Hardware σ) (p : Routine α) (s : σ) (a : α) (s' : σ) : Prop :=
  (run hw p s).result = .ok a ∧ (run hw p s).state = s'

theorem yields_done (a : α) (s : σ) : Yields hw (done a) s a s := ⟨rfl, rfl⟩

theorem yields_note (level : Log.Level) (source : Log.Source) (message : String) (s : σ) :
    Yields hw (note level source message) s () s := ⟨rfl, rfl⟩

theorem Yields.bind {p : Routine α} {f : α → Routine β} (hp : Yields hw p s a s')
    (hf : Yields hw (f a) s' b s'') : Yields hw (p >>= f) s b s'' := by
  have step : run hw (p >>= f) s = (run hw (f a) s').after (run hw p s).events := by
    rw [run_bind, Run.andThen, hp.1, hp.2]
  rw [Yields, step]
  exact hf

theorem yields_read {o : Nat} {next : Word → Routine α} {v : Word}
    (hv : (hw.bus.read o s).result = .ok v)
    (hn : Yields hw (next v) (hw.bus.read o s).state a s') : Yields hw (read o next) s a s' := by
  obtain ⟨earlier, -, goesOn⟩ := run_read_ok hv next
  rw [Yields, goesOn]
  exact hn

theorem yields_write {o : Nat} {v : Word} {next : Routine α}
    (hv : (hw.bus.write o v s).result = .ok ())
    (hn : Yields hw next (hw.bus.write o v s).state a s') : Yields hw (write o v next) s a s' := by
  obtain ⟨earlier, -, goesOn⟩ := run_write_ok hv next
  rw [Yields, goesOn]
  exact hn

end Routine

namespace Operation
open Routine

variable {σ α β : Type} {hw : Hardware σ} {s s' s'' : σ} {a : α}

theorem yields_lift {p : Routine α} (h : Yields hw p s a s') :
    Yields hw (liftM p : Operation α).run s (.ok a) s' := by
  rw [ExceptT.run_liftM, map_eq_pure_bind]
  exact h.bind (yields_done _ _)

theorem yields_andThen {op : Operation α} {f : α → Operation β} {r : Except DeviceError β}
    (hop : Yields hw op.run s (.ok a) s') (hf : Yields hw (f a).run s' r s'') :
    Yields hw (op >>= f).run s r s'' := by
  rw [ExceptT.run_bind]
  exact hop.bind hf

theorem yields_attempt {op : Operation α} {r : Except DeviceError α} (h : Yields hw op.run s r s') :
    Yields hw (Operation.attempt op).run s (.ok r) s' :=
  yields_lift h

theorem run_withClock_ok (on : (hw.gate.enable s).result = .ok (.ok ())) (body : Operation α) :
    ∃ earlier, earlier.filter Event.isTraffic = [.enabled] ∧ run hw (Controller.withClock body).run s =
      (run hw (body.run >>= fun outcome => disable (done outcome)) (hw.gate.enable s).state).after earlier :=
  run_enable_ok on _

theorem yields_withClock {body : Operation α} {r : Except DeviceError α}
    (on : (hw.gate.enable s).result = .ok (.ok ()))
    (h : Yields hw body.run (hw.gate.enable s).state r s')
    (off : (hw.gate.disable s').result = .ok ()) :
    Yields hw (Controller.withClock body).run s r (hw.gate.disable s').state := by
  have switchedOff : Yields hw (disable (done r)) s' r (hw.gate.disable s').state := by
    obtain ⟨earlier, -, goesOn⟩ := run_disable_ok off (done r)
    rw [Yields, goesOn]
    exact ⟨rfl, rfl⟩
  obtain ⟨earlier, -, goesOn⟩ := run_withClock_ok on body
  rw [Yields, goesOn]
  exact h.bind switchedOff

end Operation

theorem Word.and_low (w : Word) {n : Nat} (within : n ≤ 32) :
    w &&& BitVec.ofNat 32 (2 ^ n - 1) = (w.setWidth n).setWidth 32 := by
  have pow : 2 ^ n ≤ 2 ^ 32 := Nat.pow_le_pow_right (by decide) within
  have positive : 0 < 2 ^ n := Nat.two_pow_pos n
  have small : w.toNat % 2 ^ n < 2 ^ 32 := Nat.lt_of_lt_of_le (Nat.mod_lt _ positive) pow
  apply BitVec.eq_of_toNat_eq
  rw [BitVec.toNat_and, BitVec.toNat_ofNat, Nat.mod_eq_of_lt (by omega), Nat.and_two_pow_sub_one_eq_mod,
    BitVec.toNat_setWidth, BitVec.toNat_setWidth, Nat.mod_eq_of_lt small]

theorem Row.index_lt (row : Row) : row.index < 2 := by
  cases row <;> decide

theorem Row.toNat_toBit (row : Row) : row.toBit.toNat = row.index := by
  cases row <;> rfl

namespace Address

def rowOf (word : Word) (row : Row) : Fin 128 :=
  ⟨2 * (word.toNat % 64) + row.index, by cases row <;> simp only [Row.index] <;> omega⟩

theorem rowOf_val (word : Word) (row : Row) :
    (rowOf word row).val = 2 * (word.toNat % 64) + row.index := rfl

theorem physicalWord_toNat (word : Word) (row : Row) :
    (physicalWord word row).toNat = 2 * (word.toNat % 64) + row.index := by
  have small := row.index_lt
  unfold physicalWord
  rw [BitVec.toNat_setWidth, BitVec.toNat_append, BitVec.toNat_setWidth, row.toNat_toBit,
    ← Nat.shiftLeft_add_eq_or_of_lt small, Nat.shiftLeft_eq]
  omega

theorem readRow_physicalWord (word : Word) (row : Row) :
    readRow (physicalWord word row) = rowOf word row := by
  apply Fin.ext
  simp only [readRow, Fin.ofNat, physicalWord_toNat, rowOf_val]
  have bound := (rowOf word row).isLt
  rw [rowOf_val] at bound
  exact Nat.mod_eq_of_lt bound

theorem rowIndex_compose (word bit : Word) (row : Row) :
    (fields (compose word bit row)).rowIndex = rowOf word row := by
  rw [fields_compose]
  apply Fin.ext
  simp only [FuseBit.rowIndex, BitVec.toNat_setWidth, rowOf_val]

theorem mask_compose (word bit : Word) (row : Row) :
    (fields (compose word bit row)).mask = 1#32 <<< (bit.toNat % 32) := by
  rw [fields_compose, FuseBit.mask, BitVec.toNat_setWidth]

theorem compose_and (word bit : Word) (row : Row) :
    compose word bit row &&& 0xfff = compose word bit row := by
  let address := bit.setWidth 5 ++ word.setWidth 6 ++ row.toBit
  have kept : (address.setWidth 32).setWidth 12 = address := by
    rw [BitVec.setWidth_setWidth_of_le _ (by decide), BitVec.setWidth_eq]
  have low := (compose word bit row).and_low (n := 12) (by decide)
  exact low.trans (congrArg (·.setWidth 32) kept)

end Address

namespace Rows

def put (rows : Rows) (row : Fin 128) (value : Word) : Rows := rows.set row value row.isLt

theorem get_put (rows : Rows) (row other : Fin 128) (value : Word) :
    (rows.put row value).get other = if row = other then value else rows.get other := by
  have index : row = other ↔ row.val = other.val := Fin.ext_iff
  simp only [index]
  exact Vector.getElem_set row.isLt other.isLt

@[simp] theorem get_put_self (rows : Rows) (row : Fin 128) (value : Word) :
    (rows.put row value).get row = value := by
  rw [get_put, if_pos rfl]

theorem get_replicate (row : Fin 128) : Vector.get (Vector.replicate 128 (0 : Word)) row = 0 :=
  Vector.getElem_replicate row.isLt

theorem put_put (rows : Rows) (row : Fin 128) (old new : Word) :
    (rows.put row old).put row new = rows.put row new :=
  Vector.set_set ..

@[simp] theorem put_get (rows : Rows) (row : Fin 128) : rows.put row (rows.get row) = rows :=
  Vector.set_getElem_self ..

end Rows

namespace MacroClock

def switchedOn (clock : MacroClock) : MacroClock :=
  { clock with enabled := true, enableCount := clock.enableCount + 1 }

def switchedOff (clock : MacroClock) : MacroClock :=
  { clock with enabled := false, disableCount := clock.disableCount + 1 }

theorem count_ne_full {count : Word} {n : Nat} (room : count.toNat + (n + 1) < 2 ^ 32) :
    count ≠ BitVec.allOnes 32 := by
  rintro rfl
  rw [BitVec.toNat_allOnes] at room
  omega

end MacroClock

namespace FuseMacro
open Routine Operation

variable {α : Type} {g : Gate FuseMacro} {m : FuseMacro} {c : Controller}

theorem enableClock_on (working : m.clock.failing = false)
    (below : m.clock.enableCount ≠ BitVec.allOnes 32) :
    (enableClock m).result = .ok (.ok ()) ∧
    (enableClock m).state = { m with clock := m.clock.switchedOn } := by
  unfold enableClock
  rw [if_neg (by simp [working])]
  dsimp only
  rw [if_neg below]
  exact ⟨rfl, rfl⟩

theorem disableClock_off (below : m.clock.disableCount ≠ BitVec.allOnes 32) :
    (disableClock m).result = .ok () ∧
    (disableClock m).state = { m with clock := m.clock.switchedOff } := by
  unfold disableClock
  dsimp only
  rw [if_neg below]
  exact ⟨rfl, rfl⟩

theorem yields_powerUp : Yields ⟨bus, g⟩ (Controller.power true) m ()
    { m with busyRemaining := m.busyPolls, powered := true } :=
  yields_read rfl (yields_write rfl (yields_done _ _))

theorem yields_refresh : Yields ⟨bus, g⟩ Controller.refresh m ()
    { m with busyRemaining := m.busyPolls, shadow := m.rows.words } :=
  yields_write rfl (yields_done _ _)

theorem yields_status {next : Word → Routine α} {a : α} {m' : FuseMacro}
    (h : Yields ⟨bus, g⟩ (next m.status.1) m.status.2 a m') :
    Yields ⟨bus, g⟩ (read Offset.status next) m a m' :=
  yields_read rfl h

theorem yields_poll {limit n : Nat} (idle : m.hang = false) (short : m.busyRemaining.toNat < n) :
    Yields ⟨bus, g⟩ (Controller.poll limit n).run m (.ok ()) { m with busyRemaining := 0 } := by
  induction n generalizing m with
  | zero => omega
  | succ n ih =>
    rw [Controller.poll_succ]
    apply yields_status
    have awake : ¬ m.hang = true := by simp [idle]
    by_cases settled : m.busyRemaining = 0
    · have status : m.status = (Status.idle, m) := by
        unfold status
        rw [if_neg awake, if_pos settled]
      have same : { m with busyRemaining := 0 } = m := by rw [← settled]
      rw [status, same]
      dsimp only
      rw [if_neg (by decide)]
      exact yields_done _ m
    · have status : m.status = (Status.busy, { m with busyRemaining := m.busyRemaining - 1 }) := by
        unfold status
        rw [if_neg awake, if_neg settled]
      have positive : 0 < m.busyRemaining.toNat := by
        apply Nat.pos_of_ne_zero
        intro h
        exact settled (BitVec.eq_of_toNat_eq h)
      have fewer : (m.busyRemaining - 1).toNat = m.busyRemaining.toNat - 1 :=
        BitVec.toNat_sub_of_le (BitVec.le_def.2 positive)
      rw [status]
      dsimp only
      rw [if_pos (by decide)]
      refine ih (m := { m with busyRemaining := m.busyRemaining - 1 }) idle ?_
      change (m.busyRemaining - 1).toNat < n
      omega

theorem yields_waitReady (idle : m.hang = false) (short : m.busyRemaining.toNat < c.pollLimit) :
    Yields ⟨bus, g⟩ c.waitReady.run m (.ok ()) { m with busyRemaining := 0 } :=
  yields_poll idle short

/-- What a read of a row shows. -/
def sensed (m : FuseMacro) (row : Fin 128) : ReadMode → Word
  | .array => m.rows.get row
  | .margin => m.rows.get row &&& ~~~m.weak.get row

theorem command_read (powered : m.powered = true) (mode : ReadMode) : (m.command mode.command).1 =
    { m with busyRemaining := m.busyPolls, readData := m.sensed (Address.readRow m.address) mode } := by
  have on : (if m.powered = true then m.sensed (Address.readRow m.address) mode else 0) =
      m.sensed (Address.readRow m.address) mode := if_pos powered
  rw [← on]
  cases mode <;> rfl

theorem yields_command {v : Word} {m' : FuseMacro} (h : (m.command v).1 = m') :
    Yields ⟨bus, g⟩ (Routine.writeRegister Offset.mode v) m () m' := by
  subst h
  exact yields_write rfl (yields_done _ _)

theorem yields_readPhysical (idle : m.hang = false) (short : m.busyPolls.toNat < c.pollLimit)
    (index : Word) (mode : ReadMode) : Yields ⟨bus, g⟩ (c.readPhysical index mode).run m
      (.ok (m.sensed (Address.readRow index) mode))
      { m with
        powered := true, address := index, busyRemaining := 0
        readData := m.sensed (Address.readRow index) mode } := by
  -- A physical read works from any residue: it powers up first, and that restarts the busy count.
  unfold Controller.readPhysical
  refine yields_andThen (yields_lift yields_powerUp) ?_
  refine yields_andThen (yields_waitReady idle short) ?_
  refine yields_andThen (yields_lift (yields_write rfl (yields_done _ _))) ?_
  refine yields_andThen (yields_lift (yields_command (command_read rfl mode))) ?_
  refine yields_andThen (yields_waitReady idle short) ?_
  exact yields_lift (yields_read rfl (yields_done _ _))

theorem command_program (powered : m.powered = true) (word bit : Word) (row : Row)
    (addressed : m.address = Address.compose word bit row) :
    (m.command (Mode.program ||| Mode.execute)).1 =
      { m with
        busyRemaining := m.busyPolls
        pulses := m.pulses ++ [Address.compose word bit row]
        rows := m.rows.put (Address.rowOf word row) (m.rows.get (Address.rowOf word row) |||
          (1#32 <<< (bit.toNat % 32)) &&& ~~~m.stuck.get (Address.rowOf word row)) } := by
  have mask : (Address.fields m.address).mask = 1#32 <<< (bit.toNat % 32) := by
    rw [addressed, Address.mask_compose]
  have target : (Address.fields m.address).rowIndex = Address.rowOf word row := by
    rw [addressed, Address.rowIndex_compose]
  have recorded : m.address &&& 0xfff = Address.compose word bit row := by
    rw [addressed, Address.compose_and]
  change ({ m with busyRemaining := m.busyPolls } : FuseMacro).pulse.1 = _
  unfold pulse
  dsimp only
  rw [if_pos powered, mask, recorded]
  simp only [target]
  rfl

/-- The macro after a program pulse: the bit is set, unless it is stuck. -/
def afterPulse (m : FuseMacro) (word bit : Word) (row : Row) : FuseMacro :=
  { m with
    address := Address.compose word bit row, busyRemaining := m.busyPolls
    pulses := m.pulses ++ [Address.compose word bit row]
    rows := m.rows.put (Address.rowOf word row) (m.rows.get (Address.rowOf word row) |||
      (1#32 <<< (bit.toNat % 32)) &&& ~~~m.stuck.get (Address.rowOf word row)) }

theorem yields_programBit (idle : m.hang = false) (short : m.busyRemaining.toNat < c.pollLimit)
    (powered : m.powered = true) (word bit : Word) (row : Row) :
    Yields ⟨bus, g⟩ (c.programBit word bit row).run m (.ok ()) (m.afterPulse word bit row) := by
  unfold Controller.programBit
  refine yields_andThen (yields_waitReady idle short) ?_
  refine yields_andThen (yields_lift (yields_write rfl (yields_done _ _))) ?_
  have sent := command_program
    (m := { m with address := Address.compose word bit row, busyRemaining := 0 }) powered
    word bit row rfl
  exact yields_lift (yields_command sent)

end FuseMacro

end FuseBank
