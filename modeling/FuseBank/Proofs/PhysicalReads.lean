import FuseBank.Proofs.MacroSettings
import FuseBank.Proofs.StalledMacro
import FuseBank.Proofs.Transcript

/-!
Physical reads of the emulated macro. The read powers the macro up and names the row itself, so that its
result comes from the row, its weak bits and the macro's pace alone (`readOutcome`), and nothing that was
sent before shows in it but through the rows (`physical_reads_see_rows`).
-/

namespace FuseBank
open Routine Operation

variable {hw : Hardware FuseMacro} {m m' : FuseMacro}

namespace FuseMacro

instance (m : FuseMacro) (polls : Nat) : Decidable (m.Stalls polls) := inferInstanceAs (Decidable (_ ∨ _))

/-- What a physical read of a row comes to, under a limit of polls. -/
def readOutcome (m : FuseMacro) (limit : Nat) (row : Fin 128) (mode : ReadMode) :
    Except DeviceError Word :=
  if m.Stalls limit then .error (.timeout limit) else .ok (m.sensed row mode)

theorem sensed_congr {row : Fin 128} (rows : m'.rows.get row = m.rows.get row)
    (weak : m'.weak.get row = m.weak.get row) (mode : ReadMode) :
    m'.sensed row mode = m.sensed row mode := by
  cases mode with
  | array => exact rows
  | margin =>
    unfold sensed
    rw [rows, weak]

theorem readOutcome_congr {limit : Nat} {row : Fin 128} (rows : m'.rows.get row = m.rows.get row)
    (weak : m'.weak.get row = m.weak.get row) (hang : m'.hang = m.hang)
    (busyPolls : m'.busyPolls = m.busyPolls) (mode : ReadMode) :
    m'.readOutcome limit row mode = m.readOutcome limit row mode := by
  have pace : m'.Stalls limit ↔ m.Stalls limit := by
    unfold Stalls
    rw [hang, busyPolls]
  simp only [readOutcome, pace, sensed_congr rows weak]

/-- What a physical read leaves alone; in any case it powers the macro up. -/
structure OnlyRead (m m' : FuseMacro) : Prop where
  rows : m'.rows = m.rows
  shadow : m'.shadow = m.shadow
  weak : m'.weak = m.weak
  stuck : m'.stuck = m.stuck
  pulses : m'.pulses = m.pulses
  powered : m'.powered = true

end FuseMacro

theorem ClockReady.onMacro (ready : ClockReady hw m) : OnMacro hw := ready.imp_right And.left

theorem ClockReady.yields_readPhysical (ready : ClockReady hw m) (d : Device) (index : Word)
    (mode : ReadMode) : ∃ t, Yields hw (d.readPhysical index mode).run m
      (m.readOutcome d.controller.pollLimit (Address.readRow index) mode) t ∧ m.OnlyRead t := by
  unfold FuseMacro.readOutcome
  by_cases stalls : m.Stalls d.controller.pollLimit
  · rw [if_pos stalls]
    obtain ⟨clock, read⟩ := ready.yields_withClock
      (fun clock => { m with clock := clock }.timedOut d.controller.pollLimit) (fun _ _ => rfl)
      fun clock => FuseMacro.yields_readPhysical_timeout (m := { m with clock := clock }) stalls index mode
    exact ⟨_, read, ⟨rfl, rfl, rfl, rfl, rfl, rfl⟩⟩
  · rw [if_neg stalls]
    obtain ⟨idle, short⟩ := FuseMacro.not_stalls.1 stalls
    obtain ⟨clock, read⟩ := ready.yields_withClock (r := .ok (m.sensed (Address.readRow index) mode))
      (fun clock => { m with
        powered := true, address := index, busyRemaining := 0
        readData := m.sensed (Address.readRow index) mode, clock := clock })
      (fun _ _ => rfl)
      fun clock => FuseMacro.yields_readPhysical (m := { m with clock := clock }) idle short index mode
    exact ⟨_, read, ⟨rfl, rfl, rfl, rfl, rfl, rfl⟩⟩

theorem Session.after_settings (onMacro : OnMacro hw) (session : Session) (m : FuseMacro)
    (steps : List Step) : m.SameSettings (session.after hw m steps).2 := by
  induction steps generalizing session m with
  | nil => exact .refl m
  | cons step steps ih =>
    have now : m.SameSettings (session.serve hw m step).state :=
      FuseMacro.settings_run onMacro (session.answer step) m
    exact now.trans (ih (session.serve hw m step).session (session.serve hw m step).state)

/-- A physical read shows the row as the array holds it, at the margin threshold without its weak bits,
whatever the registers held before; a macro that is not done within the limit times it out. It changes
neither fuses nor shadow registers and leaves the macro powered up. What came before it does not show in
its result, if it has left the row and its weak bits as they were. -/
theorem physical_reads_see_rows (ready : ClockReady hw m) (d : Device) {index : Word} {row : Fin 128}
    (place : index.toNat = row.val) (mode : ReadMode) :
    let limit := d.controller.pollLimit
    let settles := m.hang = false ∧ m.busyPolls.toNat < limit
    let shown : Word := match mode with
      | .array => m.rows.get row
      | .margin => m.rows.get row &&& ~~~m.weak.get row
    let read (m : FuseMacro) := run hw (d.readPhysical index mode).run m
    (settles → (read m).result = .ok (.ok shown)) ∧
    (¬ settles → (read m).result = .ok (.error (.timeout limit))) ∧
    m.OnlyRead (read m).state ∧
    (∀ m', ClockReady hw m' → m'.rows.get row = m.rows.get row → m'.weak.get row = m.weak.get row →
      m'.hang = m.hang → m'.busyPolls = m.busyPolls → (read m').result = (read m).result) ∧
    ∀ (session : Session) (steps : List Step), ClockReady hw (session.after hw m steps).2 →
      (session.after hw m steps).2.rows = m.rows →
      (read (session.after hw m steps).2).result = (read m).result := by
  intro limit settles shown read
  have selected : Address.readRow index = row := by
    apply Fin.ext
    simp only [Address.readRow, Fin.ofNat, place]
    exact Nat.mod_eq_of_lt row.isLt
  have result (m : FuseMacro) (ready : ClockReady hw m) :
      (read m).result = .ok (m.readOutcome limit row mode) := by
    obtain ⟨_, ⟨returned, -⟩, -⟩ := ready.yields_readPhysical d index mode
    rw [selected] at returned
    exact returned
  have unseen (m' : FuseMacro) (ready' : ClockReady hw m') (rows : m'.rows.get row = m.rows.get row)
      (weak : m'.weak.get row = m.weak.get row) (hang : m'.hang = m.hang)
      (busyPolls : m'.busyPolls = m.busyPolls) : (read m').result = (read m).result := by
    rw [result m' ready', result m ready, FuseMacro.readOutcome_congr rows weak hang busyPolls]
  refine ⟨fun settled => ?_, fun stalled => ?_, ?_, unseen, fun session steps reached rows => ?_⟩
  · rw [result m ready, FuseMacro.readOutcome, if_neg (FuseMacro.not_stalls.2 settled)]
    cases mode <;> rfl
  · have stalls := Classical.not_not.1 (mt FuseMacro.not_stalls.1 stalled)
    rw [result m ready, FuseMacro.readOutcome, if_pos stalls]
  · obtain ⟨_, ⟨-, state⟩, kept⟩ := ready.yields_readPhysical d index mode
    rw [← state] at kept
    exact kept
  · -- weak bits and pace are the bench's to set, so only the rows have to be asked for
    have settings := session.after_settings ready.onMacro m steps
    exact unseen _ reached (congrArg (·.get row) rows) (congrArg (·.get row) settings.weak)
      settings.hang settings.busyPolls

def FuseMacro.faded : FuseMacro :=
  { worn with
    rows := worn.rows.put (Address.rowOf 3 .high) 0xff
    weak := worn.weak.put (Address.rowOf 3 .high) 0x0f }

theorem physical_reads_see_rows_faded :
    let hw := FuseMacro.hardware
    let config : Config := { programmingEnabled := true }
    let steps : List Step := [.call (.readPhysical 9 1), .restart config, .call (.programBit 3 0 .high)]
    let session : Session := { device := ⟨.ofLimit 3, true⟩ }
    let reached := (session.after hw FuseMacro.faded steps).2
    let read (limit : Word) (m : FuseMacro) :=
      run hw (Device.readPhysical ⟨.ofLimit limit, true⟩ 7 .margin).run m
    ClockReady hw FuseMacro.faded ∧ (7 : Word).toNat = (7 : Fin 128).val ∧
    (read 3 FuseMacro.faded).result = .ok (.ok 0xf0) ∧
    (read 2 FuseMacro.faded).result = .ok (.error (.timeout 2)) ∧
    FuseMacro.faded.OnlyRead (read 2 FuseMacro.faded).state ∧
    reached.address = Address.compose 3 0 .high ∧ reached.powered = false ∧
    (read 3 reached).result = .ok (.ok 0xf0) := by
  -- Two busy polls a command: a limit of three shows the row, one of two does not. A shutdown and a
  -- pulse that is lost for want of power leave a program address behind, and the read after them is
  -- the same.
  intro hw config steps session reached read
  have ready : ClockReady hw FuseMacro.faded := .inr ⟨rfl, rfl, by decide, by decide⟩
  have still : ClockReady hw reached :=
    .inr ⟨rfl, by decide +kernel, by decide +kernel, by decide +kernel⟩
  have place : (7 : Word).toNat = (7 : Fin 128).val := rfl
  obtain ⟨shown, -, -, -, later⟩ := physical_reads_see_rows ready ⟨.ofLimit 3, true⟩ place .margin
  obtain ⟨-, late, kept, -⟩ := physical_reads_see_rows ready ⟨.ofLimit 2, true⟩ place .margin
  have first : (read 3 FuseMacro.faded).result = .ok (.ok 0xf0) :=
    (shown (by decide)).trans (by decide +kernel)
  refine ⟨ready, place, first, late (by decide), kept, by decide +kernel, by decide +kernel, ?_⟩
  exact (later session steps still (by decide +kernel)).trans first

end FuseBank
