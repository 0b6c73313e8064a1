import FuseBank.Proofs.ShadowBytes
import FuseBank.Proofs.WriteEffect

/-!
What a successful write has left in the emulated macro, whatever its settings are: a row that passed
the margin read holds the requested bits, and the shadow registers have been loaded since. Nothing is
assumed of the busy polls, so every wait may end early; then the write does not succeed.
-/

namespace FuseBank
open Routine Operation

theorem Rows.words_cover (rows : Rows) {word : Word} (row : Row) {i : Fin 64}
    (named : word.toNat % 64 = i.val) :
    (rows.words.get i).Covers (rows.get (Address.rowOf word row)) := by
  have place : (Address.rowOf word row).val = 2 * i.val + row.index := by
    rw [Address.rowOf_val, named]
  rw [Rows.words_get]
  cases row with
  | low =>
    have low : Address.rowOf word .low = ⟨2 * i.val, by omega⟩ := Fin.ext place
    rw [low]
    exact (Word.covers_or _ _).1
  | high =>
    have high : Address.rowOf word .high = ⟨2 * i.val + 1, by omega⟩ := Fin.ext place
    rw [high]
    exact (Word.covers_or _ _).2

namespace FuseMacro

variable {g : Gate FuseMacro} {c : Controller}

theorem ensures_poll (limit n : Nat) (m : FuseMacro) :
    Ensures ⟨bus, g⟩ (Controller.poll limit n).run
      (fun _ t => ∃ busy, t = { m with busyRemaining := busy }) m := by
  induction n generalizing m with
  | zero =>
    rw [Controller.poll_zero]
    exact ensures_log (ensures_done ⟨_, rfl⟩)
  | succ n ih =>
    rw [Controller.poll_succ]
    refine ensures_read fun v _ => ?_
    obtain ⟨busy, state⟩ := readRegister_cases Offset.status m
    change Ensures _ _ _ (readRegister Offset.status m).state
    rw [state]
    split
    · exact ih { m with busyRemaining := busy }
    · exact ensures_done ⟨busy, rfl⟩

theorem succeeds_waitReady (m : FuseMacro) : Succeeds ⟨bus, g⟩ c.waitReady
    (fun _ t => ∃ busy, t = { m with busyRemaining := busy }) m :=
  (ensures_poll c.pollLimit c.pollLimit m).imp fun _ _ h _ _ => h

theorem succeeds_readPhysical (index : Word) (mode : ReadMode) (m : FuseMacro) :
    Succeeds ⟨bus, g⟩ (c.readPhysical index mode)
      (fun v t => v = m.sensed (Address.readRow index) mode ∧ t.rows = m.rows) m := by
  unfold Controller.readPhysical
  refine .of_yields yields_powerUp ?_
  refine (succeeds_waitReady _).andThen ?_
  rintro _ _ ⟨busy, rfl⟩
  refine .of_yields (Routine.yields_write rfl (yields_done _ _)) ?_
  refine .of_yields (yields_command (command_read rfl mode)) ?_
  refine (succeeds_waitReady _).andThen ?_
  rintro _ _ ⟨busy', rfl⟩
  exact succeeds_lift ((yields_read rfl (yields_done _ _)).ensures ⟨rfl, rfl⟩)

theorem succeeds_writeRow (word value : Word) (row : Row) (failed : Nat) (m : FuseMacro) :
    Succeeds ⟨bus, g⟩ (c.writeRow word value row failed)
      (fun report t => report.verified = true → (t.rows.get (Address.rowOf word row)).Covers value) m := by
  unfold Controller.writeRow
  refine .of_yields (yields_note _ _ _ _) ?_
  -- the first read and the pulses may come to anything: the margin read alone decides
  refine (succeeds_true _ _).andThen fun before _ _ => ?_
  refine (succeeds_true _ _).andThen fun _ m _ => ?_
  refine (succeeds_readPhysical _ .margin m).andThen ?_
  rintro margin t ⟨shown, same⟩
  have held : margin.Covers value → (t.rows.get (Address.rowOf word row)).Covers value := by
    intro covers
    rw [same]
    refine Word.Covers.trans ?_ covers
    rw [shown, Address.readRow_physicalWord]
    exact Word.covers_and _ _
  refine .of_yields (yields_note _ _ _ _) ?_
  dsimp only
  split
  · refine .of_yields (yields_note _ _ _ _) ?_
    exact succeeds_pure fun verified => held (of_decide_eq_true verified)
  · exact succeeds_pure fun verified => held (of_decide_eq_true verified)

theorem succeeds_writeWord (word value : Word) (m : FuseMacro) :
    Succeeds hardware (c.writeWord word value)
      (fun _ t => ∃ row, (t.rows.get (Address.rowOf word row)).Covers value) m := by
  -- The second row does not take back what the first one holds.
  unfold Controller.writeWord
  refine (succeeds_writeRow word value .low 0 m).andThen fun low t lowHeld => ?_
  have second := succeeds_writeRow (g := gate) (c := c) word value .high
    (if low.verified then 0 else 1) t
  refine (second.with_state (R := Grows t) (grows_run (.inr rfl) _ t)).andThen ?_
  rintro high u ⟨highHeld, grown⟩
  refine .of_yields yields_refresh ?_
  dsimp only
  split
  · exact succeeds_throw _
  · -- one row has passed, whichever it is
    rename_i few
    have outcome : wordOutcome word value low high = .ok ⟨word, value, low, high⟩ := if_neg few
    obtain ⟨-, -, failed⟩ | ⟨lowPassed | highPassed, -⟩ := wordOutcome_cases word value low high
    · rw [failed] at outcome
      cases outcome
    · exact succeeds_pure ⟨.low, (grown.rows _).trans (lowHeld lowPassed)⟩
    · exact succeeds_pure ⟨.high, highHeld highPassed⟩

/-- The shadow registers show the bits of a write at its word. -/
def Holds (m : FuseMacro) (a : AddressedWord) : Prop :=
  ∃ i : Fin 64, a.addr.toNat = 4 * i.val ∧ (m.shadow.get i).Covers a.value

theorem succeeds_write (d : Device) (addr value : Word) (m : FuseMacro) :
    Succeeds hardware (d.write addr value) (fun _ t => t.Holds ⟨addr, value⟩) m := by
  unfold Device.write
  refine .of_yields (yields_note _ _ _ _) ?_
  refine (succeeds_true _ _).andThen fun _ m _ => ?_
  refine (Controller.succeeds_checkAddress addr m).andThen ?_
  rintro _ m ⟨valid, rfl⟩
  refine succeeds_withClock fun _ => ?_
  refine (succeeds_attempt (succeeds_writeWord (addr / 4) value _)).andThen fun outcome t held => ?_
  refine .of_yields (yields_note _ _ _ _) ?_
  refine .of_yields yields_powerUp ?_
  refine .of_yields yields_refresh ?_
  refine (succeeds_attempt (ensures_poll _ _ _)).andThen ?_
  rintro settled _ ⟨busy, rfl⟩
  cases outcome with
  | error e => exact ensures_done nofun
  | ok report =>
    cases settled with
    | error e => exact ensures_done nofun
    | ok _ =>
      -- the refresh has loaded the word from the row that passed
      obtain ⟨row, covers⟩ := held report rfl
      obtain ⟨offset, below⟩ := valid.shadow
      have named : (addr / 4).toNat % 64 = addr.toNat / 4 := by
        have quotient : (addr / 4).toNat = addr.toNat / 4 := BitVec.toNat_udiv
        unfold fuseWords at below
        omega
      refine succeeds_pure ⟨⟨addr.toNat / 4, below⟩, by dsimp only; omega, ?_⟩
      obtain ⟨_, _, off⟩ := OnMacro.disable_state (.inr rfl : OnMacro hardware) { t with
        powered := true, busyRemaining := busy, shadow := t.rows.words }
      rw [off]
      exact (Rows.words_cover t.rows row named).trans covers

end FuseMacro

/-- A write that was answered with success has been carried out. -/
def Written (call : Call) (response : Response) (m : FuseMacro) : Prop :=
  ∀ a answer, call.write? = some a → response.result = .ok answer → m.Holds a

variable (m : FuseMacro)

theorem OpenFile.ensures_written {f : OpenFile} {data : List Byte} {Q : Transfer → FuseMacro → Prop}
    (h : Q ⟨.ok data.length, f.advance data.length, data⟩ m) :
    Ensures FuseMacro.hardware (f.written data) Q m := by
  unfold written
  split
  · exact ensures_done h
  · nofun

theorem OpenFile.ensures_write (f : OpenFile) (d : Device) (data : List Byte) :
    Ensures FuseMacro.hardware (f.write d data) (fun x t => ∀ payload n,
      AddressedWord.decode? data = some (payload, []) → x.result = .ok n → t.Holds payload) m := by
  unfold write
  split
  · rename_i payload decoded
    refine (FuseMacro.succeeds_write d payload.addr payload.value m).bind
      (fun _ _ => ensures_done nofun) fun report t held => ensures_written t fun payload' n same _ => ?_
    rw [decoded] at same
    cases same
    exact held
  · exact ensures_done nofun

theorem OpenFile.ensures_control_write (f : OpenFile) (d : Device) (argument : List Byte) :
    Ensures FuseMacro.hardware (f.control d writeRequest argument) (fun x t => ∀ payload rest n,
      AddressedWord.decode? argument = some (payload, rest) → x.result = .ok n → t.Holds payload) m := by
  unfold control
  split
  · exact ensures_done nofun
  rename_i payload rest decoded
  rw [if_neg (by decide), if_pos rfl]
  refine (FuseMacro.succeeds_write d payload.addr payload.value m).bind
    (fun _ _ => ensures_done nofun) fun report t held => ensures_done fun payload' rest' n same _ => ?_
  rw [decoded] at same
  cases same
  exact held

theorem Session.ensures_written (session : Session) (call : Call) :
    Ensures FuseMacro.hardware (session.perform call) (fun x t => Written call x.1 t) m := by
  cases call with
  | write addr value =>
    refine (FuseMacro.succeeds_write session.device addr value m).bind
      (fun _ _ => ensures_done nofun) fun report t held => ensures_done ?_
    rintro _ answer ⟨⟩ returned
    exact held
  | onFile number call =>
    cases call with
    | write data =>
      refine (OpenFile.ensures_write m _ _ data).bind fun x t held => ensures_done ?_
      intro a answer asked returned
      obtain ⟨outcome, file, shown⟩ := x
      cases outcome with
      | error e => cases returned
      | ok n => exact held a n (Call.write?_write.1 asked) rfl
    | control request argument =>
      by_cases writes : request = writeRequest
      · subst writes
        refine (OpenFile.ensures_control_write m _ _ argument).bind fun x t held => ensures_done ?_
        intro a answer asked returned
        obtain ⟨-, rest, decoded⟩ := Call.write?_control.1 asked
        obtain ⟨outcome, file, shown⟩ := x
        cases outcome with
        | error e => cases returned
        | ok n => exact held a rest n decoded rfl
      · refine (ensures_true _ m).imp fun x _ _ a answer asked => ?_
        exact absurd (Call.write?_control.1 asked).1 writes
    | _ => exact (ensures_true _ m).imp fun x _ _ => nofun
  | _ => exact (ensures_true _ m).imp fun x _ _ => nofun

theorem Session.ensures_row (session : Session) (index : Word) :
    Ensures FuseMacro.hardware (session.perform (.readPhysical index 0)) (fun x _ => ∀ v,
      x.1.result = .ok (.number v) → v = (m.rows.get (Address.readRow index)).toNat) m := by
  have read : Succeeds FuseMacro.hardware
      (ReadMode.ofWord 0 >>= fun mode => session.device.readPhysical index mode)
      (fun v _ => v = m.rows.get (Address.readRow index)) m := by
    refine (succeeds_pure (Q := fun mode t => mode = ReadMode.array ∧ t = m) ⟨rfl, rfl⟩).andThen ?_
    rintro _ m ⟨rfl, rfl⟩
    refine succeeds_withClock fun _ => ?_
    obtain ⟨_, _, on⟩ := OnMacro.enable_state (.inr rfl : OnMacro FuseMacro.hardware) m
    refine (FuseMacro.succeeds_readPhysical index .array _).imp ?_
    rintro _ t ⟨rfl, -⟩
    rw [on]
    rfl
  refine read.bind (fun _ _ => ensures_done nofun) fun w t shown => ensures_done ?_
  rintro _ ⟨⟩
  rw [shown]

end FuseBank
