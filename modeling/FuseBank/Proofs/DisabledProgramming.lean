import FuseBank.Proofs.FuseGrowth
import FuseBank.Proofs.Transcript
import FuseBank.Proofs.WriteEffect

/-!
A device without the permission to program. Its operations do write commands and addresses, but no
command that the macro takes for a pulse or a refresh, whatever address an earlier operation has left;
and what would program is turned away before it asks anything of the hardware (`disabled_inert`).
-/

namespace FuseBank
open Routine Operation

def Call.Programs : Call → Prop
  | .programBit _ _ _ | .writeWord _ _ | .write _ _ => True
  | .onFile _ (.write data) => data.length = 8
  | .onFile _ (.control request argument) => request = writeRequest ∧ 8 ≤ argument.length
  | _ => False

/-- Where the mode register reads zero, a command written to it asks for no pulse and no refresh. -/
def Harmless (prev : Option Event) (e : Event) : Prop :=
  ∀ command, e = .write Offset.mode command → (∀ m, prev = some (.read Offset.mode m) → m = 0) →
    command &&& (Mode.program ||| Mode.refresh) = 0

theorem Harmless.of_ne {prev : Option Event} {e : Event} (h : ∀ v, e ≠ .write Offset.mode v) :
    Harmless prev e :=
  fun v same => absurd same (h v)

theorem Harmless.of_quiet {prev : Option Event} {command : Word}
    (h : command &&& (Mode.program ||| Mode.refresh) = 0) :
    Harmless prev (.write Offset.mode command) := by
  rintro _ ⟨⟩ -
  exact h

theorem Harmless.of_repeated {m bits : Word} (h : bits &&& (Mode.program ||| Mode.refresh) = 0) :
    Harmless (some (.read Offset.mode m)) (.write Offset.mode (m ||| bits)) := by
  rintro _ ⟨⟩ cleared
  rw [cleared m rfl]
  exact (congrArg (· &&& _) BitVec.zero_or).trans h

theorem Harmless.of_clockCall {prev : Option Event} {e : Event} (call : e.isClockCall) :
    Harmless prev e := by
  refine .of_ne ?_
  rintro _ rfl
  cases call

theorem Routine.keeps_of_unaided {α : Type} {R : Option Event → Event → Prop} {p : Routine α} {a : α}
    (h : p.unaided? = some a) : p.Keeps R :=
  fun _ => .of_unaided h trivial

section Reads

variable {R : Option Event → Event → Prop} (calls : ∀ prev e, e.isClockCall → R prev e)
  (reads : ∀ prev o v, R prev (.read o v))
include calls reads

theorem Controller.keeps_readShadow_of (addr : Word) : (readShadow addr).run.Keeps R := by
  refine keeps_andThen (keeps_of_unaided (checkAddress_unaided addr)) fun _ => ?_
  exact keeps_withClock_of calls (keeps_lift (keeps_readRegister fun prev v => reads prev _ v))

theorem Controller.keeps_readBuffer_of (addr : Word) (buffer : List Byte) :
    (readBuffer addr buffer).Keeps R := by
  unfold readBuffer
  dsimp only
  split
  · exact keeps_done _
  split
  · exact keeps_done _
  split
  · exact keeps_done _
  refine Keeps.bind (keeps_withClock_of calls (keeps_lift ?_)) fun outcome => ?_
  · exact keeps_readWords_of reads _ _
  · split <;> exact keeps_done _

theorem OpenFile.keeps_read_of (f : OpenFile) (buffer : List Byte) : (f.read buffer).Keeps R := by
  unfold read
  split
  · exact keeps_done _
  refine Keeps.bind (Controller.keeps_readBuffer_of calls reads _ _) fun x => ?_
  split <;> exact keeps_done _

end Reads

namespace Controller

theorem keeps_power_harmless (up : Bool) : (power up).Keeps Harmless := by
  intro prev m
  refine ⟨.of_ne nofun, .of_repeated ?_, trivial⟩
  cases up <;> rfl

theorem keeps_waitReady_harmless (c : Controller) : c.waitReady.run.Keeps Harmless :=
  keeps_poll_of (fun _ _ => .of_ne nofun) _ _

theorem keeps_readPhysical_harmless (c : Controller) (index : Word) (mode : ReadMode) :
    (c.readPhysical index mode).run.Keeps Harmless := by
  have quiet : mode.command &&& (Mode.program ||| Mode.refresh) = 0 := by cases mode <;> rfl
  unfold readPhysical
  refine keeps_andThen (keeps_lift (keeps_power_harmless true)) fun _ => ?_
  refine keeps_andThen (keeps_waitReady_harmless c) fun _ => ?_
  refine keeps_andThen (keeps_lift fun _ => ⟨.of_ne ?_, trivial⟩) fun _ => ?_
  · rintro _ ⟨⟩
  refine keeps_andThen (keeps_lift fun _ => ⟨.of_quiet quiet, trivial⟩) fun _ => ?_
  refine keeps_andThen (keeps_waitReady_harmless c) fun _ => ?_
  exact keeps_lift (keeps_readRegister fun _ _ => .of_ne nofun)

theorem keeps_withClock_harmless {α : Type} {body : Operation α} (h : body.run.Keeps Harmless) :
    (withClock body).run.Keeps Harmless :=
  keeps_withClock_of (fun _ _ => .of_clockCall) h

end Controller

namespace Device

variable {d : Device} (disabled : d.programmingEnabled = false)
include disabled

theorem guarded_disabled {α : Type} (rest : Unit → Operation α) :
    (d.checkProgramming >>= rest).run.unaided? = some (.error .programmingDisabled) := by
  rw [Operation.unaided?_bind, checkProgramming_unaided, disabled]
  rfl

theorem write_disabled (addr value : Word) :
    (d.write addr value).run.unaided? = some (.error .programmingDisabled) := by
  rw [write_unaided, disabled]
  rfl

end Device

namespace OpenFile

variable (f : OpenFile) {d : Device} (disabled : d.programmingEnabled = false)

include disabled

theorem write_disabled (data : List Byte) :
    ∃ t, (f.write d data).unaided? = some t ∧
      (data.length = 8 → t.result = .error .programmingDisabled) := by
  unfold write
  split
  · rw [Routine.unaided?_bind, Device.write_disabled disabled]
    exact ⟨_, rfl, fun _ => rfl⟩
  · rename_i other
    refine ⟨_, rfl, fun length => ?_⟩
    obtain ⟨payload, decoded⟩ := AddressedWord.decode?_of_length length
    exact absurd decoded (other payload)

theorem control_write_disabled {argument : List Byte} (h : 8 ≤ argument.length) :
    ∃ t, (f.control d writeRequest argument).unaided? = some t ∧
      t.result = .error .programmingDisabled := by
  obtain ⟨payload, decoded, -⟩ := AddressedWord.decode?_front h
  unfold control
  rw [decoded]
  dsimp only
  rw [if_neg (by decide), if_pos rfl, Routine.unaided?_bind, Device.write_disabled disabled]
  exact ⟨_, rfl, rfl⟩

theorem keeps_control_harmless (request : Word) (argument : List Byte) :
    (f.control d request argument).Keeps Harmless := by
  unfold control
  split
  · exact keeps_done _
  split
  · refine Keeps.bind (Controller.keeps_readShadow_of (fun _ _ => .of_clockCall)
      (fun _ _ _ => .of_ne nofun) _) fun x => ?_
    split <;> exact keeps_done _
  split
  · refine Keeps.bind (keeps_of_unaided (Device.write_disabled disabled _ _)) fun x => ?_
    split <;> exact keeps_done _
  · exact (keeps_note _ _ _).bind fun _ => keeps_done _

end OpenFile

namespace Session

theorem keeps_read_harmless (session : Session) {call : Call} (h : call.IsRead) :
    (session.perform call).Keeps Harmless := by
  cases call with
  | readShadow addr =>
    exact (Controller.keeps_readShadow_of (fun _ _ => .of_clockCall) (fun _ _ _ => .of_ne nofun)
      addr).bind fun _ => keeps_done _
  | readBuffer addr buffer =>
    exact (Controller.keeps_readBuffer_of (fun _ _ => .of_clockCall) (fun _ _ _ => .of_ne nofun) addr
      buffer).bind fun _ => keeps_done _
  | readPhysical index mode =>
    refine Keeps.bind (keeps_andThen (keeps_of_unaided (ReadMode.ofWord_unaided mode)) fun mode => ?_)
      fun _ => keeps_done _
    exact Controller.keeps_withClock_harmless (Controller.keeps_readPhysical_harmless _ index mode)
  | _ => cases h

theorem keeps_perform_harmless {session : Session} (disabled : session.device.programmingEnabled = false)
    (call : Call) : (session.perform call).Keeps Harmless := by
  cases call with
  | programmingEnabled => exact keeps_done _
  | readShadow addr => exact session.keeps_read_harmless trivial
  | readBuffer addr buffer => exact session.keeps_read_harmless trivial
  | readPhysical index mode => exact session.keeps_read_harmless trivial
  | programBit word bit row =>
    exact (keeps_of_unaided (Device.guarded_disabled disabled _)).bind fun _ => keeps_done _
  | writeWord word value =>
    exact (keeps_of_unaided (Device.guarded_disabled disabled _)).bind fun _ => keeps_done _
  | write addr value =>
    exact (keeps_of_unaided (Device.write_disabled disabled addr value)).bind fun _ => keeps_done _
  | openFile => exact keeps_done _
  | onFile number call =>
    rw [← session.prepared_device (.onFile number call)] at disabled
    cases call with
    | tell => exact keeps_done _
    | seek target => exact keeps_done _
    | read buffer =>
      exact (OpenFile.keeps_read_of (fun _ _ => .of_clockCall) (fun _ _ _ => .of_ne nofun) _
        buffer).bind fun _ => keeps_done _
    | write data =>
      obtain ⟨t, refused, -⟩ := OpenFile.write_disabled (OpenFile.mk _) disabled data
      exact (keeps_of_unaided refused).bind fun _ => keeps_done _
    | control request argument =>
      exact (OpenFile.keeps_control_harmless _ disabled request argument).bind fun _ => keeps_done _

theorem perform_disabled {session : Session} (disabled : session.device.programmingEnabled = false)
    {call : Call} (programs : call.Programs) :
    ∃ x, (session.perform call).unaided? = some x ∧ x.1.result = .error .programmingDisabled := by
  cases call with
  | programBit word bit row =>
    change ∃ x, (((session.device.programBit word bit row).run >>= _).unaided?) = some x ∧ _
    rw [Routine.unaided?_bind, Device.programBit, Device.guarded_disabled disabled]
    exact ⟨_, rfl, rfl⟩
  | writeWord word value =>
    change ∃ x, (((session.device.writeWord word value).run >>= _).unaided?) = some x ∧ _
    rw [Routine.unaided?_bind, Device.writeWord, Device.guarded_disabled disabled]
    exact ⟨_, rfl, rfl⟩
  | write addr value =>
    change ∃ x, (((session.device.write addr value).run >>= _).unaided?) = some x ∧ _
    rw [Routine.unaided?_bind, Device.write_disabled disabled]
    exact ⟨_, rfl, rfl⟩
  | onFile number call =>
    rw [← session.prepared_device (.onFile number call)] at disabled
    cases call with
    | write data =>
      change ∃ x, ((OpenFile.write _ _ data >>= _).unaided?) = some x ∧ _
      obtain ⟨t, refused, result⟩ := OpenFile.write_disabled (OpenFile.mk _) disabled data
      rw [Routine.unaided?_bind, refused]
      exact ⟨_, rfl, congrArg (Except.map Answer.number) (result programs)⟩
    | control request argument =>
      obtain ⟨rfl, length⟩ := programs
      change ∃ x, ((OpenFile.control _ _ writeRequest argument >>= _).unaided?) = some x ∧ _
      obtain ⟨t, refused, result⟩ := OpenFile.control_write_disabled (OpenFile.mk _) disabled length
      rw [Routine.unaided?_bind, refused]
      exact ⟨_, rfl, congrArg (Except.map fun _ => Answer.nothing) result⟩
    | _ => cases programs
  | _ => cases programs

end Session

structure FuseMacro.SameFuses (m m' : FuseMacro) : Prop where
  rows : m'.rows = m.rows
  shadow : m'.shadow = m.shadow
  pulses : m'.pulses = m.pulses

namespace FuseMacro

variable {m m' : FuseMacro} {hw : Hardware FuseMacro}

theorem SameFuses.refl (m : FuseMacro) : SameFuses m m := ⟨rfl, rfl, rfl⟩

theorem SameFuses.trans {m'' : FuseMacro} (h : SameFuses m m') (h' : SameFuses m' m'') :
    SameFuses m m'' :=
  ⟨h'.rows.trans h.rows, h'.shadow.trans h.shadow, h'.pulses.trans h.pulses⟩

theorem sameFuses_write {prev : Option Event} {o : Nat} {v : Word} (h : OnMacro hw)
    (given : Answered hw prev) (harmless : Harmless prev (.write o v)) (m : FuseMacro) :
    SameFuses m (writeRegister o v m).state := by
  -- The macro's mode register reads zero, so a harmless event is no pulse and no refresh.
  obtain ⟨rfl, state⟩ | ⟨_, _, state⟩ := writeRegister_cases o v m
  · -- what a power write repeats is what the mode register has just shown, and that is zero
    have cleared : ∀ r, prev = some (.read Offset.mode r) → r = 0 := by
      intro r read
      obtain ⟨m', answer⟩ := given _ _ read
      rw [h.bus_eq] at answer
      exact (Except.ok.inj answer).symm
    have quiet := harmless v rfl cleared
    rw [BitVec.and_or_distrib_left] at quiet
    obtain ⟨unpulsed, unrefreshed⟩ := BitVec.or_eq_zero_iff.1 quiet
    rw [state]
    obtain ⟨refreshes, -⟩ | ⟨programs, -⟩ | ⟨_, _, _, command⟩ := command_cases m v
    · exact absurd unrefreshed refreshes
    · exact absurd unpulsed programs
    · rw [command]
      exact ⟨rfl, rfl, rfl⟩
  · rw [state]
    exact ⟨rfl, rfl, rfl⟩

theorem relates_sameFuses (h : OnMacro hw) : Relates hw Harmless SameFuses :=
  h.relates .refl (fun _ _ _ => SameFuses.trans) (fun _ _ _ _ _ => ⟨rfl, rfl, rfl⟩)
    fun _ _ _ m given harmless => sameFuses_write h given harmless m

end FuseMacro

/-- What a step comes to that finds the fuses as in `m`: it leaves them so, and if it would program, it
is refused without a request to the hardware. -/
structure StepInert (m : FuseMacro) (step : Step) (served : Served FuseMacro) : Prop where
  same : m.SameFuses served.state
  refused : ∀ call, step = .call call → call.Programs → served.traffic = [] ∧
    ∃ response, served.response = some response ∧ response.result = .error .programmingDisabled

namespace Session

theorem keeps_answer_harmless {session : Session}
    (disabled : session.device.programmingEnabled = false) (step : Step) :
    (session.answer step).Keeps Harmless := by
  cases step with
  | call call => exact (keeps_perform_harmless disabled call).bind fun _ => keeps_done _
  | restart config =>
    have down : Device.shutdown.Keeps Harmless :=
      (Controller.keeps_power_harmless false).bind fun _ => keeps_note _ _ _
    refine down.bind fun _ => Keeps.bind ?_ fun _ => keeps_done _
    unfold Device.start
    split
    · exact (keeps_note _ _ _).bind fun _ => keeps_done _
    · exact keeps_done _

variable {hw : Hardware FuseMacro} {session : Session} {m : FuseMacro} {step : Step}

theorem serve_inert (onMacro : OnMacro hw) (disabled : session.device.programmingEnabled = false)
    (restarts : ∀ config, step = .restart config → config.programmingEnabled = false) :
    StepInert m step (session.serve hw m step) ∧
    (session.serve hw m step).session.device.programmingEnabled = false := by
  have same := (keeps_answer_harmless disabled step).related (FuseMacro.relates_sameFuses onMacro) m
  refine ⟨⟨same, ?_⟩, ?_⟩
  · rintro call rfl programs
    obtain ⟨x, unaided, refused⟩ := perform_disabled disabled programs
    obtain ⟨returned, silent, -⟩ := run_of_unaided hw m unaided
    rw [serve_call]
    dsimp only
    rw [returned]
    exact ⟨silent, x.1, rfl, refused⟩
  · obtain same | ⟨config, restart, new⟩ := serve_device hw session m step
    · rw [same]
      exact disabled
    · rw [new]
      exact restarts config restart

end Session

/-- Without the permission no sequence of calls and restarts changes a row, the shadow registers or the
pulses sent, whatever the macro held before. A call that would program is answered with that error
alone, and neither a register nor the clock is touched for it, whatever address it names. -/
theorem disabled_inert {hw : Hardware FuseMacro} (onMacro : OnMacro hw) {session : Session}
    (disabled : session.device.programmingEnabled = false) (m : FuseMacro) {steps : List Step}
    (restarts : ∀ config, .restart config ∈ steps → config.programmingEnabled = false) :
    ∀ x ∈ session.transcript hw m steps, StepInert m x.1 x.2 := by
  refine Session.transcript_induction
    (I := fun session s => session.device.programmingEnabled = false ∧ m.SameFuses s)
    ⟨disabled, .refl m⟩ ?_
  rintro session s step listed ⟨disabled, same⟩
  have restart : ∀ config, step = .restart config → config.programmingEnabled = false := by
    rintro config rfl
    exact restarts config listed
  obtain ⟨inert, still⟩ := Session.serve_inert (m := s) onMacro disabled restart
  exact ⟨⟨same.trans inert.same, inert.refused⟩, still, same.trans inert.same⟩

theorem disabled_inert_worn :
    OnMacro FuseMacro.hardware ∧
    let log := Session.transcript FuseMacro.hardware ⟨⟨.ofLimit 3, false⟩, []⟩ FuseMacro.worn
      [.call (.readPhysical 5 0), .call (.write 0x203 9),
        .call (.onFile 0 (.control writeRequest (AddressedWord.encode ⟨0x203, 9⟩))), .restart {}]
    (log.map fun x => x.2.traffic.length) = [13, 0, 0, 2] ∧
    ∀ x ∈ log, x.2.state.pulses = [] := by
  -- A physical read, a write past the fuse space, a control request to write there, a restart.
  have onMacro : OnMacro FuseMacro.hardware := .inr rfl
  refine ⟨onMacro, by decide +kernel, ?_⟩
  intro x served
  have restarts : ∀ config, Step.restart config ∈ [.call (.readPhysical 5 0), .call (.write 0x203 9),
      .call (.onFile 0 (.control writeRequest (AddressedWord.encode ⟨0x203, 9⟩))), .restart {}] →
      config.programmingEnabled = false := by
    simp
  exact (disabled_inert onMacro rfl FuseMacro.worn restarts x served).same.pulses

end FuseBank
