import FuseBank.Session

/-!
Which faults a routine can halt with of its own accord, whatever hardware it runs on. No operation
of the device has any, nor has a call on it or on its files but one: a write moves the offset of its
file, and that can run over (`Session.haltsOnly_perform`).
-/

namespace FuseBank
open Routine

variable {α β : Type} {F G : Fault → Prop}

namespace Routine

def HaltsOnly (F : Fault → Prop) : Routine α → Prop
  | done _ => True
  | halt fault => F fault
  | read _ next => ∀ v, HaltsOnly F (next v)
  | write _ _ next => HaltsOnly F next
  | enable next => ∀ answer, HaltsOnly F (next answer)
  | disable next => HaltsOnly F next
  | log _ next => HaltsOnly F next

theorem HaltsOnly.imp {p : Routine α} (hp : p.HaltsOnly F) (himp : ∀ fault, F fault → G fault) :
    p.HaltsOnly G := by
  induction p with
  | done a => trivial
  | halt fault => exact himp fault hp
  | read o next ih => exact fun v => ih v (hp v)
  | write o v next ih => exact ih hp
  | enable next ih => exact fun answer => ih answer (hp answer)
  | disable next ih => exact ih hp
  | log e next ih => exact ih hp

theorem HaltsOnly.bind {p : Routine α} {f : α → Routine β} (hp : p.HaltsOnly F)
    (hf : ∀ a, (f a).HaltsOnly F) : (p >>= f).HaltsOnly F := by
  induction p with
  | done a => exact hf a
  | halt fault => exact hp
  | read o next ih => exact fun v => ih v (hp v)
  | write o v next ih => exact ih hp
  | enable next ih => exact fun answer => ih answer (hp answer)
  | disable next ih => exact ih hp
  | log e next ih => exact ih hp

theorem HaltsOnly.map {p : Routine α} (f : α → β) (hp : p.HaltsOnly F) : (f <$> p).HaltsOnly F := by
  rw [map_eq_pure_bind]
  exact hp.bind fun _ => trivial

end Routine

namespace Operation

theorem haltsOnly_lift {p : Routine α} (hp : p.HaltsOnly F) :
    (liftM p : Operation α).run.HaltsOnly F := by
  rw [ExceptT.run_liftM]
  exact hp.map _

theorem haltsOnly_andThen {op : Operation α} {f : α → Operation β} (hop : op.run.HaltsOnly F)
    (hf : ∀ a, (f a).run.HaltsOnly F) : (op >>= f).run.HaltsOnly F := by
  rw [ExceptT.run_bind]
  refine hop.bind fun outcome => ?_
  cases outcome with
  | ok a => exact hf a
  | error e => trivial

theorem haltsOnly_attempt {op : Operation α} (hop : op.run.HaltsOnly F) :
    (Operation.attempt op).run.HaltsOnly F :=
  hop.map _

theorem haltsOnly_forM {γ : Type} {f : γ → Operation Unit} (xs : List γ)
    (hf : ∀ x, (f x).run.HaltsOnly F) : (forM xs f).run.HaltsOnly F := by
  induction xs with
  | nil => trivial
  | cons x xs ih =>
    rw [List.forM_cons]
    exact haltsOnly_andThen (hf x) fun _ => ih

end Operation

open Operation

theorem ReadMode.haltsOnly_ofWord (w : Word) : (ofWord w).run.HaltsOnly F := by
  unfold ofWord
  split
  · trivial
  split
  · trivial
  · exact haltsOnly_andThen (haltsOnly_lift trivial) fun _ => trivial

namespace Controller

theorem haltsOnly_poll (limit n : Nat) : (poll limit n).run.HaltsOnly F := by
  induction n with
  | zero => exact haltsOnly_andThen (haltsOnly_lift trivial) fun _ => trivial
  | succ n ih =>
    refine haltsOnly_andThen (haltsOnly_lift fun _ => trivial) fun busy => ?_
    cases busy with
    | true => exact ih
    | false => trivial

variable (c : Controller)

theorem haltsOnly_waitReady : c.waitReady.run.HaltsOnly F := haltsOnly_poll _ _

theorem haltsOnly_power (up : Bool) : (power up).HaltsOnly F := fun _ => trivial

theorem haltsOnly_refresh : refresh.HaltsOnly F := trivial

theorem haltsOnly_withClock {body : Operation α} (h : body.run.HaltsOnly F) :
    (withClock body).run.HaltsOnly F := by
  intro answer
  cases answer with
  | error e => trivial
  | ok _ => exact h.bind fun _ => trivial

theorem haltsOnly_programBit (word bit : Word) (row : Row) :
    (c.programBit word bit row).run.HaltsOnly F :=
  haltsOnly_andThen c.haltsOnly_waitReady fun _ =>
    haltsOnly_andThen (haltsOnly_lift trivial) fun _ => haltsOnly_lift trivial

theorem haltsOnly_readPhysical (index : Word) (mode : ReadMode) :
    (c.readPhysical index mode).run.HaltsOnly F :=
  haltsOnly_andThen (haltsOnly_lift (haltsOnly_power true)) fun _ =>
    haltsOnly_andThen c.haltsOnly_waitReady fun _ =>
    haltsOnly_andThen (haltsOnly_lift trivial) fun _ =>
    haltsOnly_andThen (haltsOnly_lift trivial) fun _ =>
    haltsOnly_andThen c.haltsOnly_waitReady fun _ => haltsOnly_lift fun _ => trivial

theorem haltsOnly_writeRow (word value : Word) (row : Row) (failed : Nat) :
    (c.writeRow word value row failed).run.HaltsOnly F := by
  refine haltsOnly_andThen (haltsOnly_lift trivial) fun _ => ?_
  refine haltsOnly_andThen (c.haltsOnly_readPhysical _ _) fun before => ?_
  refine haltsOnly_andThen (haltsOnly_forM _ fun _ => c.haltsOnly_programBit _ _ _) fun _ => ?_
  refine haltsOnly_andThen (c.haltsOnly_readPhysical _ _) fun margin => ?_
  refine haltsOnly_andThen (haltsOnly_lift trivial) fun _ => ?_
  dsimp only
  split
  · exact haltsOnly_andThen (haltsOnly_lift trivial) fun _ => trivial
  · trivial

theorem haltsOnly_writeWord (word value : Word) : (c.writeWord word value).run.HaltsOnly F := by
  refine haltsOnly_andThen (c.haltsOnly_writeRow _ _ _ _) fun low => ?_
  refine haltsOnly_andThen (c.haltsOnly_writeRow _ _ _ _) fun high => ?_
  refine haltsOnly_andThen (haltsOnly_lift haltsOnly_refresh) fun _ => ?_
  dsimp only
  split
  · trivial
  · trivial

theorem haltsOnly_checkAddress (addr : Word) : (checkAddress addr).run.HaltsOnly F := by
  unfold checkAddress
  split
  · trivial
  · trivial

theorem haltsOnly_readShadow (addr : Word) : (readShadow addr).run.HaltsOnly F :=
  haltsOnly_andThen (haltsOnly_checkAddress addr) fun _ =>
    haltsOnly_withClock (haltsOnly_lift fun _ => trivial)

theorem haltsOnly_readWords (offset count : Nat) : (readWords offset count).HaltsOnly F := by
  induction count generalizing offset with
  | zero => trivial
  | succ count ih => exact fun _ => (ih (offset + 4)).bind fun _ => trivial

theorem haltsOnly_readBuffer (addr : Word) (buffer : List Byte) :
    (readBuffer addr buffer).HaltsOnly F := by
  unfold readBuffer
  dsimp only
  split
  · trivial
  split
  · trivial
  split
  · trivial
  refine HaltsOnly.bind (haltsOnly_withClock (haltsOnly_lift (haltsOnly_readWords _ _))) fun x => ?_
  cases x with
  | error e => trivial
  | ok words => trivial

end Controller

namespace Device

variable (d : Device)

theorem haltsOnly_checkProgramming : d.checkProgramming.run.HaltsOnly F := by
  unfold checkProgramming
  split
  · exact haltsOnly_andThen (haltsOnly_lift trivial) fun _ => trivial
  · trivial

theorem haltsOnly_write (addr value : Word) : (d.write addr value).run.HaltsOnly F := by
  refine haltsOnly_andThen (haltsOnly_lift trivial) fun _ => ?_
  refine haltsOnly_andThen d.haltsOnly_checkProgramming fun _ => ?_
  refine haltsOnly_andThen (Controller.haltsOnly_checkAddress addr) fun _ => ?_
  refine Controller.haltsOnly_withClock ?_
  refine haltsOnly_andThen (haltsOnly_attempt (d.controller.haltsOnly_writeWord _ _)) fun outcome => ?_
  refine haltsOnly_andThen (haltsOnly_lift trivial) fun _ => ?_
  refine haltsOnly_andThen (haltsOnly_lift (Controller.haltsOnly_power true)) fun _ => ?_
  refine haltsOnly_andThen (haltsOnly_lift Controller.haltsOnly_refresh) fun _ => ?_
  refine haltsOnly_andThen (haltsOnly_attempt d.controller.haltsOnly_waitReady) fun settled => ?_
  exact haltsOnly_andThen trivial fun _ => haltsOnly_andThen trivial fun _ => trivial

theorem haltsOnly_shutdown : shutdown.HaltsOnly F := fun _ => trivial

theorem haltsOnly_start (config : Config) : (start config).HaltsOnly F := by
  unfold start
  split
  · trivial
  · trivial

end Device

namespace OpenFile

variable (f : OpenFile) (d : Device)

theorem haltsOnly_read (buffer : List Byte) : (f.read buffer).HaltsOnly F := by
  unfold read
  split
  · trivial
  refine (Controller.haltsOnly_readBuffer _ _).bind fun x => ?_
  split
  · trivial
  · trivial

theorem haltsOnly_written (data : List Byte) :
    (f.written data).HaltsOnly fun fault => fault = .overflow ∧ offsetLimit ≤ f.offset + data.length := by
  unfold written
  split
  · trivial
  · exact ⟨rfl, Nat.not_lt.1 ‹_›⟩

theorem haltsOnly_write (data : List Byte) :
    (f.write d data).HaltsOnly fun fault =>
      fault = .overflow ∧ data.length = 8 ∧ offsetLimit ≤ f.offset + 8 := by
  unfold write
  split
  · rename_i payload decoded
    have length : data.length = 8 := by
      rw [← AddressedWord.encode_of_decode? decoded, List.append_nil]
      rfl
    refine (d.haltsOnly_write _ _).bind fun outcome => ?_
    cases outcome with
    | error e => trivial
    | ok report =>
      exact (f.haltsOnly_written data).imp fun fault ⟨same, limit⟩ => ⟨same, length, length ▸ limit⟩
  · trivial

theorem haltsOnly_control (request : Word) (argument : List Byte) :
    (f.control d request argument).HaltsOnly F := by
  unfold control
  split
  · trivial
  split
  · refine (Controller.haltsOnly_readShadow _).bind fun outcome => ?_
    split
    · trivial
    · trivial
  split
  · refine (d.haltsOnly_write _ _).bind fun outcome => ?_
    split
    · trivial
    · trivial
  · trivial

end OpenFile

/-- The call is a write of eight bytes to a file at the very end of its offsets. -/
def Session.Overflows (session : Session) : Call → Prop
  | .onFile number (.write data) =>
    let files := (session.prepared (.onFile number (.write data))).files
    data.length = 8 ∧ OpenFile.offsetLimit ≤ (files.getD (number % files.length) {}).offset + 8
  | _ => False

theorem Session.haltsOnly_perform (session : Session) (call : Call) :
    (session.perform call).HaltsOnly fun fault => fault = .overflow ∧ session.Overflows call := by
  cases call with
  | programmingEnabled => trivial
  | readShadow addr => exact (Controller.haltsOnly_readShadow addr).bind fun _ => trivial
  | readBuffer addr buffer => exact (Controller.haltsOnly_readBuffer addr buffer).bind fun _ => trivial
  | readPhysical index mode =>
    refine HaltsOnly.bind (haltsOnly_andThen (ReadMode.haltsOnly_ofWord mode) fun mode => ?_)
      fun _ => trivial
    exact Controller.haltsOnly_withClock (session.device.controller.haltsOnly_readPhysical index mode)
  | programBit word bit row =>
    refine HaltsOnly.bind (haltsOnly_andThen session.device.haltsOnly_checkProgramming fun _ => ?_)
      fun _ => trivial
    exact Controller.haltsOnly_withClock (session.device.controller.haltsOnly_programBit word bit row)
  | writeWord word value =>
    refine HaltsOnly.bind (haltsOnly_andThen session.device.haltsOnly_checkProgramming fun _ => ?_)
      fun _ => trivial
    exact Controller.haltsOnly_withClock (session.device.controller.haltsOnly_writeWord word value)
  | write addr value => exact (session.device.haltsOnly_write addr value).bind fun _ => trivial
  | openFile => trivial
  | onFile number call =>
    cases call with
    | tell => trivial
    | seek target => trivial
    | read buffer => exact (OpenFile.haltsOnly_read _ buffer).bind fun _ => trivial
    | write data => exact (OpenFile.haltsOnly_write _ _ data).bind fun _ => trivial
    | control request argument =>
      exact (OpenFile.haltsOnly_control _ _ request argument).bind fun _ => trivial

end FuseBank
