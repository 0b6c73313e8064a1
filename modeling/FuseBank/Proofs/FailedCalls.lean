import FuseBank.Emulation.FuseMacro
import FuseBank.Proofs.ClockScope

/-!
What a failed call leaves behind. The checks of a call come before it asks for the clock, and what it
does with the clock on fails for other reasons (`Operation.FailsLate`); so a call that fails one of the
checks has sent nothing (`RefusedFirst`). A file keeps its offset and the caller the buffer, whatever
the reason (`failed_calls_leave_no_trace`).
-/

namespace FuseBank
open Routine Operation

variable {σ α β : Type}

def DeviceError.isRefusal : DeviceError → Bool
  | badAddress _ | bufferFault _ | sizeMismatch _ | unsupportedReadMode _ | unsupportedRequest _
  | programmingDisabled => true
  | _ => false

def Late (outcome : Except DeviceError α) : Prop := ∀ e, outcome = .error e → e.isRefusal = false

/-- A check is failed before anything is sent, or the failure is the clock's own answer. -/
def RefusedFirst (result : Except DeviceError α) (last : Option Event) : Prop :=
  ∀ e, result = .error e → e.isRefusal → last = none ∨ last = some (.refused e)

theorem RefusedFirst.of_errors {result : Except DeviceError α} {result' : Except DeviceError β}
    {last : Option Event} (h : RefusedFirst result last)
    (same : ∀ e, result' = .error e → result = .error e) : RefusedFirst result' last :=
  fun e failed => h e (same e failed)

theorem RefusedFirst.map {result : Except DeviceError α} {last : Option Event}
    (h : RefusedFirst result last) (f : α → β) : RefusedFirst (result.map f) last := by
  refine h.of_errors fun e failed => ?_
  cases result with
  | error e' =>
    cases failed
    rfl
  | ok a => cases failed

theorem RefusedFirst.nothing (result : Except DeviceError α) : RefusedFirst result none :=
  fun _ _ _ => .inl rfl

namespace Operation

def FailsLate (op : Operation α) : Prop :=
  ∀ last, op.run.Along (fun _ _ => True) (fun outcome _ => Late outcome) last

theorem failsLate_pure (a : α) : (pure a : Operation α).FailsLate := fun _ => nofun

theorem failsLate_throw {e : DeviceError} (late : e.isRefusal = false) :
    (throw e : Operation α).FailsLate := by
  rintro _ _ ⟨⟩
  exact late

theorem failsLate_ofOutcome {outcome : Except DeviceError α} (late : Late outcome) :
    (Operation.ofOutcome outcome).FailsLate := fun _ => late

theorem failsLate_lift (p : Routine α) : (liftM p : Operation α).FailsLate := by
  intro last
  rw [ExceptT.run_liftM, map_eq_pure_bind]
  exact (keeps_any p last).rewrap _ fun _ _ _ => nofun

theorem FailsLate.andThen {op : Operation α} {f : α → Operation β} (h : op.FailsLate)
    (hf : ∀ a, (f a).FailsLate) : (op >>= f).FailsLate := by
  intro last
  rw [ExceptT.run_bind]
  refine (h last).bind fun outcome last late => ?_
  cases outcome with
  | ok a => exact hf a last
  | error e =>
    rintro _ ⟨⟩
    exact late e rfl

theorem FailsLate.attempt_bind {op : Operation α} {f : Except DeviceError α → Operation β}
    (h : op.FailsLate) (hf : ∀ outcome, Late outcome → (f outcome).FailsLate) :
    (Operation.attempt op >>= f).FailsLate := by
  intro last
  change ((liftM op.run : Operation _) >>= f).run.Along _ _ _
  rw [ExceptT.run_bind, ExceptT.run_liftM, bind_map_left]
  exact (h last).bind fun outcome last late => hf outcome late last

theorem failsLate_forM {γ : Type} {f : γ → Operation Unit} (xs : List γ)
    (hf : ∀ x, (f x).FailsLate) : (forM xs f).FailsLate := by
  induction xs with
  | nil => exact failsLate_pure _
  | cons x xs ih =>
    rw [List.forM_cons]
    exact (hf x).andThen fun _ => ih

theorem refusedFirst_guarded {guard : Operation α} {f : α → Operation β} {r : Except DeviceError α}
    (checked : guard.run.unaided? = some r)
    (rest : ∀ a, (f a).run.Along (fun _ _ => True) RefusedFirst none) :
    (guard >>= f).run.Along (fun _ _ => True) RefusedFirst none := by
  rw [ExceptT.run_bind]
  have silent : guard.run.Along (fun _ _ => True) (fun outcome last => outcome = r ∧ last = none) none :=
    .of_unaided checked ⟨rfl, rfl⟩
  refine silent.bind ?_
  rintro outcome last ⟨rfl, rfl⟩
  cases outcome with
  | ok a => exact rest a
  | error e => exact .nothing _

end Operation

namespace Controller

variable (c : Controller)

theorem failsLate_poll (limit n : Nat) : (poll limit n).FailsLate := by
  induction n with
  | zero => exact (failsLate_lift _).andThen fun _ => failsLate_throw rfl
  | succ n ih =>
    refine (failsLate_lift isBusy).andThen fun busy => ?_
    cases busy with
    | true => exact ih
    | false => exact failsLate_pure ()

theorem failsLate_waitReady : c.waitReady.FailsLate := failsLate_poll _ _

theorem failsLate_readPhysical (index : Word) (mode : ReadMode) :
    (c.readPhysical index mode).FailsLate := by
  unfold readPhysical
  refine (failsLate_lift _).andThen fun _ => ?_
  refine c.failsLate_waitReady.andThen fun _ => ?_
  refine (failsLate_lift _).andThen fun _ => ?_
  refine (failsLate_lift _).andThen fun _ => ?_
  exact c.failsLate_waitReady.andThen fun _ => failsLate_lift _

theorem failsLate_programBit (word bit : Word) (row : Row) : (c.programBit word bit row).FailsLate := by
  unfold programBit
  refine c.failsLate_waitReady.andThen fun _ => ?_
  exact (failsLate_lift _).andThen fun _ => failsLate_lift _

theorem failsLate_writeRow (word value : Word) (row : Row) (failed : Nat) :
    (c.writeRow word value row failed).FailsLate := by
  unfold writeRow
  refine (failsLate_lift _).andThen fun _ => ?_
  refine (c.failsLate_readPhysical _ _).andThen fun before => ?_
  refine (failsLate_forM _ fun _ => c.failsLate_programBit _ _ _).andThen fun _ => ?_
  refine (c.failsLate_readPhysical _ _).andThen fun margin => ?_
  refine (failsLate_lift _).andThen fun _ => ?_
  dsimp only
  split
  · exact (failsLate_lift _).andThen fun _ => failsLate_pure _
  · exact failsLate_pure _

theorem failsLate_writeWord (word value : Word) : (c.writeWord word value).FailsLate := by
  unfold writeWord
  refine (c.failsLate_writeRow _ _ _ _).andThen fun low => ?_
  refine (c.failsLate_writeRow _ _ _ _).andThen fun high => ?_
  refine (failsLate_lift _).andThen fun _ => ?_
  dsimp only
  split
  · exact failsLate_throw rfl
  · exact failsLate_pure _

theorem refusedFirst_withClock {body : Operation α} (late : body.FailsLate) :
    (withClock body).run.Along (fun _ _ => True) RefusedFirst none := by
  intro answer
  cases answer with
  | error e =>
    refine ⟨trivial, ?_⟩
    rintro _ ⟨⟩ -
    exact .inr rfl
  | ok _ =>
    refine ⟨trivial, (late _).bind fun outcome _ fails => ⟨trivial, ?_⟩⟩
    intro e failed refusal
    rw [fails e failed] at refusal
    cases refusal

theorem refusedFirst_readShadow (addr : Word) :
    (readShadow addr).run.Along (fun _ _ => True) RefusedFirst none :=
  refusedFirst_guarded (checkAddress_unaided addr) fun _ => refusedFirst_withClock (failsLate_lift _)

theorem refusedFirst_readBuffer (addr : Word) (buffer : List Byte) :
    (readBuffer addr buffer).Along (fun _ _ => True) (fun x last => RefusedFirst x.1 last ∧
      ∀ e, x.1 = .error e → x.2 = List.replicate (min buffer.length fuseBytes) 0 ++
        buffer.drop (min buffer.length fuseBytes)) none := by
  unfold readBuffer
  dsimp only
  split
  · exact ⟨.nothing _, nofun⟩
  split
  · exact ⟨.nothing _, fun _ _ => rfl⟩
  split
  · exact ⟨.nothing _, fun _ _ => rfl⟩
  have words : (withClock (readWords (Offset.shadow + addr.toNat)
      ((min buffer.length fuseBytes + 3) / 4) : Operation (List Word))).run.Along
      (fun _ _ => True) RefusedFirst none := refusedFirst_withClock (failsLate_lift _)
  refine words.bind fun outcome last first => ?_
  cases outcome with
  | error e => exact ⟨first.of_errors fun _ h => by cases h; rfl, fun _ _ => rfl⟩
  | ok words => exact ⟨first.of_errors nofun, nofun⟩

end Controller

namespace Device

variable (d : Device)

theorem refusedFirst_readPhysical (index : Word) (mode : ReadMode) :
    (d.readPhysical index mode).run.Along (fun _ _ => True) RefusedFirst none :=
  Controller.refusedFirst_withClock (d.controller.failsLate_readPhysical _ _)

theorem refusedFirst_programBit (word bit : Word) (row : Row) :
    (d.programBit word bit row).run.Along (fun _ _ => True) RefusedFirst none :=
  refusedFirst_guarded d.checkProgramming_unaided fun _ =>
    Controller.refusedFirst_withClock (d.controller.failsLate_programBit _ _ _)

theorem refusedFirst_writeWord (word value : Word) :
    (d.writeWord word value).run.Along (fun _ _ => True) RefusedFirst none :=
  refusedFirst_guarded d.checkProgramming_unaided fun _ =>
    Controller.refusedFirst_withClock (d.controller.failsLate_writeWord _ _)

theorem refusedFirst_write (addr value : Word) :
    (d.write addr value).run.Along (fun _ _ => True) RefusedFirst none := by
  unfold write
  refine refusedFirst_guarded (r := .ok ()) rfl fun _ => ?_
  refine refusedFirst_guarded d.checkProgramming_unaided fun _ => ?_
  refine refusedFirst_guarded (Controller.checkAddress_unaided addr) fun _ => ?_
  refine Controller.refusedFirst_withClock ?_
  refine (d.controller.failsLate_writeWord _ _).attempt_bind fun outcome late => ?_
  refine (failsLate_lift _).andThen fun _ => ?_
  refine (failsLate_lift _).andThen fun _ => ?_
  refine (failsLate_lift _).andThen fun _ => ?_
  refine d.controller.failsLate_waitReady.attempt_bind fun settled late' => ?_
  refine (failsLate_ofOutcome late).andThen fun report => ?_
  exact (failsLate_ofOutcome late').andThen fun _ => failsLate_pure _

end Device

def FailsUnmoved (f : OpenFile) (buffer : List Byte) (t : Transfer) (last : Option Event) : Prop :=
  RefusedFirst t.result last ∧ ∀ e, t.result = .error e → t.file = f ∧ t.buffer = buffer

namespace OpenFile

variable (f : OpenFile) (d : Device)

theorem failsUnmoved_read (buffer : List Byte) :
    (f.read buffer).Along (fun _ _ => True) (FailsUnmoved f buffer) none := by
  unfold read
  split
  · exact ⟨.nothing _, nofun⟩
  refine (Controller.refusedFirst_readBuffer _ _).bind ?_
  rintro ⟨outcome, page⟩ last ⟨first, -⟩
  cases outcome with
  | error e => exact ⟨first.of_errors fun _ h => h, fun _ _ => ⟨rfl, rfl⟩⟩
  | ok n => exact ⟨first.of_errors nofun, nofun⟩

theorem failsUnmoved_write (data : List Byte) :
    (f.write d data).Along (fun _ _ => True) (FailsUnmoved f data) none := by
  unfold write
  split
  · refine (d.refusedFirst_write _ _).bind fun outcome last first => ?_
    cases outcome with
    | error e => exact ⟨first.of_errors fun _ h => by cases h; rfl, fun _ _ => ⟨rfl, rfl⟩⟩
    | ok report => exact along_written ⟨first.of_errors nofun, nofun⟩
  · exact ⟨.nothing _, fun _ _ => ⟨rfl, rfl⟩⟩

theorem failsUnmoved_control (request : Word) (argument : List Byte) :
    (f.control d request argument).Along (fun _ _ => True) (FailsUnmoved f argument) none := by
  unfold control
  split
  · exact ⟨.nothing _, fun _ _ => ⟨rfl, rfl⟩⟩
  split
  · refine (Controller.refusedFirst_readShadow _).bind fun outcome last first => ?_
    cases outcome with
    | error e => exact ⟨first.of_errors fun _ h => by cases h; rfl, fun _ _ => ⟨rfl, rfl⟩⟩
    | ok value => exact ⟨first.of_errors nofun, nofun⟩
  split
  · refine (d.refusedFirst_write _ _).bind fun outcome last first => ?_
    cases outcome with
    | error e => exact ⟨first.of_errors fun _ h => by cases h; rfl, fun _ _ => ⟨rfl, rfl⟩⟩
    | ok report => exact ⟨first.of_errors nofun, nofun⟩
  · exact ⟨.nothing _, fun _ _ => ⟨rfl, rfl⟩⟩

end OpenFile

def FileCall.buffer? : FileCall → Option (List Byte)
  | .read buffer => some buffer
  | .control _ argument => some argument
  | _ => none

/-- What a failed call leaves behind: all files are as before, on the one it was made on the offset
and the caller's buffer, and a buffer that was to be filled without a file is cleared that far. -/
structure Untouched (session : Session) (call : Call) (response : Response) (after : Session) : Prop where
  kept : after = session.prepared call
  file : ∀ number fileCall, call = .onFile number fileCall →
    let files := (session.prepared call).files
    response.offset = some (files.getD (number % files.length) {}).offset ∧
      response.buffer = fileCall.buffer?
  cleared : ∀ addr buffer, call = .readBuffer addr buffer → response.buffer =
    some (List.replicate (min buffer.length fuseBytes) 0 ++ buffer.drop (min buffer.length fuseBytes))

def FailsUntouched (session : Session) (call : Call) (x : Response × Session)
    (last : Option Event) : Prop :=
  RefusedFirst x.1.result last ∧ ∀ e, x.1.result = .error e → Untouched session call x.1 x.2

theorem error_of_map {result : Except DeviceError α} {f : α → β} {e : DeviceError}
    (h : result.map f = .error e) : result = .error e := by
  cases result with
  | error e' => exact congrArg Except.error (Except.error.inj h)
  | ok a => cases h

namespace Session

variable (session : Session)

theorem failsUntouched_device {answer : α → Answer} {op : Operation α} {call : Call}
    (onDevice : (∀ number fileCall, call ≠ .onFile number fileCall) ∧
      ∀ addr buffer, call ≠ .readBuffer addr buffer)
    (h : op.run.Along (fun _ _ => True) RefusedFirst none) :
    (op.run >>= fun outcome => done (({ result := outcome.map answer } : Response), session)).Along
      (fun _ _ => True) (FailsUntouched session call) none := by
  refine h.rewrap _ fun outcome last first => ⟨first.map _, fun e failed => ⟨?_, ?_, ?_⟩⟩
  · cases call <;> first | rfl | exact absurd rfl (onDevice.1 _ _)
  · exact fun number fileCall same => absurd same (onDevice.1 number fileCall)
  · exact fun addr buffer same => absurd same (onDevice.2 addr buffer)

theorem failsUntouched_transferred {number : Nat} {fileCall : FileCall} {lent : List Byte}
    {p : Routine Transfer} (answer : Nat → Answer) (shown : Bool)
    (buffer : fileCall.buffer? = if shown then some lent else none) :
    let before := session.prepared (.onFile number fileCall)
    let index := number % before.files.length
    p.Along (fun _ _ => True) (FailsUnmoved (before.files.getD index {}) lent) none →
    (p >>= fun t => done
      (({ result := t.result.map answer, buffer := if shown then some t.buffer else none,
          offset := some t.file.offset } : Response),
        ({ before with files := before.files.set index t.file } : Session))).Along
      (fun _ _ => True) (FailsUntouched session (.onFile number fileCall)) none := by
  intro before index h
  refine h.rewrap _ fun t last ⟨first, unmoved⟩ => ⟨first.map _, fun e failed => ?_⟩
  obtain ⟨file, same⟩ := unmoved e (error_of_map failed)
  refine ⟨?_, ?_, nofun⟩
  · simp only [file, getD_set_self]
    rfl
  · rintro _ _ ⟨⟩
    refine ⟨?_, ?_⟩
    · simp only [file]
      rfl
    · rw [buffer]
      simp only [same]

theorem failsUntouched_perform (call : Call) :
    (session.perform call).Along (fun _ _ => True) (FailsUntouched session call) none := by
  cases call with
  | programmingEnabled => exact ⟨.nothing _, nofun⟩
  | openFile => exact ⟨.nothing _, nofun⟩
  | readShadow addr =>
    exact session.failsUntouched_device ⟨nofun, nofun⟩ (Controller.refusedFirst_readShadow addr)
  | readBuffer addr buffer =>
    refine (Controller.refusedFirst_readBuffer addr buffer).rewrap _ ?_
    rintro ⟨outcome, page⟩ last ⟨first, cleared⟩
    refine ⟨first.map _, fun e failed => ⟨rfl, nofun, ?_⟩⟩
    rintro _ _ ⟨⟩
    exact congrArg some (cleared e (error_of_map failed))
  | readPhysical index mode =>
    exact session.failsUntouched_device ⟨nofun, nofun⟩ <|
      refusedFirst_guarded (ReadMode.ofWord_unaided mode) fun mode =>
        session.device.refusedFirst_readPhysical index mode
  | programBit word bit row =>
    exact session.failsUntouched_device ⟨nofun, nofun⟩ (session.device.refusedFirst_programBit word bit row)
  | writeWord word value =>
    exact session.failsUntouched_device ⟨nofun, nofun⟩ (session.device.refusedFirst_writeWord word value)
  | write addr value =>
    exact session.failsUntouched_device ⟨nofun, nofun⟩ (session.device.refusedFirst_write addr value)
  | onFile number call =>
    cases call with
    | tell => exact ⟨.nothing _, nofun⟩
    | seek target => exact ⟨.nothing _, nofun⟩
    | read buffer =>
      exact session.failsUntouched_transferred .number true rfl (OpenFile.failsUnmoved_read _ buffer)
    | write data =>
      exact session.failsUntouched_transferred .number false rfl (OpenFile.failsUnmoved_write _ _ data)
    | control request argument =>
      exact session.failsUntouched_transferred (fun _ => .nothing) true rfl
        (OpenFile.failsUnmoved_control _ _ request argument)

end Session

theorem Routine.answer_of_refused {hw : Hardware σ} {p : Routine α} {s : σ} {e : DeviceError}
    (h : .refused e ∈ (run hw p s).traffic) : ∃ s', (hw.gate.enable s').result = .ok (.error e) := by
  induction p generalizing s with
  | done a => cases h
  | halt fault => cases h
  | read o next ih =>
    obtain ⟨-, traffic⟩ | ⟨v, -, -, traffic⟩ := run_read_cases hw s o next
    · simp [traffic] at h
    · exact ih v (by simpa [traffic] using h)
  | write o v next ih =>
    obtain ⟨-, traffic⟩ | ⟨-, traffic⟩ := run_write_cases hw s o v next
    · simp [traffic] at h
    · exact ih (by simpa [traffic] using h)
  | enable next ih =>
    rw [run_enable] at h
    obtain ⟨f, -, -, traffic⟩ | ⟨answer, answered, -, traffic⟩ := Reply.andThen_cases
      (fun a s => (run hw (next a) s).after [.ofEnable a]) (hw.gate.enable s)
    · simp [traffic] at h
    · rw [traffic, Run.traffic_after] at h
      obtain own | later := List.mem_append.1 h
      · have same : .refused e = Event.ofEnable answer := by
          simpa using (List.mem_filter.1 own).1
        cases answer with
        | ok _ => cases same
        | error e' =>
          cases same
          exact ⟨s, answered⟩
      · exact ih answer later
  | disable next ih =>
    obtain ⟨-, traffic⟩ | ⟨-, traffic⟩ := run_disable_cases hw s next
    · simp [traffic] at h
    · exact ih (by simpa [traffic] using h)
  | log entry next ih => exact ih (s := s) (by simpa [run_log] using h)

theorem Scoped.eq_refused {traffic : List Event} (h : Scoped traffic) {e : DeviceError}
    (refused : .refused e ∈ traffic) : traffic = [.refused e] := by
  cases h with
  | idle => cases refused
  | refused e' => rw [List.mem_singleton.1 refused]
  | held accesses all =>
    have accessed : Event.refused e ∈ accesses := by simpa using refused
    cases all _ accessed

theorem Scoped.of_refusedFirst {traffic : List Event} (h : Scoped traffic)
    {result : Except DeviceError α} {e : DeviceError} (failed : result = .error e) (check : e.isRefusal)
    (first : RefusedFirst result (traffic.foldl (fun _ e => some e) none)) :
    traffic = [] ∨ traffic = [.refused e] := by
  have ends := first e failed check
  cases h with
  | idle => exact .inl rfl
  | refused e' =>
    obtain none | same := ends
    · cases none
    · cases same
      exact .inr rfl
  | held accesses all =>
    rw [List.foldl_append] at ends
    obtain none | same := ends
    · cases none
    · cases same

theorem Routine.refused_by_clock {hw : Hardware σ} {s : σ} {p : Routine β} {b : β}
    {outcome : β → Except DeviceError α} {P : β → Option Event → Prop} {e : DeviceError}
    (clocked : p.Along ClockRule (fun b => Ended (outcome b)) none)
    (ends : p.Along (fun _ _ => True) P none) (first : ∀ b last, P b last → RefusedFirst (outcome b) last)
    (asks : p.unaided? = none) (returned : (run hw p s).result = .ok b) (failed : outcome b = .error e)
    (check : e.isRefusal) : (run hw p s).traffic = [.refused e] := by
  have sends := sends_of_returned returned
  obtain ⟨within, -⟩ := scoped_of_chained (clocked.chained sends) (clocked.ended sends)
  obtain silent | answered := within.of_refusedFirst failed check (first _ _ (ends.ended sends))
  · rw [unaided_of_silent returned silent] at asks
    cases asks
  · exact answered

/-- Whatever the registers show and the clock answers, a call that returns an error leaves the files
as they were, the offset and the buffer of the one it was made on among them. Where it failed a check
it has sent nothing at all, unless the error is the clock's own answer; and where the clock did not come
on, its refusal is all that was sent and the error of the call. -/
theorem failed_calls_leave_no_trace (hw : Hardware σ) (session : Session) (s : σ) (call : Call)
    {response : Response} {after : Session} {e : DeviceError}
    (returned : (run hw (session.perform call) s).result = .ok (response, after))
    (failed : response.result = .error e) :
    let traffic := (run hw (session.perform call) s).traffic
    Untouched session call response after ∧
    (e.isRefusal → traffic = [] ∨
      traffic = [.refused e] ∧ ∃ s', (hw.gate.enable s').result = .ok (.error e)) ∧
    ∀ e', .refused e' ∈ traffic → traffic = [.refused e'] ∧ e = e' := by
  intro traffic
  have sends : Sends (session.perform call) traffic (some (response, after)) := by
    have sent := sends_run hw (session.perform call) s
    rwa [returned] at sent
  obtain ⟨first, untouched⟩ := (session.failsUntouched_perform call).ended sends
  have clocked := session.along_perform call
  obtain ⟨within, refused⟩ := scoped_of_chained (clocked.chained sends) (clocked.ended sends)
  refine ⟨untouched e failed, fun check => ?_, fun e' met => ?_⟩
  · obtain nothing | answered := within.of_refusedFirst failed check first
    · exact .inl nothing
    · have member : Event.refused e ∈ traffic := by simp [answered]
      exact .inr ⟨answered, answer_of_refused member⟩
  · have alone := within.eq_refused met
    exact ⟨alone, Except.error.inj (failed.symm.trans (refused e' alone))⟩

def Response.error? (response : Response) : Option DeviceError :=
  match response.result with
  | .error e => some e
  | .ok _ => none

theorem Response.error?_eq {response : Response} {e : DeviceError} :
    response.error? = some e ↔ response.result = .error e := by
  unfold error?
  split
  · rename_i failed
    simp [failed]
  · rename_i succeeded
    simp [succeeded]

theorem failed_calls_leave_no_trace_unclocked :
    let session : Session := ⟨⟨.ofLimit 2, true⟩, [⟨4⟩]⟩
    let m : FuseMacro := { FuseMacro.blank with clock := { failing := true } }
    let unavailable : DeviceError := .clock "emulated clk_efuse unavailable"
    let r := run FuseMacro.hardware (session.perform (.onFile 0 (.read [1, 2, 3]))) m
    ∃ response, r.result = .ok (response, session) ∧ response.result = .error unavailable ∧
      response.offset = some 4 ∧ response.buffer = some [1, 2, 3] ∧ r.traffic = [.refused unavailable] := by
  intro session m unavailable r
  have ended : (r.result.toOption.bind fun x => x.1.error?) = some unavailable := by decide +kernel
  obtain ⟨⟨response, after⟩, shown, failed⟩ := Option.bind_eq_some_iff.1 ended
  have returned : r.result = .ok (response, after) := by
    cases result : r.result with
    | ok x =>
      rw [result] at shown
      exact congrArg Except.ok (Option.some.inj shown)
    | error f =>
      rw [result] at shown
      cases shown
  have failed := Response.error?_eq.1 failed
  obtain ⟨⟨rfl, file, -⟩, -, refused⟩ :=
    failed_calls_leave_no_trace FuseMacro.hardware session m _ returned failed
  obtain ⟨kept, lent⟩ := file 0 (.read [1, 2, 3]) rfl
  exact ⟨_, returned, failed, kept, lent, (refused unavailable (by decide +kernel)).1⟩

def Gate.refusing (σ : Type) (e : DeviceError) : Gate σ where
  enable s := { result := .ok (.error e), state := s }
  disable s := { result := .ok (), state := s }

theorem failed_calls_leave_no_trace_refusing :
    let hw : Hardware FuseMacro := ⟨FuseMacro.bus, .refusing FuseMacro (.badAddress 0)⟩
    let session : Session := ⟨⟨.ofLimit 1, false⟩, []⟩
    let r := run hw (session.perform (.readShadow 0)) FuseMacro.blank
    (DeviceError.badAddress 0).isRefusal ∧
    (r.result.toOption.bind fun x => x.1.error?) = some (.badAddress 0) ∧
    r.traffic = [.refused (.badAddress 0)] ∧
    (run hw (Controller.readBuffer 2 [0xaa, 0xaa, 0xaa, 0xaa]) FuseMacro.blank).result =
      .ok (.error (.badAddress 2), [0, 0, 0, 0]) := by
  -- A clock may answer with the error of a check: word 0 is there to be read, and it is the clock
  -- that calls its address bad. And a buffer is cleared by the controller's reading already, not by
  -- the device's alone.
  decide +kernel

end FuseBank
