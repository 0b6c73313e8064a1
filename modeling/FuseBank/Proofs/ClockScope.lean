import FuseBank.Emulation.RegisterFile
import FuseBank.Proofs.Transcript

/-!
Every call on the device and its files touches registers only while it holds the clock. Inside one
call the clock is asked for before anything else, and if it comes on, it goes off as the last thing
done, whatever became of the call (`ClockRule`). Over many steps that makes the clock calls pair up
(`clock_scopes`).
-/

namespace FuseBank
open Routine Operation

variable {σ α β : Type}

structure Gate.Answers (gate : Gate σ) : Prop where
  enable : ∀ s, ∃ answer, (gate.enable s).result = .ok answer
  disable : ∀ s, (gate.disable s).result = .ok ()

namespace Event

def holdsClock : Event → Bool
  | enabled | read _ _ | write _ _ => true
  | _ => false

theorem holdsClock_of_isAccess {e : Event} (h : e.isAccess = true) : e.holdsClock = true := by
  cases e <;> first | rfl | cases h

end Event

/-- The traffic of one call: nothing at all, a clock that did not come on, or accesses with the clock
on. -/
inductive Scoped : List Event → Prop where
  | idle : Scoped []
  | refused (e : DeviceError) : Scoped [.refused e]
  | held (accesses : List Event) (h : ∀ e ∈ accesses, e.isAccess) :
      Scoped (.enabled :: accesses ++ [.disabled])

inductive ClockRule : Option Event → Event → Prop where
  | enable : ClockRule none .enabled
  | refuse (e : DeviceError) : ClockRule none (.refused e)
  | access (prev e : Event) (held : prev.holdsClock) (h : e.isAccess) : ClockRule (some prev) e
  | disable (prev : Event) (held : prev.holdsClock) : ClockRule (some prev) .disabled

/-- How a call may end after its last event: without the clock, and where the clock was refused, with
that refusal as its result. -/
def Ended (result : Except DeviceError α) : Option Event → Prop
  | none | some .disabled => True
  | some (.refused e) => result = .error e
  | _ => False

theorem Ended.of_errors {result : Except DeviceError α} {result' : Except DeviceError β}
    {last : Option Event} (h : Ended result last)
    (same : ∀ e, result = .error e → result' = .error e) : Ended result' last := by
  unfold Ended at h ⊢
  split at h
  · trivial
  · trivial
  · exact same _ h
  · exact h

theorem Ended.not_holdsClock {result : Except DeviceError α} {last : Event}
    (h : Ended result (some last)) : ¬ last.holdsClock = true := by
  intro held
  cases last <;> first | exact h | cases held

theorem Ended.map {result : Except DeviceError α} {last : Option Event} (h : Ended result last)
    (f : α → β) : Ended (result.map f) last := by
  apply h.of_errors
  rintro e rfl
  rfl

namespace Routine

variable {R : Option Event → Event → Prop} {Q : α → Option Event → Prop}

theorem Along.holding {p : Routine α} (clockless : ∀ prev e, R prev e → e.isClockCall = false)
    {prev : Event} (held : prev.holdsClock) (hp : p.Along R Q (some prev)) :
    p.Along ClockRule (fun _ last => ∃ e : Event, last = some e ∧ e.holdsClock) (some prev) := by
  induction p generalizing prev with
  | done a => exact ⟨prev, rfl, held⟩
  | halt fault => trivial
  | read o next ih => exact fun v => ⟨.access _ _ held rfl, ih v rfl (hp v).2⟩
  | write o v next ih => exact ⟨.access _ _ held rfl, ih rfl hp.2⟩
  | enable next =>
    have call := clockless _ _ (hp (.ok ())).1
    cases call
  | disable next =>
    have call := clockless _ _ hp.1
    cases call
  | log e next ih => exact ih held hp

theorem serves_any {hw : Hardware σ} (bus : hw.bus.Answers) (gate : hw.gate.Answers) :
    hw.Serves fun _ _ => True :=
  ⟨fun _ o s _ => bus.read o s, fun _ o v s _ => bus.write o v s, fun _ s _ => gate.enable s,
    fun _ s _ => gate.disable s⟩

end Routine

theorem nil_of_chained {prev : Event} (off : prev.holdsClock = false) {es : List Event}
    (h : Chained ClockRule (some prev) es) : es = [] := by
  cases es with
  | nil => rfl
  | cons e es =>
    have held : prev.holdsClock = true := by
      cases h.1 with
      | access _ _ held => exact held
      | disable _ held => exact held
    rw [off] at held
    cases held

theorem accesses_of_chained {prev : Event} (held : prev.holdsClock) {es : List Event}
    (h : Chained ClockRule (some prev) es) :
    ∃ accesses : List Event, (∀ e ∈ accesses, e.isAccess) ∧
      (es = accesses ∨ es = accesses ++ [.disabled]) := by
  induction es generalizing prev with
  | nil => exact ⟨[], by simp, .inl rfl⟩
  | cons e es ih =>
    obtain ⟨first, rest⟩ := h
    cases first with
    | access _ _ _ access =>
      have still : e.holdsClock := Event.holdsClock_of_isAccess access
      obtain ⟨accesses, all, ends⟩ := ih still rest
      refine ⟨e :: accesses, List.forall_mem_cons.2 ⟨access, all⟩, ?_⟩
      obtain rfl | rfl := ends
      · exact .inl rfl
      · exact .inr rfl
    | disable =>
      rw [nil_of_chained rfl rest]
      exact ⟨[], by simp, .inr rfl⟩

theorem last_holdsClock {prev : Event} (held : prev.holdsClock) {accesses : List Event}
    (all : ∀ e ∈ accesses, e.isAccess) :
    ∃ last : Event, accesses.foldl (fun _ e => some e) (some prev) = some last ∧ last.holdsClock := by
  induction accesses generalizing prev with
  | nil => exact ⟨prev, rfl, held⟩
  | cons e es ih =>
    have still : e.holdsClock := Event.holdsClock_of_isAccess (all e (by simp))
    exact ih still fun e he => all e (List.mem_cons_of_mem _ he)

theorem scoped_of_chained {es : List Event} (h : Chained ClockRule none es)
    {result : Except DeviceError α} (ends : Ended result (es.foldl (fun _ e => some e) none)) :
    Scoped es ∧ ∀ e, es = [.refused e] → result = .error e := by
  cases es with
  | nil => exact ⟨.idle, by simp⟩
  | cons e es =>
    obtain ⟨first, rest⟩ := h
    cases first with
    | refuse e =>
      obtain rfl := nil_of_chained rfl rest
      refine ⟨.refused e, ?_⟩
      intro e' same
      cases same
      exact ends
    | enable =>
      obtain ⟨accesses, all, stop | rfl⟩ := accesses_of_chained rfl rest
      · have on : Event.enabled.holdsClock := rfl
        obtain ⟨last, kept, held⟩ := last_holdsClock on all
        rw [stop, List.foldl_cons, kept] at ends
        exact absurd held ends.not_holdsClock
      · exact ⟨.held accesses all, by simp⟩

def Clockless (_ : Option Event) (e : Event) : Prop := e.isClockCall = false

namespace Operation

theorem along_guarded {guard : Operation α} {f : α → Operation β} {r : Except DeviceError α}
    (checked : guard.run.unaided? = some r)
    (rest : ∀ a, r = .ok a → (f a).run.Along ClockRule Ended none) :
    (guard >>= f).run.Along ClockRule Ended none := by
  rw [ExceptT.run_bind]
  have silent : guard.run.Along ClockRule (fun outcome last => outcome = r ∧ last = none) none :=
    .of_unaided checked ⟨rfl, rfl⟩
  refine silent.bind ?_
  rintro outcome last ⟨rfl, rfl⟩
  cases outcome with
  | ok a => exact rest a rfl
  | error e => trivial

end Operation

namespace Controller

theorem along_withClock {R : Option Event → Event → Prop} {body : Operation α}
    (clockless : ∀ prev e, R prev e → e.isClockCall = false) (h : body.run.Keeps R) :
    (withClock body).run.Along ClockRule Ended none := by
  intro answer
  cases answer with
  | error e => exact ⟨.refuse e, rfl⟩
  | ok _ =>
    refine ⟨.enable, ((h _).holding clockless rfl).bind ?_⟩
    rintro outcome _ ⟨last, rfl, held⟩
    exact ⟨.disable last held, trivial⟩

theorem along_withClock_admitted {pulsed : Word → Prop} {downs : Prop} {body : Operation α}
    (h : body.run.Keeps (Admitted pulsed False downs)) :
    (withClock body).run.Along ClockRule Ended none :=
  along_withClock Admitted.clockless h

theorem along_readShadow (addr : Word) : (readShadow addr).run.Along ClockRule Ended none := by
  refine along_guarded (checkAddress_unaided addr) fun _ _ => ?_
  exact along_withClock (R := Clockless) (fun _ _ h => h) (keeps_lift (keeps_readRegister fun _ _ => rfl))

theorem along_readBuffer (addr : Word) (buffer : List Byte) :
    (readBuffer addr buffer).Along ClockRule (fun x => Ended x.1) none := by
  unfold readBuffer
  dsimp only
  split
  · trivial
  split
  · trivial
  split
  · trivial
  have words : (withClock (readWords (Offset.shadow + addr.toNat)
      ((min buffer.length fuseBytes + 3) / 4) : Operation (List Word))).run.Along ClockRule Ended none :=
    along_withClock (fun _ _ h => h) (keeps_lift (keeps_readWords_of (fun _ _ _ => rfl) _ _))
  refine words.bind fun outcome last ends => ?_
  cases outcome with
  | error e => exact ends.of_errors fun _ h => by cases h; rfl
  | ok words => exact ends.of_errors nofun

end Controller

namespace Device

variable (d : Device)

theorem along_readPhysical (index : Word) (mode : ReadMode) :
    (d.readPhysical index mode).run.Along ClockRule Ended none := by
  have keeps : (d.controller.readPhysical index mode).run.Keeps (Admitted (fun _ => False) False False) :=
    Controller.keeps_readPhysical _ _ _
  exact Controller.along_withClock_admitted keeps

theorem along_programBit (word bit : Word) (row : Row) :
    (d.programBit word bit row).run.Along ClockRule Ended none := by
  have keeps : (d.controller.programBit word bit row).run.Keeps (Admitted (fun _ => True) False False) :=
    Controller.keeps_programBit _ trivial _ _
  exact along_guarded d.checkProgramming_unaided fun _ _ => Controller.along_withClock_admitted keeps

theorem along_writeWord (word value : Word) :
    (d.writeWord word value).run.Along ClockRule Ended none := by
  have keeps : (d.controller.writeWord word value).run.Keeps (Admitted (fun _ => True) False False) :=
    Controller.keeps_writeWord _ trivial _
  exact along_guarded d.checkProgramming_unaided fun _ _ => Controller.along_withClock_admitted keeps

theorem along_write (addr value : Word) : (d.write addr value).run.Along ClockRule Ended none := by
  rw [write_eq]
  refine along_guarded (r := .ok ()) rfl fun _ _ => ?_
  refine along_guarded d.checkProgramming_unaided fun _ _ => ?_
  refine along_guarded (Controller.checkAddress_unaided addr) fun _ _ => ?_
  have keeps : (clockedWrite d.controller (addr / 4) value).run.Keeps
      (Admitted (fun _ => True) False False) := keeps_clocked _ trivial _
  exact Controller.along_withClock_admitted keeps

end Device

namespace OpenFile

variable (f : OpenFile) (d : Device)

theorem along_read (buffer : List Byte) :
    (f.read buffer).Along ClockRule (fun t => Ended t.result) none := by
  unfold read
  split
  · trivial
  refine (Controller.along_readBuffer _ _).bind ?_
  rintro ⟨outcome, page⟩ last ends
  cases outcome with
  | error e => exact ends.of_errors fun _ h => h
  | ok n => exact ends.of_errors nofun

theorem along_write (data : List Byte) :
    (f.write d data).Along ClockRule (fun t => Ended t.result) none := by
  unfold write
  split
  · refine (Device.along_write d _ _).bind fun outcome last ends => ?_
    cases outcome with
    | error e => exact ends.of_errors fun _ h => by cases h; rfl
    | ok report => exact along_written (ends.of_errors nofun)
  · trivial

theorem along_control (request : Word) (argument : List Byte) :
    (f.control d request argument).Along ClockRule (fun t => Ended t.result) none := by
  unfold control
  split
  · trivial
  split
  · refine (Controller.along_readShadow _).bind fun outcome last ends => ?_
    cases outcome with
    | error e => exact ends.of_errors fun _ h => by cases h; rfl
    | ok value => exact ends.of_errors nofun
  split
  · refine (Device.along_write d _ _).bind fun outcome last ends => ?_
    cases outcome with
    | error e => exact ends.of_errors fun _ h => by cases h; rfl
    | ok report => exact ends.of_errors nofun
  · trivial

end OpenFile

namespace Session

variable (session : Session)

theorem along_perform (call : Call) :
    (session.perform call).Along ClockRule (fun x => Ended x.1.result) none := by
  cases call with
  | programmingEnabled => trivial
  | readShadow addr => exact (Controller.along_readShadow addr).rewrap _ fun _ _ ends => ends.map _
  | readBuffer addr buffer =>
    exact (Controller.along_readBuffer addr buffer).rewrap _ fun _ _ ends => ends.map _
  | readPhysical index mode =>
    refine (along_guarded (ReadMode.ofWord_unaided mode) fun mode _ =>
      session.device.along_readPhysical index mode).rewrap _ fun _ _ ends => ends.map _
  | programBit word bit row =>
    exact (session.device.along_programBit word bit row).rewrap _ fun _ _ ends => ends.map _
  | writeWord word value =>
    exact (session.device.along_writeWord word value).rewrap _ fun _ _ ends => ends.map _
  | write addr value =>
    exact (session.device.along_write addr value).rewrap _ fun _ _ ends => ends.map _
  | openFile => trivial
  | onFile number call =>
    cases call with
    | tell => trivial
    | seek target => trivial
    | read buffer => exact (OpenFile.along_read _ buffer).rewrap _ fun _ _ ends => ends.map _
    | write data => exact (OpenFile.along_write _ _ data).rewrap _ fun _ _ ends => ends.map _
    | control request argument =>
      exact (OpenFile.along_control _ _ request argument).rewrap _ fun _ _ ends => ends.map _

end Session

theorem Device.shutdown_sends {es : List Event} {a : Unit} (h : Sends shutdown es (some a)) :
    ∃ m, es = [.read Offset.mode m, .write Offset.mode (m ||| (Mode.powerDown ||| Mode.execute))] := by
  change Sends (Routine.read Offset.mode fun m =>
    Routine.write Offset.mode (m ||| _) (log _ (done ()))) es _ at h
  cases h with
  | read m h =>
    cases h with
    | write h =>
      cases h with
      | log h =>
        obtain ⟨rfl, -⟩ := sends_done h
        exact ⟨m, rfl⟩

theorem Device.start_sends {config : Config} {es : List Event} {d : Device}
    (h : Sends (start config) es (some d)) : es = [] := by
  unfold start at h
  split at h
  · cases h with
    | log h => exact (sends_done h).1
  · exact (sends_done h).1

def clockDepth (es : List Event) : Int := es.count .enabled - es.count .disabled

theorem clockDepth_append (es fs : List Event) :
    clockDepth (es ++ fs) = clockDepth es + clockDepth fs := by
  simp only [clockDepth, List.count_append]
  omega

theorem count_accesses {es : List Event} (h : ∀ e ∈ es, e.isAccess) {call : Event}
    (other : call.isAccess = false) : es.count call = 0 := by
  rw [List.count_eq_zero]
  intro hmem
  rw [h call hmem] at other
  cases other

theorem clockDepth_accesses {es : List Event} (h : ∀ e ∈ es, e.isAccess) : clockDepth es = 0 := by
  rw [clockDepth, count_accesses h rfl, count_accesses h rfl]
  rfl

/-- What one step may send: scoped traffic if it is a call, which answers a refused clock with that
refusal, and the power-down if it is a restart. A call answers, unless the offset of its file runs over. -/
def StepScoped (step : Step) (served : Served σ) : Prop :=
  match step with
  | .call call => Scoped served.traffic ∧ (served.response = none → served.session.Overflows call) ∧
      ∀ e, served.traffic = [.refused e] →
        ∃ response, served.response = some response ∧ response.result = .error e
  | .restart _ => ∃ m, served.traffic =
      [.read Offset.mode m, .write Offset.mode (m ||| (Mode.powerDown ||| Mode.execute))]

theorem stepScoped_of_sends {session : Session} {step : Step} {es : List Event}
    {x : Option Response × Session} (sends : Sends (session.answer step) es (some x)) (s : σ) :
    StepScoped step ⟨x.1, x.2, es, s⟩ := by
  cases step with
  | call call =>
    have along : (session.answer (.call call)).Along ClockRule
        (fun y last => ∃ response, y.1 = some response ∧ Ended response.result last) none :=
      (session.along_perform call).rewrap _ fun x _ ends => ⟨x.1, rfl, ends⟩
    obtain ⟨response, answered, ends⟩ := along.ended sends
    obtain ⟨within, refused⟩ := scoped_of_chained (along.chained sends) ends
    refine ⟨within, fun silent => ?_, fun e sent => ⟨response, answered, refused e sent⟩⟩
    cases answered.symm.trans silent
  | restart config =>
    obtain ⟨absurd, -⟩ | ⟨_, es₁, es₂, split, down, rest⟩ := sends_bind sends
    · cases absurd
    obtain ⟨absurd, -⟩ | ⟨_, es₃, es₄, split', started, rest⟩ := sends_bind rest
    · cases absurd
    obtain ⟨m, rfl⟩ := Device.shutdown_sends down
    have silent : es₃ = [] := Device.start_sends started
    have nothing : es₄ = [] := (sends_done rest).1
    refine ⟨m, split.trans ?_⟩
    rw [split', silent, nothing]
    rfl

section Halts

variable {hw : Hardware σ} {R : Option Event → Event → Prop} {fault : Fault}

theorem OpenFile.traffic_of_halted {f : OpenFile} {d : Device} {data : List Byte} {s : σ}
    (returns : ∀ addr value, ∃ outcome, (run hw (d.write addr value).run s).result = .ok outcome)
    (halted : (run hw (f.write d data) s).result = .error fault) : ∃ addr value report,
      (run hw (d.write addr value).run s).result = .ok (.ok report) ∧
      (run hw (f.write d data) s).traffic = (run hw (d.write addr value).run s).traffic := by
  revert halted
  unfold OpenFile.write
  split
  · rename_i payload _
    intro halted
    obtain ⟨outcome, returned⟩ := returns payload.addr payload.value
    rw [run_bind, Run.andThen, returned] at halted
    rw [run_bind, Run.andThen, returned]
    cases outcome with
    | error e => cases halted
    | ok report =>
      have silent (t : σ) : (run hw (f.written data) t).traffic = [] := by
        unfold written
        split
        · rfl
        · rfl
      refine ⟨payload.addr, payload.value, report, returned, ?_⟩
      dsimp only
      rw [Run.traffic_after, silent, List.append_nil]
      rfl
  · intro halted
    cases halted

theorem Session.scoped_of_halted (session : Session) {call : Call} {s : σ}
    (returns : ∀ addr value,
      ∃ outcome, (run hw (session.device.write addr value).run s).result = .ok outcome)
    (overflows : session.Overflows call) (halted : (run hw (session.perform call) s).result = .error fault) :
    Scoped (run hw (session.perform call) s).traffic ∧
      ∀ e, (run hw (session.perform call) s).traffic ≠ [.refused e] := by
  -- only a write to a file halts, and only after the device has given the clock back
  match call with
  | .onFile number (.write data) =>
    have same := session.prepared_device (.onFile number (.write data))
    generalize prepared : session.prepared (.onFile number (.write data)) = now at same
    obtain ⟨f, answered, whole⟩ : ∃ (f : OpenFile) (answered : Transfer → Response × Session),
        session.perform (.onFile number (.write data)) =
          f.write now.device data >>= fun t => done (answered t) := by
      rw [← prepared]
      exact ⟨_, _, rfl⟩
    rw [whole] at halted ⊢
    obtain ⟨addr, value, report, returned, traffic⟩ :=
      OpenFile.traffic_of_halted (same ▸ returns) (halted_of_map halted)
    have along := now.device.along_write addr value
    have sends := sends_of_returned returned
    obtain ⟨within, refused⟩ := scoped_of_chained (along.chained sends) (along.ended sends)
    rw [run_map]
    change Scoped (run hw (f.write now.device data) s).traffic ∧
      ∀ e, (run hw (f.write now.device data) s).traffic ≠ [.refused e]
    rw [traffic]
    refine ⟨within, fun e sent => ?_⟩
    cases refused e sent

theorem Session.serve_scoped (serves : hw.Serves R) {session : Session} {step : Step}
    (keeps : (session.answer step).Keeps R)
    (writes : ∀ addr value, (session.device.write addr value).run.Keeps R) (s : σ) :
    StepScoped step (session.serve hw s step) := by
  have returns (addr value : Word) :
      ∃ outcome, (run hw (session.device.write addr value).run s).result = .ok outcome :=
    ((writes addr value none).served serves (session.device.haltsOnly_write addr value) s).resolve_right
      fun ⟨_, never, _⟩ => never
  obtain ⟨x, returned⟩ | ⟨fault, ⟨-, call, rfl, overflows⟩, halted⟩ :=
    (keeps none).served serves (session.haltsOnly_answer step) s
  · have sends := sends_of_returned returned
    unfold serve
    dsimp only
    rw [returned]
    exact stepScoped_of_sends sends _
  · rw [serve_call]
    have ended : (run hw (session.perform call) s).result = .error fault :=
      halted_of_map (f := fun x : Response × Session => (some x.1, x.2)) halted
    obtain ⟨within, granted⟩ := session.scoped_of_halted returns overflows ended
    dsimp only
    rw [ended]
    exact ⟨within, fun _ => overflows, fun e sent => absurd sent (granted e)⟩

end Halts

theorem position_of_held {accesses es fs : List Event} {e : Event}
    (all : ∀ e ∈ accesses, e.isAccess) (split : accesses ++ [.disabled] = es ++ e :: fs) :
    (∀ e ∈ es, e.isAccess) ∧ (e.isAccess ∨ e = .disabled) := by
  obtain ⟨more, rfl, last⟩ | ⟨more, rfl, last⟩ := List.append_eq_append_iff.1 split
  · cases more with
    | nil =>
      simp only [List.nil_append, List.cons.injEq] at last
      exact ⟨by simpa using all, .inr last.1.symm⟩
    | cons _ more => simp at last
  · have before : ∀ e ∈ es, e.isAccess := fun e he => all e (List.mem_append_left _ he)
    cases more with
    | nil => exact ⟨before, .inr (List.cons.inj last).1⟩
    | cons e' more =>
      obtain ⟨rfl, -⟩ := List.cons.inj last
      exact ⟨before, .inl (all e (by simp))⟩

theorem Scoped.depth {traffic : List Event} (h : Scoped traffic) :
    clockDepth traffic = 0 ∧ ∀ es e fs, traffic = es ++ e :: fs →
      clockDepth es = if e.isAccess ∨ e = .disabled then 1 else 0 := by
  cases h with
  | idle =>
    refine ⟨rfl, ?_⟩
    intro es e fs split
    cases es <;> cases split
  | refused err =>
    refine ⟨rfl, ?_⟩
    intro es e fs split
    cases es with
    | nil =>
      cases split
      rfl
    | cons _ es => cases es <;> cases split
  | held accesses all =>
    have opened : clockDepth [.enabled] = 1 := rfl
    refine ⟨?_, ?_⟩
    · have closed : clockDepth [.disabled] = -1 := rfl
      rw [clockDepth_append, ← List.singleton_append, clockDepth_append, clockDepth_accesses all,
        opened, closed]
      rfl
    · intro es e fs split
      cases es with
      | nil =>
        obtain ⟨rfl, -⟩ := List.cons.inj split
        rfl
      | cons first es =>
        obtain ⟨rfl, rest⟩ := List.cons.inj split
        obtain ⟨before, inside⟩ := position_of_held all rest
        rw [if_pos inside, ← List.singleton_append, clockDepth_append, clockDepth_accesses before, opened]
        rfl

theorem StepScoped.depth {step : Step} {served : Served σ} (h : StepScoped step served) :
    clockDepth served.traffic = 0 := by
  cases step with
  | call call => exact h.1.depth.1
  | restart config =>
    obtain ⟨m, sent⟩ := h
    rw [sent]
    exact clockDepth_accesses (by simp [Event.isAccess])

theorem depth_in_transcript {log : List (Step × Served σ)} (each : ∀ x ∈ log, StepScoped x.1 x.2) :
    clockDepth (log.flatMap fun x => x.2.traffic) = 0 := by
  induction log with
  | nil => rfl
  | cons x log ih =>
    rw [List.flatMap_cons, clockDepth_append, (each x (by simp)).depth,
      ih fun y hy => each y (List.mem_cons_of_mem _ hy)]
    rfl

/-- Whatever the clock refuses and however the operations end, each call sends nothing, or is refused
the clock and answers that, or does all its accesses between one switching on and one switching off.
So after every step the clock is off again, it is never asked for while it is on, and but for the
power-down of a restart no register is touched while it is off. -/
theorem clock_scopes {hw : Hardware σ} (bus : hw.bus.Answers) (gate : hw.gate.Answers)
    (session : Session) (s : σ) (steps : List Step) :
    let log := session.transcript hw s steps
    (∀ x ∈ log, StepScoped x.1 x.2) ∧
    clockDepth (session.history hw s steps) = 0 ∧
    ∀ before x rest, log = before ++ x :: rest →
      let earlier := before.flatMap fun x => x.2.traffic
      clockDepth earlier = 0 ∧ ∀ es e fs, x.2.traffic = es ++ e :: fs →
        (e.isClockCall → clockDepth (earlier ++ es) = if e = .disabled then 1 else 0) ∧
        (e.isAccess → clockDepth (earlier ++ es) = 1 ∨ ∃ config, x.1 = .restart config) := by
  intro log
  have each : ∀ x ∈ log, StepScoped x.1 x.2 :=
    Session.transcript_induction (I := fun _ _ => True) trivial
      fun session s step _ _ => ⟨Session.serve_scoped (serves_any bus gate) (keeps_any _)
        (fun _ _ => keeps_any _) s, trivial⟩
  refine ⟨each, ?_, ?_⟩
  · rw [← Session.transcript_traffic]
    exact depth_in_transcript each
  · intro before x rest split earlier
    have own : StepScoped x.1 x.2 := each x (by simp [split])
    have off : clockDepth earlier = 0 :=
      depth_in_transcript fun y hy => each y (by simp [split, hy])
    refine ⟨off, ?_⟩
    intro es e fs at_e
    rw [clockDepth_append, off, Int.zero_add]
    obtain ⟨step, served⟩ := x
    cases step with
    | call call =>
      have here := own.1.depth.2 es e fs at_e
      refine ⟨fun clocked => ?_, fun access => .inl ?_⟩
      · have other : e.isAccess = false := by cases e <;> first | rfl | cases clocked
        simpa [other] using here
      · rw [here, if_pos (.inl access)]
    | restart config =>
      refine ⟨fun clocked => ?_, fun _ => .inr ⟨config, rfl⟩⟩
      obtain ⟨m, sent⟩ := own
      have member : e ∈ [Event.read Offset.mode m,
          .write Offset.mode (m ||| (Mode.powerDown ||| Mode.execute))] := by
        rw [sent.symm.trans at_e]
        simp
      simp only [List.mem_cons, List.not_mem_nil, or_false] at member
      obtain rfl | rfl := member <;> cases clocked

theorem clock_scopes_refused :
    RegisterFile.hardware.bus.Answers ∧ RegisterFile.hardware.gate.Answers ∧
    let log := Session.transcript RegisterFile.hardware ⟨⟨.ofLimit 2, true⟩, []⟩
      { failingEnables := [1] } [.call (.writeWord 3 1), .call (.write 8 1), .restart {}]
    (log.map fun x => x.2.traffic.length) = [37, 1, 2] ∧
    ∃ x ∈ log, ∃ response, x.2.response = some response ∧
      response.result = .error (.clock "scripted failure 1") := by
  have bus : RegisterFile.hardware.bus.Answers := by
    refine ⟨?_, fun _ _ _ => rfl⟩
    intro o f
    change ∃ v, (RegisterFile.readRegister o f).result = .ok v
    unfold RegisterFile.readRegister
    split
    · exact ⟨_, rfl⟩
    · exact ⟨_, rfl⟩
  have gate : RegisterFile.hardware.gate.Answers := ⟨fun _ => ⟨_, rfl⟩, fun _ => rfl⟩
  refine ⟨bus, gate, by decide +kernel, ?_⟩
  obtain ⟨each, -⟩ := clock_scopes bus gate ⟨⟨.ofLimit 2, true⟩, []⟩
    { failingEnables := [1] } [.call (.writeWord 3 1), .call (.write 8 1), .restart {}]
  obtain ⟨-, -, refused⟩ := each _ (List.mem_cons_of_mem _ List.mem_cons_self)
  obtain ⟨response, answered, failed⟩ := refused (.clock "scripted failure 1") (by decide +kernel)
  exact ⟨_, List.mem_cons_of_mem _ List.mem_cons_self, response, answered, failed⟩

end FuseBank
