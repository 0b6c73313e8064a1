import FuseBank.Emulation.FuseMacro
import FuseBank.Proofs.TrafficGrammar
import FuseBank.Proofs.WordWriteTraffic

/-!
Which calls that name a place outside the fuse space are turned away before they reach the hardware.
Byte addresses are checked. Words and physical rows are not: such a call reaches the hardware unless
something else stops it first, and a word past the last acts on the word below it that has the same
low six bits (`outOfRange_rejected_iff`).
-/

namespace FuseBank
open Routine Operation Traffic

variable {σ α β : Type}

namespace Call

def OutOfRange : Call → Prop
  | .readShadow addr | .write addr _ => ¬ Controller.ValidAddress addr
  | .readBuffer addr buffer => buffer ≠ [] ∧ ¬ Controller.ValidAddress addr
  | .programBit word _ _ | .writeWord word _ => fuseWords ≤ word.toNat
  | .readPhysical index _ => fuseRows ≤ index.toNat
  | _ => False

def refusal? (programmingEnabled : Bool) : Call → Option DeviceError
  | .readShadow addr | .readBuffer addr _ => some (.badAddress addr)
  | .write addr _ => some (if programmingEnabled then .badAddress addr else .programmingDisabled)
  | .programBit _ _ _ | .writeWord _ _ =>
    if programmingEnabled then none else some .programmingDisabled
  | .readPhysical _ mode => if mode = 0 ∨ mode = 1 then none else some (.unsupportedReadMode mode)
  | _ => none

def word? : Call → Option Word
  | .programBit word _ _ | .writeWord word _ => some word
  | _ => none

/-- The call with its word taken modulo the size of the fuse space. -/
def wrapped : Call → Call
  | .programBit word bit row => .programBit (word % 64) bit row
  | .writeWord word value => .writeWord (word % 64) value
  | call => call

end Call

/-- The call came back with the error, and neither a register nor the clock was touched. -/
def Run.Rejects (r : Run σ (Response × Session)) (e : DeviceError) : Prop :=
  (∃ response session, r.result = .ok (response, session) ∧ response.result = .error e) ∧
    r.traffic = []

namespace Routine

def unaided? : Routine α → Option α
  | done a => some a
  | log _ next => unaided? next
  | _ => none

theorem unaided?_bind (p : Routine α) (f : α → Routine β) :
    (p >>= f).unaided? = p.unaided?.bind fun a => (f a).unaided? := by
  induction p with
  | log e next ih => exact ih
  | _ => rfl

theorem run_of_unaided (hw : Hardware σ) (s : σ) {p : Routine α} {a : α} (h : p.unaided? = some a) :
    (run hw p s).result = .ok a ∧ (run hw p s).traffic = [] ∧ (run hw p s).state = s := by
  induction p with
  | done b =>
    cases h
    exact ⟨rfl, rfl, rfl⟩
  | log e next ih =>
    obtain ⟨returned, silent, unchanged⟩ := ih h
    rw [run_log, Run.traffic_after, silent]
    exact ⟨returned, rfl, unchanged⟩
  | _ => cases h

theorem Along.of_unaided {R : Option Event → Event → Prop} {Q : α → Option Event → Prop}
    {prev : Option Event} {p : Routine α} {a : α} (h : p.unaided? = some a) (ha : Q a prev) :
    p.Along R Q prev := by
  induction p with
  | done b =>
    cases h
    exact ha
  | log e next ih => exact ih h
  | _ => cases h

theorem unaided_of_silent {hw : Hardware σ} {s : σ} {p : Routine α} {a : α}
    (returned : (run hw p s).result = .ok a) (silent : (run hw p s).traffic = []) :
    p.unaided? = some a := by
  have sends := sends_of_returned returned
  rw [silent] at sends
  clear returned silent
  induction p with
  | done b =>
    obtain ⟨-, h | h⟩ := sends_done sends
    · cases h
    · exact h.symm
  | log e next ih =>
    cases sends with
    | log sends => exact ih sends
  | _ => cases sends

end Routine

namespace Operation

theorem unaided?_bind (op : Operation α) (f : α → Operation β) :
    (op >>= f).run.unaided? = op.run.unaided?.bind fun outcome =>
      match outcome with
      | .ok a => (f a).run.unaided?
      | .error e => some (.error e) := by
  rw [ExceptT.run_bind, Routine.unaided?_bind]
  congr 1
  funext outcome
  cases outcome <;> rfl

end Operation

namespace Controller

theorem checkAddress_unaided (addr : Word) : (checkAddress addr).run.unaided? =
    some (if ValidAddress addr then .ok () else .error (.badAddress addr)) := by
  unfold checkAddress
  split <;> rfl

theorem checkAddress_valid {addr : Word} (valid : ValidAddress addr) :
    (checkAddress addr).run.unaided? = some (.ok ()) := by
  rw [checkAddress_unaided, if_pos valid]

theorem checkAddress_invalid {addr : Word} (invalid : ¬ ValidAddress addr) :
    (checkAddress addr).run.unaided? = some (.error (.badAddress addr)) := by
  rw [checkAddress_unaided, if_neg invalid]

end Controller

theorem Device.checkProgramming_unaided (d : Device) : d.checkProgramming.run.unaided? =
    some (if d.programmingEnabled then .ok () else .error .programmingDisabled) := by
  unfold checkProgramming
  cases d.programmingEnabled <;> rfl

theorem Device.checkProgramming_enabled {d : Device} (enabled : d.programmingEnabled = true) :
    d.checkProgramming.run.unaided? = some (.ok ()) := by
  rw [checkProgramming_unaided, enabled]
  rfl

theorem ReadMode.ofWord_unaided (w : Word) : (ofWord w).run.unaided? =
    some (if w = 0 then .ok array else if w = 1 then .ok margin
      else .error (.unsupportedReadMode w)) := by
  unfold ofWord
  split
  · rfl
  · split <;> rfl

theorem Controller.readShadow_unaided (addr : Word) : (readShadow addr).run.unaided? =
    if ValidAddress addr then none else some (.error (.badAddress addr)) := by
  unfold readShadow
  rw [Operation.unaided?_bind, checkAddress_unaided]
  split <;> rfl

theorem Device.write_unaided (d : Device) (addr value : Word) : (d.write addr value).run.unaided? =
    if d.programmingEnabled then
      if Controller.ValidAddress addr then none else some (.error (.badAddress addr))
    else some (.error .programmingDisabled) := by
  rw [write_eq, Operation.unaided?_bind]
  change Option.bind (some (Except.ok ())) _ = _
  rw [Option.bind_some, Operation.unaided?_bind, checkProgramming_unaided, Operation.unaided?_bind,
    Controller.checkAddress_unaided]
  cases d.programmingEnabled with
  | false => rfl
  | true =>
    by_cases valid : Controller.ValidAddress addr
    · simp only [if_pos valid]
      rfl
    · simp only [if_neg valid]
      rfl

theorem respond_unaided (op : Operation α) (answer : α → Answer) (session : Session) :
    ((op.run >>= fun outcome =>
        done ((⟨outcome.map answer, none, none⟩ : Response), session)).unaided?.map fun x =>
          x.1.result) = op.run.unaided?.map (Except.map answer) := by
  rw [Routine.unaided?_bind]
  cases op.run.unaided? <;> rfl

theorem perform_unaided (session : Session) {call : Call} (out : call.OutOfRange) :
    ((session.perform call).unaided?.map fun x => x.1.result) =
      (call.refusal? session.device.programmingEnabled).map .error := by
  cases call with
  | readShadow addr =>
    refine (respond_unaided _ _ _).trans ?_
    unfold Device.readShadow
    rw [Controller.readShadow_unaided, if_neg out]
    rfl
  | readBuffer addr buffer =>
    have count : ¬ min buffer.length fuseBytes = 0 := by
      have filled : buffer.length ≠ 0 := by simpa using out.1
      rw [fuseBytes_eq]
      unfold fuseWords
      omega
    have refused : ∃ cleared, Device.readBuffer addr buffer =
        done (.error (.badAddress addr), cleared) := by
      unfold Device.readBuffer Controller.readBuffer
      dsimp only
      rw [if_neg count, if_pos out.2]
      exact ⟨_, rfl⟩
    obtain ⟨cleared, refused⟩ := refused
    change ((Device.readBuffer addr buffer >>= _).unaided?.map _) = _
    rw [refused]
    rfl
  | readPhysical index mode =>
    refine (respond_unaided _ _ _).trans ?_
    rw [Operation.unaided?_bind, ReadMode.ofWord_unaided]
    change _ = Option.map Except.error
      (if mode = 0 ∨ mode = 1 then none else some (DeviceError.unsupportedReadMode mode))
    by_cases array : mode = 0
    · rw [if_pos array, if_pos (.inl array)]
      rfl
    by_cases margin : mode = 1
    · rw [if_neg array, if_pos margin, if_pos (.inr margin)]
      rfl
    · rw [if_neg array, if_neg margin, if_neg (not_or.2 ⟨array, margin⟩)]
      rfl
  | programBit word bit row =>
    refine (respond_unaided (session.device.programBit word bit row) _ _).trans ?_
    unfold Device.programBit
    rw [Operation.unaided?_bind, Device.checkProgramming_unaided]
    cases session.device.programmingEnabled <;> rfl
  | writeWord word value =>
    refine (respond_unaided (session.device.writeWord word value) _ _).trans ?_
    unfold Device.writeWord
    rw [Operation.unaided?_bind, Device.checkProgramming_unaided]
    cases session.device.programmingEnabled <;> rfl
  | write addr value =>
    refine (respond_unaided (session.device.write addr value) _ _).trans ?_
    rw [Device.write_unaided, if_neg out]
    cases session.device.programmingEnabled <;> rfl
  | _ => cases out

theorem rejects_iff_refusal (hw : Hardware σ) (session : Session) (s : σ) {call : Call}
    (out : call.OutOfRange) (e : DeviceError) :
    (run hw (session.perform call) s).Rejects e ↔
      call.refusal? session.device.programmingEnabled = some e := by
  have answers := perform_unaided session out
  constructor
  · rintro ⟨⟨response, session', returned, failed⟩, silent⟩
    rw [unaided_of_silent returned silent, Option.map_some, failed] at answers
    simpa using answers.symm
  · intro refused
    rw [refused] at answers
    obtain ⟨x, unaided, failed⟩ := Option.map_eq_some_iff.1 answers
    obtain ⟨returned, silent, -⟩ := run_of_unaided hw s unaided
    exact ⟨⟨x.1, x.2, returned, failed⟩, silent⟩

theorem setWidth_mod (word : Word) : (word % 64).setWidth 6 = word.setWidth 6 := by
  apply BitVec.eq_of_toNat_eq
  simp only [BitVec.toNat_setWidth, BitVec.toNat_umod]
  exact Nat.mod_mod word.toNat 64

theorem Address.compose_mod (word bit : Word) (row : Row) :
    compose (word % 64) bit row = compose word bit row := by
  rw [compose, setWidth_mod, compose]

theorem Address.physicalWord_mod (word : Word) (row : Row) :
    physicalWord (word % 64) row = physicalWord word row := by
  rw [physicalWord, setWidth_mod, physicalWord]

namespace Controller

def writeRows (c : Controller) (word value : Word) : Operation (RowReport × RowReport) := do
  let low ← c.writeRow word value .low 0
  let high ← c.writeRow word value .high (if low.verified then 0 else 1)
  refresh
  return (low, high)

theorem writeRows_mod (c : Controller) (word value : Word) :
    c.writeRows (word % 64) value = c.writeRows word value := by
  simp only [writeRows, writeRow, programBit, Address.compose_mod, Address.physicalWord_mod]

theorem writeWord_eq (c : Controller) (word value : Word) : c.writeWord word value =
    (c.writeRows word value >>= fun x => ofOutcome (wordOutcome word value x.1 x.2)) := by
  unfold writeWord writeRows
  simp only [bind_assoc, pure_bind]
  congr 1
  funext low
  congr 1
  funext high
  congr 1
  funext _
  unfold wordOutcome
  dsimp only
  split <;> rfl

theorem withClock_ofOutcome (body : Operation α) (g : α → Except DeviceError β) :
    withClock (body >>= fun a => ofOutcome (g a)) = withClock body >>= fun a => ofOutcome (g a) := by
  apply ExceptT.ext
  rw [ExceptT.run_bind]
  change enable _ = (enable _ >>= _)
  rw [enable_bind]
  congr 1
  funext answer
  cases answer with
  | error e => rfl
  | ok _ =>
    change ((body >>= fun a => ofOutcome (g a)).run >>= _) = ((body.run >>= _) >>= _)
    rw [ExceptT.run_bind, bind_assoc, bind_assoc]
    congr 1
    funext outcome
    cases outcome <;> rfl

end Controller

def Run.map (f : α → β) (r : Run σ α) : Run σ β := ⟨r.result.map f, r.state, r.events⟩

theorem run_map (hw : Hardware σ) (p : Routine α) (f : α → β) (s : σ) :
    run hw (p >>= fun a => done (f a)) s = (run hw p s).map f := by
  rw [run_bind, Run.andThen, Run.map]
  cases (run hw p s).result with
  | error fault => rfl
  | ok a => simp only [run_done, Run.after, List.append_nil, Except.map]

theorem halted_of_map {hw : Hardware σ} {p : Routine α} {f : α → β} {s : σ} {fault : Fault}
    (halted : (run hw (p >>= fun a => done (f a)) s).result = .error fault) :
    (run hw p s).result = .error fault := by
  rw [run_map, Run.map] at halted
  cases ended : (run hw p s).result with
  | error fault' =>
    rw [ended] at halted
    exact congrArg Except.error (Except.error.inj halted)
  | ok a =>
    rw [ended] at halted
    cases halted

theorem run_bind_done (hw : Hardware σ) (p : Routine α) (f : α → β) (s : σ) :
    (run hw (p >>= fun a => done (f a)) s).events = (run hw p s).events ∧
    (run hw (p >>= fun a => done (f a)) s).state = (run hw p s).state := by
  rw [run_map]
  exact ⟨rfl, rfl⟩

theorem result_bind_done (hw : Hardware σ) (p : Routine α) (f : α → β) (s : σ) :
    (run hw (p >>= fun a => done (f a)) s).result.toOption =
      (run hw p s).result.toOption.map f := by
  rw [run_map, Run.map]
  cases (run hw p s).result <;> rfl

theorem run_ofOutcome (op : Operation α) (g : α → Except DeviceError β) :
    (op >>= fun a => ofOutcome (g a)).run = (op.run >>= fun outcome => done (outcome >>= g)) := by
  rw [ExceptT.run_bind]
  congr 1
  funext outcome
  cases outcome <;> rfl

def Device.writeRows (d : Device) (word value : Word) : Operation (RowReport × RowReport) := do
  d.checkProgramming
  Controller.withClock (d.controller.writeRows word value)

theorem perform_writeWord (session : Session) (word value : Word) :
    session.perform (.writeWord word value) =
    ((session.device.writeRows word value).run >>= fun outcome => done
      (⟨(outcome >>= fun x => wordOutcome word value x.1 x.2).map .report, none, none⟩, session)) := by
  have served : session.device.writeWord word value =
      (session.device.writeRows word value >>= fun x =>
        ofOutcome (wordOutcome word value x.1 x.2)) := by
    unfold Device.writeWord Device.writeRows
    rw [Controller.writeWord_eq, Controller.withClock_ofOutcome, bind_assoc]
  change ((session.device.writeWord word value).run >>= _) = _
  rw [served, run_ofOutcome, bind_assoc]
  rfl

theorem perform_wrapped (hw : Hardware σ) (session : Session) (call : Call) (s : σ) :
    (run hw (session.perform call) s).events = (run hw (session.perform call.wrapped) s).events ∧
    (run hw (session.perform call) s).state = (run hw (session.perform call.wrapped) s).state := by
  -- A call that programs acts as the one on the word below 64 with the same low six bits; only what
  -- it answers names the other word.
  cases call with
  | programBit word bit row =>
    have same : session.device.programBit (word % 64) bit row =
        session.device.programBit word bit row := by
      simp only [Device.programBit, Controller.programBit, Address.compose_mod]
    change _ = (run hw ((session.device.programBit (word % 64) bit row).run >>= _) s).events ∧
      _ = (run hw ((session.device.programBit (word % 64) bit row).run >>= _) s).state
    rw [same]
    exact ⟨rfl, rfl⟩
  | writeWord word value =>
    have same : session.device.writeRows (word % 64) value = session.device.writeRows word value := by
      simp only [Device.writeRows, Controller.writeRows_mod]
    change _ = (run hw (session.perform (.writeWord (word % 64) value)) s).events ∧
      _ = (run hw (session.perform (.writeWord (word % 64) value)) s).state
    rw [perform_writeWord, perform_writeWord, same]
    obtain ⟨events, state⟩ := run_bind_done hw (session.device.writeRows word value).run _ s
    obtain ⟨events', state'⟩ := run_bind_done hw (session.device.writeRows word value).run _ s
    exact ⟨events.trans events'.symm, state.trans state'.symm⟩
  | _ => exact ⟨rfl, rfl⟩

theorem keeps_of_word {session : Session} {call : Call} {word : Word} (h : call.word? = some word) :
    (session.perform call).Keeps (Admitted (word = ·) True False) := by
  cases call with
  | programBit word' bit row =>
    have named : word = word' := (Option.some.inj h).symm
    exact (Device.keeps_programBit session.device named bit row).bind fun _ => keeps_done _
  | writeWord word' value =>
    have named : word = word' := (Option.some.inj h).symm
    exact (Device.keeps_writeWord session.device named value).bind fun _ => keeps_done _
  | _ => cases h

/-- A call out of range is turned away before it reaches the hardware if it goes by byte address, or
if it programs and programming is disabled, but never for its word or its physical row. One that
programs a word acts on the word below 64 with the same low six bits, so its pulses go to the word
that it names exactly when the word is in range. -/
theorem outOfRange_rejected_iff (hw : Hardware σ) (session : Session) (call : Call) (s : σ) :
    (call.OutOfRange → ∀ e, (run hw (session.perform call) s).Rejects e ↔
      call.refusal? session.device.programmingEnabled = some e) ∧
    (run hw (session.perform call) s).events = (run hw (session.perform call.wrapped) s).events ∧
    (run hw (session.perform call) s).state = (run hw (session.perform call.wrapped) s).state ∧
    ∀ word, call.word? = some word →
      (hw.bus.ClearsProgram → programs none (run hw (session.perform call) s).traffic =
        (pulses none (run hw (session.perform call) s).traffic).map some) ∧
      ∀ a ∈ pulses none (run hw (session.perform call) s).traffic,
        (Address.fields a).word.toNat = word.toNat % fuseWords ∧
        ((Address.fields a).word.toNat = word.toNat ↔ word.toNat < fuseWords) := by
  obtain ⟨events, state⟩ := perform_wrapped hw session call s
  refine ⟨fun out e => rejects_iff_refusal hw session s out e, events, state, ?_⟩
  intro word programs
  have keeps : (session.perform call).Keeps (Admitted (word = ·) True False) := keeps_of_word programs
  refine ⟨fun clears => programs_eq_of_run clears keeps (List.prefix_refl _), ?_⟩
  intro a sent
  obtain ⟨_, bit, row, rfl, rfl⟩ := mem_pulses (keeps.chained hw s) sent
  have masked : (Address.fields (Address.compose word bit row)).word.toNat =
      word.toNat % fuseWords := by
    rw [Address.fields_compose]
    exact BitVec.toNat_setWidth 6 word
  rw [masked]
  exact ⟨rfl, Nat.mod_eq_iff_lt (by decide)⟩

theorem outOfRange_sixtyFour :
    (Call.writeWord 64 1).OutOfRange ∧
    (∀ e, ¬ (run FuseMacro.hardware (Session.perform ⟨⟨.ofLimit 4, true⟩, []⟩ (.writeWord 64 1))
      FuseMacro.blank).Rejects e) ∧
    pulses none (run FuseMacro.hardware (Session.perform ⟨⟨.ofLimit 4, true⟩, []⟩ (.writeWord 64 1))
      FuseMacro.blank).traffic = [Address.compose 0 0 .low, Address.compose 0 0 .high] := by
  -- Word 64 is not turned away: its pulses reach word 0.
  have out : (Call.writeWord 64 1).OutOfRange := Nat.le_refl 64
  refine ⟨out, ?_, by decide +kernel⟩
  intro e rejected
  cases ((outOfRange_rejected_iff _ _ _ _).1 out e).1 rejected

end FuseBank
