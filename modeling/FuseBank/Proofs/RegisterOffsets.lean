import FuseBank.Proofs.Transcript

/-!
Which registers are touched, and where a mapped window has them. Every access goes to one of the
registers below the end of the shadow registers, and an accepted configuration maps a window that holds
them all. So on the mapped controller no call runs out of the window (`registers_inside_window`).
-/

namespace FuseBank
open Routine Operation

variable {σ : Type}

def Event.offset? : Event → Option Nat
  | read o _ | write o _ => some o
  | _ => none

theorem Admitted.offset_le {pulsed : Word → Prop} {clocks downs : Prop} {prev : Option Event} {e : Event}
    (h : Admitted pulsed clocks downs prev e) {o : Nat} (ho : e.offset? = some o) :
    o % 4 = 0 ∧ o + 4 ≤ Offset.shadowEnd := by
  cases h with
  | control _ _ _ register =>
    cases ho
    obtain rfl | rfl | rfl := register
    · decide
    · decide
    · decide
  | shadow _ word below =>
    cases ho
    simp only [Offset.shadowEnd, Offset.shadow, fuseBytes, fuseWords] at below ⊢
    omega
  | clock _ e _ call =>
    cases e with
    | read | write | log => cases call
    | _ => cases ho
  | _ =>
    cases ho
    decide

namespace Routine

variable {α β : Type} {hw : Hardware σ} {p : Routine α} {f : α → Routine β} {s : σ}

theorem result_bind_ok {a : α} (returned : (run hw p s).result = .ok a) :
    (run hw (p >>= f) s).result = (run hw (f a) (run hw p s).state).result := by
  rw [run_bind]
  unfold Run.andThen
  rw [returned]
  rfl

theorem result_bind_error {fault : Fault} (halted : (run hw p s).result = .error fault) :
    (run hw (p >>= f) s).result = .error fault := by
  rw [run_bind]
  unfold Run.andThen
  rw [halted]

end Routine

namespace Session

def toShutdown (session : Session) (steps : List Step) : Routine Unit := do
  let _ ← steps.foldlM Session.step session
  Device.shutdown

theorem keeps_steps (session : Session) (steps : List Step) :
    (steps.foldlM Session.step session).Keeps (Admitted (fun _ => True) True True) := by
  induction steps generalizing session with
  | nil => exact keeps_done _
  | cons step steps ih =>
    rw [List.foldlM_cons]
    exact (session.keeps_step fun _ _ => trivial).bind fun session => ih session

theorem keeps_toShutdown (session : Session) (steps : List Step) :
    (session.toShutdown steps).Keeps (Admitted (fun _ => True) True True) :=
  (session.keeps_steps steps).bind fun _ => Device.keeps_shutdown trivial

/-- After some of the steps comes a write that runs over the offsets of its file. -/
def RunsOver (hw : Hardware σ) (session : Session) (s : σ) (steps : List Step) : Prop :=
  ∃ before call after, steps = before ++ .call call :: after ∧
    ∃ now, (run hw (before.foldlM Session.step session) s).result = .ok now ∧ now.Overflows call

theorem RunsOver.exists_write {hw : Hardware σ} {session : Session} {s : σ} {steps : List Step}
    (h : session.RunsOver hw s steps) : ∃ file data, .call (.onFile file (.write data)) ∈ steps := by
  obtain ⟨before, call, after, rfl, now, -, overflows⟩ := h
  match call with
  | .onFile file (.write data) => exact ⟨file, data, by simp⟩

section Ends

variable {hw : Hardware σ} (serves : hw.Serves (Admitted (fun _ => True) True True))

include serves

theorem ended_steps (session : Session) (steps : List Step) (s : σ) :
    (∃ now, (run hw (steps.foldlM Session.step session) s).result = .ok now) ∨
    (run hw (steps.foldlM Session.step session) s).result = .error .overflow ∧
      session.RunsOver hw s steps := by
  induction steps generalizing session s with
  | nil => exact .inl ⟨session, rfl⟩
  | cons step steps ih =>
    rw [List.foldlM_cons]
    have keeps : (session.step step).Keeps (Admitted (fun _ => True) True True) :=
      session.keeps_step fun _ _ => trivial
    obtain ⟨next, returned⟩ | ⟨fault, ⟨rfl, call, rfl, overflows⟩, halted⟩ :=
      (keeps none).served serves (session.haltsOnly_step step) s
    · rw [result_bind_ok returned]
      obtain ended | ⟨halted, before, call, after, split, now, reached, overflows⟩ := ih next _
      · exact .inl ended
      · refine .inr ⟨halted, step :: before, call, after, by rw [split]; rfl, now, ?_, overflows⟩
        rw [List.foldlM_cons, result_bind_ok returned]
        exact reached
    · exact .inr ⟨result_bind_error halted, [], call, steps, rfl, session, rfl, overflows⟩

theorem ended_toShutdown (session : Session) (steps : List Step) (s : σ) :
    (run hw (session.toShutdown steps) s).result = .ok () ∨
    (run hw (session.toShutdown steps) s).result = .error .overflow ∧ session.RunsOver hw s steps := by
  unfold toShutdown
  obtain ⟨now, returned⟩ | ⟨halted, overran⟩ := ended_steps serves session steps s
  · have keeps : Device.shutdown.Keeps (Admitted (fun _ => True) True True) := Device.keeps_shutdown trivial
    have never : Device.shutdown.HaltsOnly fun _ => False := Device.haltsOnly_shutdown
    have down (t : σ) : ∃ a, (run hw Device.shutdown t).result = .ok a :=
      ((keeps none).served serves never t).resolve_right fun ⟨_, no, _⟩ => no
    rw [result_bind_ok returned]
    obtain ⟨_, ended⟩ := down _
    exact .inl ended
  · exact .inr ⟨result_bind_error halted, overran⟩

end Ends

end Session

theorem Window.locate_eq {w : Window} (small : w.len < addressLimit) {o : Nat} (aligned : o % 4 = 0)
    (inside : o + 4 ≤ w.len) : w.locate o = .ok (w.addr.toNat + o) := by
  unfold locate
  rw [if_neg (fun misaligned => misaligned aligned), if_neg (by omega), if_pos inside, ← Nat.add_assoc,
    w.page_add_start]

theorem Window.place_ok {w w' : Window} {mmap : Nat → Nat → Except Errno (BitVec 64)}
    (h : w.place mmap = .ok w') : w' = w := by
  unfold place at h
  split at h
  · cases h
  split at h
  · cases h
  split at h
  · cases h
  split at h
  · cases h
  · exact (Except.ok.inj h).symm

theorem Window.map_ok {answers : MappingAnswers} {addr len : BitVec 64} {w : Window}
    (h : Window.map answers addr len = .ok (.ok w)) : w = ⟨addr, len.toNat, answers.pageSize⟩ := by
  unfold map at h
  split at h
  · cases h
  dsimp only at h
  split at h
  · cases h
  cases placed : place ⟨addr, len.toNat, answers.pageSize⟩ answers.mmap with
  | error errno =>
    rw [placed] at h
    cases h
  | ok w' =>
    rw [placed] at h
    cases h
    exact place_ok placed

def ClockBit.registerClock (bit : ClockBit) (pageSize : Nat) : RegisterClock :=
  ⟨⟨bit.register, 4, pageSize⟩, 1#32 <<< bit.bit.toNat⟩

theorem RegisterClock.map_ok {answers : MappingAnswers} {bit : ClockBit} {clock : RegisterClock}
    (h : RegisterClock.map answers bit = .ok (.ok clock)) : clock = bit.registerClock answers.pageSize := by
  unfold map at h
  split at h
  · cases h
  · cases h
  rename_i window mapped
  split at h
  · cases h
  · cases h
    rw [Window.map_ok mapped]
    rfl

theorem MappedController.map_ok {registers clock : MappingAnswers} {config : Config}
    {mapped : MappedController} (h : (map registers clock config).result = .ok (.ok mapped)) :
    mapped = ⟨⟨config.baseAddress, config.windowSize.toNat, registers.pageSize⟩,
      config.clock.map fun bit => bit.registerClock clock.pageSize⟩ := by
  unfold map at h
  split at h
  · cases h
  · cases h
  rename_i window located
  obtain rfl := Window.map_ok located
  split at h
  · rename_i none
    cases h
    rw [none]
    rfl
  rename_i bit some_clock
  split at h
  · cases h
  · cases h
  rename_i clock clocked
  obtain rfl := RegisterClock.map_ok clocked
  cases h
  rw [some_clock]
  rfl

theorem ClockBit.locate_registerClock (bit : ClockBit) (pageSize : Nat) :
    (bit.registerClock pageSize).window.locate 0 = .ok bit.register.toNat := by
  have small : 4 < Window.addressLimit := by decide
  exact Window.locate_eq small rfl (Nat.le_refl 4)

theorem RegisterClock.gate_eq {c other : RegisterClock} (mask : other.mask = c.mask)
    (first : other.window.locate 0 = c.window.locate 0) : other.gate = c.gate := by
  unfold gate enable disable
  rw [mask, first]

theorem ClockBit.mask_ne_zero {bit : ClockBit} (inside : bit.bit.toNat < 32) (pageSize : Nat) :
    (bit.registerClock pageSize).mask ≠ 0 := by
  intro none
  have unset := congrArg (·.getLsbD bit.bit.toNat) none
  simp [registerClock, inside] at unset

theorem ClockBit.enable_registerClock (bit : ClockBit) (pageSize : Nat) (m : Memory) :
    let clock := bit.registerClock pageSize
    (clock.enable m).state = m.writeWord bit.register.toNat (m.readWord bit.register.toNat ||| clock.mask) ∧
    ∃ answer, (clock.enable m).result = .ok answer ∧ (bit.bit.toNat < 32 → answer = .ok ()) := by
  intro clock
  unfold RegisterClock.enable
  rw [bit.locate_registerClock]
  dsimp only
  split
  · rename_i stuck
    refine ⟨rfl, _, rfl, fun inside => absurd ?_ (mask_ne_zero inside pageSize)⟩
    rw [Memory.readWord_writeWord] at stuck
    have kept : (m.readWord bit.register.toNat ||| clock.mask) &&& clock.mask = clock.mask := by
      ext i hi
      simpa using Or.inr
    rw [← kept, stuck]
  · exact ⟨rfl, _, rfl, fun _ => rfl⟩

theorem ClockBit.disable_registerClock (bit : ClockBit) (pageSize : Nat) (m : Memory) :
    let clock := bit.registerClock pageSize
    clock.disable m =
      { result := .ok ()
        state := m.writeWord bit.register.toNat (m.readWord bit.register.toNat &&& ~~~clock.mask) } := by
  intro clock
  unfold RegisterClock.disable
  rw [bit.locate_registerClock]

namespace MappedController

variable {registers clock : MappingAnswers} {config : Config} {mapped : MappedController}
  (maps : (map registers clock config).result = .ok (.ok mapped))

include maps

theorem locate_of_map {o : Nat} (aligned : o % 4 = 0) (inside : o + 4 ≤ config.windowSize.toNat) :
    mapped.window.locate o = .ok (config.baseAddress.toNat + o) := by
  have small : config.windowSize.toNat < Window.addressLimit := config.windowSize.isLt
  rw [map_ok maps]
  exact Window.locate_eq small aligned inside

theorem place_of_map {o : Nat} (inside : o + 4 ≤ config.windowSize.toNat) :
    mapped.window.page % mapped.window.pageSize = 0 ∧
    mapped.window.page + (mapped.window.start + o) = config.baseAddress.toNat + o ∧
    mapped.window.start + o + 4 ≤ mapped.window.extent := by
  have window : mapped.window = ⟨config.baseAddress, config.windowSize.toNat, registers.pageSize⟩ := by
    rw [map_ok maps]
  refine ⟨Nat.mod_eq_zero_of_dvd (Nat.dvd_sub_mod _), ?_, ?_⟩
  · rw [← Nat.add_assoc, mapped.window.page_add_start, window]
  · rw [Window.extent, window]
    dsimp only
    omega

theorem gate_of_map :
    mapped.gate = match config.clock with
      | none => .alwaysOn Memory
      | some bit => (bit.registerClock clock.pageSize).gate := by
  rw [map_ok maps]
  unfold gate
  cases config.clock with
  | none => rfl
  | some bit => rfl

theorem read_of_map {o : Nat} (aligned : o % 4 = 0) (inside : o + 4 ≤ config.windowSize.toNat)
    (m : Memory) :
    mapped.hardware.bus.read o m =
      { result := .ok (m.readWord (config.baseAddress.toNat + o)), state := m } := by
  change mapped.window.read o m = _
  unfold Window.read
  rw [locate_of_map maps aligned inside]
  rfl

theorem write_of_map {o : Nat} (aligned : o % 4 = 0) (inside : o + 4 ≤ config.windowSize.toNat)
    (v : Word) (m : Memory) :
    mapped.hardware.bus.write o v m =
      { result := .ok (), state := m.writeWord (config.baseAddress.toNat + o) v } := by
  change mapped.window.write o v m = _
  unfold Window.write
  rw [locate_of_map maps aligned inside]

theorem serves_of_map (valid : config.Valid) :
    mapped.hardware.Serves (Admitted (fun _ => True) True True) := by
  refine ⟨?_, ?_, ?_, ?_⟩
  · intro prev o m admitted
    obtain ⟨aligned, below⟩ := (admitted 0).offset_le rfl
    rw [read_of_map maps aligned (Nat.le_trans below valid.window)]
    exact ⟨_, rfl⟩
  · intro prev o v m admitted
    obtain ⟨aligned, below⟩ := admitted.offset_le rfl
    rw [write_of_map maps aligned (Nat.le_trans below valid.window)]
  · intro prev m _
    change ∃ answer, (mapped.gate.enable m).result = .ok answer
    rw [gate_of_map maps]
    cases config.clock with
    | none => exact ⟨_, rfl⟩
    | some bit =>
      obtain ⟨-, answer, served, -⟩ := bit.enable_registerClock clock.pageSize m
      exact ⟨answer, served⟩
  · intro prev m _
    change (mapped.gate.disable m).result = .ok ()
    rw [gate_of_map maps]
    cases config.clock with
    | none => rfl
    | some bit => exact congrArg Reply.result (bit.disable_registerClock clock.pageSize m)

end MappedController

/-- On whatever hardware, the steps of a session and its shutdown go to word aligned registers inside
the window of every configuration that is accepted, also where a fault does not keep the next step from
being taken. Mapped, each of these is found at its offset from the configured address, the clock register
is found at the first word of its own window, and no step ever runs out of a window: the run gets to its
end, unless a write to a file runs over its offsets. -/
theorem registers_inside_window {registers clock : MappingAnswers} {config : Config}
    {mapped : MappedController} (accepted : config.check = none)
    (maps : (MappedController.map registers clock config).result = .ok (.ok mapped))
    (session : Session) (steps : List Step) :
    (∀ (σ : Type) (hw : Hardware σ) (s : σ), ∀ e : Event,
      e ∈ session.history hw s steps ∨ e ∈ (run hw (session.toShutdown steps) s).traffic →
      ∀ o ∈ e.offset?, o % 4 = 0 ∧ o + 4 ≤ config.windowSize.toNat) ∧
    (∀ o, o % 4 = 0 → o + 4 ≤ config.windowSize.toNat →
      mapped.window.locate o = .ok (config.baseAddress.toNat + o)) ∧
    (∀ bit ∈ config.clock, ∃ clock ∈ mapped.clock,
      clock.window.locate 0 = .ok bit.register.toNat ∧
      ∀ other : RegisterClock, other.mask = clock.mask →
        other.window.locate 0 = clock.window.locate 0 → other.gate = clock.gate) ∧
    ∀ m : Memory, let result := (run mapped.hardware (session.toShutdown steps) m).result
      result = .ok () ∨ result = .error .overflow ∧ session.RunsOver mapped.hardware m steps := by
  have valid := config.check_eq_none_iff.1 accepted
  have keeps := session.keeps_toShutdown steps
  refine ⟨?_, fun o => MappedController.locate_of_map maps, ?_, ?_⟩
  · intro σ hw s e sent o offset
    obtain ⟨prev, admitted⟩ : ∃ prev, Admitted (fun _ => True) True True prev e := by
      obtain going | whole := sent
      · exact (session.history_chained hw s (fun _ _ => trivial) none).of_mem going
      · exact (keeps.chained hw s).of_mem whole
    obtain ⟨aligned, below⟩ := admitted.offset_le offset
    exact ⟨aligned, Nat.le_trans below valid.window⟩
  · intro bit configured
    refine ⟨bit.registerClock clock.pageSize, ?_, bit.locate_registerClock _,
      fun _ => RegisterClock.gate_eq⟩
    rw [MappedController.map_ok maps, Option.mem_def.1 configured]
    rfl
  · exact session.ended_toShutdown (MappedController.serves_of_map maps valid) steps

def Config.straddling : Config where
  baseAddress := 0x03050ff4
  windowSize := 0x200
  clock := some ⟨0x03050ffc, 31⟩

def MappingAnswers.granting : MappingAnswers where
  opened := .ok ()
  sysconf := 4096
  mmap _ page := .ok (0x7f0000000000 + BitVec.ofNat 64 page)

def MappedController.straddling : MappedController :=
  ⟨⟨0x03050ff4, 0x200, 4096⟩, some ⟨⟨0x03050ffc, 4, 4096⟩, 0x80000000⟩⟩

theorem registers_inside_window_straddling :
    Config.straddling.check = none ∧
    (MappedController.map .granting .granting .straddling).result = .ok (.ok .straddling) ∧
    MappedController.straddling.window.page = 0x03050000 ∧
    MappedController.straddling.window.locate 0x1fc = .ok 0x030511f0 ∧
    ∀ m : Memory, (run MappedController.straddling.hardware
      (Session.toShutdown ⟨⟨.ofLimit 3, true⟩, []⟩ [.call (.readBuffer 252 [1, 2, 3]),
        .call (.programBit 77 99 .high), .restart {}, .call (.onFile 3 (.seek 254)),
        .call (.onFile 3 (.read [1, 2, 3]))]) m).result = .ok () := by
  have accepted : Config.straddling.check = none := by decide
  have maps : (MappedController.map .granting .granting .straddling).result = .ok (.ok .straddling) := rfl
  obtain ⟨-, located, -, returns⟩ := registers_inside_window accepted maps ⟨⟨.ofLimit 3, true⟩, []⟩
    [.call (.readBuffer 252 [1, 2, 3]), .call (.programBit 77 99 .high), .restart {},
      .call (.onFile 3 (.seek 254)), .call (.onFile 3 (.read [1, 2, 3]))]
  refine ⟨accepted, maps, by decide, located 0x1fc (by decide) (by decide), fun m => ?_⟩
  -- none of the steps writes to a file
  refine (returns m).resolve_right fun ⟨_, overran⟩ => ?_
  obtain ⟨file, data, made⟩ := overran.exists_write
  simp at made

end FuseBank
