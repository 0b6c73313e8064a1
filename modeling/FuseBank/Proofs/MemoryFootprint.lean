import FuseBank.Proofs.FailedCalls
import FuseBank.Proofs.RegisterOffsets
import FuseBank.Proofs.Visits

/-!
What a mapped controller leaves in memory. Of the registers only the mode and the address register are
written, and of its window a clock gate writes the first word, so all other bytes are as before. The
clock word follows the clock calls in the traffic: a call that has held the clock clears its bit again,
and nothing else changes the word (`memory_footprint`).
-/

namespace FuseBank
open Routine Operation

theorem Admitted.write_offset {pulsed : Word → Prop} {clocks downs : Prop} {prev : Option Event} {o : Nat}
    {v : Word} (h : Admitted pulsed clocks downs prev (.write o v)) :
    o = Offset.mode ∨ o = Offset.address := by
  cases h with
  | address => exact .inr rfl
  | clock _ _ _ call => cases call
  | _ => exact .inl rfl

def Memory.SameOutside (words : List Nat) (m m' : Memory) : Prop :=
  ∀ a, (∀ word ∈ words, a < word ∨ word + 4 ≤ a) → m'.readByte a = m.readByte a

theorem Memory.sameOutside_writeWord {words : List Nat} {word : Nat} (h : word ∈ words) (m : Memory)
    (v : Word) : SameOutside words m (m.writeWord word v) :=
  fun _ outside => m.readByte_writeWord_of_outside v (outside word h)

/-- The words that the controller may write: the mode register, the address register and the clock
register. -/
def Config.written (config : Config) : List Nat :=
  [config.baseAddress.toNat, config.baseAddress.toNat + Offset.address] ++
    config.clock.toList.map fun bit => bit.register.toNat

section Mapped

variable {registers clock : MappingAnswers} {config : Config} {mapped : MappedController}

theorem Config.register_mem_written {bit : ClockBit} (h : config.clock = some bit) :
    bit.register.toNat ∈ config.written := by
  simp [written, h]

namespace MappedController

theorem relates_of_map (valid : config.Valid)
    (maps : (map registers clock config).result = .ok (.ok mapped)) :
    Relates mapped.hardware (Admitted (fun _ => True) True True) (Memory.SameOutside config.written) := by
  have window := valid.window
  refine ⟨fun _ _ _ => rfl, ?_, ?_, ?_, ?_, ?_⟩
  · intro s t u first second a outside
    rw [second a outside, first a outside]
  · intro o m
    have same : (mapped.hardware.bus.read o m).state = m := rfl
    rw [same]
    exact fun _ _ => rfl
  · intro prev o v m _ admitted
    obtain ⟨aligned, below⟩ := admitted.offset_le rfl
    rw [write_of_map maps aligned (Nat.le_trans below window)]
    refine Memory.sameOutside_writeWord ?_ m v
    obtain rfl | rfl := admitted.write_offset
    · simp [Config.written, Offset.mode]
    · simp [Config.written]
  · intro m
    change Memory.SameOutside _ m (mapped.gate.enable m).state
    rw [gate_of_map maps]
    cases clocked : config.clock with
    | none => exact fun _ _ => rfl
    | some bit =>
      change Memory.SameOutside _ m ((bit.registerClock clock.pageSize).enable m).state
      rw [(bit.enable_registerClock clock.pageSize m).1]
      exact Memory.sameOutside_writeWord (Config.register_mem_written clocked) m _
  · intro m
    change Memory.SameOutside _ m (mapped.gate.disable m).state
    rw [gate_of_map maps]
    cases clocked : config.clock with
    | none => exact fun _ _ => rfl
    | some bit =>
      change Memory.SameOutside _ m ((bit.registerClock clock.pageSize).disable m).state
      rw [bit.disable_registerClock]
      exact Memory.sameOutside_writeWord (Config.register_mem_written clocked) m _

end MappedController

end Mapped

def switched (mask : Word) (w : Word) : Event → Word
  | .enabled | .refused _ => w ||| mask
  | .disabled => w &&& ~~~mask
  | _ => w

/-- The events leave the clock word as it was, with its bits clear if the clock has been on. -/
def ClockSettled (es : List Event) : Prop :=
  ∀ mask w : Word, es.foldl (switched mask) w = if .enabled ∈ es then w &&& ~~~mask else w

theorem ClockSettled.append {es fs : List Event} (h : ClockSettled es) (h' : ClockSettled fs) :
    ClockSettled (es ++ fs) := by
  intro mask w
  rw [List.foldl_append, h, h']
  by_cases first : .enabled ∈ es
  · rw [if_pos first, if_pos (List.mem_append_left _ first)]
    split
    · rw [BitVec.and_assoc, BitVec.and_self]
    · rfl
  · rw [if_neg first]
    simp only [List.mem_append, first, false_or]

theorem foldl_accesses {es : List Event} (h : ∀ e ∈ es, e.isAccess) (mask w : Word) :
    es.foldl (switched mask) w = w := by
  induction es with
  | nil => rfl
  | cons e es ih =>
    obtain ⟨access, rest⟩ := List.forall_mem_cons.1 h
    have same : switched mask w e = w := by
      cases e with
      | read | write => rfl
      | _ => cases access
    rw [List.foldl_cons, same]
    exact ih rest

theorem settled_accesses {es : List Event} (h : ∀ e ∈ es, e.isAccess) : ClockSettled es := by
  intro mask w
  have never : .enabled ∉ es := fun on => by cases h _ on
  rw [foldl_accesses h, if_neg never]

theorem Scoped.settled {es : List Event} (h : Scoped es) (granted : ∀ e, .refused e ∉ es) :
    ClockSettled es := by
  cases h with
  | idle => exact settled_accesses (by simp)
  | refused e => exact absurd (List.mem_singleton_self _) (granted e)
  | held accesses all =>
    intro mask w
    have on : Event.enabled ∈ .enabled :: accesses ++ [.disabled] := by simp
    rw [if_pos on, List.cons_append, List.foldl_cons, List.foldl_append, foldl_accesses all]
    change (w ||| mask) &&& ~~~mask = w &&& ~~~mask
    rw [BitVec.and_or_distrib_right, BitVec.and_not_self]
    exact BitVec.or_zero

section Runs

variable {σ : Type} {hw : Hardware σ}

theorem Routine.settled_bind {α β : Type} {p : Routine α} {f : α → Routine β} {s : σ}
    (first : ClockSettled (run hw p s).traffic)
    (rest : ∀ a t, ClockSettled (run hw (f a) t).traffic) :
    ClockSettled (run hw (p >>= f) s).traffic := by
  rw [run_bind]
  unfold Run.andThen
  split
  · exact first
  · rename_i a _
    have traffic (r : Run σ β) : (r.after (run hw p s).events).traffic =
        (run hw p s).traffic ++ r.traffic := Run.traffic_after _ r
    rw [traffic]
    exact first.append (rest a _)

theorem Device.settled_shutdown (s : σ) : ClockSettled (run hw shutdown s).traffic := by
  have accesses : shutdown.Keeps fun _ e => e.isAccess := fun _ _ => ⟨rfl, rfl, trivial⟩
  refine settled_accesses fun e sent => ?_
  obtain ⟨_, access⟩ := (accesses.chained hw s).of_mem sent
  exact access

variable (serves : hw.Serves (Admitted (fun _ => True) True True))
  (granted : ∀ (α : Type) (p : Routine α) (s : σ) (e : DeviceError), .refused e ∉ (run hw p s).traffic)

include serves granted

theorem Session.settled_step (session : Session) (step : Step) (s : σ) :
    ClockSettled (run hw (session.step step) s).traffic := by
  have own : StepScoped step (session.serve hw s step) :=
    Session.serve_scoped serves (session.keeps_answer fun _ _ => trivial)
      (fun _ value => Device.keeps_write _ trivial value) s
  have granted := granted _ (session.answer step) s
  have same : (run hw (session.step step) s).traffic = (run hw (session.answer step) s).traffic := by
    rw [step_eq, Run.traffic, (run_bind_done hw _ Prod.snd s).1]
    rfl
  rw [same]
  cases step with
  | call call => exact own.1.settled granted
  | restart config =>
    obtain ⟨v, sent⟩ := own
    change (run hw (session.answer (.restart config)) s).traffic = _ at sent
    rw [sent]
    exact settled_accesses (by simp [Event.isAccess])

theorem Session.settled_steps (session : Session) (steps : List Step) (s : σ) :
    ClockSettled (run hw (steps.foldlM Session.step session) s).traffic := by
  induction steps generalizing session s with
  | nil => exact settled_accesses nofun
  | cons step steps ih =>
    rw [List.foldlM_cons]
    exact settled_bind (session.settled_step serves granted step s) ih

end Runs

section Mapped

variable {registers clock : MappingAnswers} {config : Config} {mapped : MappedController} {bit : ClockBit}

namespace MappedController

theorem granted_of_map (valid : config.Valid)
    (maps : (map registers clock config).result = .ok (.ok mapped)) {α : Type} (p : Routine α)
    (m : Memory) (e : DeviceError) : .refused e ∉ (run mapped.hardware p m).traffic := by
  intro refused
  obtain ⟨m, answered⟩ := answer_of_refused refused
  change (mapped.gate.enable m).result = _ at answered
  rw [gate_of_map maps] at answered
  cases clocked : config.clock with
  | none =>
    rw [clocked] at answered
    cases answered
  | some bit =>
    rw [clocked] at answered
    obtain ⟨-, answer, served, latched⟩ := bit.enable_registerClock clock.pageSize m
    obtain rfl := latched (valid.clock bit clocked).1
    cases served.symm.trans answered

theorem follows_of_map (valid : config.Valid)
    (maps : (map registers clock config).result = .ok (.ok mapped))
    (clocked : config.clock = some bit) (mode : bit.register.toNat ≠ config.baseAddress.toNat)
    (address : bit.register.toNat ≠ config.baseAddress.toNat + Offset.address) :
    Follows mapped.hardware (Admitted (fun _ => True) True True)
      (fun m => m.readWord bit.register.toNat) (switched (bit.registerClock clock.pageSize).mask) := by
  -- A clock register that is neither of the two that the controller writes is changed by the clock
  -- calls alone.
  have base := valid.base
  have aligned := (valid.clock bit clocked).2
  have gate : mapped.gate = (bit.registerClock clock.pageSize).gate := by
    rw [gate_of_map maps, clocked]
  refine ⟨fun _ _ _ _ _ => rfl, ?_, ?_, ?_⟩
  · intro prev o v m admitted
    obtain ⟨word, below⟩ := admitted.offset_le rfl
    rw [write_of_map maps word (Nat.le_trans below valid.window)]
    refine Memory.readWord_writeWord_of_disjoint m v ?_
    -- word addresses that differ are four bytes apart
    obtain rfl | rfl := admitted.write_offset
    · simp only [Offset.mode] at mode ⊢
      omega
    · simp only [Offset.address] at address ⊢
      omega
  · intro prev answer m _
    change (mapped.gate.enable m).state.readWord _ = _
    rw [gate]
    change ((bit.registerClock clock.pageSize).enable m).state.readWord _ = _
    rw [(bit.enable_registerClock clock.pageSize m).1, Memory.readWord_writeWord]
    cases answer <;> rfl
  · intro prev m _
    change (mapped.gate.disable m).state.readWord _ = _
    rw [gate]
    change ((bit.registerClock clock.pageSize).disable m).state.readWord _ = _
    rw [bit.disable_registerClock, Memory.readWord_writeWord]
    rfl

end MappedController

end Mapped

/-- Over plain memory a bus offset is the word that lies so far from the configured address, at a place
inside the mapping of whole pages. From any contents, the steps of a session and its shutdown change no
byte outside the mode word, the address word and the clock word. A clock word apart from these two
keeps all its bits but the clock bit, which is clear if some call has held the clock, and else as before.
They get to their end, unless a write to a file runs over its offsets: then so much holds where that write
ends. -/
theorem memory_footprint {registers clock : MappingAnswers} {config : Config}
    {mapped : MappedController} (accepted : config.check = none)
    (maps : (MappedController.map registers clock config).result = .ok (.ok mapped)) (session : Session)
    (steps : List Step) (m : Memory) :
    let base := config.baseAddress.toNat
    let r := run mapped.hardware (session.toShutdown steps) m
    (∀ o, o % 4 = 0 → o + 4 ≤ config.windowSize.toNat →
      mapped.window.page % mapped.window.pageSize = 0 ∧
      mapped.window.page + (mapped.window.start + o) = base + o ∧
      mapped.window.start + o + 4 ≤ mapped.window.extent ∧
      ∀ (v : Word) (m : Memory),
        mapped.hardware.bus.read o m = { result := .ok (m.readWord (base + o)), state := m } ∧
        mapped.hardware.bus.write o v m =
          { result := .ok (), state := m.writeWord (base + o) v }) ∧
    (r.result = .ok () ∨ r.result = .error .overflow ∧ session.RunsOver mapped.hardware m steps) ∧
    m.SameOutside config.written r.state ∧
    ∀ bit ∈ config.clock, bit.register.toNat ≠ base → bit.register.toNat ≠ base + 4 →
      r.state.readWord bit.register.toNat =
        if .enabled ∈ r.traffic then m.readWord bit.register.toNat &&& ~~~(1#32 <<< bit.bit.toNat)
        else m.readWord bit.register.toNat := by
  intro base r
  have valid := config.check_eq_none_iff.1 accepted
  have keeps := session.keeps_toShutdown steps
  have serves := MappedController.serves_of_map maps valid
  refine ⟨?_, session.ended_toShutdown serves steps m,
    keeps.related (MappedController.relates_of_map valid maps) m, ?_⟩
  · intro o aligned inside
    obtain ⟨page, place, extent⟩ := MappedController.place_of_map maps inside
    exact ⟨page, place, extent, fun v m => ⟨MappedController.read_of_map maps aligned inside m,
      MappedController.write_of_map maps aligned inside v m⟩⟩
  · intro bit configured mode address
    have clocked := Option.mem_def.1 configured
    have followed := (keeps none).follows serves
      (MappedController.follows_of_map valid maps clocked mode address) m
    have settled : ClockSettled r.traffic :=
      settled_bind (session.settled_steps serves
        (fun _ => MappedController.granted_of_map valid maps) steps m) fun _ => Device.settled_shutdown
    exact followed.trans (settled _ _)

theorem memory_footprint_straddling :
    let session : Session := ⟨⟨.ofLimit 3, true⟩, []⟩
    let m := ({} : Memory).writeWord 0x03050ffc 0xc0000001
    let r := run MappedController.straddling.hardware (session.toShutdown [.call (.readShadow 252)]) m
    Config.straddling.check = none ∧
    (MappedController.map .granting .granting .straddling).result = .ok (.ok .straddling) ∧
    r.state.readWord 0x03050ffc = 0x40000001 ∧ r.state.readByte 0x03051000 = m.readByte 0x03051000 := by
  -- The clock register lies in the window, between two registers. Reading a word clears its highest
  -- bit and leaves the others, and the bytes behind it, as they were.
  intro session m r
  have accepted : Config.straddling.check = none := by decide
  have maps : (MappedController.map .granting .granting .straddling).result = .ok (.ok .straddling) := rfl
  have before : m.readWord 0x03050ffc = 0xc0000001 := Memory.readWord_writeWord _ _ _
  obtain ⟨-, ended, outside, clock⟩ :=
    memory_footprint accepted maps session [.call (.readShadow 252)] m
  have returned : (run MappedController.straddling.hardware
      (session.toShutdown [.call (.readShadow 252)]) m).result = .ok () := by
    refine ended.resolve_right fun ⟨_, overran⟩ => ?_
    obtain ⟨file, data, made⟩ := overran.exists_write
    simp at made
  have entered : .enabled ∈ r.traffic := by
    obtain ⟨next, asked⟩ : ∃ next, session.toShutdown [.call (.readShadow 252)] = enable next := ⟨_, rfl⟩
    have granted := MappedController.granted_of_map (Config.straddling.check_eq_none_iff.1 accepted) maps
      (enable next) m
    change .enabled ∈ (run _ (session.toShutdown _) m).traffic
    rw [asked] at returned ⊢
    obtain ⟨stopped, -⟩ | ⟨answer, -, sent⟩ := run_enable_cases MappedController.straddling.hardware m next
    · rw [returned] at stopped
      cases stopped
    · rw [sent] at granted ⊢
      cases answer with
      | ok _ => exact List.mem_cons_self
      | error e => exact absurd List.mem_cons_self (granted e)
  refine ⟨accepted, maps, ?_, outside _ (by decide)⟩
  have word := clock ⟨0x03050ffc, 31⟩ rfl (by decide) (by decide)
  change r.state.readWord 0x03050ffc = if .enabled ∈ r.traffic then m.readWord 0x03050ffc &&& _
    else m.readWord 0x03050ffc at word
  rw [word, if_pos entered, before]
  decide

end FuseBank
