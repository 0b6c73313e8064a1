import FuseBank.Session
import FuseBank.Proofs.Adjacency
import FuseBank.Proofs.WordWriteTraffic

/-!
The local grammar of traffic: which event can follow which, on any bus, in what controller, device and
files send. A program pulse and a row read follow their address directly, a refresh stands alone, and
a power write follows the read of the mode register whose bits it repeats; besides these the address
register is written, and four kinds of registers are read.
-/

namespace FuseBank
open Routine Operation

/-- The event may come directly after `prev`. Pulses go to the words in `pulsed`, clock calls need
`clocks`, and only where `downs` holds is the macro powered down. -/
inductive Admitted (pulsed : Word → Prop) (clocks downs : Prop) : Option Event → Event → Prop where
  | pulse (word bit : Word) (row : Row) (allowed : pulsed word) :
      Admitted pulsed clocks downs (some (.write Offset.address (Address.compose word bit row)))
        (.write Offset.mode (Mode.program ||| Mode.execute))
  | rowRead (index : Word) (mode : ReadMode) :
      Admitted pulsed clocks downs (some (.write Offset.address index)) (.write Offset.mode mode.command)
  | refresh (prev : Option Event) :
      Admitted pulsed clocks downs prev (.write Offset.mode Mode.refreshCommand)
  | powerUp (m : Word) :
      Admitted pulsed clocks downs (some (.read Offset.mode m)) (.write Offset.mode (m ||| Mode.execute))
  | powerDown (m : Word) (allowed : downs) :
      Admitted pulsed clocks downs (some (.read Offset.mode m))
        (.write Offset.mode (m ||| (Mode.powerDown ||| Mode.execute)))
  | address (prev : Option Event) (v : Word) : Admitted pulsed clocks downs prev (.write Offset.address v)
  | control (prev : Option Event) (o : Nat) (v : Word)
      (h : o = Offset.mode ∨ o = Offset.status ∨ o = Offset.readData) :
      Admitted pulsed clocks downs prev (.read o v)
  | shadow (prev : Option Event) (word : Nat) (h : word < fuseWords) (v : Word) :
      Admitted pulsed clocks downs prev (.read (Offset.shadow + 4 * word) v)
  | clock (prev : Option Event) (e : Event) (allowed : clocks) (h : e.isClockCall) :
      Admitted pulsed clocks downs prev e

def Bus.ClearsProgram {σ : Type} (bus : Bus σ) : Prop :=
  ∀ s v, (bus.read Offset.mode s).result = .ok v → v &&& Mode.program = 0

variable {pulsed : Word → Prop} {clocks downs : Prop} {α : Type}

theorem Admitted.clockless (prev : Option Event) (e : Event)
    (h : Admitted pulsed False downs prev e) : e.isClockCall = false := by
  cases h <;> first | rfl | contradiction

theorem program_or (m : Word) {bits : Word} (quiet : bits &&& Mode.program = 0) :
    (m ||| bits) &&& Mode.program = m &&& Mode.program := by
  rw [BitVec.and_or_distrib_right, quiet]
  exact BitVec.or_zero

theorem Admitted.program_cases {prev : Option Event} {e : Event} (h : Admitted pulsed clocks downs prev e)
    (hp : e.isProgram = true) :
    (∃ word bit row, pulsed word ∧
      prev = some (.write Offset.address (Address.compose word bit row)) ∧
      e = .write Offset.mode (Mode.program ||| Mode.execute)) ∨
    ∃ m, prev = some (.read Offset.mode m) ∧ m &&& Mode.program ≠ 0 ∧
      (e = .write Offset.mode (m ||| Mode.execute) ∨
        downs ∧ e = .write Offset.mode (m ||| (Mode.powerDown ||| Mode.execute))) := by
  cases h with
  | pulse word bit row allowed => exact .inl ⟨word, bit, row, allowed, rfl, rfl⟩
  | rowRead index mode => cases mode <;> cases hp
  | refresh => cases hp
  | powerUp m =>
    have asked : (m ||| Mode.execute) &&& Mode.program ≠ 0 := by simpa [Event.isProgram] using hp
    rw [program_or m rfl] at asked
    exact .inr ⟨m, rfl, asked, .inl rfl⟩
  | powerDown m allowed =>
    have asked : (m ||| (Mode.powerDown ||| Mode.execute)) &&& Mode.program ≠ 0 := by
      simpa [Event.isProgram] using hp
    rw [program_or m rfl] at asked
    exact .inr ⟨m, rfl, asked, .inr ⟨allowed, rfl⟩⟩
  | address _ v => simp [Event.isProgram, Offset.address, Offset.mode] at hp
  | control => cases hp
  | shadow => cases hp
  | clock _ _ _ call => cases e <;> first | cases hp | cases call

namespace Traffic

variable {σ : Type} {prev : Option Event} {es : List Event}

theorem programs_eq_pulses (chain : Chained (Admitted pulsed clocks downs) prev es)
    (clear : ∀ v, prev = some (.read Offset.mode v) ∨ .read Offset.mode v ∈ es →
      v &&& Mode.program = 0) :
    programs prev es = (pulses prev es).map some := by
  induction es generalizing prev with
  | nil => rfl
  | cons e es ih =>
    have later : programs (some e) es = (pulses (some e) es).map some := by
      refine ih chain.2 fun v hv => clear v (.inr ?_)
      obtain h | h := hv
      · exact List.mem_cons.2 (.inl (Option.some.inj h).symm)
      · exact List.mem_cons_of_mem _ h
    cases hp : e.isProgram with
    | false => simpa [pulses, programs, hp] using later
    | true =>
      obtain ⟨word, bit, row, -, rfl, -⟩ | ⟨m, rfl, shown, -⟩ := chain.1.program_cases hp
      · simpa [pulses, programs, hp, Event.addressed?] using later
      · exact absurd (clear m (.inl rfl)) shown

theorem programs_eq_of_run {hw : Hardware σ} {s : σ} (clears : hw.bus.ClearsProgram)
    {p : Routine α} (hp : p.Keeps (Admitted pulsed clocks downs))
    (cut : es <+: (run hw p s).traffic) : programs none es = (pulses none es).map some := by
  refine programs_eq_pulses ((hp none).chained ((sends_run hw p s).cutShort cut)) ?_
  intro v hv
  obtain hv | hv := hv
  · cases hv
  · obtain ⟨s', answer⟩ := answer_of_read (cut.subset hv)
    exact clears s' v answer

theorem mem_pulses {a : Word} (chain : Chained (Admitted pulsed clocks downs) prev es)
    (ha : a ∈ pulses prev es) : ∃ word bit row, pulsed word ∧ a = Address.compose word bit row := by
  induction es generalizing prev with
  | nil => cases ha
  | cons e es ih =>
    cases hp : e.isProgram with
    | false => exact ih chain.2 (by simpa [pulses, programs, hp] using ha)
    | true =>
      obtain ⟨word, bit, row, allowed, rfl, -⟩ | ⟨m, rfl, -⟩ := chain.1.program_cases hp
      · have ha : a = Address.compose word bit row ∨ a ∈ pulses (some e) es := by
          simpa [pulses, programs, hp, Event.addressed?] using ha
        obtain rfl | ha := ha
        · exact ⟨word, bit, row, allowed, rfl⟩
        · exact ih chain.2 ha
      · exact ih chain.2 (by simpa [pulses, programs, hp, Event.addressed?] using ha)

end Traffic

namespace Controller

theorem keeps_poll_of {R : Option Event → Event → Prop}
    (reads : ∀ prev v, R prev (.read Offset.status v)) (limit n : Nat) :
    (poll limit n).run.Keeps R := by
  induction n with
  | zero =>
    rw [poll_zero]
    exact fun _ => trivial
  | succ n ih =>
    rw [poll_succ]
    refine keeps_read reads fun v => ?_
    split
    · exact ih
    · exact keeps_done _

theorem keeps_poll (limit n : Nat) : (poll limit n).run.Keeps (Admitted pulsed clocks downs) :=
  keeps_poll_of (fun prev v => .control prev _ v (.inr (.inl rfl))) limit n

theorem keeps_waitReady (c : Controller) : c.waitReady.run.Keeps (Admitted pulsed clocks downs) :=
  keeps_poll _ _

theorem keeps_powerUp : (power true).Keeps (Admitted pulsed clocks downs) :=
  fun prev v => ⟨.control prev _ v (.inl rfl), .powerUp v, trivial⟩

theorem keeps_powerDown (allowed : downs) : (power false).Keeps (Admitted pulsed clocks downs) :=
  fun prev v => ⟨.control prev _ v (.inl rfl), .powerDown v allowed, trivial⟩

theorem keeps_refresh : refresh.Keeps (Admitted pulsed clocks downs) :=
  fun prev => ⟨.refresh prev, trivial⟩

theorem keeps_readPhysical (c : Controller) (index : Word) (mode : ReadMode) :
    (c.readPhysical index mode).run.Keeps (Admitted pulsed clocks downs) := by
  unfold readPhysical
  refine keeps_andThen (keeps_lift keeps_powerUp) fun _ => ?_
  refine keeps_andThen (keeps_waitReady c) fun _ => ?_
  -- the address and the command stand next to each other, so they are taken together
  rw [ExceptT.run_bind, ExceptT.run_liftM, bind_map_left]
  intro prev
  refine ⟨.address prev index, ?_⟩
  change Along _ _ _ (ExceptT.run _)
  rw [ExceptT.run_bind, ExceptT.run_liftM, bind_map_left]
  refine ⟨.rowRead index mode, ?_⟩
  refine keeps_andThen (keeps_waitReady c) (fun _ => ?_) _
  exact keeps_lift (keeps_readRegister fun prev v => .control prev _ v (.inr (.inr rfl)))

theorem keeps_programBit (c : Controller) {word : Word} (allowed : pulsed word) (bit : Word)
    (row : Row) : (c.programBit word bit row).run.Keeps (Admitted pulsed clocks downs) := by
  unfold programBit
  refine keeps_andThen (keeps_waitReady c) fun _ => ?_
  rw [ExceptT.run_bind, ExceptT.run_liftM, bind_map_left]
  exact fun prev => ⟨.address prev _, .pulse word bit row allowed, trivial⟩

theorem keeps_writeRow (c : Controller) {word : Word} (allowed : pulsed word) (value : Word)
    (row : Row) (failed : Nat) :
    (c.writeRow word value row failed).run.Keeps (Admitted pulsed clocks downs) := by
  unfold writeRow
  refine keeps_andThen (keeps_lift (keeps_note _ _ _)) fun _ => ?_
  refine keeps_andThen (keeps_readPhysical c _ _) fun before => ?_
  refine keeps_andThen (keeps_forM _ fun bit => keeps_programBit c allowed _ row) fun _ => ?_
  refine keeps_andThen (keeps_readPhysical c _ _) fun margin => ?_
  refine keeps_andThen (keeps_lift (keeps_note _ _ _)) fun _ => ?_
  dsimp only
  split
  · exact keeps_andThen (keeps_lift (keeps_note _ _ _)) fun _ => keeps_pure _
  · exact keeps_pure _

theorem keeps_writeWord (c : Controller) {word : Word} (allowed : pulsed word) (value : Word) :
    (c.writeWord word value).run.Keeps (Admitted pulsed clocks downs) := by
  unfold writeWord
  refine keeps_andThen (keeps_writeRow c allowed value _ _) fun low => ?_
  refine keeps_andThen (keeps_writeRow c allowed value _ _) fun high => ?_
  refine keeps_andThen (keeps_lift keeps_refresh) fun _ => ?_
  dsimp only
  split
  · exact keeps_throw _
  · exact keeps_pure _

theorem keeps_withClock_of {R : Option Event → Event → Prop}
    (calls : ∀ prev e, e.isClockCall → R prev e) {body : Operation α} (h : body.run.Keeps R) :
    (withClock body).run.Keeps R := by
  intro prev answer
  refine ⟨calls _ _ (by cases answer <;> rfl), ?_⟩
  cases answer with
  | error e => trivial
  | ok _ =>
    have off : (body.run >>= fun result => Routine.disable (.done result)).Keeps R :=
      h.bind fun _ prev => ⟨calls prev _ rfl, trivial⟩
    exact off _

theorem keeps_withClock {body : Operation α} (h : body.run.Keeps (Admitted pulsed True downs)) :
    (withClock body).run.Keeps (Admitted pulsed True downs) :=
  keeps_withClock_of (fun prev e call => .clock prev e trivial call) h

theorem keeps_readWords_of {R : Option Event → Event → Prop} (reads : ∀ prev o v, R prev (.read o v))
    (offset count : Nat) : (readWords offset count).Keeps R := by
  induction count generalizing offset with
  | zero => exact keeps_done _
  | succ count ih =>
    unfold readWords
    refine (keeps_readRegister fun prev v => reads prev offset v).bind fun _ => ?_
    exact (ih (offset + 4)).bind fun _ => keeps_done _

theorem keeps_readWords (word count : Nat) (h : word + count ≤ fuseWords) :
    (readWords (Offset.shadow + 4 * word) count).Keeps (Admitted pulsed clocks downs) := by
  induction count generalizing word with
  | zero => exact keeps_done _
  | succ count ih =>
    unfold readWords
    refine (keeps_readRegister fun prev v => .shadow prev word (by omega) v).bind fun _ => ?_
    refine Keeps.bind ?_ fun _ => keeps_done _
    rw [Nat.add_assoc, ← Nat.mul_succ]
    exact ih (word + 1) (by omega)

theorem ValidAddress.shadow {addr : Word} (h : ValidAddress addr) :
    Offset.shadow + addr.toNat = Offset.shadow + 4 * (addr.toNat / 4) ∧
      addr.toNat / 4 < fuseWords := by
  obtain ⟨below, aligned⟩ := h
  simp only [fuseBytes_eq] at below
  omega

theorem keeps_readShadow (addr : Word) : (readShadow addr).run.Keeps (Admitted pulsed True downs) := by
  unfold readShadow checkAddress
  split
  · rename_i valid
    refine keeps_andThen (keeps_pure _) fun _ => ?_
    refine keeps_withClock (keeps_lift (keeps_readRegister fun prev v => ?_))
    rw [valid.shadow.1]
    exact .shadow prev _ valid.shadow.2 v
  · exact keeps_done _

theorem keeps_readBuffer (addr : Word) (buffer : List Byte) :
    (readBuffer addr buffer).Keeps (Admitted pulsed True downs) := by
  unfold readBuffer
  dsimp only
  split
  · exact keeps_done _
  split
  · exact keeps_done _
  split
  · exact keeps_done _
  rename_i some_bytes valid in_range
  have valid := Decidable.not_not.1 valid
  refine Keeps.bind (keeps_withClock (keeps_lift ?_)) fun outcome => ?_
  · rw [valid.shadow.1]
    apply keeps_readWords
    have aligned := valid.2
    simp only [fuseBytes_eq] at in_range ⊢
    omega
  · split <;> exact keeps_done _

end Controller

namespace Device

theorem keeps_checkProgramming (d : Device) :
    d.checkProgramming.run.Keeps (Admitted pulsed clocks downs) := by
  unfold checkProgramming
  split
  · exact keeps_andThen (keeps_lift (keeps_note _ _ _)) fun _ => keeps_throw _
  · exact keeps_pure _

theorem keeps_readPhysical (d : Device) (index : Word) (mode : ReadMode) :
    (d.readPhysical index mode).run.Keeps (Admitted pulsed True downs) :=
  Controller.keeps_withClock (Controller.keeps_readPhysical _ _ _)

theorem keeps_programBit (d : Device) {word : Word} (allowed : pulsed word) (bit : Word)
    (row : Row) : (d.programBit word bit row).run.Keeps (Admitted pulsed True downs) :=
  keeps_andThen (keeps_checkProgramming d) fun _ =>
    Controller.keeps_withClock (Controller.keeps_programBit _ allowed _ _)

theorem keeps_writeWord (d : Device) {word : Word} (allowed : pulsed word) (value : Word) :
    (d.writeWord word value).run.Keeps (Admitted pulsed True downs) :=
  keeps_andThen (keeps_checkProgramming d) fun _ =>
    Controller.keeps_withClock (Controller.keeps_writeWord _ allowed _)

theorem keeps_clocked (c : Controller) {word : Word} (allowed : pulsed word) (value : Word) :
    (clockedWrite c word value).run.Keeps (Admitted pulsed clocks downs) := by
  refine keeps_andThen (keeps_attempt (Controller.keeps_writeWord _ allowed _)) fun outcome => ?_
  refine keeps_andThen (keeps_lift (keeps_note _ _ _)) fun _ => ?_
  refine keeps_andThen (keeps_lift Controller.keeps_powerUp) fun _ => ?_
  refine keeps_andThen (keeps_lift Controller.keeps_refresh) fun _ => ?_
  refine keeps_andThen (keeps_attempt (Controller.keeps_waitReady _)) fun settled => ?_
  refine keeps_andThen (keeps_ofOutcome _) fun report => ?_
  exact keeps_andThen (keeps_ofOutcome _) fun _ => keeps_pure _

theorem keeps_write (d : Device) {addr : Word} (allowed : pulsed (addr / 4)) (value : Word) :
    (d.write addr value).run.Keeps (Admitted pulsed True downs) := by
  rw [write_eq]
  unfold Controller.checkAddress
  refine keeps_andThen (keeps_lift (keeps_note _ _ _)) fun _ => ?_
  refine keeps_andThen (keeps_checkProgramming d) fun _ => ?_
  refine keeps_andThen ?_ fun _ => ?_
  · split
    · exact keeps_pure _
    · exact keeps_throw _
  exact Controller.keeps_withClock (keeps_clocked _ allowed _)

theorem keeps_shutdown (allowed : downs) : shutdown.Keeps (Admitted pulsed clocks downs) :=
  (Controller.keeps_powerDown allowed).bind fun _ => keeps_note _ _ _

theorem keeps_start (config : Config) : (start config).Keeps (Admitted pulsed clocks downs) := by
  unfold start
  split
  · exact (keeps_note _ _ _).bind fun _ => keeps_done _
  · exact keeps_done _

end Device

namespace OpenFile

theorem keeps_read (f : OpenFile) (buffer : List Byte) :
    (f.read buffer).Keeps (Admitted pulsed True downs) := by
  unfold read
  split
  · exact keeps_done _
  refine Keeps.bind (Controller.keeps_readBuffer _ _) fun x => ?_
  split <;> exact keeps_done _

theorem along_written {R : Option Event → Event → Prop} {Q : Transfer → Option Event → Prop}
    {prev : Option Event} {f : OpenFile} {data : List Byte}
    (h : Q ⟨.ok data.length, f.advance data.length, data⟩ prev) : (f.written data).Along R Q prev := by
  unfold written
  split
  · exact h
  · trivial

theorem keeps_write (f : OpenFile) (d : Device) (allowed : ∀ word, pulsed word)
    (data : List Byte) : (f.write d data).Keeps (Admitted pulsed True downs) := by
  unfold write
  split
  · refine Keeps.bind (Device.keeps_write d (allowed _) _) fun x => ?_
    split
    · exact keeps_done _
    · exact fun _ => along_written trivial
  · exact keeps_done _

theorem keeps_control (f : OpenFile) (d : Device) (allowed : ∀ word, pulsed word)
    (request : Word) (argument : List Byte) :
    (f.control d request argument).Keeps (Admitted pulsed True downs) := by
  unfold control
  split
  · exact keeps_done _
  split
  · refine Keeps.bind (Controller.keeps_readShadow _) fun x => ?_
    split <;> exact keeps_done _
  split
  · refine Keeps.bind (Device.keeps_write d (allowed _) _) fun x => ?_
    split <;> exact keeps_done _
  · exact (keeps_note _ _ _).bind fun _ => keeps_done _

end OpenFile

namespace Session

theorem keeps_perform (s : Session) (allowed : ∀ word, pulsed word) (call : Call) :
    (s.perform call).Keeps (Admitted pulsed True downs) := by
  cases call with
  | programmingEnabled => exact keeps_done _
  | readShadow addr => exact (Controller.keeps_readShadow addr).bind fun _ => keeps_done _
  | readBuffer addr buffer => exact (Controller.keeps_readBuffer addr buffer).bind fun _ => keeps_done _
  | readPhysical index mode =>
    refine Keeps.bind (keeps_andThen ?_ fun mode => Device.keeps_readPhysical _ _ mode) fun _ =>
      keeps_done _
    unfold ReadMode.ofWord
    split
    · exact keeps_pure _
    split
    · exact keeps_pure _
    · exact keeps_andThen (keeps_lift (keeps_note _ _ _)) fun _ => keeps_throw _
  | programBit word bit row =>
    exact (Device.keeps_programBit _ (allowed word) bit row).bind fun _ => keeps_done _
  | writeWord word value =>
    exact (Device.keeps_writeWord _ (allowed word) value).bind fun _ => keeps_done _
  | write addr value => exact (Device.keeps_write _ (allowed _) value).bind fun _ => keeps_done _
  | openFile => exact keeps_done _
  | onFile number call =>
    cases call with
    | tell => exact keeps_done _
    | seek target => exact keeps_done _
    | read buffer => exact (OpenFile.keeps_read _ buffer).bind fun _ => keeps_done _
    | write data => exact (OpenFile.keeps_write _ _ allowed data).bind fun _ => keeps_done _
    | control request argument =>
      exact (OpenFile.keeps_control _ _ allowed request argument).bind fun _ => keeps_done _

end Session

end FuseBank
