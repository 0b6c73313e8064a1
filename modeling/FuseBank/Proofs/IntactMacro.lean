import FuseBank.Cli.Tool
import FuseBank.Proofs.MacroSettings
import FuseBank.Proofs.ShadowBytes
import FuseBank.Proofs.WriteEffect

/-!
The tool's commands on a macro without defects. `Intact rows m` says that `m` holds `rows`, shows them
in its shadow registers, and has no stuck or weak bits and no busy polls; of its address, its data and
its power it says nothing. On every such macro a command answers the same, `Command.answer`, and leaves
one that is intact again (`serve_intact`).
-/

namespace FuseBank
open Routine Operation

variable {α β : Type}

def Rows.join (rows : Rows) (a : AddressedWord) : Rows :=
  Vector.ofFn fun i => if i.val / 2 = a.addr.toNat / 4 then rows.get i ||| a.value else rows.get i

theorem Rows.get_join (rows : Rows) (a : AddressedWord) (i : Fin 128) : (rows.join a).get i =
    if i.val / 2 = a.addr.toNat / 4 then rows.get i ||| a.value else rows.get i :=
  Vector.getElem_ofFn i.isLt

namespace Cli.Command

def burns? (programmingEnabled : Bool) : Command → Option AddressedWord
  | write addr value =>
    if programmingEnabled = true ∧ Controller.ValidAddress addr then some ⟨addr, value⟩ else none
  | _ => none

def rowsAfter (programmingEnabled : Bool) (rows : Rows) (command : Command) : Rows :=
  (command.burns? programmingEnabled).elim rows rows.join

def verifiedLine (addr value : Word) : String :=
  let verified := "2 of 2 rows verified"
  s!"wrote {Text.Hex.markedWord value} to 0x{Text.Hex.pair addr.toNat} ({verified})"

def answer (programmingEnabled : Bool) (rows : Rows) : Command → Except Failure (List String)
  | read addr =>
    if Controller.ValidAddress addr then
      .ok [Text.Hex.markedWord (rows.words.get (Fin.ofNat 64 (addr.toNat / 4)))]
    else .error (.device (.badAddress addr))
  | dump => .ok (dumpLines 0 (fuseSpace rows.words))
  | write addr value =>
    if programmingEnabled = false then .error (.device .programmingDisabled)
    else if Controller.ValidAddress addr then .ok [verifiedLine addr value]
    else .error (.device (.badAddress addr))
  | readRow row _ =>
    if row.toNat ≥ fuseRows then .error (.rowOutOfRange row)
    else .ok [Text.Hex.markedWord (rows.get (Address.readRow row))]

end Cli.Command

/-- The clock can be switched on and off `room` times more: there is none, and the shadow registers can
always be read, or it is the macro's own. -/
def ClockRoom (hw : Hardware FuseMacro) (room : Nat) (clock : MacroClock) : Prop :=
  (hw = FuseMacro.ungated ∧ clock.attached = false) ∨
  (hw = FuseMacro.hardware ∧ clock.failing = false ∧
    clock.enableCount.toNat + room < 2 ^ 32 ∧ clock.disableCount.toNat + room < 2 ^ 32)

theorem ClockRoom.less {hw : Hardware FuseMacro} {room less : Nat} {clock : MacroClock}
    (h : ClockRoom hw room clock) (le : less ≤ room) : ClockRoom hw less clock := by
  obtain none | ⟨own, working, enables, disables⟩ := h
  · exact .inl none
  · exact .inr ⟨own, working, by omega, by omega⟩

theorem ClockRoom.bus_eq {hw : Hardware FuseMacro} {room : Nat} {clock : MacroClock}
    (h : ClockRoom hw room clock) : hw = ⟨FuseMacro.bus, hw.gate⟩ := by
  obtain ⟨rfl, -⟩ | ⟨rfl, -⟩ := h
  · rfl
  · rfl

theorem ClockRoom.switches {hw : Hardware FuseMacro} {room : Nat} {m : FuseMacro}
    (h : ClockRoom hw (room + 1) m.clock) :
    (hw.gate.enable m).result = .ok (.ok ()) ∧
    ∃ on, (hw.gate.enable m).state = { m with clock := on } ∧
      ({ m with clock := on } : FuseMacro).shadowGated = false ∧
      ∀ m' : FuseMacro, m'.clock = on → (hw.gate.disable m').result = .ok () ∧
        ∃ off, (hw.gate.disable m').state = { m' with clock := off } ∧ ClockRoom hw room off := by
  obtain ⟨rfl, detached⟩ | ⟨rfl, working, enables, disables⟩ := h
  · have always : ({ m with clock := m.clock } : FuseMacro).shadowGated = false := by
      simp [FuseMacro.shadowGated, detached]
    exact ⟨rfl, m.clock, rfl, always,
      fun m' same => ⟨rfl, m'.clock, rfl, .inl ⟨rfl, same ▸ detached⟩⟩⟩
  · have below := MacroClock.count_ne_full enables
    have below' := MacroClock.count_ne_full disables
    obtain ⟨switchedOn, on⟩ := FuseMacro.enableClock_on working below
    refine ⟨switchedOn, m.clock.switchedOn, on, Bool.and_false _, ?_⟩
    intro m' now
    have enabled : m'.clock.enableCount = m.clock.enableCount + 1 := congrArg (·.enableCount) now
    have disabled : m'.clock.disableCount = m.clock.disableCount := congrArg (·.disableCount) now
    have working' : m'.clock.failing = m.clock.failing := congrArg (·.failing) now
    obtain ⟨switchedOff, off⟩ := FuseMacro.disableClock_off (disabled ▸ below')
    refine ⟨switchedOff, m'.clock.switchedOff, off, .inr ⟨rfl, working'.trans working, ?_, ?_⟩⟩
    · change m'.clock.enableCount.toNat + room < 2 ^ 32
      rw [enabled, FuseMacro.toNat_succ below]
      omega
    · change (m'.clock.disableCount + 1).toNat + room < 2 ^ 32
      rw [disabled, FuseMacro.toNat_succ below']
      omega

def Reclocked (hw : Hardware FuseMacro) (room : Nat) (m t : FuseMacro) : Prop :=
  ∃ clock, t = { m with clock := clock } ∧ ClockRoom hw room clock

theorem ClockRoom.readable {hw : Hardware FuseMacro} {room : Nat} {m : FuseMacro}
    (h : ClockRoom hw (room + 1) m.clock) : Readable hw m.shadow (Reclocked hw room m) m := by
  have bus := h.bus_eq
  obtain ⟨switchedOn, on, onState, lit, off⟩ := h.switches
  refine ⟨switchedOn, (· = { m with clock := on }), onState, ?_, ?_⟩
  · rw [bus]
    exact FuseMacro.shadowShows (m := { m with clock := on }) lit
  · rintro _ rfl
    obtain ⟨switchedOff, off, offState, less⟩ := off { m with clock := on } rfl
    exact ⟨switchedOff, off, offState, less⟩

namespace FuseMacro

structure Intact (rows : Rows) (m : FuseMacro) : Prop where
  shadow : m.shadow = rows.words
  rows : m.rows = rows
  stuck : m.stuck = Vector.replicate 128 0
  weak : m.weak = Vector.replicate 128 0
  hang : m.hang = false
  busyPolls : m.busyPolls = 0

theorem intact_ofRows (rows : Rows) : Intact rows (ofRows rows) := ⟨rfl, rfl, rfl, rfl, rfl, rfl⟩

theorem Intact.with_clock {rows : Rows} {m : FuseMacro} (h : Intact rows m) (clock : MacroClock) :
    Intact rows { m with clock := clock } :=
  ⟨h.shadow, h.rows, h.stuck, h.weak, h.hang, h.busyPolls⟩

variable {rows : Rows} {m : FuseMacro} {c : Controller}

theorem Intact.short (h : Intact rows m) : m.busyPolls.toNat < c.pollLimit := by
  rw [h.busyPolls]
  exact c.pollLimit_pos

theorem Intact.sensed (h : Intact rows m) (row : Fin 128) (mode : ReadMode) :
    m.sensed row mode = rows.get row := by
  cases mode with
  | array => exact congrArg (·.get row) h.rows
  | margin =>
    unfold FuseMacro.sensed
    rw [h.weak, h.rows, Rows.get_replicate]
    change rows.get row &&& ~~~0#32 = rows.get row
    rw [BitVec.not_zero, BitVec.and_allOnes]

theorem Intact.written (h : Intact rows m) (row : Fin 128) (value : Word) :
    m.written row value = rows.get row ||| value := by
  unfold FuseMacro.written
  rw [h.stuck, h.rows, Rows.get_replicate]
  change rows.get row ||| value &&& ~~~0#32 = _
  rw [BitVec.not_zero, BitVec.and_allOnes]

theorem Intact.rowReport (h : Intact rows m) (word value : Word) (row : Row) :
    m.rowReport word value row =
      .of value (rows.get (Address.rowOf word row)) (rows.get (Address.rowOf word row) ||| value) := by
  unfold FuseMacro.rowReport
  rw [h.written, h.rows, h.weak, Rows.get_replicate]
  change RowReport.of value _ ((rows.get _ ||| value) &&& ~~~0#32) = _
  rw [BitVec.not_zero, BitVec.and_allOnes]

end FuseMacro

/-- On every intact macro that holds `rows` the routine gives `a` and leaves an intact one that holds
`rows'`. The clock can be switched `room` times before and `room'` times after. -/
def Leads (hw : Hardware FuseMacro) (room : Nat) (rows : Rows) (p : Routine α) (a : α) (room' : Nat)
    (rows' : Rows) : Prop :=
  ∀ m : FuseMacro, m.Intact rows → ClockRoom hw room m.clock →
    ∃ m', Yields hw p m a m' ∧ m'.Intact rows' ∧ ClockRoom hw room' m'.clock

section Leads

variable {hw : Hardware FuseMacro} {room room' room'' : Nat} {rows rows' rows'' : Rows}

theorem leads_of_unaided {p : Routine α} {a : α} (h : p.unaided? = some a) :
    Leads hw room rows p a room rows := by
  intro m intact clock
  obtain ⟨returned, -, unchanged⟩ := run_of_unaided hw m h
  exact ⟨m, ⟨returned, unchanged⟩, intact, clock⟩

theorem Leads.spare {p : Routine α} {a : α} (h : Leads hw (room + 1) rows p a (room + 1) rows') :
    Leads hw (room + 1) rows p a room rows' := by
  intro m intact clock
  obtain ⟨m', yields, intact', clock'⟩ := h m intact clock
  exact ⟨m', yields, intact', clock'.less (Nat.le_succ _)⟩

theorem Leads.bind {p : Routine α} {f : α → Routine β} {a : α} {b : β}
    (hp : Leads hw room rows p a room' rows') (hf : Leads hw room' rows' (f a) b room'' rows'') :
    Leads hw room rows (p >>= f) b room'' rows'' := by
  intro m intact clock
  obtain ⟨m', first, intact', clock'⟩ := hp m intact clock
  obtain ⟨m'', second, ends⟩ := hf m' intact' clock'
  exact ⟨m'', first.bind second, ends⟩

theorem Leads.bind_done {p : Routine α} {f : α → Routine β} {a : α} {b : β}
    (hp : Leads hw room rows p a room' rows') (last : f a = done b) :
    Leads hw room rows (p >>= f) b room' rows' :=
  hp.bind (leads_of_unaided (by rw [last]; rfl))

theorem leads_checked {guard : Operation α} {f : α → Operation β} {a : α} {r : Except DeviceError β}
    (checked : guard.run.unaided? = some (.ok a)) (h : Leads hw room rows (f a).run r room' rows') :
    Leads hw room rows (guard >>= f).run r room' rows' := by
  rw [ExceptT.run_bind]
  exact (leads_of_unaided checked).bind h

theorem leads_refused {guard : Operation α} {f : α → Operation β} {e : DeviceError}
    (checked : guard.run.unaided? = some (.error e)) :
    Leads hw (room + 1) rows (guard >>= f).run (.error e) room rows := by
  refine (leads_of_unaided ?_).spare
  rw [Operation.unaided?_bind, checked]
  rfl

theorem leads_withClock {body : Operation α} {r : Except DeviceError α}
    (inner : ∀ lit : FuseMacro, lit.Intact rows → lit.shadowGated = false →
      ∃ m', Yields ⟨FuseMacro.bus, hw.gate⟩ body.run lit r m' ∧ m'.Intact rows' ∧
        m'.clock = lit.clock) :
    Leads hw (room + 1) rows (Controller.withClock body).run r room rows' := by
  intro m intact clock
  have bus := clock.bus_eq
  obtain ⟨switchedOn, on, onState, lit, off⟩ := clock.switches
  obtain ⟨m', yields, intact', same⟩ := inner _ (intact.with_clock on) lit
  obtain ⟨switchedOff, off, offState, clock'⟩ := off m' same
  refine ⟨{ m' with clock := off }, ?_, intact'.with_clock off, clock'⟩
  rw [← offState]
  refine yields_withClock switchedOn ?_ switchedOff
  rw [onState, bus]
  exact yields

theorem leads_of_gives {p : Routine α} {a : α}
    (h : ∀ m after, Readable hw rows.words after m → Gives hw p m a after) :
    Leads hw (room + 1) rows p a room rows := by
  intro m intact clock
  have readable := clock.readable
  rw [intact.shadow] at readable
  obtain ⟨_, yields, off, rfl, clock'⟩ := h m _ readable
  exact ⟨_, yields, intact.with_clock off, clock'⟩

end Leads

section Operations

variable {hw : Hardware FuseMacro} {room : Nat} {rows : Rows} {addr : Word}

theorem leads_readPhysical (d : Device) (index : Word) (mode : ReadMode) :
    Leads hw (room + 1) rows (d.readPhysical index mode).run
      (.ok (rows.get (Address.readRow index))) room rows := by
  refine leads_withClock fun lit intact _ => ?_
  have yields := FuseMacro.yields_readPhysical (g := hw.gate) (c := d.controller) intact.hang intact.short
    index mode
  rw [intact.sensed] at yields
  exact ⟨_, yields,
    ⟨intact.shadow, intact.rows, intact.stuck, intact.weak, intact.hang, intact.busyPolls⟩, rfl⟩

def verifiedReport (rows : Rows) (word value : Word) : WriteReport where
  word := word
  value := value
  low := .of value (rows.get (Address.rowOf word .low)) (rows.get (Address.rowOf word .low) ||| value)
  high := .of value (rows.get (Address.rowOf word .high)) (rows.get (Address.rowOf word .high) ||| value)

theorem verifiedReport_errorCount (rows : Rows) (word value : Word) :
    (verifiedReport rows word value).errorCount = 0 := by
  have held (row : Row) : (RowReport.of value (rows.get (Address.rowOf word row))
      (rows.get (Address.rowOf word row) ||| value)).verified = true :=
    decide_eq_true (Word.covers_or _ _).2
  simp [WriteReport.errorCount, WriteReport.rows, verifiedReport, held]

theorem leads_write {d : Device} (enabled : d.programmingEnabled = true)
    (valid : Controller.ValidAddress addr) (value : Word) :
    Leads hw (room + 1) rows (d.write addr value).run
      (.ok (verifiedReport rows (addr / 4) value)) room (rows.join ⟨addr, value⟩) := by
  unfold Device.write
  refine leads_checked rfl ?_
  refine leads_checked (Device.checkProgramming_enabled enabled) ?_
  refine leads_checked (Controller.checkAddress_valid valid) (leads_withClock fun lit intact _ => ?_)
  have yields := FuseMacro.yields_clocked (g := hw.gate) (c := d.controller) (m := lit) intact.hang
    intact.short (addr / 4) value
  have passed : wordOutcome (addr / 4) value (lit.rowReport (addr / 4) value .low)
      (lit.rowReport (addr / 4) value .high) = .ok (verifiedReport rows (addr / 4) value) := by
    rw [intact.rowReport, intact.rowReport]
    have few : ¬ (verifiedReport rows (addr / 4) value).errorCount ≥ maxRowErrors := by
      rw [verifiedReport_errorCount]
      decide
    exact if_neg few
  have word : (addr / 4).toNat % 64 = addr.toNat / 4 := by
    have below : addr.toNat < 256 := valid.1
    have quotient : (addr / 4).toNat = addr.toNat / 4 := BitVec.toNat_udiv
    omega
  have joined : (lit.afterRows (addr / 4) value).rows = rows.join ⟨addr, value⟩ := by
    apply Vector.ext
    intro i bound
    have row := lit.afterRows_row (addr / 4) value ⟨i, bound⟩
    rw [word, intact.written, intact.rows] at row
    exact row.trans (Rows.get_join rows ⟨addr, value⟩ ⟨i, bound⟩).symm
  rw [passed] at yields
  refine ⟨_, yields, ⟨?_, joined, intact.stuck, intact.weak, intact.hang, intact.busyPolls⟩, rfl⟩
  exact congrArg Rows.words joined

theorem decode_encode (a : AddressedWord) : AddressedWord.decode? a.encode = some (a, []) := by
  have decoded := a.decode?_encode []
  rwa [List.append_nil] at decoded

theorem leads_control (f : OpenFile) (d : Device) (addr : Word) :
    Leads hw (room + 1) rows (f.control d readRequest (AddressedWord.encode ⟨addr, 0⟩))
      (if Controller.ValidAddress addr then
        ⟨.ok 0, f, AddressedWord.encode ⟨addr, rows.words.get (Fin.ofNat 64 (addr.toNat / 4))⟩⟩
      else ⟨.error (.badAddress addr), f, AddressedWord.encode ⟨addr, 0⟩⟩) room rows := by
  by_cases valid : Controller.ValidAddress addr
  · have place : addr.toNat = 4 * (Fin.ofNat 64 (addr.toNat / 4)).val := by
      obtain ⟨below, aligned⟩ := valid
      have bound : addr.toNat / 4 < 64 := by
        unfold fuseBytes at below
        omega
      change addr.toNat = 4 * (addr.toNat / 4 % 64)
      omega
    rw [if_pos valid]
    refine leads_of_gives fun m after readable => ?_
    have given := OpenFile.gives_control readable (f := f) d (decode_encode ⟨addr, 0⟩) place
    rwa [List.append_nil] at given
  · rw [if_neg valid]
    unfold OpenFile.control
    rw [decode_encode]
    dsimp only
    rw [if_pos rfl]
    exact (leads_refused (Controller.checkAddress_invalid valid)).bind_done rfl

theorem leads_read : Leads hw (room + 1) rows
    (OpenFile.read {} (List.replicate fuseBytes 0))
    ⟨.ok fuseBytes, OpenFile.advance {} fuseBytes, fuseSpace rows.words⟩ room rows := by
  refine leads_of_gives fun m after readable => ?_
  have length : (List.replicate fuseBytes (0 : Byte)).length = fuseBytes := List.length_replicate
  have count : min (List.replicate fuseBytes (0 : Byte)).length (fuseBytes - 0) = fuseBytes := by
    rw [length]
    rfl
  have given := OpenFile.gives_read readable (f := {}) count (by decide) rfl
  have offset : ({} : OpenFile).offset = 0 := rfl
  rw [offset, fuseRange_all, List.drop_eq_nil_of_le (Nat.le_of_eq length), List.append_nil] at given
  exact given

open Cli.Command in
theorem leads_readCommand (d : Device) (addr : Word) :
    Leads hw (room + 1) rows (perform d (.read addr)) (if Controller.ValidAddress addr then
        .ok [Text.Hex.markedWord (rows.words.get (Fin.ofNat 64 (addr.toNat / 4)))]
      else .error (.device (.badAddress addr))) room rows := by
  refine (leads_control {} d addr).bind_done ?_
  by_cases valid : Controller.ValidAddress addr
  · rw [if_pos valid, if_pos valid]
    dsimp only
    rw [decode_encode]
    rfl
  · rw [if_neg valid, if_neg valid]
    rfl

open Cli.Command in
theorem leads_fill : Leads hw (room + 1) rows (fill {} (List.replicate fuseBytes 0) 0)
    (.ok (fuseSpace rows.words)) room rows := by
  -- The first read fills the buffer.
  have full := List.take_of_length_le (Nat.le_of_eq (length_fuseSpace rows.words))
  rw [fill, if_pos (by decide), List.drop_zero]
  refine leads_read.bind_done ?_
  dsimp only
  rw [if_neg (by decide), fill, if_neg (by decide), List.take_zero, List.nil_append, Nat.zero_add, full]
  rfl

open Cli.Command in
theorem leads_dump (d : Device) : Leads hw (room + 1) rows (perform d .dump)
    (.ok (dumpLines 0 (fuseSpace rows.words))) room rows :=
  leads_fill.bind_done rfl

theorem writtenLine_verified (rows : Rows) (addr value : Word) :
    Cli.Command.writtenLine addr value (verifiedReport rows (addr / 4) value) =
      Cli.Command.verifiedLine addr value := by
  have length : (verifiedReport rows (addr / 4) value).rows.length = 2 := rfl
  have both : s!"{2 - 0} of {2} rows verified" = "2 of 2 rows verified" := by decide +kernel
  unfold Cli.Command.writtenLine Cli.Command.verifiedLine
  rw [verifiedReport_errorCount, length, both]

open Cli.Command in
theorem leads_writeCommand (d : Device) (addr value : Word) :
    Leads hw (room + 1) rows (perform d (.write addr value))
      (if d.programmingEnabled = false then .error (.device .programmingDisabled)
      else if Controller.ValidAddress addr then .ok [verifiedLine addr value]
      else .error (.device (.badAddress addr))) room
      (if d.programmingEnabled = true ∧ Controller.ValidAddress addr then rows.join ⟨addr, value⟩
      else rows) := by
  have permission := d.checkProgramming_unaided
  cases enabled : d.programmingEnabled with
  | false =>
    rw [enabled] at permission
    rw [if_pos rfl, if_neg (by simp)]
    have stopped : Leads hw (room + 1) rows (d.write addr value).run
        (.error .programmingDisabled) room rows :=
      leads_checked rfl (leads_refused permission)
    exact stopped.bind_done rfl
  | true =>
    rw [enabled] at permission
    rw [if_neg (by decide)]
    by_cases valid : Controller.ValidAddress addr
    · rw [if_pos valid, if_pos ⟨rfl, valid⟩, ← writtenLine_verified rows]
      exact (leads_write enabled valid value).bind (leads_of_unaided rfl)
    · rw [if_neg valid, if_neg fun both => valid both.2]
      have stopped : Leads hw (room + 1) rows (d.write addr value).run
          (.error (.badAddress addr)) room rows :=
        leads_checked rfl (leads_checked permission (leads_refused (Controller.checkAddress_invalid valid)))
      exact stopped.bind_done rfl

open Cli.Command in
theorem leads_readRow (d : Device) (row : Word) (margin : Bool) :
    Leads hw (room + 1) rows (perform d (.readRow row margin))
      (if row.toNat ≥ fuseRows then .error (.rowOutOfRange row)
      else .ok [Text.Hex.markedWord (rows.get (Address.readRow row))]) room rows := by
  unfold perform
  dsimp only
  split
  · exact (leads_of_unaided rfl).spare
  · exact (leads_readPhysical d row (if margin then .margin else .array)).bind_done rfl

theorem leads_perform (d : Device) (command : Cli.Command) :
    Leads hw (room + 1) rows (command.perform d) (command.answer d.programmingEnabled rows) room
      (command.rowsAfter d.programmingEnabled rows) := by
  cases command with
  | read addr => exact leads_readCommand d addr
  | dump => exact leads_dump d
  | readRow row margin => exact leads_readRow d row margin
  | write addr value =>
    have burnt : Cli.Command.rowsAfter d.programmingEnabled rows (.write addr value) =
        if d.programmingEnabled = true ∧ Controller.ValidAddress addr then rows.join ⟨addr, value⟩
        else rows := by
      simp only [Cli.Command.rowsAfter, Cli.Command.burns?]
      split
      · rfl
      · rfl
    rw [burnt]
    exact leads_writeCommand d addr value

theorem leads_shutdown : Leads hw room rows Device.shutdown () room rows := by
  intro m intact clock
  have down : Yields ⟨FuseMacro.bus, hw.gate⟩ (Controller.power false) m ()
      { m with busyRemaining := m.busyPolls, powered := false } :=
    yields_read rfl (Routine.yields_write rfl (yields_done _ _))
  rw [← clock.bus_eq] at down
  refine ⟨_, down.bind ((yields_note _ _ _ _).bind (yields_done _ _)), ?_, clock⟩
  exact ⟨intact.shadow, intact.rows, intact.stuck, intact.weak, intact.hang, intact.busyPolls⟩

theorem leads_start (config : Config) :
    Leads hw room rows (Device.start config) (.ofConfig config) room rows := by
  refine leads_of_unaided ?_
  unfold Device.start
  split
  · rfl
  · rfl

end Operations

namespace Cli

def shown : Except Command.Failure (List String) → List String × Except Failure Unit
  | .ok texts => (texts, .ok ())
  | .error f => ([], .error (.command f))

theorem texts_of_lines (before after : List Log.Entry) (texts : List String) :
    (before.map Line.log ++ texts.map Line.text ++ after.map Line.log).filterMap Line.text? = texts := by
  have none (es : List Log.Entry) : (es.map Line.log).filterMap Line.text? = [] := by
    simp [List.filterMap_map, Function.comp_def, Line.text?]
  have all : (texts.map Line.text).filterMap Line.text? = texts := by
    simp [List.filterMap_map, Function.comp_def, Line.text?]
  rw [List.filterMap_append, List.filterMap_append, none, none, all, List.nil_append, List.append_nil]

/-- On an intact macro the tool prints the command's answer and leaves an intact macro. -/
theorem serve_intact {hw : Hardware FuseMacro} {room : Nat} {rows : Rows} {m : FuseMacro}
    (intact : m.Intact rows) (clock : ClockRoom hw (room + 1) m.clock) (config : Config)
    (command : Command) :
    let r := serve hw config command m
    (r.1.texts, r.1.result) = shown (command.answer config.programmingEnabled rows) ∧
    r.2.Intact (command.rowsAfter config.programmingEnabled rows) ∧ ClockRoom hw room r.2.clock := by
  have leads : Leads hw (room + 1) rows (do command.perform (← Device.start config))
      (command.answer config.programmingEnabled rows) room
      (command.rowsAfter config.programmingEnabled rows) :=
    (leads_start config).bind (leads_perform (.ofConfig config) command)
  obtain ⟨served, ⟨returned, rfl⟩, intact', clock'⟩ := leads m intact clock
  obtain ⟨closed, ⟨ended, rfl⟩, intact'', clock''⟩ := leads_shutdown _ intact' clock'
  intro r
  have outcome : r = serve hw config command m := rfl
  unfold serve at outcome
  dsimp only at outcome
  rw [returned] at outcome
  dsimp only at outcome
  rw [ended] at outcome
  dsimp only at outcome
  rw [outcome]
  refine ⟨?_, intact'', clock''⟩
  cases command.answer config.programmingEnabled rows with
  | ok texts => exact congrArg (·, Except.ok ()) (texts_of_lines _ _ texts)
  | error f => exact congrArg (·, Except.error (Failure.command f)) (texts_of_lines _ _ [])

end Cli

end FuseBank
