import FuseBank.Device
import FuseBank.Proofs.ControllerTraffic

/-!
How far a word write can get on any bus, and what it has sent by then. `RowTraffic` follows one row
from before its value is known to its margin read, `WordTraffic` the two rows in turn; a timeout can
end either at every poll.
-/

namespace FuseBank
open Routine Operation Traffic Controller

def missing (word value : Word) (row : Row) (before : Word) : List Word :=
  (value &&& ~~~before).bits.map fun bit => Address.compose word (BitVec.ofNat 32 bit) row

def RowReport.of (value before margin : Word) : RowReport :=
  ⟨before, value &&& ~~~before, margin, decide (margin.Covers value)⟩

def rowReading (word : Word) (row : Row) (mode : ReadMode) (value : Word) : Reading :=
  ⟨some (Address.physicalWord word row), some mode.command, value⟩

/-- The pulses and readings of one row, and how the row ended. -/
inductive RowTraffic (limit : Nat) (word value : Word) (row : Row) :
    List Word → List Reading → Option (Except DeviceError RowReport) → Prop where
  | unread (stop : Option DeviceError) (h : Stopped limit stop) :
      RowTraffic limit word value row [] [] (stop.map .error)
  | pulsing (before : Word) (ps : List Word) (stop : Option DeviceError) (h : Stopped limit stop)
      (hp : ps <+: missing word value row before) :
      RowTraffic limit word value row ps [rowReading word row .array before] (stop.map .error)
  | verified (before margin : Word) (r : Option (Except DeviceError RowReport))
      (hr : r = none ∨ r = some (.ok (.of value before margin))) :
      RowTraffic limit word value row (missing word value row before)
        [rowReading word row .array before, rowReading word row .margin margin] r

theorem RowTraffic.of_ok {limit : Nat} {word value : Word} {row : Row} {ps : List Word}
    {rs : List Reading} {report : RowReport}
    (h : RowTraffic limit word value row ps rs (some (.ok report))) :
    ∃ before margin, ps = missing word value row before ∧
      rs = [rowReading word row .array before, rowReading word row .margin margin] ∧
      report = .of value before margin := by
  generalize hr : some (Except.ok report) = r at h
  cases h with
  | unread stop => cases stop <;> cases hr
  | pulsing before ps stop => cases stop <;> cases hr
  | verified before margin r hv =>
    refine ⟨before, margin, rfl, rfl, ?_⟩
    obtain rfl | rfl := hv <;> cases hr
    rfl

theorem Row.forall_iff {p : Row → Prop} : (∀ row, p row) ↔ p .low ∧ p .high := by
  constructor
  · intro h
    exact ⟨h .low, h .high⟩
  · intro h row
    cases row with
    | low => exact h.1
    | high => exact h.2

theorem WriteReport.forall_rows {report : WriteReport} {p : Row × RowReport → Prop} :
    (∀ x ∈ report.rows, p x) ↔ p (.low, report.low) ∧ p (.high, report.high) := by
  simp [WriteReport.rows]

def wordOutcome (word value : Word) (low high : RowReport) : Except DeviceError WriteReport :=
  let report : WriteReport := ⟨word, value, low, high⟩
  if report.errorCount ≥ maxRowErrors then .error (.verifyFailed word report.errorCount)
  else .ok report

theorem wordOutcome_cases (word value : Word) (low high : RowReport) :
    (low.verified = false ∧ high.verified = false ∧
      wordOutcome word value low high = .error (.verifyFailed word 2)) ∨
    ((low.verified = true ∨ high.verified = true) ∧
      wordOutcome word value low high = .ok ⟨word, value, low, high⟩ ∧
      (WriteReport.mk word value low high).errorCount ≤ 1) := by
  cases hl : low.verified <;> cases hh : high.verified <;>
    simp [wordOutcome, WriteReport.errorCount, WriteReport.rows, maxRowErrors, hl, hh]

/-- The pulses and readings of a word write, and how it ended. -/
inductive WordTraffic (limit : Nat) (word value : Word) :
    List Word → List Reading → Option (Except DeviceError WriteReport) → Prop where
  | low (ps : List Word) (rs : List Reading) (stop : Option DeviceError)
      (h : RowTraffic limit word value .low ps rs (stop.map .error)) :
      WordTraffic limit word value ps rs (stop.map .error)
  | high (before margin : Word) (ps : List Word) (rs : List Reading) (stop : Option DeviceError)
      (h : RowTraffic limit word value .high ps rs (stop.map .error)) :
      WordTraffic limit word value (missing word value .low before ++ ps)
        ([rowReading word .low .array before, rowReading word .low .margin margin] ++ rs)
        (stop.map .error)
  | finished (before margin before' margin' : Word) (r : Option (Except DeviceError WriteReport))
      (hr : r = none ∨
        r = some (wordOutcome word value (.of value before margin) (.of value before' margin'))) :
      WordTraffic limit word value
        (missing word value .low before ++ missing word value .high before')
        ([rowReading word .low .array before, rowReading word .low .margin margin] ++
          [rowReading word .high .array before', rowReading word .high .margin margin']) r

namespace Controller

variable {c : Controller} {word value : Word} {row : Row} {es : List Event}

theorem pulses_sends (bits : List Nat) {r : Option (Except DeviceError Unit)}
    (h : Sends (forM bits fun bit => c.programBit word (BitVec.ofNat 32 bit) row).run es r) :
    let sent := bits.map fun bit => Address.compose word (BitVec.ofNat 32 bit) row
    Progress c.pollLimit (∃ ps, ps <+: sent ∧ Shows es ps []) (fun _ => Shows es sent []) r := by
  intro sent
  induction bits generalizing es with
  | nil =>
    obtain ⟨rfl, hr⟩ := sends_pure h
    exact .inr ⟨(), hr, .nil⟩
  | cons bit bits ih =>
    rw [List.forM_cons] at h
    obtain ⟨stop, rfl, h₁⟩ | ⟨_, es₁, es₂, rfl, h₁, h₂⟩ := sends_andThen h
    · obtain ⟨limit, quiet | ⟨rfl, _, first⟩⟩ := (programBit_sends h₁).stopped
      · exact .inl ⟨stop, rfl, limit, [], List.nil_prefix, quiet⟩
      · exact .inl ⟨none, rfl, limit, _, by simp [sent], first⟩
    · have first := (programBit_sends h₁).ok
      obtain ⟨stop, rfl, limit, ps, hp, later⟩ | ⟨_, hr, later⟩ := ih h₂
      · exact .inl ⟨stop, rfl, limit, _ :: ps, by simpa [sent] using hp, first.append later⟩
      · exact .inr ⟨(), hr, first.append later⟩

theorem writeRow_sends {failed : Nat} {r : Option (Except DeviceError RowReport)}
    (h : Sends (c.writeRow word value row failed).run es r) :
    ∃ ps rs, RowTraffic c.pollLimit word value row ps rs r ∧ Shows es ps rs := by
  unfold writeRow at h
  obtain ⟨rfl, hn⟩ | ⟨_, _, es₁, rfl, hn, h₁⟩ := sends_lift_bind h
  · rw [note_sends hn]
    exact ⟨[], [], .unread none (stopped_none _), .nil⟩
  rw [note_sends hn, List.nil_append]
  obtain ⟨stop, rfl, hb⟩ | ⟨before, es₂, es₃, rfl, hb, h₂⟩ := sends_andThen h₁
  · obtain ⟨limit, quiet | ⟨rfl, before, read⟩⟩ := (readPhysical_sends hb).stopped
    · exact ⟨[], [], .unread stop limit, quiet⟩
    · exact ⟨[], _, .pulsing before [] none limit List.nil_prefix, read⟩
  have read : Shows es₂ [] [rowReading word row .array before] := (readPhysical_sends hb).ok
  obtain ⟨stop, rfl, hp⟩ | ⟨_, es₄, es₅, rfl, hp, h₃⟩ := sends_andThen h₂
  · obtain ⟨limit, ⟨ps, hps, sent⟩ | ⟨rfl, _, sent⟩⟩ := (pulses_sends _ hp).stopped
    · exact ⟨ps, _, .pulsing before ps stop limit hps, read.append sent⟩
    · exact ⟨_, _, .pulsing before _ none limit (List.prefix_refl _), read.append sent⟩
  have sent : Shows (es₂ ++ es₄) (missing word value row before)
      [rowReading word row .array before] := read.append (pulses_sends _ hp).ok
  rw [← List.append_assoc]
  obtain ⟨stop, rfl, hm⟩ | ⟨margin, es₆, es₇, rfl, hm, h₄⟩ := sends_andThen h₃
  · obtain ⟨limit, quiet | ⟨rfl, margin, checked⟩⟩ := (readPhysical_sends hm).stopped
    · exact ⟨_, _, .pulsing before _ stop limit (List.prefix_refl _), by
        simpa using sent.append quiet⟩
    · exact ⟨_, _, .verified before margin none (.inl rfl), by
        simpa [rowReading] using sent.append checked⟩
  have checked := sent.append (readPhysical_sends hm).ok
  rw [List.append_nil] at checked
  -- only log lines are left
  obtain ⟨rfl, hn⟩ | ⟨_, _, es₈, rfl, hn, h₅⟩ := sends_lift_bind h₄
  · rw [note_sends hn, List.append_nil]
    exact ⟨_, _, .verified before margin none (.inl rfl), checked⟩
  rw [note_sends hn, List.nil_append]
  have ends : es₈ = [] ∧ (r = none ∨ r = some (.ok (.of value before margin))) := by
    dsimp only at h₅
    split at h₅
    · obtain ⟨rfl, hn⟩ | ⟨_, _, es₉, rfl, hn, h₆⟩ := sends_lift_bind h₅
      · exact ⟨note_sends hn, .inl rfl⟩
      · rw [note_sends hn]
        exact sends_pure h₆
    · exact sends_pure h₅
  rw [ends.1, List.append_nil]
  exact ⟨_, _, .verified before margin r ends.2, checked⟩

theorem writeWord_sends {r : Option (Except DeviceError WriteReport)}
    (h : Sends (c.writeWord word value).run es r) :
    ∃ ps rs, WordTraffic c.pollLimit word value ps rs r ∧ Shows es ps rs := by
  unfold writeWord at h
  obtain ⟨stop, rfl, hl⟩ | ⟨low, es₁, es₂, rfl, hl, h₁⟩ := sends_andThen h
  · obtain ⟨ps, rs, row, sent⟩ := writeRow_sends hl
    exact ⟨ps, rs, .low ps rs stop row, sent⟩
  obtain ⟨_, _, row, sentLow⟩ := writeRow_sends hl
  obtain ⟨before, margin, rfl, rfl, rfl⟩ := row.of_ok
  obtain ⟨stop, rfl, hh⟩ | ⟨high, es₃, es₄, rfl, hh, h₂⟩ := sends_andThen h₁
  · obtain ⟨ps, rs, row, sent⟩ := writeRow_sends hh
    exact ⟨_, _, .high before margin ps rs stop row, sentLow.append sent⟩
  obtain ⟨_, _, row, sentHigh⟩ := writeRow_sends hh
  obtain ⟨before', margin', rfl, rfl, rfl⟩ := row.of_ok
  have sent := sentLow.append sentHigh
  rw [← List.append_assoc]
  obtain ⟨rfl, hr⟩ | ⟨_, es₅, es₆, rfl, hr, h₃⟩ := sends_lift_bind h₂
  · refine ⟨_, _, .finished before margin before' margin' none (.inl rfl), ?_⟩
    simpa using sent.append (refresh_sends hr)
  · have ends : es₆ = [] ∧ (r = none ∨
        r = some (wordOutcome word value (.of value before margin) (.of value before' margin'))) := by
      unfold wordOutcome
      dsimp only at h₃ ⊢
      split at h₃
      · rename_i failed
        rw [if_pos failed]
        exact sends_throw h₃
      · rename_i fine
        rw [if_neg fine]
        exact sends_pure h₃
    rw [ends.1, List.append_nil]
    refine ⟨_, _, .finished before margin before' margin' r ends.2, ?_⟩
    simpa using sent.append (refresh_sends hr)

end Controller

namespace Device

def clockedWrite (c : Controller) (word value : Word) : Operation WriteReport := do
  let outcome ← Operation.attempt (c.writeWord word value)
  note .debug .device s!"write(): ret={outcomeText outcome}"
  Controller.power true
  Controller.refresh
  let settled ← Operation.attempt c.waitReady
  let report ← Operation.ofOutcome outcome
  Operation.ofOutcome settled
  return report

theorem write_eq (d : Device) (addr value : Word) : d.write addr value = (do
    note .debug .device s!"write(): {Text.Hex.marked addr.toNat} = {Text.Hex.marked value.toNat}"
    d.checkProgramming
    Controller.checkAddress addr
    Controller.withClock (clockedWrite d.controller (addr / 4) value)) := rfl

end Device

end FuseBank
