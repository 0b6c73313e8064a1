import FuseBank.Emulation.FuseMacro
import FuseBank.Proofs.TrafficGrammar
import FuseBank.Proofs.WordWriteTraffic

/-!
Which pulses a word write sends on a bus whose mode register clears its command bits, and how the
report and the error agree with them. `owedPulses` reads off traffic what the rows read so far call
for; at every point of the write the pulses sent are the first of these (`writeWord_pulses`).
-/

namespace FuseBank
open Routine Operation Traffic

variable {σ : Type}

theorem FuseMacro.clearsProgram : FuseMacro.bus.ClearsProgram := by
  intro m v answer
  obtain rfl : 0 = v := Except.ok.inj answer
  rfl

def rowValue (word : Word) (row : Row) (mode : ReadMode) (rs : List Reading) : Option Word :=
  (rs.find? fun r => r = rowReading word row mode r.value).map Reading.value

/-- The pulses that one row calls for; none while the row has not been read. -/
def rowPulses (word value : Word) (row : Row) (rs : List Reading) : List Word :=
  (rowValue word row .array rs).elim [] (missing word value row)

def owedPulses (word value : Word) (rs : List Reading) : List Word :=
  rowPulses word value .low rs ++ rowPulses word value .high rs

theorem Address.compose_inj {word : Word} {b b' : Nat} {row row' : Row} (hb : b < 32) (hb' : b' < 32)
    (h : compose word (BitVec.ofNat 32 b) row = compose word (BitVec.ofNat 32 b') row') :
    b = b' ∧ row = row' := by
  have same := congrArg fields h
  rw [fields_compose, fields_compose, FuseBit.mk.injEq] at same
  have bits : b % 2 ^ 32 % 2 ^ 5 = b' % 2 ^ 32 % 2 ^ 5 := by
    simpa only [BitVec.toNat_setWidth, BitVec.toNat_ofNat] using congrArg BitVec.toNat same.1
  exact ⟨by omega, same.2.2⟩

theorem mem_rowPulses {word value a : Word} {row : Row} {rs : List Reading} :
    a ∈ rowPulses word value row rs ↔ ∃ before bit, rowValue word row .array rs = some before ∧
      (value &&& ~~~before).getLsbD bit = true ∧
      a = Address.compose word (BitVec.ofNat 32 bit) row := by
  unfold rowPulses
  cases rowValue word row .array rs with
  | none => simp
  | some before =>
    constructor
    · intro h
      obtain ⟨bit, set, rfl⟩ := List.mem_map.1 h
      exact ⟨before, bit, rfl, (Word.mem_bits _ _).1 set, rfl⟩
    · rintro ⟨_, bit, read, set, rfl⟩
      cases read
      exact List.mem_map.2 ⟨bit, (Word.mem_bits _ _).2 set, rfl⟩

theorem missing_nodup (word value : Word) (row : Row) (before : Word) :
    (missing word value row before).Nodup := by
  have bits : (value &&& ~~~before).bits.Nodup := List.nodup_range.filter _
  refine List.pairwise_map.2 (bits.imp_of_mem ?_)
  intro b b' hb hb' different same
  have below : ∀ i ∈ (value &&& ~~~before).bits, i < 32 :=
    fun i hi => List.mem_range.1 (List.mem_filter.1 hi).1
  exact different (Address.compose_inj (below b hb) (below b' hb') same).1

theorem rowPulses_nodup (word value : Word) (row : Row) (rs : List Reading) :
    (rowPulses word value row rs).Nodup := by
  unfold rowPulses
  cases rowValue word row .array rs with
  | none => exact List.nodup_nil
  | some before => exact missing_nodup word value row before

theorem owedPulses_nodup (word value : Word) (rs : List Reading) :
    (owedPulses word value rs).Nodup := by
  have low := rowPulses_nodup word value .low rs
  have high := rowPulses_nodup word value .high rs
  refine List.nodup_append.2 ⟨low, high, ?_⟩
  intro a ha b hb same
  obtain ⟨before, bit, -, set, rfl⟩ := mem_rowPulses.1 ha
  obtain ⟨before', bit', -, set', rfl⟩ := mem_rowPulses.1 hb
  cases (Address.compose_inj (BitVec.lt_of_getLsbD set) (BitVec.lt_of_getLsbD set') same).2

theorem mem_owedPulses {word value a : Word} {rs : List Reading} :
    a ∈ owedPulses word value rs ↔ ∃ row before bit, rowValue word row .array rs = some before ∧
      (value &&& ~~~before).getLsbD bit = true ∧
      a = Address.compose word (BitVec.ofNat 32 bit) row := by
  rw [owedPulses, List.mem_append, mem_rowPulses, mem_rowPulses]
  constructor
  · rintro (low | high)
    · exact ⟨.low, low⟩
    · exact ⟨.high, high⟩
  · rintro ⟨_ | _, h⟩
    · exact .inl h
    · exact .inr h

theorem count_owedPulses {word value before : Word} {row : Row} {rs : List Reading}
    (read : rowValue word row .array rs = some before) {bit : Nat} (hb : bit < 32) :
    (owedPulses word value rs).count (Address.compose word (BitVec.ofNat 32 bit) row) =
      if (value &&& ~~~before).getLsbD bit then 1 else 0 := by
  have owed : Address.compose word (BitVec.ofNat 32 bit) row ∈ owedPulses word value rs ↔
      (value &&& ~~~before).getLsbD bit = true := by
    rw [mem_owedPulses]
    constructor
    · rintro ⟨row', before', bit', read', set, same⟩
      obtain ⟨rfl, rfl⟩ := Address.compose_inj hb (BitVec.lt_of_getLsbD set) same
      rw [read] at read'
      cases read'
      exact set
    · intro set
      exact ⟨row, before, bit, read, set, rfl⟩
  rw [(owedPulses_nodup word value rs).count]
  simp only [owed]

/-- A row's report holds what the readings show of the row. -/
structure ReportsRow (word value : Word) (rs : List Reading) (row : Row) (report : RowReport) :
    Prop where
  before : rowValue word row .array rs = some report.before
  margin : rowValue word row .margin rs = some report.margin
  programmed : report.programmed = value &&& ~~~report.before
  verified : report.verified = decide (report.margin.Covers value)

theorem ReportsRow.pulses {word value : Word} {rs : List Reading} {row : Row} {report : RowReport}
    (h : ReportsRow word value rs row report) :
    (report.programmed.bits.map fun bit => Address.compose word (BitVec.ofNat 32 bit) row) =
      rowPulses word value row rs := by
  rw [rowPulses, h.before, h.programmed]
  rfl

theorem Address.physicalWord_ne (word : Word) {row row' : Row} (h : row ≠ row') :
    physicalWord word row ≠ physicalWord word row' := by
  intro same
  have lowest : ∀ row, (physicalWord word row).getLsbD 0 = row.toBit.getLsbD 0 := by
    intro row
    simp only [physicalWord, BitVec.getLsbD_setWidth, BitVec.getLsbD_append]
    rfl
  have bits := lowest row'
  rw [← same, lowest row] at bits
  cases row <;> cases row' <;> first | exact h rfl | cases bits

theorem ReadMode.command_ne {mode mode' : ReadMode} (h : mode ≠ mode') :
    mode.command ≠ mode'.command := by
  cases mode <;> cases mode' <;> first | exact absurd rfl h | decide

section RowValue

variable {word value : Word} {row row' : Row} {mode mode' : ReadMode} {rs ts : List Reading}

@[simp] theorem rowValue_nil : rowValue word row mode [] = none := rfl

@[simp] theorem rowValue_cons_self (v : Word) :
    rowValue word row mode (rowReading word row mode v :: rs) = some v := by
  simp [rowValue, rowReading]

theorem rowValue_cons_row (h : row' ≠ row) (v : Word) :
    rowValue word row mode (rowReading word row' mode' v :: rs) = rowValue word row mode rs := by
  simp [rowValue, rowReading, Address.physicalWord_ne word h]

theorem rowValue_cons_mode (h : mode' ≠ mode) (v : Word) :
    rowValue word row mode (rowReading word row' mode' v :: rs) = rowValue word row mode rs := by
  simp [rowValue, rowReading, ReadMode.command_ne h]

end RowValue

section Outcome

variable {limit : Nat} {word value : Word} {row : Row} {ps : List Word} {rs : List Reading}

theorem RowTraffic.pulses_owed {r : Option (Except DeviceError RowReport)}
    (h : RowTraffic limit word value row ps rs r) : ps <+: rowPulses word value row rs := by
  cases h with
  | unread => exact List.nil_prefix
  | pulsing before ps stop _ hp => simpa [rowPulses] using hp
  | verified before margin => simp [rowPulses]

theorem RowTraffic.of_error {e : DeviceError}
    (h : RowTraffic limit word value row ps rs (some (.error e))) :
    e = .timeout limit ∧ rowValue word row .margin rs = none := by
  generalize hr : some (Except.error e) = r at h
  cases h with
  | unread stop early =>
    cases stop <;> cases hr
    exact ⟨early e rfl, rfl⟩
  | pulsing before ps stop early =>
    cases stop <;> cases hr
    exact ⟨early e rfl, rowValue_cons_mode (by decide) before⟩
  | verified before margin r hv =>
    obtain rfl | rfl := hv <;> cases hr

theorem WordTraffic.pulses_owed {r : Option (Except DeviceError WriteReport)}
    (h : WordTraffic limit word value ps rs r) : ps <+: owedPulses word value rs := by
  cases h with
  | low ps rs stop h => exact h.pulses_owed.trans (List.prefix_append _ _)
  | high before margin ps rs stop h =>
    have low : rowPulses word value .low (rowReading word .low .array before ::
        rowReading word .low .margin margin :: rs) = missing word value .low before := by
      simp [rowPulses]
    have high : rowPulses word value .high (rowReading word .low .array before ::
        rowReading word .low .margin margin :: rs) = rowPulses word value .high rs := by
      rw [rowPulses, rowValue_cons_row (by decide), rowValue_cons_row (by decide), rowPulses]
    rw [owedPulses, List.cons_append, List.cons_append, List.nil_append, low, high]
    exact (List.prefix_append_right_inj _).2 h.pulses_owed
  | finished before margin before' margin' =>
    simp [owedPulses, rowPulses, rowValue_cons_row]

theorem WordTraffic.of_some {outcome : Except DeviceError WriteReport}
    (h : WordTraffic limit word value ps rs (some outcome)) :
    (outcome = .error (.timeout limit) ∧ ∃ row, rowValue word row .margin rs = none) ∨
    ∃ low high, ReportsRow word value rs .low low ∧ ReportsRow word value rs .high high ∧
      outcome = wordOutcome word value low high ∧ ps = owedPulses word value rs := by
  generalize hr : some outcome = r at h
  cases h with
  | low ps rs stop h =>
    cases stop with
    | none => cases hr
    | some e =>
      obtain ⟨rfl, unverified⟩ := h.of_error
      exact .inl ⟨Option.some.inj hr, .low, unverified⟩
  | high before margin ps rs stop h =>
    cases stop with
    | none => cases hr
    | some e =>
      obtain ⟨rfl, unverified⟩ := h.of_error
      refine .inl ⟨Option.some.inj hr, .high, ?_⟩
      rw [List.cons_append, List.cons_append, rowValue_cons_row (by decide),
        rowValue_cons_row (by decide)]
      exact unverified
  | finished before margin before' margin' r hv =>
    obtain rfl | rfl := hv
    · cases hr
    refine .inr ⟨.of value before margin, .of value before' margin', ⟨?_, ?_, rfl, rfl⟩,
      ⟨?_, ?_, rfl, rfl⟩, Option.some.inj hr, ?_⟩
    · simp [RowReport.of]
    · simp [rowValue_cons_mode, RowReport.of]
    · simp [rowValue_cons_row, RowReport.of]
    · simp [rowValue_cons_row, rowValue_cons_mode, RowReport.of]
    · simp [owedPulses, rowPulses, rowValue_cons_row]

theorem WordTraffic.of_complete {outcome : Except DeviceError WriteReport}
    (h : WordTraffic limit word value ps rs (some outcome))
    (complete : outcome ≠ .error (.timeout limit)) :
    ps = owedPulses word value rs ∧ ∀ row, ∃ before, rowValue word row .array rs = some before := by
  obtain ⟨timeout, -⟩ | ⟨low, high, hl, hh, -, owed⟩ := h.of_some
  · exact absurd timeout complete
  · rw [Row.forall_iff]
    exact ⟨owed, ⟨low.before, hl.before⟩, high.before, hh.before⟩

theorem WordTraffic.of_error {e : DeviceError}
    (h : WordTraffic limit word value ps rs (some (.error e))) :
    e = .timeout limit ∨ e = .verifyFailed word 2 := by
  obtain ⟨timeout, -⟩ | ⟨low, high, -, -, ended, -⟩ := h.of_some
  · exact .inl (Except.error.inj timeout)
  obtain ⟨-, -, failed⟩ | ⟨-, succeeded, -⟩ := wordOutcome_cases word value low high
  · exact .inr (Except.error.inj (ended.trans failed))
  · rw [succeeded] at ended
    cases ended

theorem WordTraffic.of_report {report : WriteReport}
    (h : WordTraffic limit word value ps rs (some (.ok report))) :
    report.word = word ∧ report.value = value ∧ report.errorCount ≤ 1 ∧
      ∀ x ∈ report.rows, ReportsRow word value rs x.1 x.2 := by
  obtain ⟨timeout, -⟩ | ⟨low, high, hl, hh, ended, -⟩ := h.of_some
  · cases timeout
  obtain ⟨-, -, failed⟩ | ⟨-, succeeded, few⟩ := wordOutcome_cases word value low high
  · rw [failed] at ended
    cases ended
  · have same : report = ⟨word, value, low, high⟩ := Except.ok.inj (ended.trans succeeded)
    rw [same, WriteReport.forall_rows]
    exact ⟨rfl, rfl, few, hl, hh⟩

theorem wordOutcome_failed_iff {low high : RowReport} (hl : ReportsRow word value rs .low low)
    (hh : ReportsRow word value rs .high high) :
    (∃ w n, wordOutcome word value low high = .error (.verifyFailed w n)) ↔
      ∀ row, ∃ margin, rowValue word row .margin rs = some margin ∧ ¬ margin.Covers value := by
  have missed : ∀ {row report}, ReportsRow word value rs row report →
      ((∃ margin, rowValue word row .margin rs = some margin ∧ ¬ margin.Covers value) ↔
        report.verified = false) := by
    intro row report h
    simp [h.margin, h.verified]
  rw [Row.forall_iff, missed hl, missed hh]
  obtain ⟨low', high', failed⟩ | ⟨verified, succeeded, -⟩ := wordOutcome_cases word value low high
  · exact ⟨fun _ => ⟨low', high'⟩, fun _ => ⟨word, 2, failed⟩⟩
  · rw [succeeded]
    constructor
    · rintro ⟨w, n, h⟩
      cases h
    · rintro ⟨low', high'⟩
      simp [low', high'] at verified

theorem WordTraffic.failed_iff {outcome : Except DeviceError WriteReport}
    (h : WordTraffic limit word value ps rs (some outcome)) :
    (∃ w n, outcome = .error (.verifyFailed w n)) ↔
      ∀ row, ∃ margin, rowValue word row .margin rs = some margin ∧ ¬ margin.Covers value := by
  obtain ⟨rfl, row, unread⟩ | ⟨low, high, hl, hh, rfl, -⟩ := h.of_some
  · constructor
    · rintro ⟨w, n, failed⟩
      cases failed
    · intro missed
      obtain ⟨margin, read, -⟩ := missed row
      rw [unread] at read
      cases read
  · exact wordOutcome_failed_iff hl hh

theorem programmedBits_eq {report : WriteReport}
    (h : ∀ x ∈ report.rows, ReportsRow word value rs x.1 x.2) :
    (report.programmedBits.map fun x => Address.compose word (BitVec.ofNat 32 x.2) x.1) =
      owedPulses word value rs := by
  obtain ⟨low, high⟩ := WriteReport.forall_rows.1 h
  simp only [WriteReport.programmedBits, WriteReport.rows, List.flatMap_cons, List.flatMap_nil,
    List.append_nil, List.map_append, List.map_map, Function.comp_def]
  rw [low.pulses, high.pulses, owedPulses]

end Outcome

section WordWrite

variable {hw : Hardware σ} (c : Controller) (word value : Word) (s : σ)

theorem writeWord_keeps : (c.writeWord word value).run.Keeps (Admitted (word = ·) False False) :=
  Controller.keeps_writeWord c (Eq.refl word) value

theorem writeWord_traffic :
    (run hw (c.writeWord word value).run s).traffic =
      (run hw (c.writeWord word value).run s).accesses := by
  have chain := (writeWord_keeps c word value).chained hw s
  rw [Run.accesses_eq, List.filter_eq_self.2]
  intro e he
  obtain ⟨prev, admitted⟩ := chain.of_mem he
  have kind := (List.mem_filter.1 he).2
  simpa [Event.isTraffic, admitted.clockless] using kind

theorem writeWord_sends_cut {es : List Event}
    (hp : es <+: (run hw (c.writeWord word value).run s).accesses) :
    Sends (c.writeWord word value).run es none := by
  rw [← writeWord_traffic] at hp
  exact (sends_run hw _ s).cutShort hp

theorem writeWord_programs (clears : hw.bus.ClearsProgram) {es : List Event}
    (hp : es <+: (run hw (c.writeWord word value).run s).accesses) :
    programs none es = (pulses none es).map some := by
  rw [← writeWord_traffic] at hp
  exact programs_eq_of_run clears (writeWord_keeps c word value) hp

theorem writeWord_returned {outcome : Except DeviceError WriteReport}
    (returned : (run hw (c.writeWord word value).run s).result = .ok outcome) :
    ∃ ps, WordTraffic c.pollLimit word value ps
        (readings none none (run hw (c.writeWord word value).run s).accesses) (some outcome) ∧
      pulses none (run hw (c.writeWord word value).run s).accesses = ps := by
  have sends := sends_run hw (c.writeWord word value).run s
  rw [returned] at sends
  obtain ⟨ps, rs, traffic, shows⟩ := Controller.writeWord_sends sends
  rw [writeWord_traffic] at shows
  rw [shows.readings none none]
  exact ⟨ps, traffic, shows.pulses none⟩

/-- At every point of a word write the pulses are the first of those that the rows read so far call
for, and a write that does not time out sends all of them. -/
theorem writeWord_pulses (clears : hw.bus.ClearsProgram) :
    let r := run hw (c.writeWord word value).run s
    let rs := readings none none r.accesses
    (∀ es, es <+: r.accesses →
      programs none es <+: (owedPulses word value (readings none none es)).map some) ∧
    (hw.bus.Answers → ∃ outcome, r.result = .ok outcome) ∧
    (∀ outcome, r.result = .ok outcome →
      (outcome ≠ .error (.timeout c.pollLimit) →
        programs none r.accesses = (owedPulses word value rs).map some ∧
        ∀ row, ∃ before, rowValue word row .array rs = some before) ∧
      ((∃ w n, outcome = .error (.verifyFailed w n)) ↔
        ∀ row, ∃ margin, rowValue word row .margin rs = some margin ∧ ¬ margin.Covers value)) ∧
    (∀ e, r.result = .ok (.error e) → e = .timeout c.pollLimit ∨ e = .verifyFailed word 2) ∧
    ∀ report, r.result = .ok (.ok report) →
      report.word = word ∧ report.value = value ∧ report.errorCount ≤ 1 ∧
      (report.programmedBits.map fun x => Address.compose word (BitVec.ofNat 32 x.2) x.1) =
        owedPulses word value rs ∧
      ∀ x ∈ report.rows, ReportsRow word value rs x.1 x.2 := by
  intro r rs
  refine ⟨?_, ?_, ?_, ?_, ?_⟩
  · intro es hp
    obtain ⟨ps, _, traffic, shows⟩ :=
      Controller.writeWord_sends (writeWord_sends_cut c word value s hp)
    rw [writeWord_programs c word value s clears hp, shows.pulses none, shows.readings none none]
    exact traffic.pulses_owed.map some
  · intro answers
    exact (writeWord_keeps c word value none).returns answers Admitted.clockless
      (c.haltsOnly_writeWord word value) s
  · intro outcome returned
    obtain ⟨ps, traffic, sent⟩ := writeWord_returned c word value s returned
    refine ⟨fun complete => ?_, traffic.failed_iff⟩
    obtain ⟨owed, read⟩ := traffic.of_complete complete
    rw [writeWord_programs c word value s clears (List.prefix_refl _), sent, owed]
    exact ⟨rfl, read⟩
  · intro e failed
    obtain ⟨ps, traffic, -⟩ := writeWord_returned c word value s failed
    exact traffic.of_error
  · intro report succeeded
    obtain ⟨ps, traffic, -⟩ := writeWord_returned c word value s succeeded
    obtain ⟨sameWord, sameValue, few, rows⟩ := traffic.of_report
    exact ⟨sameWord, sameValue, few, programmedBits_eq rows, rows⟩

end WordWrite

theorem writeWord_pulses_blank :
    FuseMacro.bus.ClearsProgram ∧
    programs none (run FuseMacro.ungated ((Controller.ofLimit 4).writeWord 3 5).run
      FuseMacro.blank).accesses = [some 0x006, some 0x106, some 0x007, some 0x107] := by
  refine ⟨FuseMacro.clearsProgram, ?_⟩
  have returned : (run FuseMacro.ungated ((Controller.ofLimit 4).writeWord 3 5).run
      FuseMacro.blank).result = .ok (.ok ⟨3, 5, .of 5 0 5, .of 5 0 5⟩) := by
    decide +kernel
  obtain ⟨all, -⟩ := (writeWord_pulses (Controller.ofLimit 4) 3 5 FuseMacro.blank
    FuseMacro.clearsProgram).2.2.1 _ returned
  rw [(all (by simp)).1]
  decide +kernel

end FuseBank
