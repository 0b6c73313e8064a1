import FuseBank.Proofs.ConfigAcceptance
import FuseBank.Proofs.RegisterOffsets

/-!
The arithmetic of mappings. Where a mapping begins, its offset in the memory and the bit of a clock
register are always in their bounds; the length of a mapping is not, if a window that begins inside a page
is nearly as long as the address space (`mapping_overflow_iff`). No text configures such a window.
-/

namespace FuseBank

variable {α : Type}

/-- Mapping gives what was asked for, or the system refuses it with an error of its own. -/
def MapsOrRefuses (outcome : Except Fault (Except DeviceError α)) (addr : BitVec 64) (mapped : α) : Prop :=
  outcome = .ok (.ok mapped) ∨ ∃ e, outcome = .ok (.error (.mapping addr e))

namespace Window

variable {answers : MappingAnswers} {addr len : BitVec 64}

theorem map_overflow (opened : answers.opened = .ok ())
    (h : 2 ^ 64 ≤ addr.toNat % answers.pageSize + len.toNat) : map answers addr len = .error .overflow := by
  unfold map
  rw [opened]
  exact if_pos h

theorem map_eq_of_lt (opened : answers.opened = .ok ())
    (h : addr.toNat % answers.pageSize + len.toNat < 2 ^ 64) :
    map answers addr len = .ok ((place ⟨addr, len.toNat, answers.pageSize⟩ answers.mmap).mapError
      fun errno => .mapping addr (.code errno)) := by
  unfold map
  rw [opened]
  exact if_neg (Nat.not_le.2 h)

theorem map_mapsOrRefuses
    (h : answers.opened = .ok () → addr.toNat % answers.pageSize + len.toNat < 2 ^ 64) :
    MapsOrRefuses (map answers addr len) addr ⟨addr, len.toNat, answers.pageSize⟩ := by
  cases opened : answers.opened with
  | error e =>
    refine .inr ⟨e, ?_⟩
    unfold map
    rw [opened]
  | ok _ =>
    rw [map_eq_of_lt opened (h opened)]
    cases placed : place ⟨addr, len.toNat, answers.pageSize⟩ answers.mmap with
    | error errno => exact .inr ⟨.code errno, rfl⟩
    | ok w =>
      obtain rfl := place_ok placed
      exact .inl rfl

theorem map_tooHigh (opened : answers.opened = .ok ())
    (h : addr.toNat % answers.pageSize + len.toNat < 2 ^ 64) (some_length : len.toNat ≠ 0)
    (high : 2 ^ 63 ≤ page ⟨addr, len.toNat, answers.pageSize⟩) :
    map answers addr len = .ok (.error (.mapping addr (.code Errno.valueTooLarge))) := by
  have nonempty : extent ⟨addr, len.toNat, answers.pageSize⟩ ≠ 0 :=
    fun empty => some_length (Nat.eq_zero_of_add_eq_zero_left empty)
  have refused : place ⟨addr, len.toNat, answers.pageSize⟩ answers.mmap = .error Errno.valueTooLarge :=
    (if_neg nonempty).trans (if_pos high)
  rw [map_eq_of_lt opened h, refused]
  rfl

end Window

theorem RegisterClock.map_mapsOrRefuses (answers : MappingAnswers) {bit : ClockBit}
    (inside : bit.bit.toNat < 32) :
    MapsOrRefuses (map answers bit) bit.register (bit.registerClock answers.pageSize) := by
  have short : bit.register.toNat % answers.pageSize + (4 : BitVec 64).toNat < 2 ^ 64 := by
    have place := Nat.mod_lt bit.register.toNat answers.pageSize_pos
    have page := answers.pageSize_lt
    change _ + 4 < _
    omega
  unfold map
  obtain mapped | ⟨e, refused⟩ := Window.map_mapsOrRefuses fun _ => short
  · rw [mapped]
    exact .inl (if_neg (Nat.not_le.2 inside))
  · rw [refused]
    exact .inr ⟨e, rfl⟩

/-- The window's place in its first page and its length have a sum that takes more than 64 bits. -/
def Config.Overruns (c : Config) (pageSize : Nat) : Prop :=
  2 ^ 64 ≤ c.baseAddress.toNat % pageSize + c.windowSize.toNat

namespace Config

variable {config : Config} {pageSize : Nat}

theorem Overruns.narrow (positive : 0 < pageSize) (h : config.Overruns pageSize) :
    2 ^ 64 < config.windowSize.toNat + pageSize ∧ ¬ pageSize ∣ config.baseAddress.toNat := by
  have size := config.windowSize.isLt
  have place := Nat.mod_lt config.baseAddress.toNat positive
  unfold Overruns at h
  refine ⟨by omega, fun whole => ?_⟩
  have zero := Nat.mod_eq_zero_of_dvd whole
  omega

theorem windowSize_lt {t : Toml.Entries} (sound : t.Sound) (given : config.GivenBy t) :
    config.windowSize.toNat < 2 ^ 63 := by
  obtain ⟨v, mem, rfl⟩ | ⟨-, default⟩ := given.window
  · exact integer_lt (sound.each _ mem)
  · rw [default]
    decide

theorem not_overruns_of_ofText {text : String} (h : ofText text = .ok config) (positive : 0 < pageSize)
    (page : pageSize < 2 ^ 63) : ¬ config.Overruns pageSize := by
  unfold ofText at h
  split at h
  · cases h
  · rename_i t parsed
    have sound := Toml.Document.parse_sound parsed
    have small := windowSize_lt sound ((ofEntries_eq_ok_iff sound).1 h).1
    intro overruns
    obtain ⟨large, -⟩ := overruns.narrow positive
    omega

end Config

variable {registers clock : MappingAnswers} {config : Config}

theorem MappedController.map_overflow (opened : registers.opened = .ok ())
    (overruns : config.Overruns registers.pageSize) :
    (map registers clock config).result = .error .overflow := by
  unfold map
  rw [Window.map_overflow opened overruns]

theorem MappedController.map_not_fault
    (fits : registers.opened = .ok () → ¬ config.Overruns registers.pageSize)
    (inside : ∀ bit ∈ config.clock, bit.bit.toNat < 32) (fault : Fault) :
    (map registers clock config).result ≠ .error fault := by
  unfold map
  obtain mapped | ⟨e, refused⟩ := Window.map_mapsOrRefuses fun opened => Nat.not_le.1 (fits opened)
  · rw [mapped]
    cases configured : config.clock with
    | none => nofun
    | some bit =>
      obtain clocked | ⟨e, refused⟩ := RegisterClock.map_mapsOrRefuses clock (inside bit configured)
      · simp [clocked]
      · simp [refused]
  · rw [refused]
    nofun

/-- Whatever the system answers to the mapping of the registers and to that of the clock register, a
configuration that passes its checks is mapped or refused with an error, unless physical memory can be
opened and the window overruns; then mapping it is a fault. Nothing else can go wrong: the mapping begins
at or before the window, an offset that is too high is refused, and the clock register has the bit. A
window that overruns is all but the whole address space and begins inside a page, and no text configures
one. -/
theorem mapping_overflow_iff (registers clock : MappingAnswers) (config : Config)
    (accepted : config.check = none) :
    let window : Window := ⟨config.baseAddress, config.windowSize.toNat, registers.pageSize⟩
    let mapped := Window.map registers config.baseAddress config.windowSize
    (window.start ≤ config.baseAddress.toNat ∧ window.page + window.start = config.baseAddress.toNat) ∧
    (registers.opened = .ok () → config.Overruns registers.pageSize → mapped = .error .overflow) ∧
    ((registers.opened = .ok () → ¬ config.Overruns registers.pageSize) →
      MapsOrRefuses mapped config.baseAddress window ∧
      (registers.opened = .ok () → 2 ^ 63 ≤ window.page →
        mapped = .ok (.error (.mapping config.baseAddress (.code Errno.valueTooLarge))))) ∧
    (∀ bit ∈ config.clock, (bit.registerClock clock.pageSize).mask ≠ 0 ∧
      MapsOrRefuses (RegisterClock.map clock bit) bit.register (bit.registerClock clock.pageSize)) ∧
    ((∃ fault, (MappedController.map registers clock config).result = .error fault) ↔
      registers.opened = .ok () ∧ config.Overruns registers.pageSize) ∧
    (config.Overruns registers.pageSize → 2 ^ 64 < config.windowSize.toNat + registers.pageSize ∧
      ¬ registers.pageSize ∣ config.baseAddress.toNat) ∧
    ∀ text, Config.ofText text = .ok config → ¬ config.Overruns registers.pageSize := by
  intro window mapped
  have valid := config.check_eq_none_iff.1 accepted
  have inside (bit) (configured : bit ∈ config.clock) : bit.bit.toNat < 32 :=
    (valid.clock bit configured).1
  refine ⟨⟨Nat.mod_le _ _, window.page_add_start⟩, Window.map_overflow, fun fits => ?_,
    fun bit configured => ?_, ?_, Config.Overruns.narrow registers.pageSize_pos,
    fun text loads => Config.not_overruns_of_ofText loads registers.pageSize_pos registers.pageSize_lt⟩
  · have covers : 0x200 ≤ config.windowSize.toNat := valid.window
    have nonempty : config.windowSize.toNat ≠ 0 := by omega
    have short (opened : registers.opened = .ok ()) := Nat.not_le.1 (fits opened)
    exact ⟨Window.map_mapsOrRefuses short,
      fun opened => Window.map_tooHigh opened (short opened) nonempty⟩
  · have below := inside bit configured
    exact ⟨ClockBit.mask_ne_zero below _, RegisterClock.map_mapsOrRefuses clock below⟩
  · constructor
    · intro ⟨fault, faulted⟩
      refine Classical.byContradiction fun fits => ?_
      exact MappedController.map_not_fault (fun opened overruns => fits ⟨opened, overruns⟩) inside fault
        faulted
    · rintro ⟨opened, overruns⟩
      exact ⟨.overflow, MappedController.map_overflow opened overruns⟩

def Config.boundless : Config where
  baseAddress := 4
  windowSize := 0xffffffffffffffff

theorem mapping_overflow_iff_boundless :
    let full : MappingAnswers := { MappingAnswers.granting with mmap _ _ := .error Errno.outOfMemory }
    Config.boundless.check = none ∧ Config.boundless.Overruns full.pageSize ∧
    Window.map full 0 Config.boundless.windowSize = .ok (.error (.mapping 0 (.code Errno.outOfMemory))) ∧
    Window.map full Config.boundless.baseAddress Config.boundless.windowSize = .error .overflow ∧
    ∃ fault, (MappedController.map full full .boundless).result = .error fault := by
  -- From the first word on, the system would be asked and could refuse it; from the second on,
  -- mapping it is a fault on every system whose pages hold more than a word.
  intro full
  have accepted : Config.boundless.check = none := by decide
  have overruns : Config.boundless.Overruns full.pageSize := by
    unfold Config.Overruns
    decide
  obtain ⟨-, overflows, -, -, faults, -⟩ := mapping_overflow_iff full full .boundless accepted
  exact ⟨accepted, overruns, by decide, overflows rfl overruns, faults.2 ⟨rfl, overruns⟩⟩

end FuseBank
