import Mathlib.Algebra.Group.Nat.Defs
import FuseBank.Config.Decode
import FuseBank.Proofs.DocumentTables

/-!
Which documents are configurations. `Config.GivenBy` states on a document's table what each field of a
configuration is, and decoding finds just that (`Config.decode?_eq_some_iff`). What has been decoded is
refused for the first rule in `Flaw.order` that it breaks, and taken if it breaks none
(`documents_accepted_exactly`).
-/

namespace FuseBank
open Toml (Value Entries)

namespace Toml.Entries

variable {α : Type} {t : Entries} {key : String}

/-- The table has a value of the given kind under the key, or nothing there and the default applies. -/
def Stated (t : Entries) (key : String) (given : Value → Prop) (default : Prop) : Prop :=
  (∃ v, (key, v) ∈ t ∧ given v) ∨ ((∀ v, (key, v) ∉ t) ∧ default)

theorem Stated.of_mem (distinct : (t.map Prod.fst).Nodup) {given : Value → Prop} {default : Prop}
    (h : t.Stated key given default) {v : Value} (mem : (key, v) ∈ t) : given v := by
  obtain ⟨v', mem', written⟩ | ⟨missing, -⟩ := h
  · have found := (lookup_eq_some_iff_mem distinct).2 mem
    rw [(lookup_eq_some_iff_mem distinct).2 mem'] at found
    cases found
    exact written
  · exact absurd mem (missing v)

theorem exists_stated {given : α → Value → Prop} {default : α}
    (readable : ∀ v, (key, v) ∈ t → ∃ x, given x v) : ∃ x, t.Stated key (given x) (x = default) := by
  by_cases present : ∃ v, (key, v) ∈ t
  · obtain ⟨v, mem⟩ := present
    obtain ⟨x, written⟩ := readable v mem
    exact ⟨x, .inl ⟨v, mem, written⟩⟩
  · exact ⟨default, .inr ⟨not_exists.1 present, rfl⟩⟩

theorem stated_congr {given given' : Value → Prop} {default : Prop}
    (h : ∀ v, (key, v) ∈ t → (given v ↔ given' v)) :
    t.Stated key given default ↔ t.Stated key given' default :=
  or_congr (exists_congr fun v => and_congr_right (h v)) Iff.rfl

end Toml.Entries

inductive ClockBit.Written (register bit : Nat) : Value → Prop where
  | table {origin : Toml.Origin} {fields : Entries} (known : ∀ e ∈ fields, e.1 ∈ ["register", "bit"])
      (first : ("register", .integer register) ∈ fields) (second : ("bit", .integer bit) ∈ fields) :
      Written register bit (.table origin fields)
  | array (rest : List Value) : Written register bit (.array (.integer register :: .integer bit :: rest))

namespace Config

def ClockGiven (clock : Option ClockBit) (v : Value) : Prop :=
  ∃ bit, clock = some bit ∧ ClockBit.Written bit.register.toNat bit.bit.toNat v

/-- The table has no other keys than the fields, and each field is as its key says, or at its default. -/
structure GivenBy (c : Config) (t : Entries) : Prop where
  known : ∀ e ∈ t, e.1 ∈
    ["base_address", "window_size", "programming_enabled", "ready_poll_limit", "clock"]
  base : t.Stated "base_address" (· = .integer c.baseAddress.toNat) (c.baseAddress = 0x03050000)
  window : t.Stated "window_size" (· = .integer c.windowSize.toNat) (c.windowSize = 0x1000)
  programming : t.Stated "programming_enabled" (· = .boolean c.programmingEnabled)
    (c.programmingEnabled = false)
  polls : t.Stated "ready_poll_limit" (· = .integer c.pollLimit.toNat) (c.pollLimit = 100000)
  clock : t.Stated "clock" (ClockGiven c.clock) (c.clock = none)

structure Readable (t : Entries) : Prop where
  known : ∀ e ∈ t, e.1 ∈
    ["base_address", "window_size", "programming_enabled", "ready_poll_limit", "clock"]
  base : ∀ v, ("base_address", v) ∈ t → ∃ n : Nat, v = .integer n
  window : ∀ v, ("window_size", v) ∈ t → ∃ n : Nat, v = .integer n
  programming : ∀ v, ("programming_enabled", v) ∈ t → ∃ b, v = .boolean b
  polls : ∀ v, ("ready_poll_limit", v) ∈ t → ∃ n : Nat, n < 2 ^ 32 ∧ v = .integer n
  clock : ∀ v, ("clock", v) ∈ t → ∃ register bit : Nat, bit < 256 ∧ ClockBit.Written register bit v

variable {t t' : Entries} {v : Value} {c : Config}

theorem unsigned?_eq_some_iff {width : Nat} {x : BitVec width} :
    unsigned? width v = some x ↔ v = .integer x.toNat := by
  constructor
  · intro h
    unfold unsigned? at h
    split at h
    · split at h
      · rename_i n below
        cases h
        have value : (BitVec.ofNat width n).toNat = n := Nat.mod_eq_of_lt below
        rw [value]
        rfl
      · cases h
    · cases h
  · rintro rfl
    refine (if_pos x.isLt).trans (congrArg some ?_)
    rw [BitVec.ofNat_toNat, BitVec.setWidth_eq]

theorem boolean?_eq_some_iff {b : Bool} : boolean? v = some b ↔ v = .boolean b := by
  cases v <;> simp [boolean?]

theorem lookup_unsigned? (distinct : (t.map Prod.fst).Nodup) {width : Nat} {x : BitVec width}
    {key : String} : t.lookup key >>= unsigned? width = some x ↔ (key, .integer x.toNat) ∈ t := by
  rw [← Entries.lookup_eq_some_iff_mem distinct]
  simp [Option.bind_eq_some_iff, unsigned?_eq_some_iff]

theorem field?_eq_some_iff {α : Type} (h : t.Sound) {key : String} {read : Value → Option α}
    {default x : α} :
    field? t key read default = some x ↔ t.Stated key (read · = some x) (x = default) := by
  unfold field? Entries.Stated
  cases found : t.lookup key with
  | none =>
    have missing := Entries.lookup_eq_none_iff_not_mem.1 found
    simp [missing, eq_comm]
  | some v =>
    have here (v') : (key, v') ∈ t ↔ v' = v := by
      rw [← Entries.lookup_eq_some_iff_mem h.distinct, found]
      simp [eq_comm]
    simp [here]

theorem knownKeys_eq_some_iff {α : Type} {names : List String} {rest : Option α} {x : α} :
    (do
      if t.any fun e => e.1 ∉ names then none
      rest) = some x ↔ (∀ e ∈ t, e.1 ∈ names) ∧ rest = some x := by
  by_cases known : ∀ e ∈ t, e.1 ∈ names
  · have plain : ¬ (t.any fun e => e.1 ∉ names) = true := by simpa using known
    rw [if_neg plain]
    exact (and_iff_right known).symm
  · have other : (t.any fun e => e.1 ∉ names) = true := by simpa using known
    rw [if_pos other]
    exact iff_of_false nofun fun all => known all.1

theorem clockBit?_table {origin : Toml.Origin} (h : t.Sound) {clock : ClockBit} :
    clockBit? (.table origin t) = some clock ↔ (∀ e ∈ t, e.1 ∈ ["register", "bit"]) ∧
      ("register", .integer clock.register.toNat) ∈ t ∧ ("bit", .integer clock.bit.toNat) ∈ t := by
  unfold clockBit?
  rw [knownKeys_eq_some_iff, ← lookup_unsigned? h.distinct, ← lookup_unsigned? h.distinct]
  refine and_congr_right fun known => ?_
  cases clock
  simp [Option.bind_eq_some_iff]

theorem clockBit?_array {items : List Value} {clock : ClockBit} :
    clockBit? (.array items) = some clock ↔ ∃ rest,
      items = .integer clock.register.toNat :: .integer clock.bit.toNat :: rest := by
  cases items with
  | nil => simp [clockBit?]
  | cons register items =>
    cases items with
    | nil => simp [clockBit?]
    | cons bit rest =>
      cases clock
      simp [clockBit?, Option.bind_eq_some_iff, unsigned?_eq_some_iff]

theorem clockBit?_eq_some_iff (h : v.Sound) {clock : ClockBit} :
    clockBit? v = some clock ↔ ClockBit.Written clock.register.toNat clock.bit.toNat v := by
  cases v with
  | table origin fields =>
    rw [clockBit?_table (Entries.sound_table.1 h)]
    constructor
    · intro ⟨known, register, bit⟩
      exact .table known register bit
    · rintro ⟨known, register, bit⟩
      exact ⟨known, register, bit⟩
  | array items =>
    rw [clockBit?_array]
    constructor
    · rintro ⟨rest, rfl⟩
      exact .array rest
    · rintro ⟨rest⟩
      exact ⟨_, rfl⟩
  | _ =>
    constructor
    · nofun
    · nofun

theorem clock_eq_some_iff (h : v.Sound) {clock : Option ClockBit} :
    (clockBit? v).map some = some clock ↔ ClockGiven clock v := by
  rw [Option.map_eq_some_iff, ClockGiven]
  refine exists_congr fun bit => ?_
  rw [clockBit?_eq_some_iff h, and_comm, eq_comm]

theorem decode?_eq_some_iff (h : t.Sound) : decode? t = some c ↔ c.GivenBy t := by
  have clocked (clock : Option ClockBit) :
      t.Stated "clock" (fun v => (clockBit? v).map some = some clock) (clock = none) ↔
        t.Stated "clock" (ClockGiven clock) (clock = none) :=
    Entries.stated_congr fun v mem => clock_eq_some_iff (h.each _ mem)
  unfold decode?
  rw [knownKeys_eq_some_iff]
  simp only [Option.bind_eq_bind, Option.bind_eq_some_iff, field?_eq_some_iff h, unsigned?_eq_some_iff,
    boolean?_eq_some_iff, clocked]
  constructor
  · rintro ⟨known, _, base, _, window, _, programming, _, polls, _, clock, made⟩
    cases made
    exact ⟨known, base, window, programming, polls, clock⟩
  · intro ⟨known, base, window, programming, polls, clock⟩
    exact ⟨known, _, base, _, window, _, programming, _, polls, _, clock, rfl⟩

theorem exists_toNat_iff {width : Nat} {P : Nat → Prop} :
    (∃ x : BitVec width, P x.toNat) ↔ ∃ n < 2 ^ width, P n := by
  constructor
  · intro ⟨x, h⟩
    exact ⟨x.toNat, x.isLt, h⟩
  · intro ⟨n, below, h⟩
    refine ⟨BitVec.ofNat width n, ?_⟩
    rwa [BitVec.toNat_ofNat, Nat.mod_eq_of_lt below]

theorem integer_lt {n : Nat} (h : (Value.integer n).Sound) : n < 2 ^ 63 := by
  cases h with
  | integer least greatest =>
    unfold Toml.Number.maxInteger at greatest
    omega

theorem unsigned_iff (h : v.Sound) :
    (∃ x : BitVec 64, v = .integer x.toNat) ↔ ∃ n : Nat, v = .integer n := by
  rw [exists_toNat_iff (P := fun n => v = .integer n)]
  refine exists_congr fun n => and_iff_right_of_imp fun same => ?_
  exact Nat.lt_trans (integer_lt (same ▸ h)) (by decide)

theorem written_lt {register bit : Nat} (h : v.Sound) (written : ClockBit.Written register bit v) :
    register < 2 ^ 63 := by
  cases written with
  | table known first second => exact integer_lt ((Entries.sound_table.1 h).each _ first)
  | array rest =>
    cases h with
    | array each => exact integer_lt (each _ List.mem_cons_self)

theorem clock_iff (h : v.Sound) :
    (∃ clock, ClockGiven clock v) ↔
      ∃ register bit : Nat, bit < 256 ∧ ClockBit.Written register bit v := by
  constructor
  · intro ⟨_, bit, _, written⟩
    exact ⟨bit.register.toNat, bit.bit.toNat, bit.bit.isLt, written⟩
  · intro ⟨register, bit, below, written⟩
    have bound : register < 2 ^ 64 := Nat.lt_trans (written_lt h written) (by decide)
    refine ⟨_, ⟨BitVec.ofNat 64 register, BitVec.ofNat 8 bit⟩, rfl, ?_⟩
    rwa [BitVec.toNat_ofNat, BitVec.toNat_ofNat, Nat.mod_eq_of_lt bound, Nat.mod_eq_of_lt below]

theorem readable_iff (h : t.Sound) : Readable t ↔ ∃ c : Config, c.GivenBy t := by
  -- The numbers of a table fit their fields, but for the polls and the clock bit, whose bounds have
  -- to be asked for.
  constructor
  · intro readable
    obtain ⟨base, hasBase⟩ : ∃ base : BitVec 64,
        t.Stated "base_address" (· = .integer base.toNat) (base = 0x03050000) :=
      Entries.exists_stated fun v mem => (unsigned_iff (h.each _ mem)).2 (readable.base v mem)
    obtain ⟨window, hasWindow⟩ : ∃ window : BitVec 64,
        t.Stated "window_size" (· = .integer window.toNat) (window = 0x1000) :=
      Entries.exists_stated fun v mem => (unsigned_iff (h.each _ mem)).2 (readable.window v mem)
    obtain ⟨programming, hasProgramming⟩ : ∃ programming : Bool,
        t.Stated "programming_enabled" (· = .boolean programming) (programming = false) :=
      Entries.exists_stated readable.programming
    obtain ⟨polls, hasPolls⟩ : ∃ polls : Word,
        t.Stated "ready_poll_limit" (· = .integer polls.toNat) (polls = 100000) :=
      Entries.exists_stated fun v mem => exists_toNat_iff.2 (readable.polls v mem)
    obtain ⟨clock, hasClock⟩ : ∃ clock, t.Stated "clock" (ClockGiven clock) (clock = none) :=
      Entries.exists_stated fun v mem => (clock_iff (h.each _ mem)).2 (readable.clock v mem)
    exact ⟨⟨base, window, programming, polls, clock⟩, readable.known, hasBase, hasWindow, hasProgramming,
      hasPolls, hasClock⟩
  · intro ⟨c, given⟩
    constructor
    case known => exact given.known
    case base => exact fun v mem => ⟨_, given.base.of_mem h.distinct mem⟩
    case window => exact fun v mem => ⟨_, given.window.of_mem h.distinct mem⟩
    case programming => exact fun v mem => ⟨_, given.programming.of_mem h.distinct mem⟩
    case polls => exact fun v mem => ⟨_, c.pollLimit.isLt, given.polls.of_mem h.distinct mem⟩
    case clock =>
      exact fun v mem => (clock_iff (h.each _ mem)).1 ⟨_, given.clock.of_mem h.distinct mem⟩

def Flaw.order : List Flaw :=
  [.windowTooSmall, .baseMisaligned, .noPolls, .clockBitTooHigh, .clockMisaligned]

theorem Flaw.mem_order (flaw : Flaw) : flaw ∈ order := by
  cases flaw <;> decide

/-- The window has to hold all the registers, addresses are multiples of four, one poll is the least, and
a clock register has 32 bits. -/
def Breaks (c : Config) : Flaw → Prop
  | .windowTooSmall => c.windowSize.toNat < 0x200
  | .baseMisaligned => ¬ 4 ∣ c.baseAddress.toNat
  | .noPolls => c.pollLimit = 0
  | .clockBitTooHigh => ∃ clock ∈ c.clock, 32 ≤ clock.bit.toNat
  | .clockMisaligned => ∃ clock ∈ c.clock, ¬ 4 ∣ clock.register.toNat

instance (c : Config) : DecidablePred c.Breaks
  | .windowTooSmall => inferInstanceAs (Decidable (_ < _))
  | .baseMisaligned => inferInstanceAs (Decidable (¬ _))
  | .noPolls => inferInstanceAs (Decidable (_ = _))
  | .clockBitTooHigh => inferInstanceAs (Decidable (∃ clock ∈ c.clock, 32 ≤ clock.bit.toNat))
  | .clockMisaligned => inferInstanceAs (Decidable (∃ clock ∈ c.clock, ¬ 4 ∣ clock.register.toNat))

theorem find?_breaks_cons (c : Config) (flaw : Flaw) (rest : List Flaw) :
    (flaw :: rest).find? (c.Breaks ·) =
      if c.Breaks flaw then some flaw else rest.find? (c.Breaks ·) := by
  by_cases broken : c.Breaks flaw <;> simp [broken]

theorem check_eq_find? (c : Config) : c.check = Flaw.order.find? (c.Breaks ·) := by
  have registers : Offset.shadowEnd = 0x200 := rfl
  simp only [Flaw.order, find?_breaks_cons c, List.find?_nil]
  simp only [check, Breaks, Nat.dvd_iff_mod_eq_zero, registers]
  -- the last two rules are about the clock, and nothing is left of them where there is none
  obtain ⟨base, window, programming, polls, clock⟩ := c
  cases clock with
  | none => simp [checkClock]
  | some clock => simp [checkClock]

theorem check_eq_none_iff_not_breaks : c.check = none ↔ ∀ flaw, ¬ c.Breaks flaw := by
  rw [check_eq_find?, List.find?_eq_none]
  simp [Flaw.mem_order]

theorem ofEntries_perm (h : t.Sound) (order : t'.Perm t) : ofEntries t' = ofEntries t := by
  have keys : (t'.any fun e => e.1 ∉ fieldNames) = t.any fun e => e.1 ∉ fieldNames := order.any_eq
  have same : decode? t' = decode? t := by
    unfold decode?
    simp only [field?, Entries.lookup_perm h.distinct order, keys]
  unfold ofEntries
  rw [same]

theorem ofEntries_eq_ok_iff (h : t.Sound) :
    ofEntries t = .ok c ↔ c.GivenBy t ∧ ∀ flaw, ¬ c.Breaks flaw := by
  rw [← decode?_eq_some_iff h, ← check_eq_none_iff_not_breaks]
  unfold ofEntries
  cases decode? t with
  | none => simp
  | some c' => cases faulty : c'.check <;> grind

theorem ofEntries_eq_malformed_iff (h : t.Sound) :
    ofEntries t = .error .malformed ↔ ¬ Readable t := by
  rw [readable_iff h]
  simp only [← decode?_eq_some_iff h]
  unfold ofEntries
  cases decode? t with
  | none => simp
  | some c => cases faulty : c.check <;> simp [faulty]

theorem ofEntries_eq_invalid_iff (h : t.Sound) {flaw : Flaw} :
    ofEntries t = .error (.invalid flaw) ↔
      ∃ c : Config, c.GivenBy t ∧ Flaw.order.find? (c.Breaks ·) = some flaw := by
  simp only [← decode?_eq_some_iff h, ← check_eq_find?]
  unfold ofEntries
  cases decode? t with
  | none => simp
  | some c => cases faulty : c.check <;> simp [faulty]

end Config

open Config in
/-- A text that is no document is refused, and what becomes of a document is decided by its table, where the
order of the entries does not matter. The table is taken for a configuration exactly if it can be read and
the configuration that it gives breaks no rule; it is refused as malformed if it cannot be read, and
otherwise for the first rule that is broken. No configuration allows programming unless its table says so. -/
theorem documents_accepted_exactly :
    (∀ text, Toml.Document.parse text = none → ofText text = .error .malformed) ∧
    (∀ text t, Toml.Document.parse text = some t → t.Sound ∧ ofText text = ofEntries t) ∧
    ∀ t : Entries, t.Sound →
      (Readable t ↔ ∃ c : Config, c.GivenBy t) ∧
      (∀ c, ofEntries t = .ok c ↔ c.GivenBy t ∧ ∀ flaw, ¬ c.Breaks flaw) ∧
      (ofEntries t = .error .malformed ↔ ¬ Readable t) ∧
      (∀ flaw, ofEntries t = .error (.invalid flaw) ↔
        ∃ c : Config, c.GivenBy t ∧ Flaw.order.find? (c.Breaks ·) = some flaw) ∧
      (∀ c, ofEntries t = .ok c → c.programmingEnabled = true →
        ("programming_enabled", .boolean true) ∈ t) ∧
      ∀ t', t'.Perm t → ofEntries t' = ofEntries t := by
  refine ⟨fun text unparsed => ?_, fun text t parsed => ?_, fun t sound => ?_⟩
  · unfold ofText
    rw [unparsed]
  · refine ⟨Toml.Document.parse_sound parsed, ?_⟩
    unfold ofText
    rw [parsed]
  · refine ⟨readable_iff sound, fun c => ofEntries_eq_ok_iff sound, ofEntries_eq_malformed_iff sound,
      fun flaw => ofEntries_eq_invalid_iff sound, fun c taken enabled => ?_, fun t' => ofEntries_perm sound⟩
    obtain ⟨given, -⟩ := (ofEntries_eq_ok_iff sound).1 taken
    obtain ⟨v, mem, rfl⟩ | ⟨-, disabled⟩ := given.programming
    · rwa [enabled] at mem
    · exact absurd (enabled.symm.trans disabled) nofun

open Config in
theorem documents_accepted_exactly_orders :
    let polled (limit : Int) : Entries := [("ready_poll_limit", .integer limit), ("base_address", .integer 2)]
    let refusal : LoadError := .invalid .baseMisaligned
    ofText "clock = [4, 3, 0]" = .ok { clock := some ⟨4, 3⟩ } ∧
    (ofEntries (polled 0) = .error refusal ∧
      refusal.message = "invalid configuration: base_address must be word aligned") ∧
    ofEntries (polled (-1)) = .error .malformed := by
  -- An array for the clock may go on. Of two broken rules the one for the base address comes first,
  -- and before both of them a number that is none of the field's.
  intro polled refusal
  obtain ⟨-, documents, tables⟩ := documents_accepted_exactly
  have sound {limit : Int} (least : Toml.Number.minInteger ≤ limit)
      (greatest : limit ≤ Toml.Number.maxInteger) : (polled limit).Sound := by
    refine ⟨by simp [polled], List.forall_mem_cons.2 ⟨?_, List.forall_mem_singleton.2 ?_⟩⟩
    · exact .integer least greatest
    · exact .integer (by decide) (by decide)
  refine ⟨?_, ?_, ?_⟩
  · have found : (Toml.Document.parse "clock = [4, 3, 0]").bind decode? = some { clock := some ⟨4, 3⟩ } := by
      decide +kernel
    obtain ⟨t, parsed, decoded⟩ := Option.bind_eq_some_iff.1 found
    obtain ⟨sound, becomes⟩ := documents _ _ parsed
    obtain ⟨-, accepted, -⟩ := tables _ sound
    rw [becomes, accepted]
    refine ⟨(decode?_eq_some_iff sound).1 decoded, fun flaw => ?_⟩
    cases flaw <;> decide
  · obtain ⟨-, -, -, refused, -⟩ := tables (polled 0) (sound (by decide) (by decide))
    refine ⟨(refused _).2 ⟨{ baseAddress := 2, pollLimit := 0 }, ?_, by decide⟩, by decide⟩
    exact {
      known := by simp [polled]
      base := .inl ⟨_, by simp [polled], rfl⟩
      window := .inr ⟨by simp [polled], rfl⟩
      programming := .inr ⟨by simp [polled], rfl⟩
      polls := .inl ⟨_, by simp [polled], rfl⟩
      clock := .inr ⟨by simp [polled], rfl⟩ }
  · obtain ⟨-, -, malformed, -⟩ := tables (polled (-1)) (sound (by decide) (by decide))
    refine malformed.2 fun readable => ?_
    obtain ⟨n, -, negative⟩ := readable.polls (.integer (-1)) (by simp [polled])
    have equal : -1 = (n : Int) := Value.integer.inj negative
    omega

end FuseBank
