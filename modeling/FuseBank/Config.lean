import FuseBank.Registers

/-!
Where the controller lies, whether fuses may be programmed, how long a command may take, and
which clock bit the controller needs. `Config.check` names the first rule that a configuration
breaks; `Config.Valid` states the rules, and `check_eq_none_iff` ties the two.
-/

namespace FuseBank

structure ClockBit where
  register : BitVec 64
  bit : Byte
deriving DecidableEq

def defaultPollLimit : Word := 100000

structure Config where
  baseAddress : BitVec 64 := defaultBase
  windowSize : BitVec 64 := defaultWindowSize
  /-- Programming cannot be undone, so it is off unless it is asked for. -/
  programmingEnabled : Bool := false
  pollLimit : Word := defaultPollLimit
  /-- The clock to switch on around each operation; without one it runs all the time. -/
  clock : Option ClockBit := none
deriving DecidableEq

namespace Config

/-- The rules, in the order in which they are checked. -/
inductive Flaw where
  | windowTooSmall
  | baseMisaligned
  | noPolls
  | clockBitTooHigh
  | clockMisaligned
deriving DecidableEq

def Flaw.text : Flaw → String
  | windowTooSmall => "window_size does not cover the shadow registers"
  | baseMisaligned => "base_address must be word aligned"
  | noPolls => "ready_poll_limit must be non-zero"
  | clockBitTooHigh => "clock.bit must be below 32"
  | clockMisaligned => "clock.register must be word aligned"

def Flaw.message (f : Flaw) : String := s!"invalid configuration: {f.text}"

def checkClock : Option ClockBit → Option Flaw
  | none => none
  | some clock =>
    if clock.bit.toNat ≥ 32 then some .clockBitTooHigh
    else if clock.register.toNat % 4 ≠ 0 then some .clockMisaligned
    else none

def check (c : Config) : Option Flaw :=
  if c.windowSize.toNat < Offset.shadowEnd then some .windowTooSmall
  else if c.baseAddress.toNat % 4 ≠ 0 then some .baseMisaligned
  else if c.pollLimit = 0 then some .noPolls
  else checkClock c.clock

/-- The window covers every register, both addresses are word aligned, at least one poll is
allowed, and the clock bit lies in its register. -/
structure Valid (c : Config) : Prop where
  window : Offset.shadowEnd ≤ c.windowSize.toNat
  base : c.baseAddress.toNat % 4 = 0
  polls : c.pollLimit ≠ 0
  clock : ∀ clock ∈ c.clock, clock.bit.toNat < 32 ∧ clock.register.toNat % 4 = 0

theorem check_eq_none_iff (c : Config) : c.check = none ↔ c.Valid := by
  constructor
  · intro h
    simp only [check] at h
    split at h
    · cases h
    split at h
    · cases h
    split at h
    · cases h
    rename_i hw hb hp
    refine ⟨by omega, by omega, hp, ?_⟩
    intro clock hc
    rw [Option.mem_def.1 hc] at h
    simp only [checkClock] at h
    split at h
    · cases h
    split at h
    · cases h
    omega
  · intro ⟨hw, hb, hp, hc⟩
    simp only [check, Nat.not_lt.2 hw, hb, hp, if_false, ne_eq, not_true_eq_false]
    cases h : c.clock with
    | none => rfl
    | some clock =>
      have := hc clock h
      simp only [checkClock]
      rw [if_neg (by omega), if_neg (by omega)]

def withProgramming (c : Config) (enabled : Bool) : Config := { c with programmingEnabled := enabled }

end Config

end FuseBank
