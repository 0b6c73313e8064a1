import Mathlib.Data.Set.Function
import FuseBank.Proofs.RawTraffic

/-!
Which row a command selects. A program command takes the address register apart by its fields
(`programs_iff`), a read command by its remainder (`senses_iff`); they find the same row in any address.
The controller composes one address for a pulse and another for the reads around it, and both select the
row that is meant. Each fuse has a twelve-bit address of its own (`compose_bijOn`).
-/

namespace FuseBank

namespace Row

theorem setWidth_toBit (row : Row) : row.toBit.setWidth 32 = BitVec.ofNat 32 row.index := by
  cases row <;> rfl

theorem index_inj {row row' : Row} (h : row.index = row'.index) : row = row' := by
  rw [← row.ofBit_toBit, ← row'.ofBit_toBit]
  refine congrArg ofBit (BitVec.eq_of_toNat_eq ?_)
  rw [row.toNat_toBit, row'.toNat_toBit, h]

end Row

namespace Address

theorem compose_eq (word bit : Word) (row : Row) : compose word bit row =
    ((bit &&& 31) <<< 7) ||| ((word &&& 63) <<< 1) ||| BitVec.ofNat 32 row.index := by
  have bits : bit &&& 31 = (bit.setWidth 5).setWidth 32 := bit.and_low (n := 5) (by decide)
  have words : word &&& 63 = (word.setWidth 6).setWidth 32 := word.and_low (n := 6) (by decide)
  rw [bits, words, ← row.setWidth_toBit]
  exact BitVec.setWidth_append_append_eq_shiftLeft_setWidth_or

theorem compose_toNat (word bit : Word) (row : Row) : (compose word bit row).toNat =
    128 * (bit.toNat % 32) + 2 * (word.toNat % 64) + row.index := by
  have small := row.index_lt
  have words : (word.setWidth 6).toNat < 2 ^ 6 := (word.setWidth 6).isLt
  unfold compose
  rw [BitVec.toNat_setWidth, BitVec.toNat_append, BitVec.toNat_append, row.toNat_toBit,
    ← Nat.shiftLeft_add_eq_or_of_lt words, ← Nat.shiftLeft_add_eq_or_of_lt small, Nat.shiftLeft_eq,
    Nat.shiftLeft_eq, BitVec.toNat_setWidth, BitVec.toNat_setWidth]
  omega

theorem compose_lt (word bit : Word) (row : Row) : (compose word bit row).toNat < 4096 := by
  have small := row.index_lt
  rw [compose_toNat]
  omega

theorem compose_fields (a : Word) :
    (compose ((fields a).word.setWidth 32) ((fields a).bit.setWidth 32) (fields a).row).toNat =
      a.toNat % 4096 := by
  rw [compose_toNat]
  simp only [fields, Row.index_ofBit, BitVec.toNat_setWidth, BitVec.extractLsb'_toNat,
    Nat.shiftRight_eq_div_pow]
  omega

theorem compose_bijOn : Set.BijOn (fun f : Word × Word × Row => compose f.1 f.2.1 f.2.2)
    {f | f.1.toNat < 64 ∧ f.2.1.toNat < 32} {a | a.toNat < 4096} := by
  refine ⟨?mapsTo, ?injOn, ?surjOn⟩
  case mapsTo =>
    rintro ⟨word, bit, row⟩ -
    exact compose_lt word bit row
  case injOn =>
    rintro ⟨word, bit, row⟩ ⟨inWord, inBit⟩ ⟨word', bit', row'⟩ ⟨inWord', inBit'⟩ same
    have numbers := congrArg BitVec.toNat same
    dsimp only at inWord inBit inWord' inBit' numbers
    have small := row.index_lt
    have small' := row'.index_lt
    rw [compose_toNat, compose_toNat] at numbers
    obtain rfl : word = word' := BitVec.eq_of_toNat_eq (by omega)
    obtain rfl : bit = bit' := BitVec.eq_of_toNat_eq (by omega)
    obtain rfl : row = row' := Row.index_inj (by omega)
    rfl
  case surjOn =>
    intro a small
    refine ⟨⟨(fields a).word.setWidth 32, (fields a).bit.setWidth 32, (fields a).row⟩, ⟨?_, ?_⟩, ?_⟩
    · exact (BitVec.toNat_setWidth_of_le (by decide)).trans_lt (fields a).word.isLt
    · exact (BitVec.toNat_setWidth_of_le (by decide)).trans_lt (fields a).bit.isLt
    · exact BitVec.eq_of_toNat_eq ((compose_fields a).trans (Nat.mod_eq_of_lt small))

theorem rowIndex_eq_readRow (a : Word) : (fields a).rowIndex = readRow a :=
  Fin.ext (rowIndex_fields a)

theorem mask_ne_zero (a : Word) : (fields a).mask ≠ 0 := by
  intro clear
  have named := (mask_fields a _).2 rfl
  rw [clear, BitVec.ofNat_eq_ofNat, BitVec.getLsbD_zero] at named
  exact Bool.false_ne_true named

end Address

theorem Mode.pulses_command : Mode.Pulses (Mode.program ||| Mode.execute) := by decide

namespace ReadMode

/-- A command word that reads a row in this mode: a refresh, a power-down or a pulse in it would come
first, and an array read before a margin read. -/
def AskedBy (mode : ReadMode) (v : Word) : Prop :=
  v &&& Mode.execute ≠ 0 ∧ v &&& Mode.refresh = 0 ∧ v &&& Mode.powerDown = 0 ∧ v &&& Mode.program = 0 ∧
    match mode with
    | array => v &&& Mode.arrayRead ≠ 0
    | margin => v &&& Mode.arrayRead = 0 ∧ v &&& Mode.marginRead ≠ 0

instance : ∀ (mode : ReadMode) (v : Word), Decidable (mode.AskedBy v)
  | array, _ | margin, _ => inferInstanceAs (Decidable (_ ∧ _))

theorem askedBy_command (mode : ReadMode) : mode.AskedBy mode.command := by
  cases mode with
  | array => decide
  | margin => decide

end ReadMode

namespace FuseMacro

theorem command_of_pulses {v : Word} (pulses : Mode.Pulses v) (m : FuseMacro) :
    (m.command v).1 = ({ m with busyRemaining := m.busyPolls } : FuseMacro).pulse.1 := by
  obtain ⟨refreshes, -⟩ | ⟨-, state⟩ | ⟨-, quiet, -⟩ := command_decode m v
  · exact absurd pulses.2.2.1 refreshes.2
  · exact state
  · exact absurd pulses quiet

theorem command_of_askedBy {mode : ReadMode} {v : Word} (asked : mode.AskedBy v) (m : FuseMacro) :
    (m.command v).1 = { m with
      busyRemaining := m.busyPolls
      readData := if m.powered then m.sensed (Address.readRow m.address) mode else 0 } := by
  obtain ⟨executes, unrefreshed, up, unpulsed, reads⟩ := asked
  simp only [command, executes, unrefreshed, up, unpulsed, ne_eq, not_true_eq_false,
    not_false_eq_true, decide_true, decide_false, Bool.not_true, Bool.false_eq_true, if_false]
  cases mode with
  | array =>
    rw [if_pos (decide_eq_true reads)]
    rfl
  | margin =>
    obtain ⟨other, reads⟩ := reads
    rw [if_neg (by simp [other]), if_pos (decide_eq_true reads)]
    rfl

def commanded (m : FuseMacro) (address v : Word) : FuseMacro :=
  (bus.write Offset.mode v (bus.write Offset.address address m).state).state

theorem commanded_eq (m : FuseMacro) (address v : Word) :
    m.commanded address v = (({ m with address := address } : FuseMacro).command v).1 := rfl

end FuseMacro

namespace Address
open FuseMacro

/-- Every program command, sent to this address, is a pulse on the bits `mask` of row `i`: it sets those
of them that are not stuck, if there is power, and is recorded in any case. -/
def Programs (address : Word) (i : Fin 128) (mask : Word) : Prop :=
  ∀ (m : FuseMacro) (v : Word), Mode.Pulses v → m.commanded address v = { m with
    address := address, busyRemaining := m.busyPolls
    pulses := m.pulses ++ [address &&& 0xfff]
    rows := m.rows.put i (m.rows.get i ||| if m.powered then mask &&& ~~~m.stuck.get i else 0) }

/-- Every read command, sent to this address, fetches row `i`, or nothing if there is no power. -/
def Senses (address : Word) (i : Fin 128) : Prop :=
  ∀ (m : FuseMacro) (mode : ReadMode) (v : Word), mode.AskedBy v → m.commanded address v = { m with
    address := address, busyRemaining := m.busyPolls
    readData := if m.powered then m.sensed i mode else 0 }

theorem programs_fields (address : Word) :
    Programs address (fields address).rowIndex (fields address).mask := by
  intro m v pulses
  rw [commanded_eq, command_of_pulses pulses, pulse_eq]

theorem senses_readRow (address : Word) : Senses address (readRow address) := by
  intro m mode v asked
  rw [commanded_eq, command_of_askedBy asked]
  cases mode <;> rfl

variable {address mask mask' : Word} {i i' : Fin 128}

theorem Programs.rows_blank (h : Programs address i mask) (j : Fin 128) :
    (blank.commanded address (Mode.program ||| Mode.execute)).rows.get j = if i = j then mask else 0 := by
  have clear : ∀ j, blank.rows.get j = 0 := Rows.get_replicate
  have free : ∀ j, blank.stuck.get j = 0 := Rows.get_replicate
  have burnt : (0 : Word) ||| (mask &&& ~~~0) = mask := by
    change 0#32 ||| (mask &&& ~~~0#32) = mask
    rw [BitVec.not_zero, BitVec.and_allOnes, BitVec.zero_or]
  have powered : blank.powered = true := rfl
  rw [h blank _ Mode.pulses_command]
  dsimp only
  rw [Rows.get_put, clear, clear, free, if_pos powered, burnt]

theorem Programs.unique (h : Programs address i mask) (h' : Programs address i' mask')
    (nonzero : mask' ≠ 0) : i = i' ∧ mask = mask' := by
  have shown := (h.rows_blank i').symm.trans (h'.rows_blank i')
  rw [if_pos rfl] at shown
  by_cases same : i = i'
  · rw [if_pos same] at shown
    exact ⟨same, shown⟩
  · rw [if_neg same] at shown
    exact absurd shown.symm nonzero

theorem Senses.unique (h : Senses address i) (h' : Senses address i') : i = i' := by
  let m : FuseMacro := { blank with rows := blank.rows.put i 1 }
  have asked := ReadMode.askedBy_command .array
  have shown : m.rows.get i = m.rows.get i' :=
    congrArg readData ((h m .array _ asked).symm.trans (h' m .array _ asked))
  have clear : blank.rows.get i' = 0 := Rows.get_replicate i'
  dsimp only [m] at shown
  rw [Rows.get_put_self, Rows.get_put, clear] at shown
  by_contra other
  rw [if_neg other] at shown
  exact absurd shown (by decide)

theorem programs_iff : Programs address i mask ↔
    i = (fields address).rowIndex ∧ mask = (fields address).mask := by
  constructor
  · intro h
    exact h.unique (programs_fields address) (mask_ne_zero address)
  · rintro ⟨rfl, rfl⟩
    exact programs_fields address

theorem senses_iff : Senses address i ↔ i = readRow address := by
  constructor
  · intro h
    exact h.unique (senses_readRow address)
  · rintro rfl
    exact senses_readRow address

end Address

/-- The address composed for a fuse holds the low bits of its bit, word and row numbers side by side, in
twelve bits. A program command sent there is a pulse on this one bit of the row that both reads fetch at
the row's own index. Fuses in range have different addresses, and these are all addresses of twelve bits.
Whatever the address register holds, program and read commands select the same of the 128 rows. -/
theorem addresses_select_alike (word bit : Word) (row : Row) :
    let composed := Address.compose word bit row
    let index := Address.physicalWord word row
    (composed = ((bit &&& 31) <<< 7) ||| ((word &&& 63) <<< 1) ||| BitVec.ofNat 32 row.index ∧
      composed.toNat < 4096) ∧
    (∃ i : Fin 128, i.val = index.toNat ∧
      (∀ j mask, Address.Programs composed j mask ↔ j = i ∧ mask = 1#32 <<< (bit &&& 31)) ∧
      ∀ j, Address.Senses index j ↔ j = i) ∧
    Set.BijOn (fun f : Word × Word × Row => Address.compose f.1 f.2.1 f.2.2)
      {f | f.1.toNat < 64 ∧ f.2.1.toNat < 32} {a | a.toNat < 4096} ∧
    ∀ address : Word, ∃ i : Fin 128, i.val = address.toNat % 128 ∧
      (∀ j mask, Address.Programs address j mask ↔
        j = i ∧ mask = 1#32 <<< (address.toNat / 128 % 32)) ∧
      ∀ j, Address.Senses address j ↔ j = i := by
  intro composed index
  refine ⟨⟨Address.compose_eq word bit row, Address.compose_lt word bit row⟩, ?_,
    Address.compose_bijOn, fun address => ?_⟩
  · have shift : (bit &&& 31).toNat = bit.toNat % 32 := by
      rw [BitVec.toNat_and]
      exact Nat.and_two_pow_sub_one_eq_mod bit.toNat 5
    have mask : (Address.fields composed).mask = 1#32 <<< (bit &&& 31) := by
      rw [Address.mask_compose, ← shift]
      rfl
    refine ⟨Address.rowOf word row, (Address.physicalWord_toNat word row).symm, fun j m => ?_,
      fun j => ?_⟩
    · rw [Address.programs_iff, Address.rowIndex_compose, mask]
    · rw [Address.senses_iff, Address.readRow_physicalWord]
  · refine ⟨Address.readRow address, rfl, fun j m => ?_, fun j => Address.senses_iff⟩
    rw [Address.programs_iff, Address.rowIndex_eq_readRow, Address.mask_eq]

theorem addresses_select_alike_wrapped :
    let composed := Address.compose 69 35 .high
    let index := Address.physicalWord 69 .high
    let pulsed := FuseMacro.blank.commanded composed 0x17
    (composed.toNat, index.toNat) = (395, 11) ∧ pulsed.pulses = [composed] ∧
    (pulsed.commanded index 0x12).readData = 0x8 ∧
    (pulsed.commanded (index + 128) 0x11).readData = 0x8 := by
  -- Word 69 and bit 35 are taken for word 5 and bit 3. The command that sends the pulse also asks
  -- for reads, in vain. Each read sees the pulse, one of them through an address that is no row's
  -- index.
  intro composed index pulsed
  obtain ⟨-, ⟨i, place, programs, senses⟩, -, any⟩ := addresses_select_alike 69 35 .high
  obtain ⟨j, place', -, senses'⟩ := any (index + 128)
  obtain rfl : i = 11 := Fin.ext (place.trans (by decide))
  obtain rfl : j = 11 := Fin.ext (place'.trans (by decide))
  have burnt := (programs 11 _).2 ⟨rfl, rfl⟩ FuseMacro.blank 0x17 (by decide)
  have margin := congrArg FuseMacro.readData ((senses 11).2 rfl pulsed .margin 0x12 (by decide))
  have array := congrArg FuseMacro.readData ((senses' 11).2 rfl pulsed .array 0x11 (by decide))
  refine ⟨by decide, congrArg FuseMacro.pulses burnt, margin.trans ?_, array.trans ?_⟩
  · decide +kernel
  · decide +kernel

end FuseBank
