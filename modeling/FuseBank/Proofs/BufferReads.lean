import FuseBank.Emulation.RegisterFile
import FuseBank.Proofs.FailedCalls
import FuseBank.Proofs.ShadowReads
import FuseBank.Proofs.WriteSequence

/-!
Reads of a range into a buffer, on any bus. The checks come first and look at the address and at the last
word of the range, which is enough for every byte of it (`misplaced_iff`). A range that passes them is
read word by word under the clock, and the buffer holds the bytes of the values in the order in which
they were read (`buffers_filled_in_order`).
-/

namespace FuseBank
open Routine Operation

variable {σ α : Type} {hw : Hardware σ} {s : σ}

def Bus.ShowsShadow (bus : Bus σ) : Prop :=
  ∀ (i : Fin 64) (s : σ), ∃ v, (bus.read (Offset.shadow + 4 * i.val) s).result = .ok v

/-- The run comes back with `a` and has sent `es`. -/
def Run.Ends (r : Run σ α) (a : α) (es : List Event) : Prop := r.result = .ok a ∧ r.traffic = es

theorem Run.Ends.of_unaided {p : Routine α} {a : α} (h : p.unaided? = some a) : (run hw p s).Ends a [] := by
  obtain ⟨returned, silent, -⟩ := run_of_unaided hw s h
  exact ⟨returned, silent⟩

def readsFrom (offset : Nat) (values : List Word) : List Event :=
  values.mapIdx fun i v => .read (offset + 4 * i) v

theorem readsFrom_cons (offset : Nat) (v : Word) (vs : List Word) :
    readsFrom offset (v :: vs) = .read offset v :: readsFrom (offset + 4) vs := by
  have later (i : Nat) : offset + 4 * (i + 1) = offset + 4 + 4 * i := by omega
  simp only [readsFrom, List.mapIdx_cons, Nat.mul_zero, Nat.add_zero, later]

namespace Controller

theorem readWords_traces (shown : hw.bus.ShowsShadow) {i count : Nat} (inside : i + count ≤ 64) :
    ∃ values t, values.length = count ∧ Traces hw (readWords (Offset.shadow + 4 * i) count) s values
      (readsFrom (Offset.shadow + 4 * i) values) t := by
  induction count generalizing i s with
  | zero => exact ⟨[], s, rfl, traces_done [] s⟩
  | succ count ih =>
    have next : Offset.shadow + 4 * i + 4 = Offset.shadow + 4 * (i + 1) := by omega
    obtain ⟨v, answer⟩ := shown ⟨i, by omega⟩ s
    obtain ⟨vs, t, length, rest⟩ :=
      ih (i := i + 1) (s := (hw.bus.read (Offset.shadow + 4 * i) s).state) (by omega)
    refine ⟨v :: vs, t, congrArg Nat.succ length, ?_⟩
    rw [readsFrom_cons, next]
    have onward : Traces hw (readWords (Offset.shadow + 4 * i + 4) count >>= fun vs => done (v :: vs))
        (hw.bus.read (Offset.shadow + 4 * i) s).state (v :: vs)
        (readsFrom (Offset.shadow + 4 * (i + 1)) vs) t := by
      rw [next, ← List.append_nil (readsFrom _ vs)]
      exact rest.bind (traces_done (v :: vs) t)
    exact traces_read answer onward

theorem withClock_refused {e : DeviceError} (refused : (hw.gate.enable s).result = .ok (.error e))
    (body : Operation α) :
    Traces hw (withClock body).run s (.error e) [.refused e] (hw.gate.enable s).state := by
  have answered : ∃ earlier, earlier.filter Event.isTraffic = [.refused e] ∧
      run hw (withClock body).run s = (run hw (do
        Routine.note .error .clockScope s!"eFUSE clock failed to enable: {e.message}"
        return .error e) (hw.gate.enable s).state).after earlier := run_enable_ok refused _
  obtain ⟨earlier, sent, goesOn⟩ := answered
  have noted : Traces hw (Routine.note .error .clockScope s!"eFUSE clock failed to enable: {e.message}")
      (hw.gate.enable s).state () [] (hw.gate.enable s).state := traces_note _ _ _ _
  have inTurn := (noted.bind (traces_done (Except.error e) _)).prepend goesOn
  rw [sent] at inTurn
  exact inTurn

section Ranges

variable (addr : Word) (buffer : List Byte)

def lastWord (addr : Word) (count : Nat) : Nat := addr.toNat + (count - 1) / 4 * 4

/-- The range is misaligned, or one of its bytes lies outside the fuse space. -/
def Misplaced (addr : Word) (count : Nat) : Prop :=
  addr.toNat % 4 ≠ 0 ∨ ∃ k < count, fuseBytes ≤ addr.toNat + k

theorem misplaced_iff {count : Nat} (some_bytes : 0 < count) :
    Misplaced addr count ↔ ¬ (ValidAddress addr ∧ lastWord addr count < fuseBytes) := by
  -- Words are aligned and the fuse space ends with one, so its last word says where a range ends.
  unfold Misplaced ValidAddress lastWord fuseBytes
  constructor
  · rintro (misaligned | ⟨k, below, outside⟩) ⟨⟨start, aligned⟩, inside⟩
    · exact misaligned aligned
    · omega
  · intro out
    by_cases aligned : addr.toNat % 4 = 0
    · exact .inr ⟨count - 1, by omega, by omega⟩
    · exact .inl aligned

def cleared (buffer : List Byte) : List Byte :=
  List.replicate (min buffer.length fuseBytes) 0 ++ buffer.drop (min buffer.length fuseBytes)

variable {addr buffer}

theorem readBuffer_empty (nothing : min buffer.length fuseBytes = 0) :
    (readBuffer addr buffer).unaided? = some (.ok 0, buffer) := by
  unfold readBuffer
  dsimp only
  rw [if_pos nothing]
  rfl

theorem readBuffer_invalid (some_bytes : 0 < min buffer.length fuseBytes)
    (invalid : ¬ ValidAddress addr) :
    (readBuffer addr buffer).unaided? = some (.error (.badAddress addr), cleared buffer) := by
  unfold readBuffer
  dsimp only
  rw [if_neg (Nat.ne_of_gt some_bytes), if_pos invalid]
  rfl

theorem readBuffer_past (some_bytes : 0 < min buffer.length fuseBytes) (valid : ValidAddress addr)
    (past : fuseBytes ≤ lastWord addr (min buffer.length fuseBytes)) :
    (readBuffer addr buffer).unaided? = some
      (.error (.badAddress (BitVec.ofNat 32 (lastWord addr (min buffer.length fuseBytes)))),
        cleared buffer) := by
  have is_past : addr.toNat + (min buffer.length fuseBytes - 1) / 4 * 4 ≥ fuseBytes := past
  unfold readBuffer
  dsimp only
  rw [if_neg (Nat.ne_of_gt some_bytes), if_neg (fun invalid => invalid valid), if_pos is_past]
  rfl

/-- What a read of words comes to, and what it leaves of the buffer. -/
def filled (buffer : List Byte) : Except DeviceError (List Word) → Except DeviceError Nat × List Byte
  | .error e => (.error e, cleared buffer)
  | .ok words =>
    (.ok (min buffer.length fuseBytes), (words.flatMap Word.toBytes).take (min buffer.length fuseBytes) ++
      buffer.drop (min buffer.length fuseBytes))

def clockedWords (addr : Word) (count : Nat) : Operation (List Word) :=
  withClock (readWords (Offset.shadow + addr.toNat) ((count + 3) / 4))

theorem readBuffer_eq (some_bytes : 0 < min buffer.length fuseBytes) (valid : ValidAddress addr)
    (inside : lastWord addr (min buffer.length fuseBytes) < fuseBytes) : readBuffer addr buffer =
      ((clockedWords addr (min buffer.length fuseBytes)).run >>= fun outcome =>
        done (filled buffer outcome)) := by
  have not_past : ¬ addr.toNat + (min buffer.length fuseBytes - 1) / 4 * 4 ≥ fuseBytes :=
    Nat.not_le.2 inside
  unfold readBuffer
  dsimp only
  rw [if_neg (Nat.ne_of_gt some_bytes), if_neg (fun invalid => invalid valid), if_neg not_past]
  congr 1
  funext outcome
  cases outcome <;> rfl

theorem readBuffer_asks (some_bytes : 0 < min buffer.length fuseBytes) (valid : ValidAddress addr)
    (inside : lastWord addr (min buffer.length fuseBytes) < fuseBytes) :
    (readBuffer addr buffer).unaided? = none := by
  rw [readBuffer_eq some_bytes valid inside, Routine.unaided?_bind]
  rfl

theorem clockedWords_traces (shown : hw.bus.ShowsShadow) {count : Nat} (some_bytes : 0 < count)
    (valid : ValidAddress addr) (inside : lastWord addr count < fuseBytes)
    (on : (hw.gate.enable s).result = .ok (.ok ()))
    (off : (hw.gate.disable (run hw (readWords (Offset.shadow + addr.toNat) ((count + 3) / 4))
      (hw.gate.enable s).state).state).result = .ok ()) :
    ∃ values t, values.length = (count + 3) / 4 ∧ Traces hw (clockedWords addr count).run s (.ok values)
      (.enabled :: readsFrom (Offset.shadow + addr.toNat) values ++ [.disabled]) t := by
  obtain ⟨start, aligned⟩ := valid
  have room : addr.toNat / 4 + (count + 3) / 4 ≤ 64 := by
    unfold lastWord fuseBytes at inside
    omega
  have place : 4 * (addr.toNat / 4) = addr.toNat := by omega
  obtain ⟨values, t, length, read⟩ :=
    readWords_traces (s := (hw.gate.enable s).state) shown room
  rw [place] at read
  rw [read.state] at off
  have closed := (withClock_traces on (traces_lift read)).2 off
  exact ⟨values, _, length, closed⟩

theorem readBuffer_ends (some_bytes : 0 < min buffer.length fuseBytes) (valid : ValidAddress addr)
    (inside : lastWord addr (min buffer.length fuseBytes) < fuseBytes)
    {outcome : Except DeviceError (List Word)} {es : List Event} {t : σ}
    (read : Traces hw (clockedWords addr (min buffer.length fuseBytes)).run s outcome es t) :
    (run hw (readBuffer addr buffer) s).Ends (filled buffer outcome) es := by
  have ended := read.bind (f := fun outcome => done (filled buffer outcome)) (traces_done _ t)
  rw [← readBuffer_eq some_bytes valid inside, List.append_nil] at ended
  exact ⟨ended.result, ended.traffic⟩

end Ranges

end Controller

open Controller

theorem getElem?_page {values : List Word} {count k : Nat} (below : k < count) :
    ((values.flatMap Word.toBytes).take count)[k]? = values[k / 4]?.map fun v => v.byteAt (k % 4) := by
  rw [List.getElem?_take_of_lt below, Word.getElem?_flatMap_toBytes]

theorem length_page {values : List Word} {count : Nat} (enough : values.length = (count + 3) / 4) :
    ((values.flatMap Word.toBytes).take count).length = count := by
  rw [List.length_take, Word.length_flatMap_toBytes, enough]
  omega

/-- A read of a range into a buffer leaves the bytes past the fuse space's size alone. An empty range
needs no address; of a misplaced one the address or the last word is named, before anything is sent, and
nothing else is. Else the clock's refusal is the result, or the words are read in ascending order while it
is on, and fill the buffer with their bytes. -/
theorem buffers_filled_in_order (shown : hw.bus.ShowsShadow) (addr : Word) (buffer : List Byte) (s : σ) :
    let count := min buffer.length fuseBytes
    let last := addr.toNat + (count - 1) / 4 * 4
    let zeroed := List.replicate count 0 ++ buffer.drop count
    let misplaced := addr.toNat % 4 ≠ 0 ∨ ∃ k < count, fuseBytes ≤ addr.toNat + k
    let r := run hw (Device.readBuffer addr buffer) s
    (count = 0 → r.Ends (.ok 0, buffer) []) ∧
    (0 < count → ¬ ValidAddress addr → r.Ends (.error (.badAddress addr), zeroed) []) ∧
    (0 < count → ValidAddress addr → fuseBytes ≤ last →
      r.Ends (.error (.badAddress (BitVec.ofNat 32 last)), zeroed) []) ∧
    (0 < count → ValidAddress addr → last < fuseBytes →
      (∀ e, (hw.gate.enable s).result = .ok (.error e) → r.Ends (.error e, zeroed) [.refused e]) ∧
      ((hw.gate.enable s).result = .ok (.ok ()) →
        (hw.gate.disable (run hw (readWords (Offset.shadow + addr.toNat) ((count + 3) / 4))
          (hw.gate.enable s).state).state).result = .ok () →
        ∃ values page, values.length = (count + 3) / 4 ∧ page.length = count ∧
          (∀ k < count, page[k]? = values[k / 4]?.map fun v => v.byteAt (k % 4)) ∧
          r.Ends (.ok count, page ++ buffer.drop count)
            (.enabled :: readsFrom (Offset.shadow + addr.toNat) values ++ [.disabled]))) ∧
    (0 < count → (misplaced → ∃ a, r.Ends (.error (.badAddress a), zeroed) []) ∧
      ∀ a after, r.result = .ok (.error (.badAddress a), after) →
        misplaced ∨ r.traffic = [.refused (.badAddress a)]) := by
  intro count last zeroed misplaced r
  have invalid_ends (some_bytes : 0 < count) (invalid : ¬ ValidAddress addr) :
      r.Ends (.error (.badAddress addr), zeroed) [] := .of_unaided (readBuffer_invalid some_bytes invalid)
  have past_ends (some_bytes : 0 < count) (valid : ValidAddress addr) (past : fuseBytes ≤ last) :
      r.Ends (.error (.badAddress (BitVec.ofNat 32 last)), zeroed) [] :=
    .of_unaided (readBuffer_past some_bytes valid past)
  refine ⟨fun nothing => .of_unaided (readBuffer_empty nothing), invalid_ends, past_ends,
    fun some_bytes valid inside => ⟨fun e refused => ?_, fun on off => ?_⟩,
    fun some_bytes => ⟨fun outside => ?_, fun a after returned => ?_⟩⟩
  · exact readBuffer_ends some_bytes valid inside (withClock_refused refused _)
  · obtain ⟨values, t, length, read⟩ := clockedWords_traces shown some_bytes valid inside on off
    refine ⟨values, (values.flatMap Word.toBytes).take count, length, length_page length,
      fun k below => getElem?_page below, ?_⟩
    exact readBuffer_ends some_bytes valid inside read
  · have out := (misplaced_iff addr some_bytes).1 outside
    by_cases valid : ValidAddress addr
    · exact ⟨_, past_ends some_bytes valid (Nat.not_lt.1 fun inside => out ⟨valid, inside⟩)⟩
    · exact ⟨_, invalid_ends some_bytes valid⟩
  · by_cases out : misplaced
    · exact .inl out
    · obtain ⟨valid, inside⟩ := Classical.not_not.1 (mt (misplaced_iff addr some_bytes).2 out)
      exact .inr (refused_by_clock (along_readBuffer addr buffer) (refusedFirst_readBuffer addr buffer)
        (fun _ _ => And.left) (readBuffer_asks some_bytes valid inside) returned rfl rfl)

def RegisterFile.lastWords : RegisterFile := { registers := [(0x1f8, 0x44332211), (0x1fc, 0x88776655)] }

theorem buffers_filled_in_order_tail :
    let hw := RegisterFile.hardware
    let lent : List Byte := List.replicate 7 0xaa
    let r := run hw (Device.readBuffer 248 lent) RegisterFile.lastWords
    hw.bus.ShowsShadow ∧
    (∃ values page, values.length = 2 ∧ page.length = 7 ∧
      (∀ k < 7, page[k]? = values[k / 4]?.map fun v => v.byteAt (k % 4)) ∧
      r.Ends (.ok 7, page ++ []) (.enabled :: readsFrom 0x1f8 values ++ [.disabled])) ∧
    r.result = .ok (.ok 7, [0x11, 0x22, 0x33, 0x44, 0x55, 0x66, 0x77]) ∧
    (run hw (Device.readBuffer 252 lent) RegisterFile.lastWords).Ends
      (.error (.badAddress 256), List.replicate 7 0) [] := by
  -- Seven bytes from 248 on end inside the last word. From 252 on they would end past it, and the
  -- word that would be read there is named.
  intro hw lent r
  have shown : hw.bus.ShowsShadow := by
    intro i f
    change ∃ v, (RegisterFile.readRegister _ f).result = .ok v
    unfold RegisterFile.readRegister
    split <;> exact ⟨_, rfl⟩
  obtain ⟨-, -, -, placed, -⟩ := buffers_filled_in_order shown 248 lent RegisterFile.lastWords
  obtain ⟨-, -, past, -⟩ := buffers_filled_in_order shown 252 lent RegisterFile.lastWords
  have count : min lent.length fuseBytes = 7 := by decide
  have nothing : lent.drop 7 = [] := rfl
  have last : BitVec.ofNat 32 ((252 : Word).toNat + (7 - 1) / 4 * 4) = 256 := by decide
  rw [count, nothing] at placed past
  rw [last] at past
  exact ⟨shown, (placed (by decide) (by decide) (by decide)).2 rfl rfl, by decide +kernel,
    past (by decide) (by decide) (by decide)⟩

end FuseBank
