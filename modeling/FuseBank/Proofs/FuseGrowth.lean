import FuseBank.Proofs.MacroRuns
import FuseBank.Proofs.Visits

/-!
What any traffic at all can do to the emulated macro. Rows only gain bits, and the shadow registers
show no bit that the rows do not hold; so the shadow registers only gain bits too (`grows_run`).
-/

namespace FuseBank
open Routine

namespace Word

theorem covers_iff {w need : Word} :
    w.Covers need ↔ ∀ i, need.getLsbD i = true → w.getLsbD i = true := by
  constructor
  · intro h i set
    have held : (need &&& w).getLsbD i = true := by rwa [h]
    rw [BitVec.getLsbD_and, Bool.and_eq_true] at held
    exact held.2
  · intro h
    apply BitVec.eq_of_getLsbD_eq
    intro i hi
    rw [BitVec.getLsbD_and]
    cases set : need.getLsbD i with
    | false => rfl
    | true => rw [h i set]; rfl

theorem Covers.refl (w : Word) : w.Covers w := BitVec.and_self

theorem Covers.trans {a b c : Word} (hab : a.Covers b) (hbc : b.Covers c) : a.Covers c := by
  rw [covers_iff] at *
  exact fun i set => hab i (hbc i set)

theorem covers_or (a b : Word) : (a ||| b).Covers a ∧ (a ||| b).Covers b := by
  simp only [covers_iff, BitVec.getLsbD_or, Bool.or_eq_true]
  exact ⟨fun _ => .inl, fun _ => .inr⟩

theorem covers_and (a b : Word) : a.Covers (a &&& b) := by
  simp only [covers_iff, BitVec.getLsbD_and, Bool.and_eq_true]
  exact fun _ => And.left

theorem Covers.or {a a' b b' : Word} (ha : a'.Covers a) (hb : b'.Covers b) :
    (a' ||| b').Covers (a ||| b) := by
  simp only [covers_iff, BitVec.getLsbD_or, Bool.or_eq_true] at *
  exact fun i set => set.imp (ha i) (hb i)

end Word

namespace Rows

theorem low_lt (i : Fin 64) : 2 * i.val < 128 := by omega

theorem high_lt (i : Fin 64) : 2 * i.val + 1 < 128 := by omega

theorem words_get (rows : Rows) (i : Fin 64) :
    rows.words.get i = rows.get ⟨2 * i.val, low_lt i⟩ ||| rows.get ⟨2 * i.val + 1, high_lt i⟩ :=
  Vector.getElem_ofFn i.isLt

end Rows

namespace FuseMacro

variable {m m' : FuseMacro} {hw : Hardware FuseMacro}

theorem pulse_eq (m : FuseMacro) :
    let target := Address.fields m.address
    let row := target.rowIndex
    m.pulse.1 = { m with
      pulses := m.pulses ++ [m.address &&& 0xfff]
      rows := m.rows.put row (m.rows.get row |||
        if m.powered then target.mask &&& ~~~m.stuck.get row else 0) } := by
  intro target row
  unfold pulse
  cases m.powered with
  | true => rfl
  | false =>
    -- without power the pulse is recorded, and nothing is joined into the row
    have kept : m.rows.put row (m.rows.get row ||| 0) = m.rows := by
      change m.rows.put row (m.rows.get row ||| 0#32) = m.rows
      rw [BitVec.or_zero, Rows.put_get]
    rw [if_neg Bool.false_ne_true, if_neg Bool.false_ne_true, kept]

theorem command_cases (m : FuseMacro) (v : Word) :
    (v &&& Mode.refresh ≠ 0 ∧
      (m.command v).1 = { m with busyRemaining := m.busyPolls, shadow := m.rows.words }) ∨
    (v &&& Mode.program ≠ 0 ∧
      (m.command v).1 = ({ m with busyRemaining := m.busyPolls } : FuseMacro).pulse.1) ∨
    ∃ busy data powered,
      (m.command v).1 = { m with busyRemaining := busy, readData := data, powered := powered } := by
  generalize same : m.command v = done
  simp only [command] at same
  split at same
  · subst same
    exact .inr (.inr ⟨_, _, _, rfl⟩)
  split at same
  · subst same
    exact .inl ⟨of_decide_eq_true ‹_›, rfl⟩
  split at same
  · subst same
    exact .inr (.inr ⟨_, _, _, rfl⟩)
  split at same
  · subst same
    exact .inr (.inl ⟨of_decide_eq_true ‹_›, rfl⟩)
  split at same
  · subst same
    exact .inr (.inr ⟨_, _, _, rfl⟩)
  split at same
  · subst same
    exact .inr (.inr ⟨_, _, _, rfl⟩)
  · subst same
    exact .inr (.inr ⟨_, _, _, rfl⟩)

theorem writeRegister_cases (o : Nat) (v : Word) (m : FuseMacro) :
    (o = Offset.mode ∧ (writeRegister o v m).state = (m.command v).1) ∨
    ∃ address oneWay, (writeRegister o v m).state = { m with address := address, oneWay := oneWay } := by
  unfold writeRegister
  split
  · exact .inl ⟨‹_›, rfl⟩
  split
  · exact .inr ⟨_, _, rfl⟩
  split
  · exact .inr ⟨_, _, rfl⟩
  · exact .inr ⟨_, _, rfl⟩

theorem readRegister_cases (o : Nat) (m : FuseMacro) :
    ∃ busy, (readRegister o m).state = { m with busyRemaining := busy } := by
  have status : ∃ busy, m.status.2 = { m with busyRemaining := busy } := by
    unfold status
    split
    · exact ⟨_, rfl⟩
    split
    · exact ⟨_, rfl⟩
    · exact ⟨_, rfl⟩
  unfold readRegister
  split
  · exact ⟨_, rfl⟩
  split
  · exact ⟨_, rfl⟩
  split
  · exact ⟨_, rfl⟩
  split
  · exact status
  split
  · exact ⟨_, rfl⟩
  split
  · split
    · exact ⟨_, rfl⟩
    · exact ⟨_, rfl⟩
  · exact ⟨_, rfl⟩

end FuseMacro

def OnMacro (hw : Hardware FuseMacro) : Prop := hw = FuseMacro.ungated ∨ hw = FuseMacro.hardware

namespace OnMacro

variable {hw : Hardware FuseMacro} (h : OnMacro hw) (m : FuseMacro)
include h

theorem bus_eq : hw.bus = FuseMacro.bus := by
  obtain rfl | rfl := h
  · rfl
  · rfl

theorem enable_state : ∃ enabled count, (hw.gate.enable m).state =
    { m with clock := { m.clock with enabled := enabled, enableCount := count } } := by
  obtain rfl | rfl := h
  · exact ⟨_, _, rfl⟩
  · change ∃ enabled count, (FuseMacro.enableClock m).state = _
    unfold FuseMacro.enableClock
    split
    · exact ⟨_, _, rfl⟩
    dsimp only
    split
    · exact ⟨_, _, rfl⟩
    · exact ⟨_, _, rfl⟩

theorem disable_state : ∃ enabled count, (hw.gate.disable m).state =
    { m with clock := { m.clock with enabled := enabled, disableCount := count } } := by
  obtain rfl | rfl := h
  · exact ⟨_, _, rfl⟩
  · change ∃ enabled count, (FuseMacro.disableClock m).state = _
    unfold FuseMacro.disableClock
    dsimp only
    split
    · exact ⟨_, _, rfl⟩
    · exact ⟨_, _, rfl⟩

theorem relates {R : Option Event → Event → Prop} {Rel : FuseMacro → FuseMacro → Prop}
    (refl : ∀ m, Rel m m) (trans : ∀ m m' m'', Rel m m' → Rel m' m'' → Rel m m'')
    (beside : ∀ (m : FuseMacro) busy enabled enables disables, Rel m { m with
      busyRemaining := busy
      clock := { m.clock with
        enabled := enabled, enableCount := enables, disableCount := disables } })
    (writes : ∀ prev o v m, Answered hw prev → R prev (.write o v) →
      Rel m (FuseMacro.writeRegister o v m).state) : Relates hw R Rel where
  refl := refl
  trans := trans
  read o m := by
    rw [h.bus_eq]
    change Rel m (FuseMacro.readRegister o m).state
    obtain ⟨_, state⟩ := FuseMacro.readRegister_cases o m
    rw [state]
    exact beside m _ _ _ _
  write prev o v m given admitted := by
    rw [h.bus_eq]
    exact writes prev o v m given admitted
  enable m := by
    obtain ⟨_, _, state⟩ := h.enable_state m
    rw [state]
    exact beside m _ _ _ _
  disable m := by
    obtain ⟨_, _, state⟩ := h.disable_state m
    rw [state]
    exact beside m _ _ _ _

end OnMacro

namespace FuseMacro

variable {m m' : FuseMacro} {hw : Hardware FuseMacro}

/-- The shadow registers show no bit that the rows do not hold. -/
def Sound (m : FuseMacro) : Prop := ∀ i : Fin 64, (m.rows.words.get i).Covers (m.shadow.get i)

structure Grows (m m' : FuseMacro) : Prop where
  rows : ∀ i : Fin 128, (m'.rows.get i).Covers (m.rows.get i)
  sound : m.Sound → m'.Sound
  shadow : m.Sound → ∀ i : Fin 64, (m'.shadow.get i).Covers (m.shadow.get i)

theorem sound_ofRows (rows : Rows) : (ofRows rows).Sound := fun i => .refl (rows.words.get i)

theorem Grows.of_eq (rows : m'.rows = m.rows) (shadow : m'.shadow = m.shadow) : Grows m m' where
  rows i := by
    rw [rows]
    exact .refl _
  sound h := by
    unfold Sound
    rw [rows, shadow]
    exact h
  shadow _ i := by
    rw [shadow]
    exact .refl _

theorem Grows.of_reload (rows : m'.rows = m.rows) (shadow : m'.shadow = m.rows.words) : Grows m m' where
  rows i := by
    rw [rows]
    exact .refl _
  sound _ i := by
    rw [rows, shadow]
    exact .refl _
  shadow h i := by
    rw [shadow]
    exact h i

theorem Grows.trans {m'' : FuseMacro} (h : Grows m m') (h' : Grows m' m'') : Grows m m'' where
  rows i := (h'.rows i).trans (h.rows i)
  sound s := h'.sound (h.sound s)
  shadow s i := (h'.shadow (h.sound s) i).trans (h.shadow s i)

theorem grows_pulse (m : FuseMacro) : Grows m m.pulse.1 := by
  rw [pulse_eq]
  have rows : ∀ i, ((m.rows.put (Address.fields m.address).rowIndex
      (m.rows.get (Address.fields m.address).rowIndex ||| if m.powered then
        (Address.fields m.address).mask &&& ~~~m.stuck.get (Address.fields m.address).rowIndex
        else 0)).get i).Covers (m.rows.get i) := by
    intro i
    rw [Rows.get_put]
    split
    · subst i
      exact (Word.covers_or _ _).1
    · exact .refl _
  refine ⟨rows, fun sound i => ?_, fun _ i => .refl _⟩
  refine Word.Covers.trans ?_ (sound i)
  simp only [Rows.words_get]
  exact (rows _).or (rows _)

theorem grows_write (o : Nat) (v : Word) (m : FuseMacro) : Grows m (writeRegister o v m).state := by
  obtain ⟨-, state⟩ | ⟨_, _, state⟩ := writeRegister_cases o v m
  · rw [state]
    obtain ⟨-, command⟩ | ⟨-, command⟩ | ⟨_, _, _, command⟩ := command_cases m v
    · rw [command]
      exact .of_reload rfl rfl
    · rw [command]
      have busy : Grows m { m with busyRemaining := m.busyPolls } := .of_eq rfl rfl
      exact busy.trans (grows_pulse _)
    · rw [command]
      exact .of_eq rfl rfl
  · rw [state]
    exact .of_eq rfl rfl

theorem relates_grows (h : OnMacro hw) : Relates hw (fun _ _ => True) Grows :=
  h.relates (fun _ => .of_eq rfl rfl) (fun _ _ _ => Grows.trans) (fun _ _ _ _ _ => .of_eq rfl rfl)
    fun _ o v m _ _ => grows_write o v m

theorem grows_visits (h : OnMacro hw) {α : Type} (p : Routine α) (m : FuseMacro) :
    ∀ m' ∈ visits hw p m, Grows m m' :=
  (keeps_any p none).related (relates_grows h) (answered_of_ne (by simp)) m

theorem grows_run (h : OnMacro hw) {α : Type} (p : Routine α) (m : FuseMacro) :
    Grows m (run hw p m).state :=
  grows_visits h p m _ (state_mem_visits p m)

end FuseMacro

end FuseBank
