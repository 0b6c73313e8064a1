import FuseBank.Proofs.ClockScope
import FuseBank.Proofs.DisabledProgramming
import FuseBank.Proofs.MacroSettings

/-!
Writes of several clients to one emulated macro, as whole calls in any order. Each write adds what it
asks for to its two rows, so the rows are left with the union of all requests, and a bit that has been
set is not pulsed again. `Wrote m writes m'` holds the account of a stretch of writes; one call extends
it (`Wrote.append`), and permuting the writes does not change it (`interleavings_agree`).
-/

namespace FuseBank
open Routine Operation

namespace AddressedWord

def Reaches (a : AddressedWord) (word : Nat) : Prop :=
  Controller.ValidAddress a.addr ∧ a.addr.toNat / 4 = word

instance (a : AddressedWord) (word : Nat) : Decidable (a.Reaches word) :=
  inferInstanceAs (Decidable (_ ∧ _))

end AddressedWord

def requested (writes : List AddressedWord) (word : Nat) : Word :=
  (writes.filter fun a => a.Reaches word).foldr (fun a w => a.value ||| w) 0

def requests (writes : List AddressedWord) (word bit : Nat) : Nat :=
  writes.countP fun a => a.Reaches word ∧ a.value.getLsbD bit

section Requests

variable {writes more : List AddressedWord} {word bit : Nat}

theorem requests_append :
    requests (writes ++ more) word bit = requests writes word bit + requests more word bit :=
  List.countP_append

theorem getLsbD_requested :
    (requested writes word).getLsbD bit = decide (0 < requests writes word bit) := by
  induction writes with
  | nil => simp [requested, requests]
  | cons a writes ih =>
    by_cases reaches : a.Reaches word
    · have split : requested (a :: writes) word = a.value ||| requested writes word := by
        simp [requested, reaches]
      rw [split, BitVec.getLsbD_or, ih]
      cases asked : a.value.getLsbD bit <;> simp [requests, reaches, asked]
    · have split : requested (a :: writes) word = requested writes word := by
        simp [requested, reaches]
      rw [split, ih]
      simp [requests, reaches]

theorem requested_append :
    requested (writes ++ more) word = requested writes word ||| requested more word := by
  apply BitVec.eq_of_getLsbD_eq
  intro i _
  rw [BitVec.getLsbD_or, getLsbD_requested, getLsbD_requested, getLsbD_requested, requests_append,
    ← Bool.decide_or]
  exact decide_eq_decide.2 Nat.add_pos_iff_pos_or_pos

theorem requested_perm (h : writes.Perm more) : requested writes word = requested more word := by
  apply BitVec.eq_of_getLsbD_eq
  intro i _
  rw [getLsbD_requested, getLsbD_requested, requests, requests, h.countP_eq]

theorem requests_of_invalid (h : ∀ a ∈ writes, ¬ Controller.ValidAddress a.addr) :
    requests writes word bit = 0 := by
  rw [requests, List.countP_eq_zero]
  intro a ha asks
  exact h a ha (of_decide_eq_true asks).1.1

theorem requested_of_invalid (h : ∀ a ∈ writes, ¬ Controller.ValidAddress a.addr) :
    requested writes word = 0 := by
  apply BitVec.eq_of_getLsbD_eq
  intro i _
  rw [getLsbD_requested, requests_of_invalid h]
  simp

end Requests

namespace Address

def IsFuse (address : Word) : Prop :=
  ∃ word row bit, word.toNat < fuseWords ∧ bit < 32 ∧
    address = compose word (BitVec.ofNat 32 bit) row

theorem word_of_compose {word word' bit bit' : Word} {row row' : Row} (h : word.toNat < fuseWords)
    (h' : word'.toNat < fuseWords) (same : compose word bit row = compose word' bit' row') :
    word = word' := by
  have fields := congrArg fields same
  rw [fields_compose, fields_compose, FuseBit.mk.injEq] at fields
  have words := congrArg BitVec.toNat fields.2.1
  rw [BitVec.toNat_setWidth, BitVec.toNat_setWidth] at words
  apply BitVec.eq_of_toNat_eq
  unfold fuseWords at h h'
  omega

end Address

theorem missing_isFuse {word : Word} (h : word.toNat < fuseWords) (value : Word) (row : Row)
    (before : Word) : ∀ a ∈ missing word value row before, Address.IsFuse a := by
  intro a sent
  obtain ⟨bit, set, rfl⟩ := List.mem_map.1 sent
  exact ⟨word, row, bit, h, BitVec.lt_of_getLsbD ((Word.mem_bits _ _).1 set), rfl⟩

theorem count_missing {word word' : Word} (h : word.toNat < fuseWords) (h' : word'.toNat < fuseWords)
    (value before : Word) (row row' : Row) {bit : Nat} (hb : bit < 32) :
    (missing word value row before).count (Address.compose word' (BitVec.ofNat 32 bit) row') =
      if word = word' ∧ row = row' ∧ (value &&& ~~~before).getLsbD bit = true then 1 else 0 := by
  have member : Address.compose word' (BitVec.ofNat 32 bit) row' ∈ missing word value row before ↔
      word = word' ∧ row = row' ∧ (value &&& ~~~before).getLsbD bit = true := by
    constructor
    · intro sent
      obtain ⟨bit', set, same⟩ := List.mem_map.1 sent
      have set := (Word.mem_bits _ _).1 set
      obtain rfl := Address.word_of_compose h h' same
      obtain ⟨rfl, rfl⟩ := Address.compose_inj (BitVec.lt_of_getLsbD set) hb same
      exact ⟨rfl, rfl, set⟩
    · rintro ⟨rfl, rfl, set⟩
      exact List.mem_map.2 ⟨bit, (Word.mem_bits _ _).2 set, rfl⟩
  rw [(missing_nodup word value row before).count]
  simp only [member]

namespace FuseMacro

/-- How many pulses the writes give a bit in all: none if it is set, one for each request if it is
stuck, and one altogether for the first request if it takes the pulse. -/
def owed (m : FuseMacro) (writes : List AddressedWord) (i : Fin 128) (bit : Nat) : Nat :=
  if (m.rows.get i).getLsbD bit then 0
  else if (m.stuck.get i).getLsbD bit then requests writes (i.val / 2) bit
  else if 0 < requests writes (i.val / 2) bit then 1 else 0

/-- What the writes have made of the macro. -/
structure Wrote (m : FuseMacro) (writes : List AddressedWord) (m' : FuseMacro) : Prop where
  rows : ∀ i : Fin 128,
    m'.rows.get i = m.rows.get i ||| (requested writes (i.val / 2) &&& ~~~m.stuck.get i)
  loaded : (∃ a ∈ writes, Controller.ValidAddress a.addr) → m'.shadow = m'.rows.words
  unloaded : (∀ a ∈ writes, ¬ Controller.ValidAddress a.addr) → m'.shadow = m.shadow
  pulses : ∃ sent, m'.pulses = m.pulses ++ sent ∧ (∀ a ∈ sent, Address.IsFuse a) ∧
    ∀ word row bit, word.toNat < fuseWords → bit < 32 →
      sent.count (Address.compose word (BitVec.ofNat 32 bit) row) =
        m.owed writes (Address.rowOf word row) bit

variable {m m' m'' : FuseMacro} {writes more : List AddressedWord}

theorem or_unrequested (turned : ∀ a ∈ writes, ¬ Controller.ValidAddress a.addr) (old stuck : Word)
    (word : Nat) : old ||| (requested writes word &&& ~~~stuck) = old := by
  rw [requested_of_invalid turned]
  exact (congrArg (old ||| ·) BitVec.zero_and).trans BitVec.or_zero

theorem wrote_of_sameFuses (h : SameFuses m m')
    (turned : ∀ a ∈ writes, ¬ Controller.ValidAddress a.addr) : Wrote m writes m' where
  rows i := by
    rw [h.rows, or_unrequested turned]
  loaded := by
    rintro ⟨a, ha, valid⟩
    exact absurd valid (turned a ha)
  unloaded _ := h.shadow
  pulses := by
    refine ⟨[], by rw [h.pulses, List.append_nil], by simp, ?_⟩
    intro word row bit _ _
    simp [owed, requests_of_invalid turned]

theorem owed_append (same : m'.stuck = m.stuck) (h : Wrote m writes m') (i : Fin 128) {bit : Nat}
    (hb : bit < 32) : m.owed (writes ++ more) i bit = m.owed writes i bit + m'.owed more i bit := by
  -- What is owed for later writes is counted in the rows that the earlier ones have left.
  have now : (m'.rows.get i).getLsbD bit = ((m.rows.get i).getLsbD bit ||
      (decide (0 < requests writes (i.val / 2) bit) && !(m.stuck.get i).getLsbD bit)) := by
    rw [h.rows, BitVec.getLsbD_or, BitVec.getLsbD_and, getLsbD_requested, BitVec.getLsbD_not,
      decide_eq_true hb]
    rfl
  unfold owed
  rw [now, same, requests_append]
  cases (m.rows.get i).getLsbD bit with
  | true => simp
  | false =>
    cases (m.stuck.get i).getLsbD bit with
    | true => simp
    | false =>
      -- the first request sets the bit, and with it set the later ones are owed nothing
      by_cases asked : 0 < requests writes (i.val / 2) bit
      · have still : 0 < requests writes (i.val / 2) bit + requests more (i.val / 2) bit := by omega
        simp only [asked, still]
        rfl
      · have none : requests writes (i.val / 2) bit = 0 := by omega
        simp [none]

theorem Wrote.rows_eq (h : Wrote m writes m')
    (turned : ∀ a ∈ writes, ¬ Controller.ValidAddress a.addr) : m'.rows = m.rows := by
  apply Vector.ext
  intro i hi
  exact (h.rows ⟨i, hi⟩).trans (or_unrequested turned _ _ _)

theorem Wrote.append (same : m'.stuck = m.stuck) (h : Wrote m writes m') (h' : Wrote m' more m'') :
    Wrote m (writes ++ more) m'' where
  rows i := by
    rw [h'.rows, h.rows, same, requested_append, BitVec.and_or_distrib_right, BitVec.or_assoc]
  loaded := by
    rintro ⟨a, ha, valid⟩
    by_cases later : ∃ a ∈ more, Controller.ValidAddress a.addr
    · exact h'.loaded later
    · have turned : ∀ a ∈ more, ¬ Controller.ValidAddress a.addr := by simpa using later
      have first : a ∈ writes := by
        obtain first | second := List.mem_append.1 ha
        · exact first
        · exact absurd valid (turned a second)
      rw [h'.unloaded turned, h'.rows_eq turned]
      exact h.loaded ⟨a, first, valid⟩
  unloaded turned := by
    rw [h'.unloaded fun a ha => turned a (List.mem_append_right _ ha)]
    exact h.unloaded fun a ha => turned a (List.mem_append_left _ ha)
  pulses := by
    obtain ⟨sent, log, fuses, counts⟩ := h.pulses
    obtain ⟨sent', log', fuses', counts'⟩ := h'.pulses
    refine ⟨sent ++ sent', by rw [log', log, List.append_assoc], ?_, ?_⟩
    · intro a ha
      obtain first | second := List.mem_append.1 ha
      · exact fuses a first
      · exact fuses' a second
    · intro word row bit hw hb
      rw [List.count_append, counts word row bit hw hb, counts' word row bit hw hb,
        owed_append same h _ hb]

theorem Wrote.perm (h : Wrote m writes m') (p : writes.Perm more) : Wrote m more m' where
  rows i := by
    rw [h.rows, requested_perm p]
  loaded := by
    rintro ⟨a, ha, valid⟩
    exact h.loaded ⟨a, p.mem_iff.2 ha, valid⟩
  unloaded turned := h.unloaded fun a ha => turned a (p.mem_iff.1 ha)
  pulses := by
    obtain ⟨sent, log, fuses, counts⟩ := h.pulses
    refine ⟨sent, log, fuses, fun word row bit hw hb => ?_⟩
    rw [counts word row bit hw hb]
    unfold owed requests
    rw [p.countP_eq]

theorem Wrote.agree (h : Wrote m writes m') (h' : Wrote m writes m'') :
    m''.rows = m'.rows ∧ m''.shadow = m'.shadow ∧ m''.pulses.Perm m'.pulses := by
  have rows : m''.rows = m'.rows := by
    apply Vector.ext
    intro i hi
    exact (h'.rows ⟨i, hi⟩).trans (h.rows ⟨i, hi⟩).symm
  refine ⟨rows, ?_, ?_⟩
  · by_cases some : ∃ a ∈ writes, Controller.ValidAddress a.addr
    · rw [h'.loaded some, h.loaded some, rows]
    · have turned : ∀ a ∈ writes, ¬ Controller.ValidAddress a.addr := by simpa using some
      rw [h'.unloaded turned, h.unloaded turned]
  · obtain ⟨sent, log, fuses, counts⟩ := h.pulses
    obtain ⟨sent', log', fuses', counts'⟩ := h'.pulses
    rw [log, log', List.perm_append_left_iff, List.perm_iff_count]
    intro a
    by_cases fuse : Address.IsFuse a
    · obtain ⟨word, row, bit, hw, hb, rfl⟩ := fuse
      rw [counts word row bit hw hb, counts' word row bit hw hb]
    · rw [List.count_eq_zero.2 fun ha => fuse (fuses a ha),
        List.count_eq_zero.2 fun ha => fuse (fuses' a ha)]

theorem owed_singleton (m : FuseMacro) (a : AddressedWord) (i : Fin 128) {bit : Nat} (hb : bit < 32) :
    m.owed [a] i bit =
      if a.Reaches (i.val / 2) ∧ (a.value &&& ~~~m.rows.get i).getLsbD bit = true then 1 else 0 := by
  unfold owed requests
  rw [BitVec.getLsbD_and, BitVec.getLsbD_not, decide_eq_true hb]
  by_cases reaches : a.Reaches (i.val / 2)
  · cases (m.rows.get i).getLsbD bit <;> cases asked : a.value.getLsbD bit <;> simp [reaches, asked]
  · simp [reaches]

theorem wrote_of_write {a : AddressedWord} (valid : Controller.ValidAddress a.addr)
    (clock : MacroClock) : Wrote m [a] (m.afterWrite (a.addr / 4) a.value clock) := by
  have quotient : (a.addr / 4).toNat = a.addr.toNat / 4 := BitVec.toNat_udiv
  have below : a.addr.toNat / 4 < fuseWords := valid.shadow.2
  have inRange : (a.addr / 4).toNat < fuseWords := by omega
  have named : (a.addr / 4).toNat % 64 = a.addr.toNat / 4 := by
    unfold fuseWords at below
    omega
  refine ⟨?_, fun _ => rfl, ?_, ?_⟩
  · intro i
    have row := m.afterRows_row (a.addr / 4) a.value i
    rw [named] at row
    refine row.trans ?_
    by_cases here : i.val / 2 = a.addr.toNat / 4
    · have asked : requested [a] (i.val / 2) = a.value := by
        simp [requested, AddressedWord.Reaches, valid, here]
      rw [if_pos here, asked]
      rfl
    · have unasked : requested [a] (i.val / 2) = 0 := by
        simp [requested, AddressedWord.Reaches, Ne.symm here]
      rw [if_neg here, unasked]
      exact ((congrArg (m.rows.get i ||| ·) BitVec.zero_and).trans BitVec.or_zero).symm
  · intro turned
    exact absurd valid (turned a (by simp))
  · have log := m.afterRows_pulses (a.addr / 4) a.value
    rw [List.append_assoc] at log
    refine ⟨_, log, ?_, ?_⟩
    · intro p sent
      obtain low | high := List.mem_append.1 sent
      · exact missing_isFuse inRange _ _ _ p low
      · exact missing_isFuse inRange _ _ _ p high
    · intro word row bit hw hb
      have own : a.Reaches ((Address.rowOf word row).val / 2) ↔ a.addr / 4 = word := by
        have small := row.index_lt
        unfold fuseWords at hw
        rw [AddressedWord.Reaches, Address.rowOf_val, ← BitVec.toNat_inj, quotient]
        exact ⟨fun reaches => by omega, fun same => ⟨valid, by omega⟩⟩
      rw [List.count_append, count_missing inRange hw _ _ _ _ hb, count_missing inRange hw _ _ _ _ hb,
        owed_singleton m a _ hb]
      simp only [own]
      by_cases same : a.addr / 4 = word
      · subst same
        cases row <;> simp
      · rw [if_neg fun h => same h.1, if_neg fun h => same h.1, if_neg fun h => same h.1]

end FuseMacro

def ClockLasts (hw : Hardware FuseMacro) (clock : MacroClock) (n : Nat) : Prop :=
  hw = FuseMacro.ungated ∨
  hw = FuseMacro.hardware ∧ clock.failing = false ∧
    clock.enableCount.toNat + n < 2 ^ 32 ∧ clock.disableCount.toNat + n < 2 ^ 32

theorem count_of_chained {es : List Event} (h : Chained ClockRule none es) :
    es.count .enabled ≤ 1 ∧ es.count .disabled ≤ 1 := by
  cases es with
  | nil => exact ⟨Nat.zero_le 1, Nat.zero_le 1⟩
  | cons e es =>
    cases h.1 with
    | refuse e =>
      rw [nil_of_chained rfl h.2]
      exact ⟨Nat.zero_le 1, Nat.zero_le 1⟩
    | enable =>
      obtain ⟨accesses, all, ends⟩ := accesses_of_chained rfl h.2
      have on : accesses.count .enabled = 0 := count_accesses all rfl
      have off : accesses.count .disabled = 0 := count_accesses all rfl
      obtain rfl | rfl := ends
      · simp [on, off]
      · simp [on, off]

section Calls

variable {hw : Hardware FuseMacro} {session : Session} {m : FuseMacro} {n : Nat} {call : Call}

theorem ClockLasts.onMacro {clock : MacroClock} (h : ClockLasts hw clock n) : OnMacro hw := by
  obtain rfl | ⟨rfl, -⟩ := h
  · exact .inl rfl
  · exact .inr rfl

theorem ClockLasts.ready (h : ClockLasts hw m.clock (n + 1)) : ClockReady hw m := by
  obtain rfl | ⟨rfl, working, enables, disables⟩ := h
  · exact .inl rfl
  · exact .inr ⟨rfl, working, MacroClock.count_ne_full enables, MacroClock.count_ne_full disables⟩

theorem ClockLasts.serve (h : ClockLasts hw m.clock (n + 1)) (session : Session) (call : Call) :
    ClockLasts hw (session.serve hw m (.call call)).state.clock n := by
  obtain rfl | ⟨rfl, working, enables, disables⟩ := h
  · exact .inl rfl
  · rw [Session.serve_call]
    have counted := FuseMacro.accounts_run (session.perform call) m
    have settings := FuseMacro.settings_run (.inr rfl) (session.perform call) m
    obtain ⟨on, off⟩ := count_of_chained
      ((session.along_perform call).chained (sends_run FuseMacro.hardware _ m))
    refine .inr ⟨rfl, settings.failing.trans working, ?_, ?_⟩
    · have exact := counted.enables
      dsimp only
      omega
    · have exact := counted.disables
      dsimp only
      omega

end Calls

def AddressedWord.call (a : AddressedWord) : Call := .write a.addr a.value

/-- Whole calls one after another: the writes of all clients, those of each client in their order, and
reads at any place. -/
inductive Interleaves : List (List AddressedWord) → List Call → Prop where
  | done {clients : List (List AddressedWord)} (h : ∀ client ∈ clients, client = []) :
      Interleaves clients []
  | write {before after : List (List AddressedWord)} {client : List AddressedWord} {calls : List Call}
      (a : AddressedWord) (rest : Interleaves (before ++ client :: after) calls) :
      Interleaves (before ++ (a :: client) :: after) (a.call :: calls)
  | read {clients : List (List AddressedWord)} {calls : List Call} {call : Call} (h : call.IsRead)
      (rest : Interleaves clients calls) : Interleaves clients (call :: calls)

namespace Interleaves

variable {clients : List (List AddressedWord)} {calls : List Call}

theorem writes_perm (h : Interleaves clients calls) :
    (calls.filterMap Call.write?).Perm clients.flatten := by
  induction h with
  | done h =>
    rw [List.flatten_eq_nil_iff.2 h]
    exact .nil
  | @write before after client calls a rest ih =>
    have moved : (a :: (before ++ client :: after).flatten).Perm
        (before ++ (a :: client) :: after).flatten := by
      rw [List.flatten_append, List.flatten_append, List.flatten_cons, List.flatten_cons, List.cons_append]
      exact List.perm_middle.symm
    exact (ih.cons a).trans moved
  | @read clients calls call h rest ih =>
    rw [List.filterMap_cons_none h.write?_eq]
    exact ih

theorem read_or_write (h : Interleaves clients calls) :
    ∀ call ∈ calls, call.IsRead ∨ ∃ a : AddressedWord, call = a.call := by
  induction h with
  | done => simp
  | write a rest ih => exact List.forall_mem_cons.2 ⟨.inr ⟨a, rfl⟩, ih⟩
  | read h rest ih => exact List.forall_mem_cons.2 ⟨.inl h, ih⟩

end Interleaves

section Runs

variable {hw : Hardware FuseMacro} {session : Session} {m : FuseMacro}

theorem wrote_of_read (onMacro : OnMacro hw) (session : Session) {call : Call} (h : call.IsRead) :
    FuseMacro.Wrote m [] (session.serve hw m (.call call)).state := by
  rw [Session.serve_call]
  have same := (session.keeps_read_harmless h).related (FuseMacro.relates_sameFuses onMacro) m
  exact FuseMacro.wrote_of_sameFuses same (by simp)

theorem wrote_of_call (ready : ClockReady hw m) (enabled : session.device.programmingEnabled = true)
    (idle : m.hang = false) (short : m.busyPolls.toNat < session.device.controller.pollLimit)
    (a : AddressedWord) : FuseMacro.Wrote m [a] (session.serve hw m (.call a.call)).state := by
  rw [Session.serve_call]
  by_cases valid : Controller.ValidAddress a.addr
  · obtain ⟨clock, -, state⟩ := yields_write ready enabled valid idle short a.value
    obtain ⟨-, kept⟩ := run_bind_done hw (session.device.write a.addr a.value).run
      (fun outcome => ((⟨outcome.map .report, none, none⟩ : Response), session)) m
    have final : (run hw (session.perform a.call) m).state =
        m.afterWrite (a.addr / 4) a.value clock := kept.trans state
    dsimp only
    rw [final]
    exact FuseMacro.wrote_of_write valid clock
  · have out : a.call.OutOfRange := valid
    have refused := perform_unaided session out
    obtain ⟨x, unaided, -⟩ := Option.map_eq_some_iff.1 (refused.trans (Option.map_some ..))
    obtain ⟨-, -, unchanged⟩ := run_of_unaided hw m unaided
    dsimp only
    rw [unchanged]
    exact FuseMacro.wrote_of_sameFuses (.refl m) (by simpa using valid)

theorem wrote_of_calls (session : Session) (m : FuseMacro) {calls : List Call}
    (plain : ∀ call ∈ calls, call.IsRead ∨ ∃ a : AddressedWord, call = a.call)
    (lasts : ClockLasts hw m.clock calls.length)
    (enabled : session.device.programmingEnabled = true) (idle : m.hang = false)
    (short : m.busyPolls.toNat < session.device.controller.pollLimit) :
    FuseMacro.Wrote m (calls.filterMap Call.write?) (session.after hw m (calls.map .call)).2 := by
  induction calls generalizing session m with
  | nil => exact FuseMacro.wrote_of_sameFuses (.refl m) (by simp)
  | cons call calls ih =>
    obtain ⟨first, others⟩ := List.forall_mem_cons.1 plain
    have settings : m.SameSettings (session.serve hw m (.call call)).state :=
      FuseMacro.settings_run lasts.onMacro (session.answer (.call call)) m
    have device : (session.serve hw m (.call call)).session.device = session.device := by
      obtain same | ⟨config, restart, -⟩ := Session.serve_device hw session m (.call call)
      · exact same
      · cases restart
    have rest := ih (session.serve hw m (.call call)).session (session.serve hw m (.call call)).state
      others (lasts.serve session call) (by rw [device]; exact enabled) (settings.hang.trans idle)
      (by rw [device, settings.busyPolls]; exact short)
    obtain read | ⟨a, rfl⟩ := first
    · rw [List.filterMap_cons_none read.write?_eq]
      exact FuseMacro.Wrote.append settings.stuck (wrote_of_read lasts.onMacro session read) rest
    · have now := wrote_of_call lasts.ready enabled idle short a
      exact FuseMacro.Wrote.append settings.stuck now rest

end Runs

/-- The clients' writes leave the same rows and shadow registers in whatever order they come in, with
whatever reads in between, and send the same pulses but for their order: to a bit that was set none, to
a clear bit that is stuck one for each request, and to any other requested bit one in all. -/
theorem interleavings_agree {hw : Hardware FuseMacro} (m : FuseMacro) (session : Session)
    (enabled : session.device.programmingEnabled = true) (idle : m.hang = false)
    (short : m.busyPolls.toNat < session.device.controller.pollLimit)
    {clients : List (List AddressedWord)} {calls calls' : List Call}
    (h : Interleaves clients calls) (h' : Interleaves clients calls')
    (lasts : ClockLasts hw m.clock calls.length) (lasts' : ClockLasts hw m.clock calls'.length) :
    let final := (session.after hw m (calls.map .call)).2
    let final' := (session.after hw m (calls'.map .call)).2
    m.Wrote clients.flatten final ∧
      final'.rows = final.rows ∧ final'.shadow = final.shadow ∧ final'.pulses.Perm final.pulses := by
  intro final final'
  have wrote : m.Wrote clients.flatten final :=
    (wrote_of_calls session m h.read_or_write lasts enabled idle short).perm h.writes_perm
  have wrote' : m.Wrote clients.flatten final' :=
    (wrote_of_calls session m h'.read_or_write lasts' enabled idle short).perm h'.writes_perm
  exact ⟨wrote, wrote.agree wrote'⟩

theorem interleavings_agree_worn :
    let clients : List (List AddressedWord) := [[⟨12, 1⟩, ⟨13, 8⟩, ⟨12, 4⟩], [⟨12, 5⟩]]
    let calls : List Call := [.write 12 1, .readShadow 12, .write 12 5, .write 13 8, .write 12 4]
    let calls' : List Call := [.write 12 5, .write 12 1, .write 13 8, .write 12 4, .readPhysical 6 1]
    let session : Session := ⟨⟨.ofLimit 3, true⟩, []⟩
    let final := (session.after FuseMacro.hardware FuseMacro.worn (calls.map .call)).2
    let final' := (session.after FuseMacro.hardware FuseMacro.worn (calls'.map .call)).2
    Interleaves clients calls ∧ Interleaves clients calls' ∧
    final.rows.get 6 = 4 ∧ final.rows.get 7 = 5 ∧ final'.pulses.Perm final.pulses := by
  -- Two clients at word 3, of whose low row bit 0 is stuck; one of the writes is misaligned.
  intro clients calls calls' session final final'
  have done : Interleaves [[], []] [] := .done (by simp)
  have h : Interleaves clients calls :=
    @Interleaves.write [] [[⟨12, 5⟩]] [⟨13, 8⟩, ⟨12, 4⟩] _ ⟨12, 1⟩ <| .read trivial <|
    @Interleaves.write [[⟨13, 8⟩, ⟨12, 4⟩]] [] [] _ ⟨12, 5⟩ <|
    @Interleaves.write [] [[]] [⟨12, 4⟩] _ ⟨13, 8⟩ <| @Interleaves.write [] [[]] [] _ ⟨12, 4⟩ done
  have h' : Interleaves clients calls' :=
    @Interleaves.write [[⟨12, 1⟩, ⟨13, 8⟩, ⟨12, 4⟩]] [] [] _ ⟨12, 5⟩ <|
    @Interleaves.write [] [[]] [⟨13, 8⟩, ⟨12, 4⟩] _ ⟨12, 1⟩ <|
    @Interleaves.write [] [[]] [⟨12, 4⟩] _ ⟨13, 8⟩ <| @Interleaves.write [] [[]] [] _ ⟨12, 4⟩ <|
    .read trivial done
  have lasts : ClockLasts FuseMacro.hardware FuseMacro.worn.clock 5 :=
    .inr ⟨rfl, rfl, by decide, by decide⟩
  obtain ⟨wrote, -, -, pulses⟩ := interleavings_agree FuseMacro.worn session rfl rfl (by decide)
    h h' lasts lasts
  refine ⟨h, h', (wrote.rows 6).trans ?_, (wrote.rows 7).trans ?_, pulses⟩
  · decide +kernel
  · decide +kernel

end FuseBank
